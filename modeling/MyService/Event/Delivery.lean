import MyService.Handlers.Calls

/-!
# Events and answers

Each of the six writing handlers sends one record, last before it answers; the
answer is a success exactly when it got that far (`answersAfterSend_of_returns`). `Publish`
swallows the exception of `Send`, so the answer does not depend on the record
being in its topic: `allDelivered_iff_failed_sends_running` says which runs keep
the catalog's promise.
-/

namespace MyService.Event.Delivery

open Framework Userver Handlers Calls Storage EventProducer

/-! ## The records a handler sends -/

def sentRecord : Call → Option KafkaRecord
  | .send topic key message => some ⟨topic, key, message⟩
  | _ => none

/-- The records of the `Send` calls, whether they failed or not. -/
def sends (h : Prog.History Call Call.Answer) : List KafkaRecord :=
  h.filterMap fun o => sentRecord o.1

theorem sends_append (h h' : Prog.History Call Call.Answer) :
    sends (h ++ h') = sends h ++ sends h' := by
  simp [sends]

theorem sends_quiet {q : Prog.History Call Call.Answer} (hq : Quiet q) : sends q = [] := by
  refine List.filterMap_eq_nil_iff.mpr ?_
  intro o ho
  rcases hq o ho with h | h
  · rw [h]
    rfl
  · rw [h]
    rfl

/-! ## The catalog -/

/-- The answer reports success: 201, or 200 to a login. -/
def Succeeded : Request → HttpResponse → Prop
  | .login _, response => response.status = 200
  | .userSearch _, _ | .getProjects _, _ | .getComments _, _ => False
  | _, response => response.status = 201

/-- The record is in this topic under this key, with this event. -/
def Carries (r : KafkaRecord) (topic key eventType : String) (payload : Json) : Prop :=
  r.topic = topic ∧ r.key = key ∧ IsMessage eventType payload r.message

/-- The record is the catalog's event of a request that got this answer: its topic,
its key, and as payload what the client sent or was answered. -/
def Announces (u : Userver) (response : HttpResponse) (r : KafkaRecord) : Request → Prop
  | .register _ => ∃ event : UserRegisteredEvent,
      response.body = u.toString (.object
        [("id", .int event.userId), ("login", .string event.login),
         ("first_name", .string event.firstName), ("last_name", .string event.lastName),
         ("email", .string event.email)]) ∧
      Carries r "user-events" (toString event.userId) "UserRegistered" event.toPayload
  | .login request => ∃ (event : UserLoggedInEvent) (issuedAt expiresAt : Int),
      event.ipAddress = request.remoteAddress ∧
      response.body = u.toString (.object [("token", .string
        (u.signHs256 "project-manager" (toString event.userId) issuedAt expiresAt
          Auth.jwtSecret))]) ∧
      Carries r "user-events" (toString event.userId) "UserLoggedIn" event.toPayload
  | .createProject _ _ => ∃ (event : ProjectCreatedEvent) (description : String),
      response.body = u.toString (.object
        [("id", .int event.projectId), ("name", .string event.name),
         ("description", .string description), ("key", .string event.key),
         ("owner_id", .int event.ownerId)]) ∧
      Carries r "project-events" (toString event.projectId) "ProjectCreated" event.toPayload
  | .createTask _ _ => ∃ event : TaskCreatedEvent,
      response.body = u.toString (.object
        [("id", .int event.taskId), ("title", .string event.title),
         ("description", .string event.description), ("status", .string event.status),
         ("project_id", .int event.projectId), ("creator_id", .int event.creatorId),
         ("priority", .int event.priority)]) ∧
      Carries r "task-events" (toString event.taskId) "TaskCreated" event.toPayload
  | .addComment request _ => ∃ event : CommentAddedEvent,
      stoi (request.getPathArg "taskId") = .ok event.taskId ∧
      BodyHas u request event.author event.text ∧
      Carries r "comment-events" event.commentId "CommentAdded" event.toPayload
  | .addReply request => ∃ event : CommentAddedEvent,
      event.commentId = request.getPathArg "commentId" ∧
      BodyHas u request event.author event.text ∧
      Carries r "comment-events" event.commentId "CommentAdded" event.toPayload
  | .userSearch _ | .getProjects _ | .getComments _ => False

/-! ## One send, then a success -/

/-- A request answers with a success exactly after one send, of its own event. -/
def AnswersAfterSend (u : Userver) (request : Request)
    (h : Prog.History Call Call.Answer) (response : HttpResponse) : Prop :=
  (sends h = [] ∧ ¬Succeeded request response) ∨
    ∃ r, sends h = [r] ∧ Succeeded request response ∧ Announces u response r request

/-- The contract of a handler that has seen `h`: it sends at most once, answers as
above, and lets no exception out after its send. -/
def SendsOnce (u : Userver) (request : Request) :
    Prog.History Call Call.Answer → Service HttpResponse → Prop :=
  Prog.Obeys (fun h c => ∀ topic key message, c = .send topic key message → sends h = [])
    (AnswersAfterSend u request) fun h _ => sends h = []

section SendsOnce

variable {u : Userver} {request : Request} {h : Prog.History Call Call.Answer}

theorem sends_unsent (hunsent : Unsent h) : sends h = [] := by
  refine List.filterMap_eq_nil_iff.mpr ?_
  rintro ⟨c, answer⟩ ho
  cases c with
  | send topic key message => exact absurd rfl (hunsent _ ho topic key message)
  | _ => rfl

/-- What is sent is the event of the request's outcome. -/
theorem sends_sent {outcome : Outcome} (hsent : Sent u request outcome h) :
    ∃ r, sends h = [r] ∧ Carries r outcome.event.topic outcome.event.key outcome.event.eventType
      outcome.event.toPayload := by
  cases hsent with
  | intro answer hcompletes hquiet hlength hmessage =>
      refine ⟨⟨_, _, _⟩, ?_, rfl, rfl, hmessage⟩
      rw [sends_append, sends_append, sends_unsent hcompletes.unsent, sends_quiet hquiet]
      rfl

/-- A request sends nothing after its event. -/
theorem sends_of_makes {c : Call} (hmakes : Makes u request h c) {topic key : String}
    {message : Json} (hc : c = .send topic key message) : sends h = [] := by
  cases hmakes with
  | eventSend hcompletes hquiet =>
      rw [sends_append, sends_unsent hcompletes.unsent, sends_quiet hquiet]
      rfl
  | _ => exact absurd hc (by simp)

theorem sends_of_throws (hthrows : Throws u request h) : sends h = [] := by
  cases request with
  | login http => cases hthrows <;> rfl
  | _ => exact sends_unsent hthrows

theorem answersAfterSend_of_returns {response : HttpResponse}
    (hreturns : Returns u request h response) : AnswersAfterSend u request h response := by
  cases hreturns with
  | registered hsent =>
      obtain ⟨r, hsends, hcarries⟩ := sends_sent hsent
      exact Or.inr ⟨r, hsends, rfl, _, rfl, hcarries⟩
  | loggedIn info hsent =>
      obtain ⟨r, hsends, hcarries⟩ := sends_sent hsent
      obtain ⟨_, _, hcompletes⟩ := hsent.completes
      cases hcompletes
      refine Or.inr ⟨r, ?_, rfl, _, _, _, rfl, rfl, hcarries⟩
      rw [sends_append, hsends]
      rfl
  | projectCreated hsent =>
      obtain ⟨r, hsends, hcarries⟩ := sends_sent hsent
      exact Or.inr ⟨r, hsends, rfl, _, _, rfl, hcarries⟩
  | taskCreated hsent =>
      obtain ⟨r, hsends, hcarries⟩ := sends_sent hsent
      exact Or.inr ⟨r, hsends, rfl, _, rfl, hcarries⟩
  | commentAdded hsent =>
      obtain ⟨r, hsends, hcarries⟩ := sends_sent hsent
      obtain ⟨_, _, hcompletes⟩ := hsent.completes
      cases hcompletes with
      | addComment draws now htask hbody =>
          refine Or.inr ⟨r, ?_, rfl, _, htask, hbody, hcarries⟩
          rw [sends_append, hsends]
          rfl
  | replyAdded hsent | replyStray hsent =>
      obtain ⟨r, hsends, hcarries⟩ := sends_sent hsent
      obtain ⟨_, _, hcompletes⟩ := hsent.completes
      cases hcompletes with
      | addReply createdAt now found n hoid hbody =>
          refine Or.inr ⟨r, ?_, rfl, _, rfl, hbody, hcarries⟩
          rw [sends_append, hsends]
          rfl
  | _ => exact Or.inl ⟨rfl, by simp [Succeeded, tooManyRequests]⟩

end SendsOnce

theorem sendsOnce_serve (u : Userver) (request : Request) :
    SendsOnce u request [] (serve u request) :=
  (conducts_serve u request).mono (fun _ _ hmakes _ _ _ hc => sends_of_makes hmakes hc)
    (fun _ _ hreturns => answersAfterSend_of_returns hreturns) fun _ _ => sends_of_throws

/-! ## Runs -/

/-- The event is a `Send` of this record. -/
def IsSendOf (e : ServiceEvent) (r : KafkaRecord) : Prop :=
  e.call = .send r.topic r.key r.message

/-- `Send` threw. -/
def SendFailed (e : ServiceEvent) : Prop :=
  ∃ r, IsSendOf e r ∧ e.choice.fault.isSome

/-- The record the thread sent, and the topic has. -/
def Delivered (cfg : ServiceConfig) (tid : ℕ) (r : KafkaRecord) : Prop :=
  r ∈ cfg.world.topics ∧ ∃ e ∈ cfg.trace, e.tid = tid ∧ IsSendOf e r ∧ e.choice.fault = none

/-- No event is lost by the producer: a request answered with a success has its
event in the topic, and none whose `Send` failed is answered with a success. -/
def AllDelivered (u : Userver) (requests : ℕ → Request) (cfg : ServiceConfig) : Prop :=
  ∀ tid response, Answered cfg tid response → Succeeded (requests tid) response →
    (∃ r, Delivered cfg tid r ∧ Announces u response r (requests tid)) ∧
    ∀ e ∈ cfg.trace, e.tid = tid → ¬SendFailed e

/-- The request has neither been answered nor thrown. -/
def Running (cfg : ServiceConfig) (tid : ℕ) : Prop := ∃ c k, cfg.pool tid = .call c k

section Runs

variable {u : Userver} {w : World} {requests : ℕ → Request} {sched : List (ℕ × Choice)}

theorem sentRecord_eq_some {c : Call} {r : KafkaRecord} :
    sentRecord c = some r ↔ c = .send r.topic r.key r.message := by
  cases c with
  | send topic key message =>
      cases r
      simp [sentRecord]
  | _ => simp [sentRecord]

theorem mem_sends_own {tr : List ServiceEvent} {tid : ℕ} {r : KafkaRecord} :
    r ∈ sends (own perform tid tr) ↔ ∃ e ∈ tr, e.tid = tid ∧ IsSendOf e r := by
  simp only [sends, List.mem_filterMap, own, List.mem_map, List.mem_filter,
    decide_eq_true_eq, IsSendOf]
  constructor
  · rintro ⟨o, ⟨e, ⟨he, htid⟩, rfl⟩, hr⟩
    exact ⟨e, he, htid, sentRecord_eq_some.mp hr⟩
  · rintro ⟨e, he, htid, hr⟩
    exact ⟨e.seen perform, ⟨e, ⟨he, htid⟩, rfl⟩, sentRecord_eq_some.mpr hr⟩

/-- What a request has sent so far decides how it can be answered. -/
theorem run_sendsOnce (tid : ℕ) :
    SendsOnce u (requests tid) (own perform tid (runService u w requests sched).trace)
      ((runService u w requests sched).pool tid) :=
  (Config.run_obeys perform (fun tid => sendsOnce_serve u (requests tid)) sched).pool tid

/-- A record that `Send` accepted is in its topic from then on. -/
theorem mem_topics_of_sent {e : ServiceEvent} {r : KafkaRecord}
    (he : e ∈ (runService u w requests sched).trace) (hsend : IsSendOf e r)
    (hok : e.choice.fault = none) : r ∈ (runService u w requests sched).world.topics := by
  obtain ⟨i, hi⟩ := List.mem_iff_getElem?.mp he
  rw [runService_world]
  refine @Config.stable_end _ _ _ _ perform _ _ runService_chained (fun w => r ∈ w.topics)
    (fun e' _ h => mem_topics_perform e'.call e'.choice h) i e hi ?_
  rw [Event.after, hsend]
  rcases send_cases e.choice e.before r.topic r.key r.message with ⟨x, hx, _⟩ | ⟨_, heq⟩
  · rw [hok] at hx
    exact absurd hx (by simp)
  · rw [heq]
    exact List.mem_append_right _ (List.mem_singleton.mpr rfl)

/-- **When no event is lost.** A run keeps the catalog's promise in the state it
reached exactly when every request whose `Send` failed is still running. -/
theorem allDelivered_iff_failed_sends_running :
    AllDelivered u requests (runService u w requests sched) ↔
      ∀ e ∈ (runService u w requests sched).trace, SendFailed e →
        Running (runService u w requests sched) e.tid := by
  set cfg := runService u w requests sched with hcfg
  constructor
  · rintro hlaw e he ⟨r, hsend, hfault⟩
    have hsent : r ∈ sends (own perform e.tid cfg.trace) :=
      mem_sends_own.mpr ⟨e, he, rfl, hsend⟩
    have hobeys : SendsOnce u (requests e.tid) (own perform e.tid cfg.trace)
        (cfg.pool e.tid) := run_sendsOnce e.tid
    -- a thread that is done has answered without sending, or answered a success
    cases hpool : cfg.pool e.tid with
    | call c k => exact ⟨c, k, hpool⟩
    | throw x =>
        rw [hpool] at hobeys
        rw [show sends _ = [] from hobeys] at hsent
        exact absurd hsent (by simp)
    | pure response =>
        rw [hpool] at hobeys
        rcases hobeys with ⟨hnone, _⟩ | ⟨r', _, hok, _⟩
        · rw [hnone] at hsent
          exact absurd hsent (by simp)
        · exact absurd ⟨r, hsend, hfault⟩ ((hlaw e.tid response hpool hok).2 e he rfl)
  · intro hrun tid response hanswer hok
    have hfine : ∀ e ∈ cfg.trace, e.tid = tid → ¬SendFailed e := by
      rintro e he rfl hfailed
      obtain ⟨c, k, hpool⟩ := hrun e he hfailed
      rw [Answered, hpool] at hanswer
      exact absurd hanswer (by simp)
    have hobeys : SendsOnce u (requests tid) (own perform tid cfg.trace) (cfg.pool tid) :=
      run_sendsOnce tid
    rw [show cfg.pool tid = .pure response from hanswer] at hobeys
    rcases hobeys with ⟨_, hnot⟩ | ⟨r, hsends, _, hann⟩
    · exact absurd hok hnot
    · -- the thread has returned, so its one `Send` did not fail
      obtain ⟨e, he, htid, hsend⟩ := mem_sends_own.mp (hsends ▸ List.mem_singleton.mpr rfl :
        r ∈ sends (own perform tid cfg.trace))
      have hnofault : e.choice.fault = none := by
        by_contra hfault
        exact hfine e he htid ⟨r, hsend, Option.isSome_iff_ne_none.mpr hfault⟩
      exact ⟨⟨r, ⟨mem_topics_of_sent he hsend hnofault, e, he, htid, hsend, hnofault⟩, hann⟩,
        hfine⟩

end Runs

/-- One comment, its `Send` failing, run until it is answered. -/
def refused : ServiceConfig :=
  runService Sample.userver Sample.empty
    (fun _ => .addComment (Sample.http Sample.body "taskId" "7") 1)
    [(0, {}), (0, {}), (0, {}), (0, {}), (0, {}),
     (0, { fault := some (.unavailable "kafka") }), (0, {})]

/-- It is answered 201 and its event is in no topic. -/
theorem allDelivered_fails_on_send :
    ¬AllDelivered Sample.userver (fun _ => .addComment (Sample.http Sample.body "taskId" "7") 1)
      refused := by
  intro h
  have hanswer : Answered refused 0 { status := 201, body := statusOk } := rfl
  have htopics : refused.world.topics = [] := rfl
  obtain ⟨⟨r, ⟨hr, _⟩, _⟩, _⟩ := h 0 _ hanswer rfl
  rw [htopics] at hr
  exact absurd hr (by simp)

end MyService.Event.Delivery
