import MyService.Event.Delivery

/-!
# Events, answers and rows

A created user, project or task is copied from the request to a row, from the row that
the INSERT returned to an event and to the answer. `events_agree` links the three over
whole runs with arbitrary failures: every creation event is of one row, no row has two,
and an answer 201 shows the row that the request stored.
-/

namespace MyService.Event.Agreement

open Framework Userver Userver.Postgres Models Handlers Calls Storage Storage.PostgresStorage
  EventProducer Delivery

/-! ## Rows, records and events -/

/-- A row of one of the three tables. -/
inductive Stored where
  | user (r : UserRow)
  | project (r : ProjectRow)
  | task (r : TaskRow)

/-- What a row is decoded to. -/
inductive Entity where
  | user (m : User)
  | project (m : Project)
  | task (m : Task)

/-- The entity is the row, member by member. -/
def Holds : Entity → Stored → Prop
  | .user m, .user r => UserHolds m r
  | .project m, .project r => ProjectHolds m r
  | .task m, .task r => TaskHolds m r
  | _, _ => False

/-- The record is the creation event of the entity: its topic, its key and its fields. -/
def AnnouncedBy (r : KafkaRecord) : Entity → Prop
  | .user m => Carries r "user-events" (toString m.id) "UserRegistered"
      (UserRegisteredEvent.toPayload ⟨m.id, m.login, m.email, m.firstName, m.lastName⟩)
  | .project m => Carries r "project-events" (toString m.id) "ProjectCreated"
      (ProjectCreatedEvent.toPayload ⟨m.id, m.name, m.key, m.ownerId⟩)
  | .task m => Carries r "task-events" (toString m.id) "TaskCreated"
      (TaskCreatedEvent.toPayload ⟨m.id, m.projectId, m.title, m.description, m.priority,
        m.creatorId, taskStatusToString m.status⟩)

/-- The answer shows the entity. -/
def ShownBy (u : Userver) (response : HttpResponse) : Entity → Prop
  | .user m => response.body = u.toString (.object
      [("id", .int m.id), ("login", .string m.login), ("first_name", .string m.firstName),
       ("last_name", .string m.lastName), ("email", .string m.email)])
  | .project m => response.body = u.toString (.object
      [("id", .int m.id), ("name", .string m.name), ("description", .string m.description),
       ("key", .string m.key), ("owner_id", .int m.ownerId)])
  | .task m => response.body = u.toString (.object
      [("id", .int m.id), ("title", .string m.title), ("description", .string m.description),
       ("status", .string (taskStatusToString m.status)), ("project_id", .int m.projectId),
       ("creator_id", .int m.creatorId), ("priority", .int m.priority)])

/-- The event's fields are the row's. -/
def EventOf (s : Stored) (r : KafkaRecord) : Prop := ∃ m, Holds m s ∧ AnnouncedBy r m

/-- The answer's fields are the row's. -/
def AnswerOf (u : Userver) (s : Stored) (response : HttpResponse) : Prop :=
  ∃ m, Holds m s ∧ ShownBy u response m

/-- A message of one of the three creation types. -/
def IsCreation (message : Json) : Prop :=
  ∃ eventType ∈ ["UserRegistered", "ProjectCreated", "TaskCreated"], ∃ payload,
    IsMessage eventType payload message

/-- A request that creates a user, a project or a task. -/
def Creates : Request → Prop
  | .register _ | .createProject _ _ | .createTask _ _ => True
  | _ => False

/-! ## The contract of a request -/

/-- The call was the INSERT of this entity, which came back. -/
def Returned (o : Σ c, Call.Answer c) : Entity → Prop
  | .user m => ∃ login passwordHash firstName lastName email createdAt returning rows,
      returning <+: ["id", "login", "password_hash", "first_name", "last_name", "email",
        "created_at", "is_deleted"] ∧
      o = ⟨.execute (.insertUser login passwordHash firstName lastName email createdAt
        returning), .ok rows⟩ ∧ asSingleRow decodeUser rows = .ok m
  | .project m => ∃ name description key ownerId createdAt rows,
      o = ⟨.execute (.insertProject name description key ownerId createdAt
        ["id", "name", "description", "key", "owner_id", "created_at"]), .ok rows⟩ ∧
      asSingleRow decodeProject rows = .ok m
  | .task m => ∃ title description status projectId creatorId assigneeId priority createdAt
      updatedAt row rows,
      o = ⟨.execute (.insertTask title description status projectId creatorId assigneeId
        priority createdAt updatedAt
        ["id", "title", "description", "status", "project_id", "creator_id", "assignee_id",
         "priority", "created_at", "updated_at"]), .ok (row :: rows)⟩ ∧
      decodeTask row = .ok m

/-- A creation event, and whatever a creating request sends, is sent once and is of an
entity whose INSERT came back. -/
def SendsReturned (request : Request) (h : Prog.History Call Call.Answer) (c : Call) : Prop :=
  ∀ r, sentRecord c = some r → IsCreation r.message ∨ Creates request →
    sends h = [] ∧ ∃ o ∈ h, ∃ m, Returned o m ∧ AnnouncedBy r m

/-- An answer 201 shows the entity whose INSERT came back, and so do the events. -/
def AnswersReturned (u : Userver) (request : Request) (h : Prog.History Call Call.Answer)
    (response : HttpResponse) : Prop :=
  Creates request → response.status = 201 →
    ∃ o ∈ h, ∃ m, Returned o m ∧ ShownBy u response m ∧ ∀ r ∈ sends h, AnnouncedBy r m

def Agrees (u : Userver) (request : Request) :
    Prog.History Call Call.Answer → Service HttpResponse → Prop :=
  Prog.Obeys (SendsReturned request) (AnswersReturned u request) fun _ _ => True

section Contract

variable {u : Userver} {request : Request} {h : Prog.History Call Call.Answer}

theorem isMessage_eventType {eventType eventType' : String} {payload payload' message : Json}
    (hm : IsMessage eventType payload message) (hm' : IsMessage eventType' payload' message) :
    eventType = eventType' ∧ payload = payload' := by
  obtain ⟨_, _, _, rfl⟩ := hm
  obtain ⟨_, _, _, hmessage⟩ := hm'
  simp only [messageOf, Json.object.injEq, List.cons.injEq, Prod.mk.injEq, Json.string.injEq]
    at hmessage
  exact ⟨hmessage.2.1.2, hmessage.2.2.2.2.1.2⟩

theorem not_isCreation {eventType : String} {payload message : Json}
    (hm : IsMessage eventType payload message)
    (hne : eventType ∉ ["UserRegistered", "ProjectCreated", "TaskCreated"]) :
    ¬IsCreation message := by
  rintro ⟨eventType', hmem, payload', hm'⟩
  exact hne ((isMessage_eventType hm hm').1 ▸ hmem)

/-- A call that sends nothing. -/
theorem sendsReturned_of_none {c : Call} (hc : sentRecord c = none) :
    SendsReturned request h c := by
  intro r hr
  rw [hc] at hr
  exact absurd hr (by simp)

/-- What a creation reports. -/
def entity? : Outcome → Option Entity
  | .registered user => some (.user user)
  | .projectCreated project => some (.project project)
  | .taskCreated task => some (.task task)
  | _ => none

variable {outcome : Outcome} {m : Entity}

/-- The INSERT of what is reported came back. -/
theorem returned_of_completes (hcompletes : Completes u request h outcome)
    (hm : entity? outcome = some m) : ∃ o ∈ h, Returned o m := by
  cases hcompletes with
  | @register _ login password firstName lastName email now rows user hsupplies hdecode =>
      obtain rfl := Option.some.inj hm
      refine ⟨_, ?_, login, u.sha256 password, firstName, lastName, email, now,
        ["id", "login", "password_hash", "first_name", "last_name", "email", "created_at"], rows,
        ⟨["is_deleted"], rfl⟩, rfl, hdecode⟩
      simp
  | @createProject _ userId name description key now rows project hdecode =>
      obtain rfl := Option.some.inj hm
      refine ⟨_, ?_, name, description, key, userId, now, rows, rfl, hdecode⟩
      simp
  | @createTask _ userId projectId found title description status priority createdAt now row rest
      task hproject hdecode =>
      obtain rfl := Option.some.inj hm
      refine ⟨_, ?_, title, description, taskStatusToString (taskStatusFromString status),
        projectId, userId, none, priority, now, now, row, rest, rfl, hdecode⟩
      simp
  | _ => exact absurd hm (by simp [entity?])

theorem announcedBy_of_entity {r : KafkaRecord} (hm : entity? outcome = some m)
    (hcarries : Carries r outcome.event.topic outcome.event.key outcome.event.eventType
      outcome.event.toPayload) : AnnouncedBy r m := by
  cases outcome with
  | registered user => exact Option.some.inj hm ▸ hcarries
  | projectCreated project => exact Option.some.inj hm ▸ hcarries
  | taskCreated task => exact Option.some.inj hm ▸ hcarries
  | _ => exact absurd hm (by simp [entity?])

/-- A creation event, and any event of a creating request, reports a creation. -/
theorem exists_entity {payload message : Json} (hcompletes : Completes u request h outcome)
    (hmessage : IsMessage outcome.event.eventType payload message)
    (hcreation : IsCreation message ∨ Creates request) : ∃ m, entity? outcome = some m := by
  cases hcompletes with
  | register | createProject | createTask => exact ⟨_, rfl⟩
  | login | addComment | addReply =>
      rcases hcreation with hmessage' | hcreates
      · exact absurd hmessage' (not_isCreation hmessage (by simp [Outcome.event,
          AnyEvent.eventType]))
      · exact hcreates.elim

theorem sendsReturned_of_makes {c : Call} (hmakes : Makes u request h c) :
    SendsReturned request h c := by
  cases hmakes with
  | @eventSend _ outcome h q message hcompletes hquiet hlength hmessage =>
      rintro r ⟨⟩ hcreation
      obtain ⟨m, hm⟩ := exists_entity hcompletes hmessage hcreation
      obtain ⟨o, ho, hreturned⟩ := returned_of_completes hcompletes hm
      refine ⟨?_, o, List.mem_append_left _ ho, m, hreturned,
        announcedBy_of_entity hm ⟨rfl, rfl, hmessage⟩⟩
      rw [sends_append, sends_unsent hcompletes.unsent, sends_quiet hquiet]
      rfl
  | _ => exact sendsReturned_of_none rfl

/-- The answer shows what came back, and so does the event. -/
theorem shown_of_sent {response : HttpResponse} (hsent : Sent u request outcome h)
    (hm : entity? outcome = some m) (hshown : ShownBy u response m) :
    ∃ o ∈ h, ∃ m, Returned o m ∧ ShownBy u response m ∧ ∀ r ∈ sends h, AnnouncedBy r m := by
  obtain ⟨h₀, hbefore, hcompletes⟩ := hsent.completes
  obtain ⟨o, ho, hreturned⟩ := returned_of_completes hcompletes hm
  obtain ⟨r, hsends, hcarries⟩ := sends_sent hsent
  refine ⟨o, hbefore.subset ho, m, hreturned, hshown, ?_⟩
  rw [hsends]
  intro r' hr'
  rw [List.mem_singleton.mp hr']
  exact announcedBy_of_entity hm hcarries

theorem answersReturned_of_returns {response : HttpResponse}
    (hreturns : Returns u request h response) : AnswersReturned u request h response := by
  intro hcreates hstatus
  cases hreturns with
  | registered hsent | projectCreated hsent | taskCreated hsent =>
      exact shown_of_sent hsent rfl rfl
  | registerMissing | registerTaken | projectMissing | taskNoProject | taskMissing =>
      exact absurd hstatus (by simp)
  | _ => exact hcreates.elim

end Contract

theorem agrees_serve (u : Userver) (request : Request) :
    Agrees u request [] (serve u request) :=
  (conducts_serve u request).mono (fun _ _ hmakes => sendsReturned_of_makes hmakes)
    (fun _ _ hreturns => answersReturned_of_returns hreturns) fun _ _ _ => trivial

/-! ## Rows in the tables -/

namespace Stored

def In (db : Database) : Stored → Prop
  | .user r => r ∈ db.users.rows
  | .project r => r ∈ db.projects.rows
  | .task r => r ∈ db.tasks.rows

/-- The table and the primary key. -/
def key : Stored → ℕ × Int
  | .user r => (0, r.id)
  | .project r => (1, r.id)
  | .task r => (2, r.id)

/-- The second database has this new row in addition. -/
def AddedBy (db db' : Database) : Stored → Prop
  | .user r => db'.users.rows = db.users.rows ++ [r] ∧ r.id ∉ db.users.rows.map UserRow.id
  | .project r =>
      db'.projects.rows = db.projects.rows ++ [r] ∧ r.id ∉ db.projects.rows.map ProjectRow.id
  | .task r => db'.tasks.rows = db.tasks.rows ++ [r] ∧ r.id ∉ db.tasks.rows.map TaskRow.id

variable {db db' : Database} {s s' : Stored}

theorem AddedBy.mem (h : s.AddedBy db db') : s.In db' := by
  cases s with
  | user r =>
      show r ∈ db'.users.rows
      rw [h.1]
      exact List.mem_append_right _ (List.mem_singleton_self r)
  | project r =>
      show r ∈ db'.projects.rows
      rw [h.1]
      exact List.mem_append_right _ (List.mem_singleton_self r)
  | task r =>
      show r ∈ db'.tasks.rows
      rw [h.1]
      exact List.mem_append_right _ (List.mem_singleton_self r)

/-- Its key is new. -/
theorem AddedBy.fresh (h : s.AddedBy db db') (hs' : s'.In db) : s'.key ≠ s.key := by
  intro hkey
  cases s <;> cases s' <;> simp [key] at hkey
  · exact h.2 (hkey ▸ List.mem_map_of_mem hs')
  · exact h.2 (hkey ▸ List.mem_map_of_mem hs')
  · exact h.2 (hkey ▸ List.mem_map_of_mem hs')

/-- A key belongs to one row. -/
theorem eq_of_key (hs : s.In db) (hs' : s'.In db) (hkey : s.key = s'.key) : s = s' := by
  cases s <;> cases s' <;> simp [key] at hkey
  · rw [List.inj_on_of_nodup_map db.users.ids_nodup hs hs' hkey]
  · rw [List.inj_on_of_nodup_map db.projects.ids_nodup hs hs' hkey]
  · rw [List.inj_on_of_nodup_map db.tasks.ids_nodup hs hs' hkey]

/-- A row stays. -/
theorem In.perform {w : World} (hs : s.In w.db) (c : Call) (ch : Choice) :
    s.In (perform c ch w).1.db := by
  obtain ⟨husers, hprojects, htasks⟩ := mem_rows_perform c ch w
  cases s with
  | user r => exact husers r hs
  | project r => exact hprojects r hs
  | task r => exact htasks r hs

end Stored

def Stored.eventType : Stored → String
  | .user _ => "UserRegistered"
  | .project _ => "ProjectCreated"
  | .task _ => "TaskCreated"

/-- The first field of an event is the id of its row. -/
theorem eventOf_message {s : Stored} {r : KafkaRecord} (h : EventOf s r) :
    ∃ name rest, IsMessage s.eventType (.object ((name, .int s.key.2) :: rest)) r.message := by
  obtain ⟨m, hm, hr⟩ := h
  cases m with
  | user m =>
      cases s with
      | user row => exact ⟨_, _, (hm.id : m.id = row.id) ▸ hr.2.2⟩
      | _ => exact hm.elim
  | project m =>
      cases s with
      | project row => exact ⟨_, _, (hm.id : m.id = row.id) ▸ hr.2.2⟩
      | _ => exact hm.elim
  | task m =>
      cases s with
      | task row => exact ⟨_, _, (hm.id : m.id = row.id) ▸ hr.2.2⟩
      | _ => exact hm.elim

/-- An event is of rows with one key. -/
theorem eventOf_key {s s' : Stored} {r : KafkaRecord} (h : EventOf s r) (h' : EventOf s' r) :
    s.key = s'.key := by
  obtain ⟨_, _, hm⟩ := eventOf_message h
  obtain ⟨_, _, hm'⟩ := eventOf_message h'
  obtain ⟨htype, hpayload⟩ := isMessage_eventType hm hm'
  have hid : s.key.2 = s'.key.2 := by
    simp only [Json.object.injEq, List.cons.injEq, Prod.mk.injEq, Json.int.injEq] at hpayload
    exact hpayload.1.2
  have htable : s.key.1 = s'.key.1 := by
    cases s <;> cases s' <;> simp [Stored.eventType] at htype <;> rfl
  exact Prod.ext htable hid

theorem eventOf_isCreation {s : Stored} {r : KafkaRecord} (h : EventOf s r) :
    IsCreation r.message := by
  obtain ⟨m, _, hr⟩ := h
  cases m with
  | user m => exact ⟨_, by simp, _, hr.2.2⟩
  | project m => exact ⟨_, by simp, _, hr.2.2⟩
  | task m => exact ⟨_, by simp, _, hr.2.2⟩

/-- An INSERT that came back has added the row it returned. -/
theorem returned_added {e : ServiceEvent} {m : Entity} (h : Returned (e.seen perform) m) :
    ∃ s, Holds m s ∧ s.AddedBy e.before.db (e.after perform).db := by
  cases m with
  | user m =>
      obtain ⟨login, hash, firstName, lastName, email, createdAt, returning, rows, hcolumns, hseen,
        hdecode⟩ := h
      obtain ⟨hcall, hanswer⟩ := seen_execute hseen
      rcases execute_cases e.choice e.before _ with ⟨exc, _, heq⟩ | ⟨db, _, _, hact, heq⟩
      · rw [heq] at hanswer
        exact absurd hanswer (by simp)
      · rw [heq] at hanswer
        obtain rfl := Except.ok.inj hanswer
        simp only [Database.execute, except_bind_ok, pure, Except.pure, Except.ok.injEq,
          Prod.mk.injEq] at hact
        obtain ⟨row, _, users, hinsert, rfl, rfl⟩ := hact
        refine ⟨.user row, decodeUser_holds hcolumns hdecode, ?_⟩
        rw [Event.after, hcall, heq]
        exact users_insert_ok hinsert
  | project m =>
      obtain ⟨name, description, key, ownerId, createdAt, rows, hseen, hdecode⟩ := h
      obtain ⟨hcall, hanswer⟩ := seen_execute hseen
      rcases insertProject_cases name description key ownerId createdAt e.choice e.before with
        ⟨exc, heq⟩ | ⟨row, projects, p, _, _, hinsert, _, heq⟩
      · rw [heq] at hanswer
        exact absurd hanswer (by simp)
      · rw [heq] at hanswer
        obtain rfl := Except.ok.inj hanswer
        refine ⟨.project row, decodeProject_iff.mp hdecode, ?_⟩
        rw [Event.after, hcall, heq]
        exact projects_insert_ok hinsert
  | task m =>
      obtain ⟨title, description, status, projectId, creatorId, assigneeId, priority, createdAt,
        updatedAt, row, rows, hseen, hdecode⟩ := h
      obtain ⟨hcall, hanswer⟩ := seen_execute hseen
      rcases insertTask_cases title description status projectId creatorId assigneeId priority
        createdAt updatedAt e.choice e.before with
        ⟨exc, heq⟩ | ⟨stored, tasks, m', _, hinsert, hstored, hm', heq⟩
      · rw [heq] at hanswer
        exact absurd hanswer (by simp)
      · rw [heq] at hanswer
        obtain ⟨rfl, _⟩ := List.cons.inj (Except.ok.inj hanswer)
        obtain rfl := Except.ok.inj (hstored.symm.trans hdecode)
        obtain ⟨hrows, hfresh, _⟩ := tasks_insert_ok hinsert
        refine ⟨.task stored, hm', ?_⟩
        rw [Event.after, hcall, heq]
        exact ⟨hrows, hfresh⟩

/-! ## Runs -/

/-- Every creation event carries the fields of exactly one row, and no row has two. -/
structure EventsAgree (w : World) : Prop where
  row : ∀ r ∈ w.topics, IsCreation r.message → ∃! s : Stored, s.In w.db ∧ EventOf s r
  once : w.topics.Pairwise fun r r' => ∀ s, EventOf s r → ¬EventOf s r'

/-- A call of the request added the row. -/
def StoredBy (cfg : ServiceConfig) (tid : ℕ) (s : Stored) : Prop :=
  ∃ e ∈ cfg.trace, e.tid = tid ∧ s.AddedBy e.before.db (e.after perform).db

/-- The record that a call puts into its topic. -/
def delivered (c : Call) (ch : Choice) : Option KafkaRecord :=
  if ch.fault = none then sentRecord c else none

section Runs

variable {u : Userver} {w : World} {requests : ℕ → Request} {sched : List (ℕ × Choice)}

theorem delivered_eq_some {c : Call} {ch : Choice} {r : KafkaRecord} :
    delivered c ch = some r ↔ ch.fault = none ∧ sentRecord c = some r := by
  unfold delivered
  split
  · rename_i h
    simp [h]
  · rename_i h
    simp [h]

/-- The topics hold what they held and what was delivered, in the order of the calls. -/
theorem topics_trace : (runService u w requests sched).world.topics =
    w.topics ++ (runService u w requests sched).trace.filterMap fun e =>
      delivered e.call e.choice := by
  rw [runService_world, Config.foldl_trace perform World.topics delivered
    (fun topics r => topics ++ [r]) ?_ runService_chained]
  · generalize (runService u w requests sched).trace.filterMap _ = rs
    induction rs using List.reverseRecOn with
    | nil => simp
    | append_singleton rs r ih => rw [List.foldl_append, ih]; simp
  · intro c ch w
    by_cases hsend : ∃ topic key message, c = .send topic key message
    · obtain ⟨topic, key, message, rfl⟩ := hsend
      rcases send_cases ch w topic key message with ⟨e, hfault, heq⟩ | ⟨hfault, heq⟩
      · rw [heq]
        simp [delivered, hfault]
      · rw [heq]
        simp [delivered, hfault, sentRecord]
    · have hnone : delivered c ch = none := by
        cases c with
        | send topic key message => exact absurd ⟨topic, key, message, rfl⟩ hsend
        | _ => simp [delivered, sentRecord]
      rw [hnone, perform_topics c ch w fun topic key message hc =>
        hsend ⟨topic, key, message, hc⟩]

theorem run_agrees : Config.Contracts perform (fun tid => SendsReturned (requests tid))
    (fun tid => AnswersReturned u (requests tid)) (fun _ _ _ => True)
    (runService u w requests sched) :=
  Config.run_obeys perform (fun tid => agrees_serve u (requests tid)) sched

/-- A row that a call added is there before every later call, and at the end. -/
theorem added_stays {s : Stored} {i : ℕ} {e : ServiceEvent}
    (hi : (runService u w requests sched).trace[i]? = some e)
    (hadded : s.AddedBy e.before.db (e.after perform).db) :
    (∀ j e', (runService u w requests sched).trace[j]? = some e' → i < j → s.In e'.before.db) ∧
      s.In (runService u w requests sched).world.db := by
  have hkeeps : ∀ e' ∈ (runService u w requests sched).trace, s.In e'.before.db →
      s.In (e'.after perform).db := fun e' _ hs => hs.perform e'.call e'.choice
  refine ⟨?_, ?_⟩
  · intro j e' hj hij
    exact Config.stable_later perform runService_chained (P := fun w => s.In w.db) hkeeps hi hj hij
      hadded.mem
  · rw [runService_world]
    exact Config.stable_end perform runService_chained (P := fun w => s.In w.db) hkeeps hi
      hadded.mem

/-- A row of one key is added once, and not if it was there from the start. -/
theorem added_once {s s' : Stored} {i i' : ℕ} {e e' : ServiceEvent}
    (hi : (runService u w requests sched).trace[i]? = some e)
    (hi' : (runService u w requests sched).trace[i']? = some e')
    (hadded : s.AddedBy e.before.db (e.after perform).db)
    (hadded' : s'.AddedBy e'.before.db (e'.after perform).db) (hkey : s.key = s'.key) :
    i = i' := by
  rcases Nat.lt_trichotomy i i' with hlt | heq | hlt
  · exact absurd hkey (hadded'.fresh ((added_stays hi hadded).1 i' e' hi' hlt))
  · exact heq
  · exact absurd hkey.symm (hadded.fresh ((added_stays hi' hadded').1 i e hi hlt))

/-- A request that sends a creation event has added its row before. -/
theorem creation_stored {k : ℕ} {e : ServiceEvent} {r : KafkaRecord}
    (hk : (runService u w requests sched).trace[k]? = some e)
    (hsend : sentRecord e.call = some r)
    (hcreation : IsCreation r.message ∨ Creates (requests e.tid)) :
    sends (own perform e.tid ((runService u w requests sched).trace.take k)) = [] ∧
      ∃ (i : ℕ) (e' : ServiceEvent) (s : Stored),
        (runService u w requests sched).trace[i]? = some e' ∧ e'.tid = e.tid ∧
          s.AddedBy e'.before.db (e'.after perform).db ∧ EventOf s r := by
  obtain ⟨hnone, o, ho, m, hm, hr⟩ := run_agrees.calls k e hk r hsend hcreation
  obtain ⟨i, e', _, hi, htid, rfl⟩ := (mem_own_take perform).mp ho
  obtain ⟨s, hs, hadded⟩ := returned_added hm
  exact ⟨hnone, i, e', s, hi, htid, hadded, m, hs, hr⟩

/-- A new creation event is of a row that the run added. -/
theorem new_event_once {k k' : ℕ} {e e' : ServiceEvent} {r r' : KafkaRecord} {s : Stored}
    (hk : (runService u w requests sched).trace[k]? = some e)
    (hk' : (runService u w requests sched).trace[k']? = some e')
    (hsend : sentRecord e.call = some r) (hsend' : sentRecord e'.call = some r')
    (hr : EventOf s r) (hr' : EventOf s r') : ¬k < k' := by
  intro hlt
  obtain ⟨_, i, add, t, hi, htid, hadded, ht⟩ :=
    creation_stored hk hsend (Or.inl (eventOf_isCreation hr))
  obtain ⟨hnone, i', add', t', hi', htid', hadded', ht'⟩ :=
    creation_stored hk' hsend' (Or.inl (eventOf_isCreation hr'))
  -- one row, so one call added it, and its request sends once
  have hkey : t.key = t'.key := (eventOf_key ht hr).trans (eventOf_key hr' ht')
  obtain rfl := added_once hi hi' hadded hadded' hkey
  obtain rfl := Option.some.inj (hi.symm.trans hi')
  have hmem : r ∈ sends (own perform e'.tid ((runService u w requests sched).trace.take k')) := by
    refine List.mem_filterMap.mpr ⟨e.seen perform, ?_, hsend⟩
    exact (mem_own_take perform).mpr ⟨k, e, hlt, hk, htid.symm.trans htid', rfl⟩
  rw [hnone] at hmem
  exact absurd hmem List.not_mem_nil

theorem mem_delivered {r : KafkaRecord}
    (hr : r ∈ (runService u w requests sched).trace.filterMap fun e =>
      delivered e.call e.choice) :
    ∃ (k : ℕ) (e : ServiceEvent), (runService u w requests sched).trace[k]? = some e ∧
      e.choice.fault = none ∧ sentRecord e.call = some r := by
  obtain ⟨e, he, hdelivered⟩ := List.mem_filterMap.mp hr
  obtain ⟨k, hk⟩ := List.mem_iff_getElem?.mp he
  exact ⟨k, e, hk, delivered_eq_some.mp hdelivered⟩

/-- Every creation event in the topics is of exactly one row. -/
theorem run_row (hw : EventsAgree w) {r : KafkaRecord}
    (hr : r ∈ (runService u w requests sched).world.topics) (hcreation : IsCreation r.message) :
    ∃! s : Stored, s.In (runService u w requests sched).world.db ∧ EventOf s r := by
  obtain ⟨s, hs, hevent⟩ : ∃ s : Stored, s.In (runService u w requests sched).world.db ∧
      EventOf s r := by
    rw [topics_trace] at hr
    rcases List.mem_append.mp hr with hold | hnew
    · obtain ⟨s, ⟨hs, hevent⟩, _⟩ := hw.row r hold hcreation
      refine ⟨s, ?_, hevent⟩
      rw [runService_world]
      exact Config.stable_world perform runService_chained (P := fun w => s.In w.db)
        (fun e _ h => h.perform e.call e.choice) hs
    · obtain ⟨k, e, hk, _, hsend⟩ := mem_delivered hnew
      obtain ⟨_, i, add, s, hi, _, hadded, hevent⟩ :=
        creation_stored hk hsend (Or.inl hcreation)
      exact ⟨s, (added_stays hi hadded).2, hevent⟩
  exact ⟨s, ⟨hs, hevent⟩, fun s' hs' => Stored.eq_of_key hs'.1 hs (eventOf_key hs'.2 hevent)⟩

/-- No row has two creation events. -/
theorem run_once (hw : EventsAgree w) :
    (runService u w requests sched).world.topics.Pairwise fun r r' =>
      ∀ s, EventOf s r → ¬EventOf s r' := by
  rw [topics_trace]
  refine List.pairwise_append.mpr ⟨hw.once, ?_, ?_⟩
  · rw [List.pairwise_filterMap, List.pairwise_iff_getElem]
    intro k k' hk hk' hlt r hr r' hr' s hs hs'
    have hget := List.getElem?_eq_getElem hk
    have hget' := List.getElem?_eq_getElem hk'
    exact new_event_once hget hget' (delivered_eq_some.mp hr).2 (delivered_eq_some.mp hr').2 hs hs'
      hlt
  · -- the row of an old event was there before the run
    intro r hr r' hr' s hs hs'
    obtain ⟨k, e, hk, _, hsend⟩ := mem_delivered hr'
    obtain ⟨_, i, add, t, hi, _, hadded, ht⟩ :=
      creation_stored hk hsend (Or.inl (eventOf_isCreation hs'))
    obtain ⟨s₀, ⟨hs₀, hevent₀⟩, _⟩ := hw.row r hr (eventOf_isCreation hs)
    have hbefore : s₀.In add.before.db :=
      Config.stable_before perform runService_chained (P := fun w => s₀.In w.db)
        (fun e _ h => h.perform e.call e.choice) hs₀ hi
    exact hadded.fresh hbefore ((eventOf_key hevent₀ hs).trans (eventOf_key hs' ht))

/-- An answer 201 shows the row that the request stored, and its events are of that row. -/
theorem run_answer {tid : ℕ} {response : HttpResponse}
    (hanswer : Answered (runService u w requests sched) tid response)
    (hcreates : Creates (requests tid)) (hstatus : response.status = 201) :
    ∃ s : Stored, StoredBy (runService u w requests sched) tid s ∧
      s.In (runService u w requests sched).world.db ∧ AnswerOf u s response ∧
      ∀ r, Delivered (runService u w requests sched) tid r → EventOf s r := by
  have hobeys := (@run_agrees u w requests sched).pool tid
  rw [show (runService u w requests sched).pool tid = .pure response from hanswer] at hobeys
  obtain ⟨o, ho, m, hm, hshown, hevents⟩ := hobeys hcreates hstatus
  obtain ⟨i, e, hi, htid, rfl⟩ := (mem_own perform).mp ho
  obtain ⟨s, hs, hadded⟩ := returned_added hm
  refine ⟨s, ⟨e, List.mem_of_getElem? hi, htid, hadded⟩, (added_stays hi hadded).2,
    ⟨m, hs, hshown⟩, ?_⟩
  rintro r ⟨_, e', he', htid', hsend, _⟩
  exact ⟨m, hs, hevents r (mem_sends_own.mpr ⟨e', he', htid', hsend⟩)⟩

/-- A creation event, and any event of a creating request, is of a row that the request
stored. -/
theorem run_delivered {tid : ℕ} {r : KafkaRecord}
    (hr : Delivered (runService u w requests sched) tid r)
    (hcreation : IsCreation r.message ∨ Creates (requests tid)) :
    ∃ s : Stored, StoredBy (runService u w requests sched) tid s ∧ EventOf s r := by
  obtain ⟨_, e, he, rfl, hsend, _⟩ := hr
  obtain ⟨k, hk⟩ := List.mem_iff_getElem?.mp he
  obtain ⟨_, i, add, s, hi, htid, hadded, hevent⟩ :=
    creation_stored hk (sentRecord_eq_some.mpr hsend) hcreation
  exact ⟨s, ⟨add, List.mem_of_getElem? hi, htid, hadded⟩, hevent⟩

/-- **Events, answers and rows agree.** Whatever fails and however the requests
interleave: every creation event is of exactly one row and no row has two; an answer 201
shows the row that the request stored, of which its events are; every new event was
delivered by a request, which has stored the event's row if it creates one at all or the
event says so. -/
theorem events_agree (hw : EventsAgree w) :
    EventsAgree (runService u w requests sched).world ∧
    (∀ tid response, Answered (runService u w requests sched) tid response →
      Creates (requests tid) → response.status = 201 →
      ∃ s : Stored, StoredBy (runService u w requests sched) tid s ∧
        s.In (runService u w requests sched).world.db ∧ AnswerOf u s response ∧
        ∀ r, Delivered (runService u w requests sched) tid r → EventOf s r) ∧
    (∀ r ∈ (runService u w requests sched).world.topics,
      r ∈ w.topics ∨ ∃ tid, Delivered (runService u w requests sched) tid r) ∧
    ∀ tid r, Delivered (runService u w requests sched) tid r →
      IsCreation r.message ∨ Creates (requests tid) →
      ∃ s : Stored, StoredBy (runService u w requests sched) tid s ∧ EventOf s r := by
  refine ⟨⟨fun r hr => run_row hw hr, run_once hw⟩, fun tid response => run_answer, ?_,
    fun tid r => run_delivered⟩
  intro r hr
  have hsplit := hr
  rw [topics_trace] at hsplit
  rcases List.mem_append.mp hsplit with hold | hnew
  · exact Or.inl hold
  · obtain ⟨k, e, hk, hfault, hsend⟩ := mem_delivered hnew
    exact Or.inr ⟨e.tid, hr, e, List.mem_of_getElem? hk, rfl, sentRecord_eq_some.mp hsend, hfault⟩

end Runs

/-! ## A project -/

theorem oneUser_agrees : EventsAgree (Sample.oneUser Sample.ann) :=
  ⟨fun _ hr => absurd hr List.not_mem_nil, List.Pairwise.nil⟩

/-- Ann creates a project. -/
def project : ServiceConfig :=
  runService Sample.keyOnly (Sample.oneUser Sample.ann)
    (fun _ => .createProject (Sample.http "" "" "") 1)
    (List.replicate 6 (0, { serial := 7 }))

/-- Its event is in the topic, and of the row. -/
theorem events_agree_project :
    project.world.topics.length = 1 ∧ EventsAgree project.world ∧
      ∃ s : Stored, StoredBy project 0 s ∧ s.In project.world.db ∧
        ∀ r, Delivered project 0 r → EventOf s r := by
  obtain ⟨hagree, hanswer, _⟩ := @events_agree Sample.keyOnly
    (Sample.oneUser Sample.ann) (fun _ => .createProject (Sample.http "" "" "") 1)
    (List.replicate 6 (0, { serial := 7 })) oneUser_agrees
  obtain ⟨s, hstored, hin, _, hevents⟩ := hanswer 0 _ rfl trivial rfl
  exact ⟨rfl, hagree, s, hstored, hin, hevents⟩

end MyService.Event.Agreement
