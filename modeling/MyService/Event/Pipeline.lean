import MyService.Auth.Authenticity
import MyService.Event.Agreement
import MyService.Event.Batch
import MyService.Event.Codec
import MyService.Handlers.PathIds
import MyService.Storage.Integrity

/-!
# From a handler to StoreEvent

The requests of a run put records into topics; the broker hands each to the consumer any
number of times and in any batches. `sent_events_consumed` shows that the consumer drops
none of them: it calls `StoreEvent` for every delivered record, in the order of delivery,
with the event that was published. Every number in an event is the id of a row, the task
of a comment or a checked priority, so it fits the field that the consumer reads it into.
-/

namespace MyService.Event.Pipeline

open Framework Userver Userver.Postgres Models Handlers Handlers.Calls Storage
  Storage.PostgresStorage EventProducer Delivery Agreement Codec
open EventConsumer (RawEvent)

/-! ## The event of a record -/

/-- The record is this event, in its topic and under its key. -/
def Bears (r : KafkaRecord) (ev : AnyEvent) : Prop :=
  Carries r ev.topic ev.key ev.eventType ev.toPayload

/-- The numbers of the record's event fit. -/
def Readable (r : KafkaRecord) : Prop := ∃ ev : AnyEvent, ev.InRange ∧ Bears r ev

/-! ## Where the numbers come from -/

/-- A login read its user; a comment's task is an `int`. -/
def Sourced (h : Prog.History Call Call.Answer) : AnyEvent → Prop
  | .userLoggedIn e => ∃ login rows user, ⟨.execute (selectUser login), .ok rows⟩ ∈ h ∧
      asSingleRow decodeUser rows = .ok user ∧ e.userId = user.id
  | .commentAdded e => IsInt64 e.taskId
  | _ => False

/-- Whatever is sent is a creation event, or a login or a comment with such numbers. -/
def SendsSourced (h : Prog.History Call Call.Answer) (c : Call) : Prop :=
  ∀ r, sentRecord c = some r → IsCreation r.message ∨ ∃ ev, Bears r ev ∧ Sourced h ev

theorem isInt64_taskIdOf (found : Except Exn (Option Document)) :
    IsInt64 (MongoStorage.taskIdOf found) := by
  have hnone : IsInt64 (-1) := by constructor <;> omega
  cases found with
  | error e => exact hnone
  | ok found =>
      cases found with
      | none => exact hnone
      | some doc =>
          simp only [MongoStorage.taskIdOf]
          cases hint : Bson.asInt (doc.get? "task_id") with
          | error e => exact hnone
          | ok n =>
              unfold Bson.asInt at hint
              split at hint
              · exact absurd hint (by simp)
              · split at hint
                · exact absurd hint (by simp)
                · split at hint
                  · rename_i hrange
                    obtain rfl := Except.ok.inj hint
                    exact isInt64_of_isInt hrange
                  · exact absurd hint (by simp)

/-- A call that sends nothing. -/
theorem sendsSourced_of_none {h : Prog.History Call Call.Answer} {c : Call}
    (hc : sentRecord c = none) : SendsSourced h c := by
  intro r hr
  rw [hc] at hr
  exact absurd hr (by simp)

theorem sendsSourced_of_makes {u : Userver} {request : Request}
    {h : Prog.History Call Call.Answer} {c : Call} (hmakes : Makes u request h c) :
    SendsSourced h c := by
  cases hmakes with
  | eventSend hcompletes hquiet hlength hmessage =>
      rintro r ⟨⟩
      cases hcompletes with
      | register => exact Or.inl ⟨"UserRegistered", by simp, _, hmessage⟩
      | createProject => exact Or.inl ⟨"ProjectCreated", by simp, _, hmessage⟩
      | createTask => exact Or.inl ⟨"TaskCreated", by simp, _, hmessage⟩
      | @login _ login rows user issuedAt reading hmatches =>
          obtain ⟨_, _, hdecode, _⟩ := hmatches
          refine Or.inr ⟨.userLoggedIn _, ⟨rfl, rfl, hmessage⟩, login, rows, user, ?_, hdecode, rfl⟩
          simp [callsToToken]
      | addComment _ _ htask =>
          exact Or.inr ⟨.commentAdded _, ⟨rfl, rfl, hmessage⟩,
            isInt64_of_isInt (stoi_eq_ok.mp htask).1⟩
      | addReply _ _ found =>
          exact Or.inr ⟨.commentAdded _, ⟨rfl, rfl, hmessage⟩, isInt64_taskIdOf found⟩
  | _ => exact sendsSourced_of_none rfl

/-! ## The ids in the tables -/

/-- Primary keys are `int`, as `SERIAL` is. -/
structure IdsFit (db : Database) : Prop where
  users : ∀ id ∈ db.userIds, IsInt id
  projects : ∀ id ∈ db.projectIds, IsInt id
  tasks : ∀ r ∈ db.tasks.rows, IsInt r.id

/-- The sequence gives an `int` to a new row. -/
theorem idsFit_executed {db db' : Database} {serial : Int} {s : Statement} (h : IdsFit db)
    (hserial : IsInt serial) (hexec : Database.Executed db serial s db') :
    IdsFit db' := by
  cases hexec with
  | insertUser hrow hinsert =>
      refine ⟨?_, h.projects, h.tasks⟩
      intro id hid
      rw [Database.userIds, (users_insert_ok hinsert).1, List.map_append, List.mem_append] at hid
      rcases hid with hold | hnew
      · exact h.users id hold
      · simp only [Database.newUser, except_bind_ok, pure, Except.pure, Except.ok.injEq] at hrow
        obtain ⟨_, _, _, _, _, _, _, _, _, _, rfl⟩ := hrow
        rw [List.mem_singleton.mp hnew]
        exact hserial
  | insertProject hrow hinsert =>
      refine ⟨h.users, ?_, h.tasks⟩
      intro id hid
      rw [Database.projectIds, (projects_insert_ok hinsert).1, List.map_append,
        List.mem_append] at hid
      rcases hid with hold | hnew
      · exact h.projects id hold
      · simp only [Database.newProject, except_bind_ok, pure, Except.pure, Except.ok.injEq] at hrow
        obtain ⟨_, _, _, _, _, _, _, _, rfl⟩ := hrow
        rw [List.mem_singleton.mp hnew]
        exact hserial
  | insertTask hrow hinsert =>
      refine ⟨h.users, h.projects, ?_⟩
      intro r hr
      rw [(tasks_insert_ok hinsert).1, List.mem_append] at hr
      rcases hr with hold | hnew
      · exact h.tasks r hold
      · simp only [Database.newTask, except_bind_ok, pure, Except.pure, Except.ok.injEq] at hrow
        obtain ⟨_, _, _, _, _, _, _, _, _, _, _, _, rfl⟩ := hrow
        rw [List.mem_singleton.mp hnew]
        exact hserial
  | select => exact h

/-- The tables are sound and their ids fit. -/
structure Typed (db : Database) : Prop where
  reachable : Nullability.Reachable db
  ids : IdsFit db

/-- The event of a row: its references name rows too, so all its numbers fit. -/
theorem readable_of_eventOf {db : Database} (h : Typed db) {s : Stored} (hs : s.In db)
    {r : KafkaRecord} (hr : EventOf s r) : Readable r := by
  have hsound := Integrity.sound_of_reachable h.reachable
  obtain ⟨m, hm, hr⟩ := hr
  cases m with
  | user m =>
      cases s with
      | user row =>
          refine ⟨.userRegistered ⟨m.id, m.login, m.email, m.firstName, m.lastName⟩, ?_, hr⟩
          show IsInt64 m.id
          rw [hm.id]
          exact isInt64_of_isInt (h.ids.users _ (List.mem_map_of_mem hs))
      | _ => exact hm.elim
  | project m =>
      cases s with
      | project row =>
          refine ⟨.projectCreated ⟨m.id, m.name, m.key, m.ownerId⟩, ⟨?_, ?_⟩, hr⟩
          · show IsInt64 m.id
            rw [hm.id]
            exact isInt64_of_isInt (h.ids.projects _ (List.mem_map_of_mem hs))
          · exact isInt64_of_isInt (h.ids.users _ (hsound.owner row hs _ hm.ownerId))
      | _ => exact hm.elim
  | task m =>
      cases s with
      | task row =>
          refine ⟨.taskCreated ⟨m.id, m.projectId, m.title, m.description, m.priority,
            m.creatorId, taskStatusToString m.status⟩, ⟨?_, ?_, ?_, ?_⟩, hr⟩
          · show IsInt64 m.id
            rw [hm.id]
            exact isInt64_of_isInt (h.ids.tasks row hs)
          · show IsInt64 m.projectId
            rw [hm.projectId]
            exact isInt64_of_isInt (h.ids.projects _ (hsound.project row hs))
          · show IsInt m.priority
            obtain ⟨hlow, hhigh⟩ := (db.tasks.valid row hs).2 m.priority hm.priority
            constructor <;> omega
          · show IsInt64 m.creatorId
            rw [hm.creatorId]
            exact isInt64_of_isInt (h.ids.users _ (hsound.creator row hs))
      | _ => exact hm.elim

section Runs

variable {u : Userver} {w : World} {requests : ℕ → Request} {sched : List (ℕ × Choice)}

/-- The tables before any call of a run, and at its end. -/
theorem run_typed (h : Typed w.db) (hserial : ∀ a ∈ sched, IsInt a.2.serial) :
    (∀ (k : ℕ) (e : ServiceEvent), (runService u w requests sched).trace[k]? = some e →
      Typed e.before.db) ∧ Typed (runService u w requests sched).world.db := by
  have hkeeps : ∀ e ∈ (runService u w requests sched).trace, Typed e.before.db →
      Typed (e.after perform).db := by
    intro e he hbefore
    rcases perform_execute e.call e.choice e.before with hsame | ⟨s, _, hexec⟩
    · rw [Event.after, hsame]
      exact hbefore
    · exact ⟨Integrity.reachable_executed hbefore.reachable hexec,
        idsFit_executed hbefore.ids (hserial _ (Config.mem_sched perform he)) hexec⟩
  refine ⟨fun k e hk => ?_, ?_⟩
  · exact Config.stable_before perform runService_chained (P := fun w => Typed w.db) hkeeps h hk
  · rw [runService_world]
    exact Config.stable_world perform runService_chained (P := fun w => Typed w.db) hkeeps h

/-- Every record that is sent can be read. -/
theorem readable_of_sent (h : Typed w.db) (hserial : ∀ a ∈ sched, IsInt a.2.serial)
    {k : ℕ} {e : ServiceEvent} {r : KafkaRecord}
    (hk : (runService u w requests sched).trace[k]? = some e)
    (hsend : sentRecord e.call = some r) : Readable r := by
  obtain ⟨hbefore, hend⟩ := @run_typed u w requests sched h hserial
  have hmakes := (conducts_run u w requests sched).calls k e hk
  rcases sendsSourced_of_makes hmakes r hsend with hcreation | ⟨ev, hbears, hsourced⟩
  · obtain ⟨_, i, add, s, hi, _, hadded, hevent⟩ := creation_stored hk hsend (Or.inl hcreation)
    exact readable_of_eventOf hend (added_stays hi hadded).2 hevent
  · refine ⟨ev, ?_, hbears⟩
    cases ev with
    | userLoggedIn event =>
        obtain ⟨login, rows, user, hmem, hdecode, hid⟩ := hsourced
        obtain ⟨i, e', _, hi, _, hseen⟩ := (mem_own_take perform).mp hmem
        obtain ⟨row, hrow, _, hholds⟩ := Auth.selected_user (seen_execute hseen).2 hdecode
        show IsInt64 event.userId
        rw [hid, hholds.id]
        exact isInt64_of_isInt ((hbefore i e' hi).ids.users _ (List.mem_map_of_mem hrow))
    | commentAdded event => exact hsourced
    | _ => exact hsourced.elim

/-- What the topics hold at the end was there before or can be read. -/
theorem readable_of_mem (h : Typed w.db) (hserial : ∀ a ∈ sched, IsInt a.2.serial)
    (htopics : ∀ r ∈ w.topics, Readable r) {r : KafkaRecord}
    (hr : r ∈ (runService u w requests sched).world.topics) : Readable r := by
  rw [topics_trace] at hr
  rcases List.mem_append.mp hr with hold | hnew
  · exact htopics r hold
  · obtain ⟨k, e, hk, _, hsend⟩ := mem_delivered hnew
    exact readable_of_sent h hserial hk hsend

end Runs

/-! ## The consumer -/

/-- The arguments of `StoreEvent` are the record's event: its id and time, its type and its
payload, in which the handler of the type finds the published values. -/
structure Conveys (r : KafkaRecord) (e : RawEvent) : Prop where
  event : ∃ (ev : AnyEvent) (traceId : String), ev.InRange ∧ r.topic = ev.topic ∧
    r.key = ev.key ∧
    r.message = messageOf e.eventId ev.eventType e.timestamp ev.toPayload traceId ∧
    e.eventType = ev.eventType ∧ e.payload = some ev.toPayload ∧
    EventConsumer.dispatch e.eventType e.payload = .ok ev.values

theorem accepted_of_readable {u : Userver} {r : KafkaRecord} (h : Readable r)
    (hjson : u.fromString (u.toString r.message) = .ok r.message) :
    ∃ e, EventConsumer.Accepted u.fromString (u.toString r.message) e ∧ Conveys r e := by
  obtain ⟨ev, hrange, htopic, hkey, hmessage⟩ := h
  obtain ⟨⟨eventId, timestamp, traceId, hmessage, hread, _⟩, hdispatch, hvalues⟩ :=
    understands_of_isMessage hrange hmessage hjson
  exact ⟨_, EventConsumer.readPayload_ok.mp hread, ev, traceId, hrange, htopic, hkey, hmessage,
    rfl, rfl, hdispatch.trans hvalues⟩

section Batch

variable {ε σ : Type}

/-- The texts of the records, as the broker hands them over. -/
def texts (u : Userver) (batch : List (KafkaRecord × ε)) : List (String × ε) :=
  batch.map fun d => (u.toString d.1.message, d.2)

/-- A batch of such records: `StoreEvent` is called for each. -/
theorem calls_convey {u : Userver} {batch : List (KafkaRecord × ε)}
    (h : ∀ d ∈ batch, Readable d.1)
    (hjson : ∀ d ∈ batch, u.fromString (u.toString d.1.message) = .ok d.1.message) :
    ∃ events, EventConsumer.Calls u.fromString ((texts u batch).map Prod.fst) events ∧
      List.Forall₂ (fun d e => Conveys d.1 e) batch events := by
  induction batch with
  | nil => exact ⟨[], .nil, .nil⟩
  | cons d batch ih =>
      obtain ⟨events, hcalls, hconvey⟩ := ih (fun d' hd' => h d' (List.mem_cons_of_mem _ hd'))
        fun d' hd' => hjson d' (List.mem_cons_of_mem _ hd')
      obtain ⟨e, haccepted, he⟩ :=
        accepted_of_readable (h d List.mem_cons_self) (hjson d List.mem_cons_self)
      exact ⟨e :: events, .accepted haccepted hcalls, .cons he hconvey⟩

theorem callsOf_convey {u : Userver} {batch : List (KafkaRecord × ε)}
    (store : ε → RawEvent → ExceptT Exn (StateM σ) Unit) (s : σ)
    (h : ∀ d ∈ batch, Readable d.1)
    (hjson : ∀ d ∈ batch, u.fromString (u.toString d.1.message) = .ok d.1.message) :
    List.Forall₂ (fun d e => Conveys d.1 e) batch
      (EventConsumer.callsOf u.fromString store (texts u batch) s) := by
  obtain ⟨events, hcalls, hconvey⟩ := calls_convey h hjson
  obtain ⟨_, _, _, hspec⟩ := EventConsumer.callsOf_spec u.fromString store (texts u batch) s
  rwa [hspec.unique hcalls]

end Batch

/-! ## From the handlers to the consumer -/

/-- A request that was answered with a success, with no failed `Send`, has put the event of
its answer into a topic. -/
theorem announced {u : Userver} {w : World} {requests : ℕ → Request} {sched : List (ℕ × Choice)}
    {tid : ℕ} {response : HttpResponse}
    (hanswer : Answered (runService u w requests sched) tid response)
    (hok : Succeeded (requests tid) response)
    (hsent : ∀ e ∈ (runService u w requests sched).trace, e.tid = tid → ¬SendFailed e) :
    ∃ r ∈ (runService u w requests sched).world.topics, Announces u response r (requests tid) := by
  have hobeys : SendsOnce u (requests tid) (own perform tid (runService u w requests sched).trace)
      (.pure response) := by
    rw [← (hanswer : _ = Prog.pure response)]
    exact run_sendsOnce tid
  rcases hobeys with ⟨_, hnot⟩ | ⟨r, hsends, _, hann⟩
  · exact absurd hok hnot
  · have hr : r ∈ sends (own perform tid (runService u w requests sched).trace) := by
      rw [hsends]
      exact List.mem_singleton_self r
    obtain ⟨e, he, htid, hsend⟩ := mem_sends_own.mp hr
    refine ⟨r, mem_topics_of_sent he hsend ?_, hann⟩
    by_contra hfault
    exact hsent e he htid ⟨r, hsend, Option.isSome_iff_ne_none.mpr hfault⟩

theorem exists_mem_forall₂ {α β : Type} {P : α → β → Prop} {as : List α} {bs : List β}
    (h : List.Forall₂ P as bs) {a : α} (ha : a ∈ as) : ∃ b ∈ bs, P a b := by
  induction h with
  | nil => exact absurd ha (by simp)
  | @cons a' b as bs hab _ ih =>
      rcases List.mem_cons.mp ha with rfl | hmem
      · exact ⟨b, List.mem_cons_self, hab⟩
      · obtain ⟨b', hb', hP⟩ := ih hmem
        exact ⟨b', List.mem_cons_of_mem _ hb', hP⟩

/-- **The consumer drops no event.** Whatever the broker delivers of the topics of a run, in
any order and any number of times, the consumer calls `StoreEvent` once for each delivery
with the event that was published, whatever `StoreEvent` does. If every record is delivered
at least once, the event of every successful answer whose `Send` did not fail is among the
calls. -/
theorem sent_events_consumed {u : Userver} {w : World} {requests : ℕ → Request}
    {sched : List (ℕ × Choice)} (htyped : Typed w.db)
    (hserial : ∀ a ∈ sched, IsInt a.2.serial) (htopics : ∀ r ∈ w.topics, Readable r)
    (hjson : ∀ r ∈ (runService u w requests sched).world.topics,
      u.fromString (u.toString r.message) = .ok r.message)
    {ε σ : Type} (store : ε → RawEvent → ExceptT Exn (StateM σ) Unit) (s : σ)
    (batch : List (KafkaRecord × ε))
    (hbatch : ∀ d ∈ batch, d.1 ∈ (runService u w requests sched).world.topics) :
    List.Forall₂ (fun d e => Conveys d.1 e) batch
        (EventConsumer.callsOf u.fromString store (texts u batch) s) ∧
      ((∀ r ∈ (runService u w requests sched).world.topics, ∃ env, (r, env) ∈ batch) →
        ∀ tid response, Answered (runService u w requests sched) tid response →
          Succeeded (requests tid) response →
          (∀ e ∈ (runService u w requests sched).trace, e.tid = tid → ¬SendFailed e) →
          ∃ r, Announces u response r (requests tid) ∧
            ∃ e ∈ EventConsumer.callsOf u.fromString store (texts u batch) s, Conveys r e) := by
  have hconvey := callsOf_convey store s
    (fun d hd => readable_of_mem htyped hserial htopics (hbatch d hd))
    fun d hd => hjson d.1 (hbatch d hd)
  refine ⟨hconvey, ?_⟩
  intro hall tid response hanswer hok hsent
  obtain ⟨r, hr, hann⟩ := announced hanswer hok hsent
  obtain ⟨env, hmem⟩ := hall r hr
  obtain ⟨e, he, hconveys⟩ := exists_mem_forall₂ hconvey hmem
  exact ⟨r, hann, e, he, hconveys⟩

/-! ## A comment, delivered twice -/

/-- The request of the sample and the event of its answer. -/
def commented : CommentAddedEvent :=
  { commentId := generateCommentId fun _ => digitZero, taskId := 7, author := "ann", text := "hi" }

def message : Json :=
  messageOf (eventIdOf fun _ => digitZero) "CommentAdded" (timestampISO 0) commented.toPayload "t"

/-- A library that reads the request's body, and back what it wrote. -/
def userver : Userver :=
  { Sample.userver with
    fromString := fun text =>
      if text = Sample.body then .ok Sample.json
      else if text = "message" then .ok message else .error .parseError
    toString := fun _ => "message" }

def posted : ServiceConfig :=
  runService userver Sample.empty
    (fun _ => .addComment (Sample.http Sample.body "taskId" "7") 1) (List.replicate 8 (0, {}))

theorem empty_typed : Typed Sample.empty.db :=
  ⟨.empty, by constructor <;> simp [Sample.empty, World.boot, Database.empty, Database.userIds,
    Database.projectIds]⟩

/-- `StoreEvent` with the database away. -/
def failing : Unit → RawEvent → ExceptT Exn (StateM Unit) Unit :=
  fun _ _ => throw (.unavailable "mongo")

theorem sent_events_consumed_posted :
    ∃ e e', EventConsumer.callsOf userver.fromString failing
        (texts userver [(⟨"comment-events", commented.commentId, message⟩, ()),
          (⟨"comment-events", commented.commentId, message⟩, ())]) () = [e, e'] ∧
      Conveys ⟨"comment-events", commented.commentId, message⟩ e ∧
      Conveys ⟨"comment-events", commented.commentId, message⟩ e' := by
  have htopics : posted.world.topics = [⟨"comment-events", commented.commentId, message⟩] := rfl
  have hserial : ∀ a ∈ List.replicate 8 ((0, {}) : ℕ × Choice), IsInt a.2.serial := by
    intro a ha
    rw [List.eq_of_mem_replicate ha]
    constructor <;> decide
  have hjson : ∀ r ∈ posted.world.topics,
      userver.fromString (userver.toString r.message) = .ok r.message := by
    intro r hr
    rw [htopics, List.mem_singleton] at hr
    subst hr
    rfl
  have hforall := (sent_events_consumed empty_typed hserial (by simp [Sample.empty, World.boot])
    hjson failing () [(⟨"comment-events", commented.commentId, message⟩, ()),
      (⟨"comment-events", commented.commentId, message⟩, ())] (by
        intro d hd
        have hd' : d.1 = ⟨"comment-events", commented.commentId, message⟩ := by
          simp only [List.mem_cons, List.not_mem_nil, or_false, or_self] at hd
          rw [hd]
        show d.1 ∈ posted.world.topics
        rw [htopics, hd']
        exact List.mem_singleton_self _)).1
  revert hforall
  generalize EventConsumer.callsOf _ _ _ _ = calls
  rintro (_ | ⟨he, _ | ⟨he', _ | _⟩⟩)
  exact ⟨_, _, rfl, he, he'⟩

end MyService.Event.Pipeline
