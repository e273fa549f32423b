import MyService.Event.EventConsumer

/-!
# The messages of a batch

Which messages reach `StoreEvent`, whatever it does. `Accepted` says what a message
has to be; the loop calls `StoreEvent` for the accepted ones, in order, and a rejected
one might as well not be there.
-/

namespace MyService.Event.EventConsumer

open Framework Userver

/-! ## The loop -/

section Loop

variable {π ε σ : Type}

/-- `readEvent` of payloads of any type, such as bytes. -/
def readPayload (parse : π → Except Exn Json) (payload : π) : Except Exn RawEvent := do
  let json ← parse payload
  let eventId ← Json.asString (← json.member "event_id")
  let eventType ← Json.asString (← json.member "event_type")
  let timestamp ← Json.asString (← json.member "timestamp")
  let payload ← json.member "payload"
  let _ ← dispatch eventType payload
  pure { eventId := eventId, eventType := eventType, timestamp := timestamp,
         payload := payload }

/-- `processMessage` with any `StoreEvent`, one that throws included. -/
def processPayload (parse : π → Except Exn Json)
    (store : ε → RawEvent → ExceptT Exn (StateM σ) Unit) (payload : π) (env : ε) :
    ExceptT Exn (StateM σ) Unit := do
  try
    let event ← readPayload parse payload
    store env event
  catch _ => pure ()

/-- `processBatch` with any `StoreEvent`. -/
def processPayloads (parse : π → Except Exn Json)
    (store : ε → RawEvent → ExceptT Exn (StateM σ) Unit) :
    List (π × ε) → ExceptT Exn (StateM σ) Unit
  | [] => pure ()
  | (payload, env) :: rest => do
      processPayload parse store payload env
      processPayloads parse store rest

/-- `StoreEvent`, with its calls written down. -/
def recorded (store : ε → RawEvent → ExceptT Exn (StateM σ) Unit) :
    ε → RawEvent → ExceptT Exn (StateM (σ × List RawEvent)) Unit :=
  fun env event => ExceptT.mk fun s =>
    let (result, s') := (store env event).run s.1
    (result, (s', s.2 ++ [event]))

end Loop

/-- `processBatch` is the loop with the real `StoreEvent`. -/
theorem processBatch_eq (u : Userver) (batch : List (Message × StoreEnv)) :
    processBatch u batch =
      processPayloads u.fromString (fun env => storeEvent u env "raw_events")
        (batch.map fun d => (d.1.payload, d.2)) := by
  induction batch with
  | nil => rfl
  | cons d rest ih =>
      rw [processBatch, ih]
      rfl

/-! ## Accepted messages -/

/-- What `As<T>()` takes. -/
def FieldType.Takes : FieldType → Json → Prop
  | .int64, j => ∃ n, j.int64? = some n
  | .int, j => ∃ n, j.int64? = some n ∧ -2 ^ 31 ≤ n ∧ n < 2 ^ 31
  | .string, j => ∃ s, j = .string s

theorem asInt64_ok {v : Option Json} {n : Int} :
    Json.asInt64 v = .ok n ↔ ∃ j, v = some j ∧ j.int64? = some n := by
  cases v with
  | none => simp [Json.asInt64]
  | some j => cases hn : j.int64? <;> simp [Json.asInt64, hn]

theorem asInt_ok {v : Option Json} {n : Int} :
    Json.asInt v = .ok n ↔
      ∃ j, v = some j ∧ j.int64? = some n ∧ -2 ^ 31 ≤ n ∧ n < 2 ^ 31 := by
  simp only [Json.asInt, except_bind_ok, asInt64_ok]
  constructor
  · rintro ⟨m, ⟨j, hj, hm⟩, hrange⟩
    split at hrange
    · rename_i hint
      obtain rfl := Except.ok.inj hrange
      exact ⟨j, hj, hm, hint⟩
    · exact absurd hrange (by simp [throw, throwThe, MonadExceptOf.throw])
  · rintro ⟨j, hj, hn, hint⟩
    exact ⟨n, ⟨j, hj, hn⟩, if_pos hint⟩

/-- A read that succeeds has found a value of its type. -/
theorem FieldType.read_ok {type : FieldType} {v : Option Json} :
    (∃ value, type.read v = .ok value) ↔ ∃ j, v = some j ∧ type.Takes j := by
  have hmap : ∀ {α : Type} (f : α → FieldValue) (x : Except Exn α),
      (∃ value, f <$> x = .ok value) ↔ ∃ a, x = .ok a := by
    intro α f x
    cases x <;> simp
  cases type with
  | int64 =>
      rw [read, hmap]
      simp only [asInt64_ok, Takes]
      exact exists_comm.trans (exists_congr fun j => exists_and_left)
  | int =>
      rw [read, hmap]
      simp only [asInt_ok, Takes]
      exact exists_comm.trans (exists_congr fun j => exists_and_left)
  | string =>
      rw [read, hmap]
      simp only [asString_ok, Takes]
      exact ⟨fun ⟨s, hs⟩ => ⟨_, hs, s, rfl⟩, fun ⟨_, hs, s, hj⟩ => ⟨s, hj ▸ hs⟩⟩

section Accepted

variable {π : Type} {parse : π → Except Exn Json}

/-- The message parses as the event `e`: an object with three strings, and with the
members that `Process*` reads if it has a known type. -/
structure Accepted (parse : π → Except Exn Json) (payload : π) (e : RawEvent) : Prop where
  json : ∃ members, parse payload = .ok (.object members) ∧
    members.lookup "event_id" = some (.string e.eventId) ∧
    members.lookup "event_type" = some (.string e.eventType) ∧
    members.lookup "timestamp" = some (.string e.timestamp) ∧
    members.lookup "payload" = e.payload
  fields : ∀ f ∈ requiredFields e.eventType, ∃ members v, e.payload = some (.object members) ∧
    members.lookup f.1 = some v ∧ f.2.Takes v

/-- Only an object has members. -/
theorem member_some {j v : Json} {key : String} :
    j.member key = .ok (some v) ↔ ∃ members, j = .object members ∧ members.lookup key = some v := by
  cases j <;> simp [Json.member]

/-- The fields of `Process*` can be read. -/
theorem readFields_takes {payload : Option Json} {fields : List (String × FieldType)} :
    (∃ values, readFields payload fields = .ok values) ↔
      ∀ f ∈ fields, ∃ members v, payload = some (.object members) ∧
        members.lookup f.1 = some v ∧ f.2.Takes v := by
  rw [readFields_ok]
  refine forall_congr' fun f => imp_congr_right fun _ => ?_
  constructor
  · rintro ⟨member, value, hmember, hread⟩
    obtain ⟨v, rfl, htakes⟩ := FieldType.read_ok.mp ⟨value, hread⟩
    cases payload with
    | none => exact absurd hmember (by simp [Json.field])
    | some j =>
        obtain ⟨members, rfl, hv⟩ := member_some.mp hmember
        exact ⟨members, v, rfl, hv, htakes⟩
  · rintro ⟨members, v, rfl, hv, htakes⟩
    obtain ⟨value, hread⟩ := FieldType.read_ok.mpr ⟨v, rfl, htakes⟩
    exact ⟨some v, value, member_some.mpr ⟨members, rfl, hv⟩, hread⟩

/-- The loop body hands on what is accepted. -/
theorem readPayload_ok {payload : π} {e : RawEvent} :
    readPayload parse payload = .ok e ↔ Accepted parse payload e := by
  simp only [readPayload, except_bind_ok, asString_ok, dispatch_eq, pure, Except.pure,
    Except.ok.injEq]
  constructor
  · rintro ⟨j, hj, _, hid, _, rfl, _, htype, _, rfl, _, htime, _, rfl, _, hpayload, values,
      hvalues, rfl⟩
    obtain ⟨members, rfl, hlookup⟩ := member_some.mp hid
    refine ⟨⟨members, hj, hlookup, ?_, ?_, Except.ok.inj hpayload⟩,
      readFields_takes.mp ⟨values, hvalues⟩⟩
    · exact Except.ok.inj htype
    · exact Except.ok.inj htime
  · rintro ⟨⟨members, hj, hid, htype, htime, hpayload⟩, hfields⟩
    obtain ⟨values, hvalues⟩ := readFields_takes.mpr hfields
    exact ⟨_, hj, _, congrArg Except.ok hid, _, rfl, _, congrArg Except.ok htype, _, rfl, _,
      congrArg Except.ok htime, _, rfl, _, congrArg Except.ok hpayload, values, hvalues, rfl⟩

/-- One payload is one event at most. -/
theorem Accepted.unique {payload : π} {e e' : RawEvent} (h : Accepted parse payload e)
    (h' : Accepted parse payload e') : e = e' :=
  Except.ok.inj ((readPayload_ok.mpr h).symm.trans (readPayload_ok.mpr h'))

theorem accepted_or_rejected (parse : π → Except Exn Json) (payload : π) :
    (∃ e, Accepted parse payload e) ∨ ∀ e, ¬Accepted parse payload e := by
  cases hread : readPayload parse payload with
  | ok e => exact Or.inl ⟨e, readPayload_ok.mp hread⟩
  | error x =>
      refine Or.inr ?_
      intro e he
      rw [← readPayload_ok, hread] at he
      exact absurd he (by simp)

/-- The events of the accepted messages, in order and once each. -/
inductive Calls (parse : π → Except Exn Json) : List π → List RawEvent → Prop
  | nil : Calls parse [] []
  | accepted {payload : π} {payloads : List π} {e : RawEvent} {events : List RawEvent} :
      Accepted parse payload e → Calls parse payloads events →
        Calls parse (payload :: payloads) (e :: events)
  | rejected {payload : π} {payloads : List π} {events : List RawEvent} :
      (∀ e, ¬Accepted parse payload e) → Calls parse payloads events →
        Calls parse (payload :: payloads) events

theorem Calls.append {payloads payloads' : List π} {events events' : List RawEvent}
    (h : Calls parse payloads events) (h' : Calls parse payloads' events') :
    Calls parse (payloads ++ payloads') (events ++ events') := by
  induction h with
  | nil => exact h'
  | accepted he _ ih => exact .accepted he ih
  | rejected hno _ ih => exact .rejected hno ih

end Accepted

/-! ## What a batch calls -/

section Run

variable {π ε σ : Type} {parse : π → Except Exn Json}
  {store : ε → RawEvent → ExceptT Exn (StateM σ) Unit}

theorem processPayload_accepted {payload : π} {e : RawEvent} (h : Accepted parse payload e)
    (env : ε) (s : σ) :
    (processPayload parse store payload env).run s = (.ok (), ((store env e).run s).2) := by
  unfold processPayload
  rw [readPayload_ok.mpr h]
  show (tryCatch (store env e) fun _ => pure () : ExceptT Exn (StateM σ) Unit).run s = _
  cases hrun : (store env e).run s with
  | mk result s' =>
      have hstore : store env e s = (result, s') := hrun
      simp only [tryCatch, tryCatchThe, MonadExceptOf.tryCatch, ExceptT.tryCatch, ExceptT.mk,
        ExceptT.run, bind, StateT.bind, hstore]
      cases result <;> rfl

theorem processPayload_rejected {payload : π} (h : ∀ e, ¬Accepted parse payload e) (env : ε) :
    processPayload parse store payload env = pure () := by
  unfold processPayload
  cases hread : readPayload parse payload with
  | ok e => exact absurd (readPayload_ok.mp hread) (h e)
  | error x => rfl

/-- A batch returns; with its calls written down it does the same and has called
`StoreEvent` for the accepted messages. -/
theorem run_recorded (parse : π → Except Exn Json)
    (store : ε → RawEvent → ExceptT Exn (StateM σ) Unit) (batch : List (π × ε)) :
    ∀ (s : σ) (log : List RawEvent), ∃ s' events,
      (processPayloads parse store batch).run s = (.ok (), s') ∧
      (processPayloads parse (recorded store) batch).run (s, log) =
        (.ok (), (s', log ++ events)) ∧
      Calls parse (batch.map Prod.fst) events := by
  induction batch with
  | nil =>
      intro s log
      exact ⟨s, [], rfl, by rw [List.append_nil]; rfl, .nil⟩
  | cons d rest ih =>
      obtain ⟨payload, env⟩ := d
      intro s log
      rcases accepted_or_rejected parse payload with ⟨e, he⟩ | hno
      · obtain ⟨s', events, hrun, hrecorded, hcalls⟩ :=
          ih ((store env e).run s).2 (log ++ [e])
        refine ⟨s', e :: events, ?_, ?_, .accepted he hcalls⟩
        · rw [processPayloads, run_bind_ok (processPayload_accepted he env s), hrun]
        · rw [processPayloads, run_bind_ok (processPayload_accepted he env (s, log)),
            List.append_cons]
          exact hrecorded
      · obtain ⟨s', events, hrun, hrecorded, hcalls⟩ := ih s log
        refine ⟨s', events, ?_, ?_, .rejected hno hcalls⟩
        · rw [processPayloads, processPayload_rejected hno, pure_bind, hrun]
        · rw [processPayloads, processPayload_rejected hno, pure_bind, hrecorded]

theorem processPayloads_append (parse : π → Except Exn Json)
    (store : ε → RawEvent → ExceptT Exn (StateM σ) Unit) (a b : List (π × ε)) :
    processPayloads parse store (a ++ b) =
      (do processPayloads parse store a
          processPayloads parse store b) := by
  induction a with
  | nil => exact (pure_bind _ _).symm
  | cons d rest ih =>
      obtain ⟨payload, env⟩ := d
      rw [List.cons_append, processPayloads, ih, processPayloads, bind_assoc]

theorem processPayloads_rejected {d : π × ε} (h : ∀ e, ¬Accepted parse d.1 e)
    (a b : List (π × ε)) :
    processPayloads parse store (a ++ d :: b) = processPayloads parse store (a ++ b) := by
  rw [processPayloads_append, processPayloads_append]
  obtain ⟨payload, env⟩ := d
  rw [processPayloads, processPayload_rejected h, pure_bind]

/-- The calls of `StoreEvent` that a batch makes. -/
def callsOf (parse : π → Except Exn Json)
    (store : ε → RawEvent → ExceptT Exn (StateM σ) Unit) (batch : List (π × ε)) (s : σ) :
    List RawEvent :=
  ((processPayloads parse (recorded store) batch).run (s, [])).2.2

theorem callsOf_spec (parse : π → Except Exn Json)
    (store : ε → RawEvent → ExceptT Exn (StateM σ) Unit) (batch : List (π × ε)) (s : σ) :
    ∃ s', (processPayloads parse store batch).run s = (.ok (), s') ∧
      (processPayloads parse (recorded store) batch).run (s, []) =
        (.ok (), (s', callsOf parse store batch s)) ∧
      Calls parse (batch.map Prod.fst) (callsOf parse store batch s) := by
  obtain ⟨s', events, hrun, hrecorded, hcalls⟩ := run_recorded parse store batch s []
  have heq : callsOf parse store batch s = events := by
    rw [callsOf, hrecorded]
    rfl
  rw [heq]
  exact ⟨s', hrun, hrecorded, hcalls⟩

/-- The accepted messages decide the calls. -/
theorem Calls.unique {payloads : List π} {events events' : List RawEvent}
    (h : Calls parse payloads events) (h' : Calls parse payloads events') : events = events' := by
  induction h generalizing events' with
  | nil =>
      cases h'
      rfl
  | accepted he _ ih =>
      cases h' with
      | accepted he' hrest => rw [he.unique he', ih hrest]
      | rejected hno _ => exact absurd he (hno _)
  | rejected hno _ ih =>
      cases h' with
      | accepted he' _ => exact absurd he' (hno _)
      | rejected _ hrest => exact ih hrest

/-- **A message does not affect another.** Whatever `StoreEvent` does, a batch returns
and has called it for the accepted messages; it can be cut anywhere, and a rejected
message can be left out. -/
theorem batch_independent (parse : π → Except Exn Json)
    (store : ε → RawEvent → ExceptT Exn (StateM σ) Unit) :
    (∀ batch s, ∃ s', (processPayloads parse store batch).run s = (.ok (), s') ∧
      (processPayloads parse (recorded store) batch).run (s, []) =
        (.ok (), (s', callsOf parse store batch s)) ∧
      Calls parse (batch.map Prod.fst) (callsOf parse store batch s)) ∧
    (∀ a b s s', (processPayloads parse store a).run s = (.ok (), s') →
      (processPayloads parse store (a ++ b)).run s = (processPayloads parse store b).run s' ∧
      callsOf parse store (a ++ b) s = callsOf parse store a s ++ callsOf parse store b s') ∧
    ∀ a d b s, (∀ e, ¬Accepted parse d.1 e) →
      (processPayloads parse store (a ++ d :: b)).run s =
        (processPayloads parse store (a ++ b)).run s ∧
      callsOf parse store (a ++ d :: b) s = callsOf parse store (a ++ b) s := by
  refine ⟨callsOf_spec parse store, ?_, ?_⟩
  · intro a b s s' hrun
    refine ⟨by rw [processPayloads_append, run_bind_ok hrun], ?_⟩
    obtain ⟨_, _, _, hcalls⟩ := callsOf_spec parse store (a ++ b) s
    obtain ⟨_, _, _, hfirst⟩ := callsOf_spec parse store a s
    obtain ⟨_, _, _, hsecond⟩ := callsOf_spec parse store b s'
    rw [List.map_append] at hcalls
    exact hcalls.unique (hfirst.append hsecond)
  · intro a d b s hno
    refine ⟨by rw [processPayloads_rejected hno], ?_⟩
    rw [callsOf, processPayloads_rejected hno]
    rfl

end Run

/-- A `StoreEvent` that throws, between a message and an empty payload. -/
theorem batch_independent_sample :
    callsOf Sample.userver.fromString
      (fun _ _ => throw (.unavailable "mongo") : Unit → RawEvent → ExceptT Exn (StateM Unit) Unit)
      [("", ()), (Sample.message.payload, ()), ("", ())] () = [Sample.event] := by
  set store : Unit → RawEvent → ExceptT Exn (StateM Unit) Unit :=
    fun _ _ => throw (.unavailable "mongo")
  obtain ⟨hcalls, -, -⟩ := batch_independent Sample.userver.fromString store
  obtain ⟨_, _, _, hevents⟩ := hcalls [("", ()), (Sample.message.payload, ()), ("", ())] ()
  have hempty : ∀ e, ¬Accepted Sample.userver.fromString "" e := by
    rintro e ⟨⟨members, hparse, _⟩, _⟩
    have herror : Sample.userver.fromString "" = .error .parseError := by
      have hne : "" ≠ Sample.message.payload := by decide
      have hne' : "" ≠ Sample.other.payload := by decide
      simp [Sample.userver, hne, hne']
    rw [herror] at hparse
    exact absurd hparse (by simp)
  have hmessage : Accepted Sample.userver.fromString Sample.message.payload Sample.event :=
    readPayload_ok.mp Sample.readEvent_message
  exact hevents.unique (.rejected hempty (.accepted hmessage (.rejected hempty .nil)))

section ProcessBatch

variable (u : Userver)

/-- The calls of `StoreEvent` that `ProcessBatch` makes. -/
def storeEventCalls (batch : List (Message × StoreEnv)) (db : Collections) : List RawEvent :=
  callsOf u.fromString (fun env => storeEvent u env "raw_events")
    (batch.map fun d => (d.1.payload, d.2)) db

/-- So it is with `ProcessBatch` and its own `StoreEvent`. -/
theorem processBatch_independent :
    (∀ batch db, (∃ db', (processBatch u batch).run db = (.ok (), db')) ∧
      Calls u.fromString (batch.map fun d => d.1.payload) (storeEventCalls u batch db)) ∧
    (∀ a b, processBatch u (a ++ b) = (do processBatch u a; processBatch u b)) ∧
    ∀ a d b, (∀ e, ¬Accepted u.fromString d.1.payload e) →
      processBatch u (a ++ d :: b) = processBatch u (a ++ b) := by
  refine ⟨fun batch db => ?_, fun a b => ?_, fun a d b hno => ?_⟩
  · obtain ⟨db', hrun, _, hcalls⟩ := callsOf_spec u.fromString
      (fun env => storeEvent u env "raw_events") (batch.map fun d => (d.1.payload, d.2)) db
    rw [List.map_map] at hcalls
    rw [processBatch_eq]
    exact ⟨⟨db', hrun⟩, hcalls⟩
  · rw [processBatch_eq, processBatch_eq, processBatch_eq, List.map_append,
      processPayloads_append]
  · rw [processBatch_eq, processBatch_eq, List.map_append, List.map_append, List.map_cons,
      processPayloads_rejected hno]

end ProcessBatch

end MyService.Event.EventConsumer
