import MyService.Chrono
import MyService.Framework.Prog
import MyService.Userver.Bson
import Mathlib.Data.List.Nodup
import Mathlib.Logic.Function.Basic

/-!
# EventConsumer

`ProcessBatch` decodes each Kafka message, hands its payload to the handler of
its event type and stores it in `raw_events`. Two levels of `try` stand around
this: `StoreEvent` catches whatever its own calls throw, and the loop body
catches whatever is left.

`run_processBatch` says what a batch does: the documents of the messages whose
decoding and whose three `StoreEvent` calls succeed, in order. Both delivery
properties are read off it. A message is in `raw_events` afterwards exactly when
some delivery of it got through (`noEventLost_iff`), and an event id is stored once
exactly when it got through once (`consume_idempotent_iff`).
-/

namespace MyService.Event.EventConsumer

open Framework Userver Chrono

/-- A Kafka message, as far as the consumer reads it. -/
structure Message where
  payload : String

/-- The collections of the database by name. MongoDB assigns the `_id` of these
documents and nothing reads it. -/
abbrev Collections : Type := String → List (List (String × Bson))

/-- What the calls of one `StoreEvent` meet. -/
structure StoreEnv where
  /-- the BSON conversion fails -/
  conversionFault : Option Exn
  now : Int
  /-- `utils::datetime::Timestring(tp, timezone)`, with the time zones installed -/
  timestring : Int → String → Except Exn String
  /-- `InsertOne` fails -/
  insertFault : Option Exn

abbrev ConsumerM : Type → Type := ExceptT Exn (StateM Collections)

/-! ## Reading the payload -/

inductive FieldType where
  | int64
  | int
  | string
deriving DecidableEq

inductive FieldValue where
  | int (n : Int)
  | string (s : String)
deriving DecidableEq

/-- `As<T>()`. -/
def FieldType.read : FieldType → Option Json → Except Exn FieldValue
  | .int64, v => .int <$> Json.asInt64 v
  | .int, v => .int <$> Json.asInt v
  | .string, v => .string <$> Json.asString v

/-- Read the fields in order and stop at the first that fails. -/
def readFields (payload : Option Json) :
    List (String × FieldType) → Except Exn (List FieldValue)
  | [] => pure []
  | (key, type) :: rest => do
      let v ← type.read (← Json.field payload key)
      pure (v :: (← readFields payload rest))

def processUserRegistered (payload : Option Json) : Except Exn (List FieldValue) :=
  readFields payload
    [("user_id", .int64), ("login", .string), ("email", .string),
     ("first_name", .string), ("last_name", .string)]

def processUserLoggedIn (payload : Option Json) : Except Exn (List FieldValue) :=
  readFields payload [("user_id", .int64), ("login", .string), ("ip_address", .string)]

def processProjectCreated (payload : Option Json) : Except Exn (List FieldValue) :=
  readFields payload
    [("project_id", .int64), ("name", .string), ("key", .string), ("owner_id", .int64)]

def processTaskCreated (payload : Option Json) : Except Exn (List FieldValue) :=
  readFields payload
    [("task_id", .int64), ("project_id", .int64), ("title", .string), ("priority", .int),
     ("status", .string)]

def processCommentAdded (payload : Option Json) : Except Exn (List FieldValue) :=
  readFields payload
    [("comment_id", .string), ("task_id", .int64), ("author", .string), ("text", .string)]

/-- The handler of an event type; an unknown type is only logged. -/
def dispatch (eventType : String) (payload : Option Json) :
    Except Exn (List FieldValue) :=
  if eventType = "UserRegistered" then processUserRegistered payload
  else if eventType = "UserLoggedIn" then processUserLoggedIn payload
  else if eventType = "ProjectCreated" then processProjectCreated payload
  else if eventType = "TaskCreated" then processTaskCreated payload
  else if eventType = "CommentAdded" then processCommentAdded payload
  else pure []

/-- The arguments of `StoreEvent`. -/
structure RawEvent where
  eventId : String
  eventType : String
  timestamp : String
  payload : Option Json

/-- The loop body up to the call of `StoreEvent`. -/
def readEvent (u : Userver) (message : Message) : Except Exn RawEvent := do
  let json ← u.fromString message.payload
  let eventId ← Json.asString (← json.member "event_id")
  let eventType ← Json.asString (← json.member "event_type")
  let timestamp ← Json.asString (← json.member "timestamp")
  let payload ← json.member "payload"
  let _ ← dispatch eventType payload
  pure { eventId := eventId, eventType := eventType, timestamp := timestamp,
         payload := payload }

/-! ## Storing -/

/-- The second argument of `Timestring` is a time zone. -/
def getCurrentTimestampISO (env : StoreEnv) : Except Exn String :=
  env.timestring env.now "Y-m-dTH:M:SZ"

/-- `formats::json::ToString` of a value that may be missing. -/
def jsonToString (u : Userver) : Option Json → Except Exn String
  | none => .error .memberMissing
  | some j => .ok (u.toString j)

def fromJsonString (u : Userver) (env : StoreEnv) (text : String) : Except Exn Bson :=
  match env.conversionFault with
  | some e => .error e
  | none => u.fromJsonString text

/-- `InsertOne`. -/
def insertOne (env : StoreEnv) (collection : String) (doc : List (String × Bson)) :
    ConsumerM Unit := do
  match env.insertFault with
  | some e => throw e
  | none => modify fun db => Function.update db collection (db collection ++ [doc])

def storeEvent (u : Userver) (env : StoreEnv) (collectionName : String)
    (event : RawEvent) : ConsumerM Unit := do
  try
    let payloadStr ← jsonToString u event.payload
    let payloadBson ← fromJsonString u env payloadStr
    let bsonDoc :=
      [("event_id", .string event.eventId),
       ("event_type", .string event.eventType),
       ("timestamp", .string event.timestamp),
       ("payload", payloadBson),
       ("processed_at", .string (← getCurrentTimestampISO env))]
    insertOne env collectionName bsonDoc
  -- the exception is logged and ends here, so the batch goes on
  catch _ => pure ()

def processMessage (u : Userver) (env : StoreEnv) (message : Message) :
    ConsumerM Unit := do
  try
    let event ← readEvent u message
    storeEvent u env "raw_events" event
  catch _ => pure ()

def processBatch (u : Userver) : List (Message × StoreEnv) → ConsumerM Unit
  | [] => pure ()
  | (message, env) :: messages => do
      processMessage u env message
      processBatch u messages

/-! ## What is stored -/

/-- The document `StoreEvent` builds, before it inserts it. -/
def builtDoc (u : Userver) (env : StoreEnv) (event : RawEvent) :
    Except Exn (List (String × Bson)) := do
  let payloadStr ← jsonToString u event.payload
  let payloadBson ← fromJsonString u env payloadStr
  let processedAt ← getCurrentTimestampISO env
  pure
    [("event_id", .string event.eventId),
     ("event_type", .string event.eventType),
     ("timestamp", .string event.timestamp),
     ("payload", payloadBson),
     ("processed_at", .string processedAt)]

/-- The document a delivery gets as far as inserting. -/
def reachesInsert (u : Userver) (delivery : Message × StoreEnv) :
    Option (List (String × Bson)) :=
  ((readEvent u delivery.1).bind (builtDoc u delivery.2)).toOption

/-- The document a delivery leaves in `raw_events`. -/
def stores (u : Userver) (delivery : Message × StoreEnv) : Option (List (String × Bson)) :=
  if delivery.2.insertFault.isNone then reachesInsert u delivery else none

theorem stores_eq {u : Userver} {delivery : Message × StoreEnv}
    (h : delivery.2.insertFault = none) : stores u delivery = reachesInsert u delivery := by
  rw [stores, h]
  rfl

/-- `db` with documents appended to one collection. -/
def Collections.appended (db : Collections) (name : String)
    (docs : List (List (String × Bson))) : Collections :=
  Function.update db name (db name ++ docs)

@[simp] theorem Collections.appended_self (db : Collections) (name : String)
    (docs : List (List (String × Bson))) :
    db.appended name docs name = db name ++ docs := by
  simp [appended]

@[simp] theorem Collections.appended_nil (db : Collections) (name : String) :
    db.appended name [] = db := by
  simp [appended]

theorem Collections.appended_append (db : Collections) (name : String)
    (docs docs' : List (List (String × Bson))) :
    (db.appended name docs).appended name docs' = db.appended name (docs ++ docs') := by
  simp [appended]

theorem run_bind_ok {σ α β : Type} {p : ExceptT Exn (StateM σ) α} {a : α} {s s' : σ}
    (h : p.run s = (.ok a, s')) (f : α → ExceptT Exn (StateM σ) β) :
    (p >>= f).run s = (f a).run s' := by
  show StateT.bind p (ExceptT.bindCont f) s = _
  have hp : p s = (.ok a, s') := h
  unfold StateT.bind
  simp only [hp]
  rfl

theorem run_try_ok {α : Type} {p : ConsumerM α} {a : α} {db db' : Collections}
    (h : p.run db = (.ok a, db')) (handler : Exn → ConsumerM α) :
    (tryCatch p handler).run db = (.ok a, db') := by
  have hp : p db = (.ok a, db') := h
  simp only [tryCatch, tryCatchThe, MonadExceptOf.tryCatch, ExceptT.tryCatch, ExceptT.mk,
    ExceptT.run, bind, StateT.bind, hp]
  rfl

theorem lift_ok_bind {α β : Type} (a : α) (f : α → ConsumerM β) :
    ((liftM (Except.ok a : Except Exn α) : ConsumerM α) >>= f) = f a := rfl

/-- `StoreEvent` always returns; what fails inside it only leaves the document out. -/
theorem run_storeEvent (u : Userver) (env : StoreEnv) (name : String) (event : RawEvent)
    (db : Collections) :
    (storeEvent u env name event).run db =
      (.ok (), match builtDoc u env event, env.insertFault with
        | .ok doc, none => db.appended name [doc]
        | _, _ => db) := by
  unfold storeEvent builtDoc
  cases jsonToString u event.payload with
  | error e => rfl
  | ok text =>
      simp only [lift_ok_bind]
      cases h₂ : fromJsonString u env text with
      | error e => simp only [bind, Except.bind, h₂]; rfl
      | ok payloadBson =>
          cases getCurrentTimestampISO env with
          | error e => simp only [bind, Except.bind, h₂]; rfl
          | ok processedAt =>
              cases h₄ : env.insertFault with
              | some e => simp only [bind, Except.bind, h₂, insertOne, h₄]; rfl
              | none => simp only [bind, Except.bind, h₂, insertOne, h₄]; rfl

/-- One delivery appends at most one document, and never throws. -/
theorem run_processMessage (u : Userver) (env : StoreEnv) (message : Message)
    (db : Collections) :
    (processMessage u env message).run db =
      (.ok (), db.appended "raw_events" (stores u (message, env)).toList) := by
  have hrun : (processMessage u env message).run db =
      match readEvent u message with
      | .error _ => (.ok (), db)
      | .ok event => (storeEvent u env "raw_events" event).run db := by
    unfold processMessage
    cases readEvent u message with
    | error e => rfl
    | ok event =>
        simp only [lift_ok_bind]
        rw [run_storeEvent]
        exact run_try_ok (run_storeEvent u env "raw_events" event db) _
  rw [hrun]
  unfold stores reachesInsert
  cases readEvent u message with
  | error e => simp [Except.bind, Except.toOption]
  | ok event =>
      simp only [run_storeEvent, Except.bind]
      cases builtDoc u env event <;> cases env.insertFault <;>
        simp [Except.toOption]

/-- **What a batch does.** It always returns, and `raw_events` has grown by the
documents of the deliveries that got through, in order. -/
theorem run_processBatch (u : Userver) (batch : List (Message × StoreEnv))
    (db : Collections) :
    (processBatch u batch).run db =
      (.ok (), db.appended "raw_events" (batch.filterMap (stores u))) := by
  induction batch generalizing db with
  | nil => simp [processBatch]; rfl
  | cons delivery batch ih =>
      obtain ⟨message, env⟩ := delivery
      rw [processBatch, run_bind_ok (run_processMessage u env message db), ih,
        Collections.appended_append]
      cases h : stores u (message, env) <;> simp [h]

/-! ## Well-formed messages -/

/-- The payload fields of each event type. -/
def requiredFields (eventType : String) : List (String × FieldType) :=
  if eventType = "UserRegistered" then
    [("user_id", .int64), ("login", .string), ("email", .string),
     ("first_name", .string), ("last_name", .string)]
  else if eventType = "UserLoggedIn" then
    [("user_id", .int64), ("login", .string), ("ip_address", .string)]
  else if eventType = "ProjectCreated" then
    [("project_id", .int64), ("name", .string), ("key", .string), ("owner_id", .int64)]
  else if eventType = "TaskCreated" then
    [("task_id", .int64), ("project_id", .int64), ("title", .string), ("priority", .int),
     ("status", .string)]
  else if eventType = "CommentAdded" then
    [("comment_id", .string), ("task_id", .int64), ("author", .string), ("text", .string)]
  else []

theorem dispatch_eq (eventType : String) (payload : Option Json) :
    dispatch eventType payload = readFields payload (requiredFields eventType) := by
  unfold dispatch requiredFields
  repeat' split
  all_goals rfl

/-- Reading succeeds exactly when every field does. -/
theorem readFields_ok {payload : Option Json} {fields : List (String × FieldType)} :
    (∃ values, readFields payload fields = .ok values) ↔
      ∀ f ∈ fields, ∃ member v, Json.field payload f.1 = .ok member ∧
        f.2.read member = .ok v := by
  induction fields with
  | nil => simp [readFields, pure, Except.pure]
  | cons f fields ih =>
      obtain ⟨key, type⟩ := f
      rw [List.forall_mem_cons, ← ih]
      simp only [readFields, except_bind_ok, pure, Except.pure, Except.ok.injEq]
      constructor
      · rintro ⟨_, member, hmember, v, hv, values, hvalues, rfl⟩
        exact ⟨⟨member, v, hmember, hv⟩, values, hvalues⟩
      · rintro ⟨⟨member, v, hmember, hv⟩, values, hvalues⟩
        exact ⟨_, member, hmember, v, hv, values, hvalues, rfl⟩

/-- The message carries the event `e`: its JSON is well formed, with string
`event_id`, `event_type` and `timestamp` and an object payload with the fields its
type requires. -/
structure WellFormed (u : Userver) (message : Message) (e : RawEvent) : Prop where
  json : ∃ j, u.fromString message.payload = .ok j ∧
    j.member "event_id" = .ok (some (.string e.eventId)) ∧
    j.member "event_type" = .ok (some (.string e.eventType)) ∧
    j.member "timestamp" = .ok (some (.string e.timestamp)) ∧
    j.member "payload" = .ok e.payload
  payload : ∃ members, e.payload = some (.object members) ∧
    ∀ f ∈ requiredFields e.eventType, ∃ v, f.2.read (members.lookup f.1) = .ok v

theorem asString_ok {v : Option Json} {s : String} :
    Json.asString v = .ok s ↔ v = some (.string s) := by
  cases v with
  | none => simp [Json.asString]
  | some j => cases j <;> simp [Json.asString]

/-- The consumer reads an event off a message exactly when the message carries it,
but for the payload of an event of an unknown type, which need not be an object. -/
theorem readEvent_ok {u : Userver} {message : Message} {e : RawEvent} :
    readEvent u message = .ok e ↔
      (∃ j, u.fromString message.payload = .ok j ∧
        j.member "event_id" = .ok (some (.string e.eventId)) ∧
        j.member "event_type" = .ok (some (.string e.eventType)) ∧
        j.member "timestamp" = .ok (some (.string e.timestamp)) ∧
        j.member "payload" = .ok e.payload) ∧
      ∃ values, dispatch e.eventType e.payload = .ok values := by
  simp only [readEvent, except_bind_ok, asString_ok, pure, Except.pure, Except.ok.injEq]
  constructor
  · rintro ⟨j, hj, _, hid, _, rfl, _, htype, _, rfl, _, htime, _, rfl, _, hpayload,
      values, hdispatch, rfl⟩
    exact ⟨⟨j, hj, hid, htype, htime, hpayload⟩, values, hdispatch⟩
  · rintro ⟨⟨j, hj, hid, htype, htime, hpayload⟩, values, hdispatch⟩
    exact ⟨j, hj, _, hid, _, rfl, _, htype, _, rfl, _, htime, _, rfl, _, hpayload,
      values, hdispatch, rfl⟩

theorem wellFormed_iff {u : Userver} {message : Message} {e : RawEvent} :
    WellFormed u message e ↔
      readEvent u message = .ok e ∧ ∃ members, e.payload = some (.object members) := by
  rw [readEvent_ok, dispatch_eq]
  constructor
  · rintro ⟨hjson, members, hpayload, hfields⟩
    refine ⟨⟨hjson, readFields_ok.mpr fun f hf => ?_⟩, members, hpayload⟩
    obtain ⟨v, hv⟩ := hfields f hf
    exact ⟨_, v, by rw [hpayload]; rfl, hv⟩
  · rintro ⟨⟨hjson, hvalues⟩, members, hpayload⟩
    refine ⟨hjson, members, hpayload, ?_⟩
    intro f hf
    obtain ⟨member, v, hmember, hv⟩ := readFields_ok.mp hvalues f hf
    rw [hpayload] at hmember
    obtain rfl := Except.ok.inj hmember
    exact ⟨v, hv⟩

/-! ## Delivery -/

/-- The document holds the event: its id, type and timestamp, and its payload as BSON. -/
structure Records (u : Userver) (e : RawEvent) (doc : List (String × Bson)) : Prop where
  eventId : doc.lookup "event_id" = some (.string e.eventId)
  eventType : doc.lookup "event_type" = some (.string e.eventType)
  timestamp : doc.lookup "timestamp" = some (.string e.timestamp)
  payload : ∃ text bson, jsonToString u e.payload = .ok text ∧
    u.fromJsonString text = .ok bson ∧ doc.lookup "payload" = some bson

def HasDocument (u : Userver) (docs : List (List (String × Bson))) (e : RawEvent) : Prop :=
  ∃ doc ∈ docs, Records u e doc

/-- The delivery carries the content of `e`, and the calls `StoreEvent` makes for it
all succeed. -/
structure GetsThrough (u : Userver) (delivery : Message × StoreEnv) (e : RawEvent) :
    Prop where
  carries : ∃ e', readEvent u delivery.1 = .ok e' ∧ e'.eventId = e.eventId ∧
    e'.eventType = e.eventType ∧ e'.timestamp = e.timestamp ∧
    ∃ text text' bson, jsonToString u e.payload = .ok text ∧ jsonToString u e'.payload = .ok text' ∧
      u.fromJsonString text = .ok bson ∧ u.fromJsonString text' = .ok bson
  conversion : delivery.2.conversionFault = none
  formatting : ∃ text, getCurrentTimestampISO delivery.2 = .ok text
  insert : delivery.2.insertFault = none

theorem fromJsonString_ok {u : Userver} {env : StoreEnv} {text : String} {bson : Bson} :
    fromJsonString u env text = .ok bson ↔
      env.conversionFault = none ∧ u.fromJsonString text = .ok bson := by
  unfold fromJsonString
  cases env.conversionFault <;> simp

theorem builtDoc_ok {u : Userver} {env : StoreEnv} {e : RawEvent}
    {doc : List (String × Bson)} :
    builtDoc u env e = .ok doc ↔
      ∃ text bson processedAt, jsonToString u e.payload = .ok text ∧
        (env.conversionFault = none ∧ u.fromJsonString text = .ok bson) ∧
        getCurrentTimestampISO env = .ok processedAt ∧
        doc =
          [("event_id", .string e.eventId), ("event_type", .string e.eventType),
           ("timestamp", .string e.timestamp), ("payload", bson),
           ("processed_at", .string processedAt)] := by
  simp only [builtDoc, except_bind_ok, fromJsonString_ok, pure, Except.pure, Except.ok.injEq]
  constructor
  · rintro ⟨text, htext, bson, hbson, processedAt, hprocessed, rfl⟩
    exact ⟨text, bson, processedAt, htext, hbson, hprocessed, rfl⟩
  · rintro ⟨text, bson, processedAt, htext, hbson, hprocessed, rfl⟩
    exact ⟨text, htext, bson, hbson, processedAt, hprocessed, rfl⟩

theorem reachesInsert_some {u : Userver} {delivery : Message × StoreEnv}
    {doc : List (String × Bson)} :
    reachesInsert u delivery = some doc ↔
      ∃ e, readEvent u delivery.1 = .ok e ∧ builtDoc u delivery.2 e = .ok doc := by
  unfold reachesInsert
  cases readEvent u delivery.1 with
  | error _ => simp [Except.bind, Except.toOption]
  | ok e => cases h : builtDoc u delivery.2 e <;> simp [Except.bind, Except.toOption, h]

/-- A delivery leaves a document of `e` exactly when it gets through. -/
theorem stores_records {u : Userver} {delivery : Message × StoreEnv} {e : RawEvent} :
    (∃ doc, stores u delivery = some doc ∧ Records u e doc) ↔ GetsThrough u delivery e := by
  constructor
  · rintro ⟨doc, hdoc, hrec⟩
    unfold stores at hdoc
    split at hdoc
    · -- the document is the one that was built from what was read
      rename_i hinsert
      obtain ⟨e', hread, hbuilt⟩ := reachesInsert_some.mp hdoc
      obtain ⟨text', bson, processedAt, htext', ⟨hfault, hbson⟩, hformat, rfl⟩ :=
        builtDoc_ok.mp hbuilt
      obtain ⟨text, bson', htext, hbson', hpayload⟩ := hrec.payload
      have hid := hrec.eventId
      have htype := hrec.eventType
      have htime := hrec.timestamp
      simp [List.lookup_cons] at hid htype htime hpayload
      subst hpayload
      exact ⟨⟨e', hread, hid, htype, htime, text, text', bson, htext, htext', hbson', hbson⟩,
        hfault, ⟨processedAt, hformat⟩, by simpa using hinsert⟩
    · exact absurd hdoc (by simp)
  · rintro ⟨⟨e', hread, hid, htype, htime, text, text', bson, htext, htext', hbson, hbson'⟩,
      hfault, ⟨processedAt, hformat⟩, hinsert⟩
    have hbuilt := builtDoc_ok.mpr
      ⟨text', bson, processedAt, htext', ⟨hfault, hbson'⟩, hformat, rfl⟩
    refine ⟨_, (stores_eq hinsert).trans (reachesInsert_some.mpr ⟨e', hread, hbuilt⟩),
      ?_, ?_, ?_, text, bson, htext, hbson, ?_⟩
    · simp [hid]
    · simp [List.lookup_cons, htype]
    · simp [List.lookup_cons, htime]
    · simp [List.lookup_cons]

/-- Every well-formed message of a batch that counts as processed is in `raw_events`. -/
def NoEventLost (u : Userver) (db : Collections) (batch : List (Message × StoreEnv)) :
    Prop :=
  ∀ stored, (processBatch u batch).run db = (.ok (), stored) →
    ∀ delivery ∈ batch, ∀ e, WellFormed u delivery.1 e →
      HasDocument u (stored "raw_events") e

/-- **When a batch loses no event.** Every event that is not stored yet has to get
through on some delivery: a failed `StoreEvent` is not retried and not reported. -/
theorem noEventLost_iff (u : Userver) (db : Collections)
    (batch : List (Message × StoreEnv)) :
    NoEventLost u db batch ↔
      ∀ delivery ∈ batch, ∀ e, WellFormed u delivery.1 e →
        HasDocument u (db "raw_events") e ∨ ∃ d ∈ batch, GetsThrough u d e := by
  have hdocs : ∀ e, HasDocument u (db "raw_events" ++ batch.filterMap (stores u)) e ↔
      HasDocument u (db "raw_events") e ∨ ∃ d ∈ batch, GetsThrough u d e := by
    intro e
    unfold HasDocument
    simp only [List.mem_append, or_and_right, exists_or, List.mem_filterMap]
    refine or_congr Iff.rfl ?_
    constructor
    · rintro ⟨doc, ⟨d, hd, hstores⟩, hrec⟩
      exact ⟨d, hd, stores_records.mp ⟨doc, hstores, hrec⟩⟩
    · rintro ⟨d, hd, hthrough⟩
      obtain ⟨doc, hstores, hrec⟩ := stores_records.mpr hthrough
      exact ⟨doc, ⟨d, hd, hstores⟩, hrec⟩
  unfold NoEventLost
  rw [run_processBatch]
  constructor
  · intro h delivery hd e he
    have hafter := h _ rfl delivery hd e he
    rw [Collections.appended_self] at hafter
    exact (hdocs e).mp hafter
  · intro h stored hstored delivery hd e he
    obtain rfl := (Prod.mk.inj hstored).2
    rw [Collections.appended_self]
    exact (hdocs e).mpr (h delivery hd e he)

/-! A login event as the producer writes it, with a library that reads it. -/

namespace Sample

def payload : Json :=
  .object [("user_id", .int 1), ("login", .string "ann"), ("ip_address", .string "::1")]

def payloadText : String :=
  "\x7b\"user_id\":1,\"login\":\"ann\",\"ip_address\":\"::1\"\x7d"

def event : RawEvent :=
  { eventId := "550e8400-e29b-41d4-a716-446655440000"
    eventType := "UserLoggedIn"
    timestamp := "2026-05-20T10:30:00.000Z"
    payload := some payload }

/-- The event's message, and the same under another id. -/
def text (eventId : String) : String :=
  "\x7b\"event_id\":\"" ++ eventId ++ "\"," ++
    "\"event_type\":\"UserLoggedIn\",\"timestamp\":\"2026-05-20T10:30:00.000Z\"," ++
    "\"version\":\"1.0\",\"payload\":" ++ payloadText ++ "\x7d"

def json (eventId : String) : Json :=
  .object
    [("event_id", .string eventId), ("event_type", .string event.eventType),
     ("timestamp", .string event.timestamp), ("version", .string "1.0"),
     ("payload", payload)]

def message : Message := { payload := text event.eventId }

def otherId : String := "6ba7b810-9dad-41d1-80b4-00c04fd430c8"

def other : Message := { payload := text otherId }

def bson : Bson :=
  .document [("user_id", .int32 1), ("login", .string "ann"), ("ip_address", .string "::1")]

def userver : Userver :=
  { fromString := fun text =>
      if text = message.payload then .ok (json event.eventId)
      else if text = other.payload then .ok (json otherId)
      else .error .parseError
    toString := fun _ => payloadText
    fromJsonString := fun text => if text = payloadText then .ok bson else .error .parseError
    sha256 := fun s => s
    signHs256 := fun _ userId _ _ _ => userId }

/-- `Timestring` with this one time zone installed, at an offset of zero. -/
def timestringIn (installed : String) (tp : Int) (zone : String) : Except Exn String :=
  if zone = installed then .ok (isoSeconds tp) else .error .invalidArgument

/-- Every call of `StoreEvent` succeeds: there is a zone of the format's name. -/
def env : StoreEnv :=
  { conversionFault := none, now := 1779273001 * ticksPerSecond
    timestring := timestringIn "Y-m-dTH:M:SZ", insertFault := none }

/-- The BSON conversion fails. -/
def unconverted : StoreEnv := { env with conversionFault := some .conversionError }

theorem readEvent_message : readEvent userver message = .ok event := by
  have hjson : userver.fromString message.payload = .ok (json event.eventId) := by simp [userver]
  rw [readEvent_ok]
  exact ⟨⟨json event.eventId, hjson, rfl, rfl, rfl, rfl⟩, _, rfl⟩

theorem readEvent_other : readEvent userver other = .ok { event with eventId := otherId } := by
  have hne : other.payload ≠ message.payload := by decide
  have hjson : userver.fromString other.payload = .ok (json otherId) := by simp [userver, hne]
  rw [readEvent_ok]
  exact ⟨⟨json otherId, hjson, rfl, rfl, rfl, rfl⟩, _, rfl⟩

/-- The document of the event under an id. -/
def document (eventId : String) : List (String × Bson) :=
  [("event_id", .string eventId), ("event_type", .string event.eventType),
   ("timestamp", .string event.timestamp), ("payload", bson),
   ("processed_at", .string (isoSeconds env.now))]

theorem reachesInsert_of_read {m : Message} {eventId : String}
    (hread : readEvent userver m = .ok { event with eventId := eventId }) :
    reachesInsert userver (m, env) = some (document eventId) := by
  have hformat : getCurrentTimestampISO env = .ok (isoSeconds env.now) := by
    simp [getCurrentTimestampISO, env, timestringIn]
  refine reachesInsert_some.mpr ⟨_, hread, builtDoc_ok.mpr ?_⟩
  exact ⟨payloadText, bson, _, rfl, ⟨rfl, by simp [userver]⟩, hformat, rfl⟩

theorem reachesInsert_message :
    reachesInsert userver (message, env) = some (document event.eventId) :=
  reachesInsert_of_read readEvent_message

theorem reachesInsert_unconverted (m : Message) :
    reachesInsert userver (m, unconverted) = none := by
  rw [Option.eq_none_iff_forall_not_mem]
  intro doc hdoc
  obtain ⟨e, _, hbuilt⟩ := reachesInsert_some.mp hdoc
  obtain ⟨_, _, _, _, ⟨hfault, _⟩, _⟩ := builtDoc_ok.mp hbuilt
  exact absurd hfault (by simp [unconverted])

end Sample

/-- One message whose `InsertOne` fails: the batch returns and the event is gone. -/
theorem noEventLost_fails_on_insert :
    ¬NoEventLost Sample.userver (fun _ => [])
      [(Sample.message, { Sample.env with insertFault := some (.unavailable "mongo") })] := by
  intro h
  have hwell : WellFormed Sample.userver Sample.message Sample.event :=
    wellFormed_iff.mpr ⟨Sample.readEvent_message, _, rfl⟩
  obtain ⟨doc, hdoc, _⟩ := h _ (run_processBatch _ _ _) _ List.mem_cons_self _ hwell
  simp [stores] at hdoc

/-! ## Redelivery -/

/-- Batches handed to the consumer one after another. -/
def consume (u : Userver) : List (List (Message × StoreEnv)) → ConsumerM Unit
  | [] => pure ()
  | batch :: batches => do
      processBatch u batch
      consume u batches

/-- The split into batches does not matter. -/
theorem run_consume (u : Userver) (batches : List (List (Message × StoreEnv)))
    (db : Collections) :
    (consume u batches).run db =
      (.ok (), db.appended "raw_events" (batches.flatten.filterMap (stores u))) := by
  induction batches generalizing db with
  | nil => simp [consume]; rfl
  | cons batch batches ih =>
      rw [consume, run_bind_ok (run_processBatch u batch db), ih, Collections.appended_append]
      simp

/-- The `event_id` of a document. -/
def storedId (doc : List (String × Bson)) : Option String :=
  match doc.lookup "event_id" with
  | some (.string id) => some id
  | _ => none

/-- At most one document per event id. -/
def Idempotent (docs : List (List (String × Bson))) : Prop :=
  ∀ id, (docs.filter fun doc => storedId doc = some id).length ≤ 1

/-- The event id of a delivery that gets as far as `InsertOne`. -/
def insertedId (u : Userver) (delivery : Message × StoreEnv) : Option String :=
  (reachesInsert u delivery).bind storedId

theorem idempotent_iff (docs : List (List (String × Bson))) :
    Idempotent docs ↔ (docs.filterMap storedId).Nodup := by
  have hcount : ∀ id, (docs.filter fun doc => storedId doc = some id).length =
      (docs.filterMap storedId).count id := by
    intro id
    rw [List.count_filterMap, ← List.countP_eq_length_filter]
    congr 1
    ext doc
    rw [Bool.eq_iff_iff]
    simp
  unfold Idempotent
  simp only [hcount]
  exact List.nodup_iff_count_le_one.symm

theorem insertedIds_eq (u : Userver) (deliveries : List (Message × StoreEnv)) :
    deliveries.filterMap (insertedId u) =
      (deliveries.filterMap (reachesInsert u)).filterMap storedId :=
  (List.filterMap_filterMap ..).symm

theorem filterMap_stores {u : Userver} {deliveries : List (Message × StoreEnv)}
    (h : ∀ delivery ∈ deliveries, delivery.2.insertFault = none) :
    deliveries.filterMap (stores u) = deliveries.filterMap (reachesInsert u) :=
  List.filterMap_congr fun delivery hd => stores_eq (h delivery hd)

/-- **When redelivery is harmless.** `raw_events` has no unique index and
`StoreEvent` does not look an event up, so starting from nothing an event id is
stored once exactly when it reaches `InsertOne` once. -/
theorem consume_idempotent_iff {u : Userver} {batches : List (List (Message × StoreEnv))}
    (hinsert : ∀ delivery ∈ batches.flatten, delivery.2.insertFault = none) :
    (∀ stored, (consume u batches).run (fun _ => []) = (.ok (), stored) →
      Idempotent (stored "raw_events")) ↔
      (batches.flatten.filterMap (insertedId u)).Nodup := by
  rw [run_consume, filterMap_stores hinsert, insertedIds_eq, ← idempotent_iff]
  constructor
  · intro h
    have hafter := h _ rfl
    rwa [Collections.appended_self, List.nil_append] at hafter
  · intro h stored hstored
    obtain rfl := (Prod.mk.inj hstored).2
    rwa [Collections.appended_self, List.nil_append]

/-- Two events in three batches. The first one's conversion fails, so it is delivered again
under its id, and gets through. -/
def deliveries : List (List (Message × StoreEnv)) :=
  [[(Sample.message, Sample.unconverted), (Sample.other, Sample.env)], [],
    [(Sample.message, Sample.env)]]

def delivered : Except Exn Unit × Collections :=
  (consume Sample.userver deliveries).run fun _ => []

theorem deliveries_insert : ∀ delivery ∈ deliveries.flatten, delivery.2.insertFault = none := by
  simp [deliveries, Sample.env, Sample.unconverted]

theorem reachesInsert_deliveries : deliveries.flatten.filterMap (reachesInsert Sample.userver) =
    [Sample.document Sample.otherId, Sample.document Sample.event.eventId] := by
  simp only [deliveries, List.flatten_cons, List.flatten_nil, List.append_nil, List.nil_append,
    List.cons_append, List.filterMap_cons, List.filterMap_nil, Sample.reachesInsert_unconverted,
    Sample.reachesInsert_message, Sample.reachesInsert_of_read Sample.readEvent_other]

theorem consume_idempotent_once :
    Idempotent (delivered.2 "raw_events") ∧ (delivered.2 "raw_events").length = 2 := by
  have hrun : delivered = (.ok (), delivered.2) := by
    rw [delivered, run_consume]
  have hnodup : (deliveries.flatten.filterMap (insertedId Sample.userver)).Nodup := by
    rw [insertedIds_eq, reachesInsert_deliveries]
    decide
  refine ⟨(consume_idempotent_iff deliveries_insert).mpr hnodup delivered.2 hrun, ?_⟩
  rw [delivered, run_consume, filterMap_stores deliveries_insert, reachesInsert_deliveries]
  rfl

/-- One message delivered in two batches is stored twice. -/
theorem consume_redelivery_not_idempotent :
    ¬∀ stored, (consume Sample.userver
        [[(Sample.message, Sample.env)], [(Sample.message, Sample.env)]]).run
          (fun _ => []) = (.ok (), stored) → Idempotent (stored "raw_events") := by
  intro h
  have hafter := h _ (run_consume _ _ _)
  have hstores : stores Sample.userver (Sample.message, Sample.env) =
      reachesInsert Sample.userver (Sample.message, Sample.env) := rfl
  rw [Collections.appended_self, idempotent_iff] at hafter
  simp only [List.flatten_cons, List.flatten_nil, List.append_nil, List.cons_append,
    List.nil_append, List.filterMap_cons, List.filterMap_nil, hstores,
    Sample.reachesInsert_message] at hafter
  exact absurd hafter (by decide)

end MyService.Event.EventConsumer
