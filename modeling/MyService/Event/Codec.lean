import MyService.Event.EventConsumer
import MyService.Event.EventProducer

/-!
# Producer and consumer agree

The fields of an event are named twice: in its `ToPayload`, and in the consumer's
handler of its type. `consumer_reads_published` shows that the two agree, along with
the envelope and the dispatch by type name, for every event that the members of the
five records can hold.
-/

namespace MyService.Event

open Framework Userver EventProducer EventConsumer

namespace AnyEvent

/-- The consumer's handler for the event. -/
def process : AnyEvent → Option Json → Except Exn (List FieldValue)
  | .userRegistered _ => processUserRegistered
  | .userLoggedIn _ => processUserLoggedIn
  | .projectCreated _ => processProjectCreated
  | .taskCreated _ => processTaskCreated
  | .commentAdded _ => processCommentAdded

/-- The members that were published, of the fields the handler reads and in its order. -/
def values : AnyEvent → List FieldValue
  | .userRegistered e =>
      [.int e.userId, .string e.login, .string e.email, .string e.firstName, .string e.lastName]
  | .userLoggedIn e => [.int e.userId, .string e.login, .string e.ipAddress]
  | .projectCreated e => [.int e.projectId, .string e.name, .string e.key, .int e.ownerId]
  | .taskCreated e =>
      [.int e.taskId, .int e.projectId, .string e.title, .int e.priority, .string e.status]
  | .commentAdded e =>
      [.string e.commentId, .int e.taskId, .string e.author, .string e.text]

/-- The integers fit the members that hold them. -/
def InRange : AnyEvent → Prop
  | .userRegistered e => IsInt64 e.userId
  | .userLoggedIn e => IsInt64 e.userId
  | .projectCreated e => IsInt64 e.projectId ∧ IsInt64 e.ownerId
  | .taskCreated e =>
      IsInt64 e.taskId ∧ IsInt64 e.projectId ∧ IsInt e.priority ∧ IsInt64 e.creatorId
  | .commentAdded e => IsInt64 e.taskId

end AnyEvent

namespace Codec

/-! ## Fields -/

theorem asInt64_int {n : Int} (h : IsInt64 n) : Json.asInt64 (some (.int n)) = .ok n := by
  have hint : (Json.int n).int64? = some n := if_pos h
  simp [Json.asInt64, hint]

theorem asInt_int {n : Int} (h : IsInt n) : Json.asInt (some (.int n)) = .ok n := by
  have hnarrow : -2 ^ 31 ≤ n ∧ n < 2 ^ 31 := h
  unfold Json.asInt
  rw [asInt64_int (isInt64_of_isInt h)]
  exact if_pos hnarrow

theorem read_int64 {n : Int} (h : IsInt64 n) :
    FieldType.int64.read (some (.int n)) = .ok (.int n) := by
  rw [FieldType.read, asInt64_int h]
  rfl

theorem read_int {n : Int} (h : IsInt n) :
    FieldType.int.read (some (.int n)) = .ok (.int n) := by
  rw [FieldType.read, asInt_int h]
  rfl

theorem read_string (s : String) :
    FieldType.string.read (some (.string s)) = .ok (.string s) := rfl

/-- One field more. -/
theorem readFields_cons {members : List (String × Json)} {key : String} {type : FieldType}
    {rest : List (String × FieldType)} {v : FieldValue} {vs : List FieldValue}
    (hv : type.read (members.lookup key) = .ok v)
    (hvs : readFields (some (.object members)) rest = .ok vs) :
    readFields (some (.object members)) ((key, type) :: rest) = .ok (v :: vs) := by
  simp only [readFields, except_bind_ok, pure, Except.pure, Except.ok.injEq]
  exact ⟨members.lookup key, rfl, v, hv, vs, hvs, rfl⟩

/-- The handler of an event's type reads back what the event's payload was built from. -/
theorem process_toPayload {e : AnyEvent} (h : e.InRange) :
    e.process (some e.toPayload) = .ok e.values := by
  cases e with
  | userRegistered e =>
      exact readFields_cons (read_int64 h) <| readFields_cons (read_string _) <|
        readFields_cons (read_string _) <| readFields_cons (read_string _) <|
        readFields_cons (read_string _) rfl
  | userLoggedIn e =>
      exact readFields_cons (read_int64 h) <| readFields_cons (read_string _) <|
        readFields_cons (read_string _) rfl
  | projectCreated e =>
      obtain ⟨hproject, howner⟩ := h
      exact readFields_cons (read_int64 hproject) <| readFields_cons (read_string _) <|
        readFields_cons (read_string _) <| readFields_cons (read_int64 howner) rfl
  | taskCreated e =>
      obtain ⟨htask, hproject, hpriority, _⟩ := h
      exact readFields_cons (read_int64 htask) <| readFields_cons (read_int64 hproject) <|
        readFields_cons (read_string _) <| readFields_cons (read_int hpriority) <|
        readFields_cons (read_string _) rfl
  | commentAdded e =>
      exact readFields_cons (read_string _) <| readFields_cons (read_int64 h) <|
        readFields_cons (read_string _) <| readFields_cons (read_string _) rfl

theorem dispatch_eventType (e : AnyEvent) : dispatch e.eventType = e.process := by
  ext payload
  cases e <;> simp [dispatch, AnyEvent.eventType, AnyEvent.process]

/-! ## The envelope -/

/-- What the consumer makes of the text of a message. -/
structure Understands (u : Userver) (e : AnyEvent) (message : Json) : Prop where
  /-- the envelope that was sent, parsed -/
  reads : ∃ eventId timestamp traceId,
    message = messageOf eventId e.eventType timestamp e.toPayload traceId ∧
    readEvent u ⟨u.toString message⟩ =
      .ok { eventId := eventId, eventType := e.eventType, timestamp := timestamp,
            payload := some e.toPayload } ∧
    ∀ env, processMessage u env ⟨u.toString message⟩ =
      tryCatch (storeEvent u env "raw_events"
        { eventId := eventId, eventType := e.eventType, timestamp := timestamp,
          payload := some e.toPayload }) fun _ => pure ()
  /-- the payload goes to the handler of the event's type -/
  dispatches : dispatch e.eventType (some e.toPayload) = e.process (some e.toPayload)
  /-- which reads the values that were published -/
  decodes : e.process (some e.toPayload) = .ok e.values

theorem understands_of_isMessage {u : Userver} {e : AnyEvent} {message : Json}
    (hrange : e.InRange) (hmessage : IsMessage e.eventType e.toPayload message)
    (hjson : u.fromString (u.toString message) = .ok message) : Understands u e message := by
  obtain ⟨eventId, timestamp, traceId, rfl⟩ := hmessage
  have hdispatch : dispatch e.eventType (some e.toPayload) = e.process (some e.toPayload) := by
    rw [dispatch_eventType]
  have hdecode := process_toPayload hrange
  have hread : readEvent u ⟨u.toString
      (messageOf eventId e.eventType timestamp e.toPayload traceId)⟩ =
      .ok { eventId := eventId, eventType := e.eventType, timestamp := timestamp,
            payload := some e.toPayload } :=
    readEvent_ok.mpr ⟨⟨_, hjson, rfl, rfl, rfl, rfl⟩, e.values, hdispatch.trans hdecode⟩
  refine ⟨⟨eventId, timestamp, traceId, rfl, hread, ?_⟩, hdispatch, hdecode⟩
  intro env
  unfold processMessage
  rw [hread]
  rfl

/-! ## Published events -/

/-- A publisher sends messages of its event only. -/
theorem sends_own_event (e : AnyEvent) (traceId : String) :
    Prog.Obeys (fun _ c => ∀ topic key message, c = .send topic key message →
        IsMessage e.eventType e.toPayload message) (fun _ _ => True) (fun _ _ => True) []
      (e.publish traceId) := by
  have hpublish : ∀ topic key eventType payload,
      Prog.Obeys (fun _ c => ∀ topic key message, c = .send topic key message →
          IsMessage eventType payload message) (fun _ _ => True) (fun _ _ => True) []
        (EventProducer.publish topic key eventType payload traceId) := by
    intro topic key eventType payload
    refine Prog.Obeys.mono ?_ (fun _ _ h => h) (fun _ _ _ => trivial)
      (obeys_publish topic key eventType traceId payload [])
    rintro _ c (rfl | rfl | ⟨message, hmessage, rfl⟩) topic' key' message' hsend
    · exact absurd hsend (by simp)
    · exact absurd hsend (by simp)
    · obtain ⟨_, _, rfl⟩ := Call.send.inj hsend
      exact hmessage
  cases e with
  | _ e => exact hpublish _ _ _ _

/-- **The consumer reads what was published.** Whatever runs beside the publisher of an
event, a message that it sends is parsed, goes to the handler of the event's type, gives
that handler the published values, and is handed to `StoreEvent` as it was sent. -/
theorem consumer_reads_published {u : Userver} {e : AnyEvent} {traceId : String} {w : World}
    {progs : ℕ → Service Unit} {sched : List (ℕ × Choice)} {send : Event Call World Choice}
    {topic key : String} {message : Json} (hrange : e.InRange)
    (hpublisher : progs send.tid = e.publish traceId)
    (hmem : send ∈ (Config.run perform (Config.start w progs) sched).trace)
    (hsend : send.call = .send topic key message)
    (hjson : u.fromString (u.toString message) = .ok message) : Understands u e message := by
  set onCall : ℕ → Prog.History Call Call.Answer → Call → Prop := fun tid _ c =>
    progs tid = e.publish traceId → ∀ topic key message, c = .send topic key message →
      IsMessage e.eventType e.toPayload message with honCall
  have hobeys : ∀ tid, Prog.Obeys (onCall tid) (fun _ _ => True) (fun _ _ => True) []
      (progs tid) := by
    intro tid
    by_cases ht : progs tid = e.publish traceId
    · rw [ht]
      exact Prog.Obeys.mono (fun _ _ h _ => h) (fun _ _ h => h) (fun _ _ h => h)
        (sends_own_event e traceId)
    · exact Prog.Obeys.mono (fun _ _ _ hp => absurd hp ht) (fun _ _ h => h) (fun _ _ h => h)
        (Prog.obeys_trivial (progs tid))
  obtain ⟨i, hi⟩ := List.mem_iff_getElem?.mp hmem
  have hcall := (Config.run_obeys perform hobeys sched).calls i send hi hpublisher
  exact understands_of_isMessage hrange (hcall topic key message hsend) hjson

/-! A login event, sent and read. -/

namespace Sample

def event : AnyEvent := .userLoggedIn { userId := 1, login := "ann", ipAddress := "::1" }

def message : Json :=
  messageOf (eventIdOf fun _ => digitZero) event.eventType (timestampISO 0) event.toPayload "t"

def text : String :=
  "\x7b\"event_id\":\"00000000-0000-4000-4000-000000000000\"," ++
  "\"event_type\":\"UserLoggedIn\",\"timestamp\":\"1970-01-01T00:00:00.000Z\"," ++
  "\"version\":\"1.0\",\"payload\":\x7b\"user_id\":1,\"login\":\"ann\"," ++
  "\"ip_address\":\"::1\"\x7d,\"metadata\":\x7b\"trace_id\":\"t\"," ++
  "\"source_service\":\"myservice\"\x7d\x7d"

def userver : Userver :=
  { EventConsumer.Sample.userver with
    fromString := fun s => if s = text then .ok message else .error .parseError
    toString := fun _ => text }

/-- The publisher alone. -/
def run : Config Call Call.Answer Exn Unit World Choice :=
  Config.run perform
    (Config.start MyService.Sample.empty fun _ => event.publish "t")
    (List.replicate 3 (0, {}))

end Sample

theorem consumer_reads_published_login :
    Understands Sample.userver Sample.event Sample.message := by
  have hrange : Sample.event.InRange := by
    show IsInt64 1
    unfold IsInt64
    decide
  have hjson : Sample.userver.fromString (Sample.userver.toString Sample.message) =
      .ok Sample.message := by simp [Sample.userver]
  have hsent : Sample.run.trace[2]? = some
      ⟨0, .send "user-events" "1" Sample.message, {}, _⟩ := rfl
  have hpublisher : (fun _ => Sample.event.publish "t") 0 = Sample.event.publish "t" := rfl
  exact consumer_reads_published hrange hpublisher (List.mem_of_getElem? hsent) rfl hjson

end Codec

end MyService.Event
