import MyService.Event.EventTypes
import MyService.Framework.Sequential
import MyService.World

/-!
# EventProducer

`Publish` wraps a payload and sends it. An exception of `Send` is logged and goes
no further: `Publish` returns whether or not the record is in the topic.
-/

namespace MyService.Event

open Framework Userver Chrono
open Framework.Prog (ask)

namespace EventProducer

/-- Replace each `x` and `y` of the template by a digit, one draw for each. -/
def fillTemplate (draws : ℕ → Fin 16) : ℕ → List Char → List Char
  | _, [] => []
  | i, c :: rest =>
      if c = 'x' then hexDigit (draws i) :: fillTemplate draws (i + 1) rest
      else if c = 'y' then
        hexDigit (Fin.ofNat 16 (4 + (draws i).val % 4)) :: fillTemplate draws (i + 1) rest
      else c :: fillTemplate draws i rest

def eventIdOf (draws : ℕ → Fin 16) : String :=
  String.ofList (fillTemplate draws 0 "xxxxxxxx-xxxx-4xxx-yxxx-xxxxxxxxxxxx".toList)

def generateEventId : Service String := do
  return eventIdOf (← randomDraws)

/-- `put_time("%Y-%m-%dT%H:%M:%S")`, a point, and three digits of milliseconds. -/
def timestampISO (now : Int) : String :=
  let tm := gmtime (toTimeT now)
  let ms := Int.tmod (toMillis now) 1000
  toString tm.year ++ "-" ++ padded 2 tm.month ++ "-" ++ padded 2 tm.day ++ "T" ++
    padded 2 tm.hour ++ ":" ++ padded 2 tm.minute ++ ":" ++ padded 2 tm.second ++ "." ++
    padded 3 ms ++ "Z"

def getCurrentTimestampISO : Service String := do
  return timestampISO (← systemNow)

/-- The message that `Publish` sends. -/
def messageOf (eventId eventType timestamp : String) (payload : Json) (traceId : String) :
    Json :=
  .object
    [("event_id", .string eventId), ("event_type", .string eventType),
     ("timestamp", .string timestamp), ("version", .string "1.0"), ("payload", payload),
     ("metadata", .object
       [("trace_id", .string traceId), ("source_service", .string "myservice")])]

def publish (topic key eventType : String) (payload : Json) (traceId : String) :
    Service Unit := do
  let eventId ← generateEventId
  let timestamp ← getCurrentTimestampISO
  let traceId ← if traceId.isEmpty then generateEventId else pure traceId
  let message := messageOf eventId eventType timestamp payload traceId
  try
    Prog.ofExcept (← ask (.send topic key message))
  catch _ => pure ()

def publishUserRegistered (event : UserRegisteredEvent) (traceId : String) : Service Unit :=
  publish "user-events" (toString event.userId) "UserRegistered" event.toPayload traceId

def publishUserLoggedIn (event : UserLoggedInEvent) (traceId : String) : Service Unit :=
  publish "user-events" (toString event.userId) "UserLoggedIn" event.toPayload traceId

def publishProjectCreated (event : ProjectCreatedEvent) (traceId : String) : Service Unit :=
  publish "project-events" (toString event.projectId) "ProjectCreated" event.toPayload traceId

def publishTaskCreated (event : TaskCreatedEvent) (traceId : String) : Service Unit :=
  publish "task-events" (toString event.taskId) "TaskCreated" event.toPayload traceId

def publishCommentAdded (event : CommentAddedEvent) (traceId : String) : Service Unit :=
  publish "comment-events" event.commentId "CommentAdded" event.toPayload traceId

end EventProducer

namespace AnyEvent

open EventProducer

def topic : AnyEvent → String
  | .userRegistered _ | .userLoggedIn _ => "user-events"
  | .projectCreated _ => "project-events"
  | .taskCreated _ => "task-events"
  | .commentAdded _ => "comment-events"

def key : AnyEvent → String
  | .userRegistered e => toString e.userId
  | .userLoggedIn e => toString e.userId
  | .projectCreated e => toString e.projectId
  | .taskCreated e => toString e.taskId
  | .commentAdded e => e.commentId

/-- The producer's method for the event. -/
def publish : AnyEvent → (traceId : String) → Service Unit
  | .userRegistered e => publishUserRegistered e
  | .userLoggedIn e => publishUserLoggedIn e
  | .projectCreated e => publishProjectCreated e
  | .taskCreated e => publishTaskCreated e
  | .commentAdded e => publishCommentAdded e

theorem publish_eq (ev : AnyEvent) (traceId : String) :
    ev.publish traceId =
      EventProducer.publish ev.topic ev.key ev.eventType ev.toPayload traceId := by
  cases ev <;> rfl

end AnyEvent

namespace EventProducer

/-! ## What publishing does -/

/-- The message of an event of this type and payload. -/
def IsMessage (eventType : String) (payload message : Json) : Prop :=
  ∃ eventId timestamp traceId, message = messageOf eventId eventType timestamp payload traceId

/-- A message carries one event. -/
theorem commentAdded_unique {eventType : String} {e e' : CommentAddedEvent}
    {message : Json} (h : IsMessage eventType e.toPayload message)
    (h' : IsMessage eventType e'.toPayload message) : e = e' := by
  obtain ⟨_, _, _, rfl⟩ := h
  obtain ⟨_, _, _, hmessage⟩ := h'
  obtain ⟨commentId, taskId, author, text⟩ := e
  obtain ⟨commentId', taskId', author', text'⟩ := e'
  simp [messageOf, CommentAddedEvent.toPayload] at hmessage
  simp [hmessage]

/-- Clock readings and random draws: calls that touch nothing. -/
def Quiet (q : Prog.History Call Call.Answer) : Prop :=
  ∀ o ∈ q, o.1 = .randomDraws ∨ o.1 = .systemNow

@[simp] theorem quiet_nil : Quiet [] := by simp [Quiet]

theorem Quiet.snoc {q : Prog.History Call Call.Answer} {o : Σ c, Call.Answer c} (h : Quiet q)
    (hlast : o.1 = .randomDraws ∨ o.1 = .systemNow) : Quiet (q ++ [o]) := by
  intro o' ho
  rcases List.mem_append.mp ho with hm | hm
  · exact h o' hm
  · rw [List.mem_singleton.mp hm]
    exact hlast

theorem Quiet.draws {q : Prog.History Call Call.Answer} (h : Quiet q) (d : ℕ → Fin 16) :
    Quiet (q ++ [⟨.randomDraws, d⟩]) :=
  h.snoc (Or.inl rfl)

theorem Quiet.now {q : Prog.History Call Call.Answer} (h : Quiet q) (t : Int) :
    Quiet (q ++ [⟨.systemNow, t⟩]) :=
  h.snoc (Or.inr rfl)

section Rule

variable {α : Type} {topic key eventType traceId : String} {payload : Json}
  {f : Unit → Service α} {onCall : Prog.History Call Call.Answer → Call → Prop}
  {onReturn : Prog.History Call Call.Answer → α → Prop}
  {onThrow : Prog.History Call Call.Answer → Exn → Prop}
  {h : Prog.History Call Call.Answer}

/-- **Publishing rule.** After two quiet calls or three one message is sent, and the rest
goes on whatever `Send` answered. -/
theorem obeys_publish_counted_bind
    (hquiet : ∀ q, Quiet q → q.length ≤ 2 →
      onCall (h ++ q) .randomDraws ∧ onCall (h ++ q) .systemNow)
    (hsend : ∀ q message, Quiet q → q.length ≤ 3 → IsMessage eventType payload message →
      onCall (h ++ q) (.send topic key message))
    (hrest : ∀ q message answer, Quiet q → q.length ≤ 3 → IsMessage eventType payload message →
      Prog.Obeys onCall onReturn onThrow (h ++ q ++ [⟨.send topic key message, answer⟩])
        (f ())) :
    Prog.Obeys onCall onReturn onThrow h
      (publish topic key eventType payload traceId >>= f) := by
  have htail : ∀ q message, Quiet q → q.length ≤ 3 → IsMessage eventType payload message →
      Prog.Obeys onCall onReturn onThrow (h ++ q)
        (.call (.send topic key message) fun _ => f ()) := fun q message hq hlen hm =>
    ⟨hsend q message hq hlen hm, fun answer => hrest q message answer hq hlen hm⟩
  have hdraw := (hquiet [] quiet_nil (Nat.zero_le _)).1
  rw [List.append_nil] at hdraw
  simp only [publish, generateEventId, getCurrentTimestampISO, randomDraws, systemNow,
    Prog.ask_bind_eq, Prog.pure_eq, Prog.pure_bind_eq, Prog.ite_bind,
    Prog.tryCatch_eq, Prog.handle_call, Prog.handle_ofExcept_ignore, Prog.call_bind_eq]
  refine ⟨hdraw, fun d => ⟨(hquiet _ (quiet_nil.draws d) (by simp)).2, fun t => ?_⟩⟩
  have hq : Quiet ([⟨.randomDraws, d⟩] ++ [⟨.systemNow, t⟩]) := (quiet_nil.draws d).now t
  rw [List.append_assoc, Prog.obeys_ite]
  constructor
  · intro _
    refine ⟨(hquiet _ hq (by simp)).1, fun d' => ?_⟩
    rw [List.append_assoc]
    exact htail _ _ (hq.draws d') (by simp) ⟨_, _, _, rfl⟩
  · intro _
    exact htail _ _ hq (by simp) ⟨_, _, _, rfl⟩

/-- The same where their number does not matter. -/
theorem obeys_publish_bind
    (hquiet : ∀ q, Quiet q → onCall (h ++ q) .randomDraws ∧ onCall (h ++ q) .systemNow)
    (hsend : ∀ q message, Quiet q → IsMessage eventType payload message →
      onCall (h ++ q) (.send topic key message))
    (hrest : ∀ q message answer, Quiet q → IsMessage eventType payload message →
      Prog.Obeys onCall onReturn onThrow (h ++ q ++ [⟨.send topic key message, answer⟩])
        (f ())) :
    Prog.Obeys onCall onReturn onThrow h
      (publish topic key eventType payload traceId >>= f) :=
  obeys_publish_counted_bind (fun q hq _ => hquiet q hq) (fun q message hq _ => hsend q message hq)
    fun q message answer hq _ => hrest q message answer hq

end Rule

/-- The calls of `Publish`. -/
def IsPublishCall (topic key eventType : String) (payload : Json) (c : Call) : Prop :=
  c = .randomDraws ∨ c = .systemNow ∨
    ∃ message, IsMessage eventType payload message ∧ c = .send topic key message

/-- `Publish` makes no other calls, and it returns. -/
theorem obeys_publish (topic key eventType traceId : String) (payload : Json)
    (h : Prog.History Call Call.Answer) :
    Prog.Obeys (fun _ c => IsPublishCall topic key eventType payload c) (fun _ _ => True)
      (fun _ _ => False) h (publish topic key eventType payload traceId) := by
  rw [← Prog.bind_pure_eq (publish topic key eventType payload traceId)]
  refine obeys_publish_bind (fun q hq => ?_) (fun q message hq hmessage => ?_)
    fun q message answer hq hmessage => trivial
  · exact ⟨Or.inl rfl, Or.inr (Or.inl rfl)⟩
  · exact Or.inr (Or.inr ⟨message, hmessage, rfl⟩)

/-- Publishing keeps what its calls keep, and the rest goes on. -/
theorem triple_publish_bind {α : Type} {topic key eventType traceId : String} {payload : Json}
    {f : Unit → Service α} {P : World → Prop} {Q : Except Exn α → World → Prop}
    (hstep : ∀ c ch w, IsPublishCall topic key eventType payload c → P w →
      P (perform c ch w).1)
    (hrest : Prog.Triple perform P (f ()) Q) :
    Prog.Triple perform P (publish topic key eventType payload traceId >>= f) Q := by
  have hpublish := Prog.triple_invariant (B := fun r => ∃ a, r = .ok a) hstep
    (Prog.Obeys.mono (fun _ _ h => h) (fun _ a _ => ⟨a, rfl⟩) (fun _ _ h => h.elim)
      (obeys_publish topic key eventType traceId payload []))
  refine hpublish.bind (fun _ => hrest.mono (fun w hw => hw.2) fun _ _ hq => hq) ?_
  rintro e w ⟨⟨a, ha⟩, _⟩
  exact absurd ha (by simp)

/-- The calls `Publish` makes before `Send`: one clock reading, and the draws of one
id or of two. -/
def callsBeforeSend (traceId : String) : ℕ := if traceId.isEmpty then 3 else 2

/-- Run alone, publishing sends one message and goes on in the world this left. -/
theorem exec_publish_bind {α : Type} (topic key eventType traceId : String) (payload : Json)
    (f : Unit → Service α) (cs : ℕ → Choice) (w : World) :
    ∃ message, IsMessage eventType payload message ∧
      (publish topic key eventType payload traceId >>= f).exec perform cs w =
        (f ()).exec perform (fun i => cs (i + (callsBeforeSend traceId + 1)))
          (perform (.send topic key message) (cs (callsBeforeSend traceId)) w).1 := by
  simp only [publish, generateEventId, getCurrentTimestampISO, randomDraws, systemNow,
    Prog.ask_bind_eq, Prog.pure_eq, Prog.pure_bind_eq, Prog.ite_bind, Prog.tryCatch_eq,
    Prog.handle_call, Prog.handle_ofExcept_ignore, Prog.call_bind_eq, Prog.exec_call]
  by_cases ht : traceId.isEmpty = true
  · rw [if_pos ht, callsBeforeSend, if_pos ht]
    exact ⟨_, ⟨_, _, _, rfl⟩, rfl⟩
  · rw [if_neg ht, callsBeforeSend, if_neg ht]
    exact ⟨_, ⟨_, _, _, rfl⟩, rfl⟩

end EventProducer

end MyService.Event
