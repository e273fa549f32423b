import MyService.Handlers.AuthHandlers
import MyService.Handlers.CommentHandlers
import MyService.Handlers.UserHandlers

/-!
# The service

Any number of requests, each served by its handler, their calls interleaved in any
order. `userId` is what the authorization check stored in the request's context.
-/

namespace MyService

open Framework Handlers Userver Userver.Postgres Storage.PostgresStorage

inductive Request where
  | register (request : HttpRequest)
  | login (request : HttpRequest)
  | userSearch (request : HttpRequest)
  | createProject (request : HttpRequest) (userId : Int)
  | getProjects (request : HttpRequest)
  | createTask (request : HttpRequest) (userId : Int)
  | addComment (request : HttpRequest) (userId : Int)
  | getComments (request : HttpRequest)
  | addReply (request : HttpRequest)

/-- The handler of a request. -/
def serve (u : Userver) : Request → Service HttpResponse
  | .register request => registerHandler u request
  | .login request => loginHandler u request
  | .userSearch request => userSearchHandler u request
  | .createProject request userId => createProjectHandler u request userId
  | .getProjects request => getProjectsHandler u request
  | .createTask request userId => createTaskHandler u request userId
  | .addComment request userId => addCommentHandler u request userId
  | .getComments request => getCommentsHandler u request
  | .addReply request => addReplyHandler u request

abbrev ServiceEvent : Type := Event Call World Choice

abbrev ServiceConfig : Type := Config Call Call.Answer Exn HttpResponse World Choice

/-- The state a schedule leads to. Thread `tid` serves `requests tid`. -/
def runService (u : Userver) (w : World) (requests : ℕ → Request)
    (sched : List (ℕ × Choice)) : ServiceConfig :=
  Config.run perform (Config.start w fun tid => serve u (requests tid)) sched

/-- The request was answered. -/
def Answered (cfg : ServiceConfig) (tid : ℕ) (response : HttpResponse) : Prop :=
  cfg.pool tid = .pure response

/-- The request has made no call yet. -/
def NotStarted (cfg : ServiceConfig) (tid : ℕ) : Prop := ∀ e ∈ cfg.trace, e.tid ≠ tid

/-! ## Traces of the service -/

section Traces

variable {u : Userver} {w : World} {requests : ℕ → Request} {sched : List (ℕ × Choice)}

theorem runService_append (sched₁ sched₂ : List (ℕ × Choice)) :
    runService u w requests (sched₁ ++ sched₂) =
      Config.run perform (runService u w requests sched₁) sched₂ :=
  Config.run_append perform _ sched₁ sched₂

theorem runService_chained :
    Config.Chained perform w (runService u w requests sched).trace :=
  (Config.run_chained perform sched).1

theorem runService_world :
    (runService u w requests sched).world =
      Config.worldAfter perform w (runService u w requests sched).trace :=
  (Config.run_chained perform sched).2

/-! What an event saw. -/

theorem seen_systemNow {e : ServiceEvent} {t : Int} (h : e.seen perform = ⟨.systemNow, t⟩) :
    e.call = .systemNow ∧ e.choice.system = t := by
  obtain ⟨tid, c, ch, w⟩ := e
  obtain ⟨rfl, hanswer⟩ := Sigma.mk.inj h
  exact ⟨rfl, eq_of_heq hanswer⟩

theorem seen_execute {e : ServiceEvent} {s : Statement} {answer : Except Exn (List Row)}
    (h : e.seen perform = ⟨.execute s, answer⟩) :
    e.call = .execute s ∧ (perform (.execute s) e.choice e.before).2 = answer := by
  obtain ⟨tid, c, ch, w⟩ := e
  obtain ⟨rfl, hanswer⟩ := Sigma.mk.inj h
  exact ⟨rfl, eq_of_heq hanswer⟩

/-- A record stays in its topic. -/
theorem mem_topics_perform {r : KafkaRecord} {w : World} (c : Call) (ch : Choice)
    (h : r ∈ w.topics) : r ∈ (perform c ch w).1.topics := by
  by_cases hsend : ∃ topic key message, c = .send topic key message
  · obtain ⟨topic, key, message, rfl⟩ := hsend
    rcases send_cases ch w topic key message with ⟨e, _, heq⟩ | ⟨_, heq⟩
    · rw [heq]
      exact h
    · rw [heq]
      exact List.mem_append_left _ h
  · rw [perform_topics c ch w fun topic key message hc => hsend ⟨topic, key, message, hc⟩]
    exact h

/-- The tables change by statements alone. -/
theorem perform_execute (c : Call) (ch : Choice) (w : World) :
    (perform c ch w).1.db = w.db ∨
      ∃ s, c = .execute s ∧ Database.Executed w.db ch.serial s (perform c ch w).1.db := by
  by_cases hexec : ∃ s, c = .execute s
  · obtain ⟨s, rfl⟩ := hexec
    rcases execute_cases ch w s with ⟨e, _, heq⟩ | ⟨db, rows, _, hact, heq⟩
    · exact Or.inl (by rw [heq])
    · exact Or.inr ⟨s, rfl, by rw [heq]; exact Database.execute_executed hact⟩
  · exact Or.inl (perform_db c ch w (not_exists.mp hexec))

/-- A row stays in its table. -/
theorem mem_rows_perform (c : Call) (ch : Choice) (w : World) :
    (∀ r ∈ w.db.users.rows, r ∈ (perform c ch w).1.db.users.rows) ∧
      (∀ r ∈ w.db.projects.rows, r ∈ (perform c ch w).1.db.projects.rows) ∧
      ∀ r ∈ w.db.tasks.rows, r ∈ (perform c ch w).1.db.tasks.rows := by
  rcases perform_execute c ch w with hsame | ⟨s, _, hexec⟩
  · rw [hsame]
    exact ⟨fun _ h => h, fun _ h => h, fun _ h => h⟩
  · revert hexec
    generalize (perform c ch w).1.db = db'
    rintro (⟨_, hinsert⟩ | ⟨_, hinsert⟩ | ⟨_, hinsert⟩ | _)
    · refine ⟨?_, fun _ h => h, fun _ h => h⟩
      intro r hr
      rw [(users_insert_ok hinsert).1]
      exact List.mem_append_left _ hr
    · refine ⟨fun _ h => h, ?_, fun _ h => h⟩
      intro r hr
      rw [(projects_insert_ok hinsert).1]
      exact List.mem_append_left _ hr
    · refine ⟨fun _ h => h, fun _ h => h, ?_⟩
      intro r hr
      rw [(tasks_insert_ok hinsert).1]
      exact List.mem_append_left _ hr
    · exact ⟨fun _ h => h, fun _ h => h, fun _ h => h⟩

end Traces

/-! ## Small runs -/

namespace Sample

/-- The body of the comment and of the reply. -/
def body : String := "\x7b\"author\": \"ann\", \"text\": \"hi\"\x7d"

def json : Json := .object [("author", .string "ann"), ("text", .string "hi")]

/-- The library on the texts and values of the small runs. -/
def userver : Userver :=
  { fromString := fun text => if text = body then .ok json else .error .parseError
    toString := fun
      | .null => "null"
      | .array [] => "[]"
      | _ => body
    fromJsonString := fun _ => .error .parseError
    sha256 := fun s => s
    signHs256 := fun _ userId _ _ _ => userId }

/-- The same library where a body is the key of a project, and empty without one. -/
def keyOnly : Userver :=
  { userver with
    fromString := fun text =>
      if text = "" then .ok (.object [("name", .string "p")])
      else .ok (.object [("name", .string "p"), ("key", .string text)]) }

/-- SHA-256 of `abc`, and of the empty text. -/
def digest (text : String) : String :=
  if text = "abc" then "ba7816bf8f01cfea414140de5dae2223b00361a396177a9cb410ff61f20015ad"
  else "e3b0c44298fc1c149afbf4c8996fb92427ae41e4649b934ca495991b7852b855"

theorem digest_fits (text : String) :
    (digest text).toList.length ≤ 255 ∧ Postgres.NulFree (digest text) := by
  unfold digest
  split
  · decide
  · decide

/-- The same library on these two texts, where a body is the password of Ann. -/
def passwordOnly : Userver :=
  { userver with
    fromString := fun text => .ok (.object
      [("login", .string "ann"), ("password", .string text), ("first_name", .string "Ann"),
       ("last_name", .string "Lee"), ("email", .string "ann@example.com")])
    sha256 := digest }

/-- A request with this body and path argument, its event traced. -/
def http (body name value : String) : HttpRequest :=
  { body := body, pathArgs := [(name, value)], headers := [("X-Request-Id", "t")]
    remoteAddress := "10.0.0.1" }

theorem bodyHas (name value : String) :
    BodyHas userver (http body name value) "ann" "hi" :=
  ⟨json, some (.string "ann"), some (.string "hi"), by simp [userver, http], rfl, rfl, rfl, rfl⟩

/-- No fault, every clock at 0, every digit and every id 0. -/
def plain : Choice := {}

end Sample

end MyService
