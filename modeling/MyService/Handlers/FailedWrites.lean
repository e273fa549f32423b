import MyService.System

/-!
# Failed writes

Each of the four writers does everything that can fail before its one write, or as that
write: parsing, the reads, and the statement itself. What comes after it (the event, the
cache key, the answer) cannot fail. So a writer that throws or answers 4xx has changed
nothing (`failed_write_changes_nothing`).
-/

namespace MyService.Handlers

open Framework Userver Storage Event EventProducer

/-- The tables, the collection, the topics and the cache are those of `w`. -/
structure SameStores (w w' : World) : Prop where
  db : w'.db = w.db
  comments : w'.comments = w.comments
  topics : w'.topics = w.topics
  cache : w'.cache = w.cache

/-- The handler threw or answered 4xx. -/
def Failed : Except Exn HttpResponse → Prop
  | .error _ => True
  | .ok response => 400 ≤ response.status ∧ response.status < 500

/-- The requests that write. -/
def WritesData : Request → Prop
  | .createProject _ _ | .createTask _ _ | .addComment _ _ | .addReply _ => True
  | _ => False

/-- Where the program fails, it leaves the stores. -/
def FailsClean (w : World) (p : Service HttpResponse) : Prop :=
  Prog.Triple perform (SameStores w) p fun result w' => Failed result → SameStores w w'

/-- The program does not fail, whatever its calls are answered. -/
def Settled (h : Prog.History Call Call.Answer) (p : Service HttpResponse) : Prop :=
  Prog.Obeys (fun _ _ => True) (fun _ response => ¬Failed (.ok response)) (fun _ _ => False) h p

section Rules

variable {w : World}

/-- What fails at once, fails clean. -/
theorem failsClean_throw (e : Exn) : FailsClean w (.throw e) := fun _ hw _ => hw

theorem failsClean_pure (response : HttpResponse) : FailsClean w (.pure response) :=
  fun _ hw _ => hw

theorem failsClean_ofExcept_bind {α : Type} {x : Except Exn α} {f : α → Service HttpResponse}
    (h : ∀ a, x = .ok a → FailsClean w (f a)) : FailsClean w (Prog.ofExcept x >>= f) := by
  cases x with
  | error e => exact failsClean_throw e
  | ok a => exact h a rfl

theorem failsClean_ite {c : Prop} [Decidable c] {p q : Service HttpResponse}
    (hp : FailsClean w p) (hq : FailsClean w q) : FailsClean w (if c then p else q) :=
  Prog.triple_ite.mpr ⟨fun _ => hp, fun _ => hq⟩

/-- A call that leaves the stores. -/
theorem failsClean_call {c : Call} {k : c.Answer → Service HttpResponse}
    (hcall : ∀ ch w', SameStores w w' → SameStores w (perform c ch w').1)
    (hrest : ∀ a, FailsClean w (k a)) : FailsClean w (.call c k) :=
  Prog.triple_call_keep hcall hrest

theorem Settled.failsClean {p : Service HttpResponse} {P : World → Prop} (h : Settled [] p) :
    Prog.Triple perform P p fun result w' => Failed result → SameStores w w' := by
  have hinvariant := @Prog.triple_invariant _ _ _ _ _ _ perform (fun _ => True) (fun _ => True)
    (fun result => ¬Failed result) (fun _ _ _ _ _ => trivial) [] p
    (Prog.Obeys.mono (fun _ _ _ => trivial) (fun _ _ hr => hr) (fun _ _ he => he.elim) h)
  exact hinvariant.mono (fun _ _ => trivial) fun result w' hr hfailed => absurd hfailed hr.1

/-- **Write rule.** A write that fails leaves the stores; after one that does not, the rest
is settled. -/
theorem failsClean_write {c : Call} {α : Type} (answer : c.Answer → Except Exn α)
    {f : α → Service HttpResponse} (A : α → Prop)
    (hcall : ∀ ch w', SameStores w w' →
      (∃ e, answer (perform c ch w').2 = .error e ∧ SameStores w (perform c ch w').1) ∨
        ∃ a, answer (perform c ch w').2 = .ok a ∧ A a)
    (hrest : ∀ a, A a → Settled [] (f a)) :
    FailsClean w (.call c fun r => Prog.ofExcept (answer r) >>= f) := by
  refine Prog.triple_call (fun r w' => (∃ e, answer r = .error e ∧ SameStores w w') ∨
    ∃ a, answer r = .ok a ∧ A a) (fun ch w' hw' => hcall ch w' hw') ?_
  intro r
  cases hr : answer r with
  | error e =>
      rintro w' (⟨_, -, hw'⟩ | ⟨a, ha, -⟩) _
      · exact hw'
      · exact absurd ha (by simp)
  | ok a =>
      by_cases hA : A a
      · exact (hrest a hA).failsClean
      · refine Prog.triple_absurd ?_
        rintro w' (⟨e, he, -⟩ | ⟨b, hb, hB⟩)
        · exact absurd he (by simp)
        · exact hA (Except.ok.inj hb ▸ hB)

/-- A part that only reads, and the rest. -/
theorem failsClean_read_bind {α : Type} {p : Service α} {f : α → Service HttpResponse}
    (hp : Prog.Triple perform (SameStores w) p fun _ => SameStores w)
    (hrest : ∀ a, FailsClean w (f a)) : FailsClean w (p >>= f) :=
  hp.bind hrest fun _ _ hw _ => hw

/-- Publishing is settled where the rest is. -/
theorem settled_publish_bind {topic key eventType traceId : String} {payload : Json}
    {f : Unit → Service HttpResponse} {h : Prog.History Call Call.Answer}
    (hrest : ∀ h', Settled h' (f ())) :
    Settled h (publish topic key eventType payload traceId >>= f) :=
  obeys_publish_bind (fun _ _ => ⟨trivial, trivial⟩) (fun _ _ _ _ => trivial)
    fun _ _ _ _ _ => hrest _

end Rules

/-! ## The four writers -/

section Writers

variable (u : Userver) (request : HttpRequest) (userId : Int) (w : World)

theorem failsClean_addComment : FailsClean w (addCommentHandler u request userId) := by
  simp only [addCommentHandler, addCommentTo, MongoStorage.insertComment, publishCommentAdded,
    randomDraws, systemNow, cacheInvalidate, Prog.liftM_eq, Prog.ask_bind_eq, Prog.call_bind_eq,
    Prog.pure_eq]
  refine failsClean_ofExcept_bind fun taskId _ => failsClean_ofExcept_bind fun json _ => ?_
  refine failsClean_call (fun _ _ hw => hw) fun draws => ?_
  refine failsClean_ofExcept_bind fun a _ => failsClean_ofExcept_bind fun author _ => ?_
  refine failsClean_ofExcept_bind fun t _ => failsClean_ofExcept_bind fun text _ => ?_
  refine failsClean_call (fun _ _ hw => hw) fun createdAt => ?_
  refine failsClean_write (c := .insertOne _) (fun r => r) (fun _ => True)
    (fun ch w' hw => ?_) fun _ _ => ?_
  · rcases insertOne_cases ch w' _ with ⟨e, _, heq⟩ | ⟨comments, _, _, heq⟩
    · rw [heq]
      exact Or.inl ⟨e, rfl, hw⟩
    · rw [heq]
      exact Or.inr ⟨(), rfl, trivial⟩
  · refine settled_publish_bind fun h' => ⟨trivial, fun _ => ?_⟩
    simp [Failed]

/-- What follows the lookup of the task, whatever it gave. -/
theorem failsClean_replyTo (commentId : String) (reply : Models.Reply)
    {f : Service HttpResponse} (hrest : Settled [] f) :
    FailsClean w (MongoStorage.addReply commentId reply >>= fun _ => f) := by
  simp only [MongoStorage.addReply, systemNow, Prog.liftM_eq, Prog.ask_bind_eq,
    Prog.call_bind_eq, Prog.pure_eq, Prog.bind_assoc, Prog.pure_bind_eq]
  refine failsClean_ofExcept_bind fun oid _ => failsClean_call (fun _ _ hw => hw) fun now => ?_
  refine failsClean_write (c := .updateOne _ _) (fun r => r) (fun _ => True)
    (fun ch w' hw => ?_) fun _ _ => hrest
  rcases updateOne_cases ch w' _ _ with ⟨e, _, heq⟩ | ⟨comments, n, _, _, heq⟩
  · rw [heq]
    exact Or.inl ⟨e, rfl, hw⟩
  · rw [heq]
    exact Or.inr ⟨n, rfl, trivial⟩

theorem failsClean_addReply : FailsClean w (addReplyHandler u request) := by
  have hrest : ∀ (taskId : Int) (event : CommentAddedEvent) (traceId : String),
      Settled [] (publishCommentAdded event traceId >>= fun _ => do
        if taskId > 0 then
          cacheInvalidate (commentsKey taskId)
        else
          cacheInvalidateByPrefix "comments:task:"
        return { status := 201, body := statusOk }) := by
    intro taskId event traceId
    refine settled_publish_bind fun h' => ?_
    simp [Settled, Failed]
  simp only [addReplyHandler, MongoStorage.getTaskIdByCommentId_eq, systemNow, Prog.liftM_eq,
    Prog.ask_bind_eq]
  refine failsClean_ofExcept_bind fun json _ => failsClean_ofExcept_bind fun a _ => ?_
  refine failsClean_ofExcept_bind fun author _ => failsClean_ofExcept_bind fun t _ => ?_
  refine failsClean_ofExcept_bind fun text _ => ?_
  refine failsClean_call (fun _ _ hw => hw) fun createdAt => ?_
  cases Oid.ofString (request.getPathArg "commentId") with
  | error e => exact failsClean_replyTo w _ _ (hrest _ _ _)
  | ok oid =>
      refine failsClean_call (fun ch w' hw => ?_) fun found => ?_
      · rwa [perform_findOne_world]
      · exact failsClean_replyTo w _ _ (hrest _ _ _)

theorem failsClean_createProject : FailsClean w (createProjectHandler u request userId) := by
  simp only [createProjectHandler, PostgresStorage.createProject, PostgresStorage.execute,
    publishProjectCreated, systemNow, cacheInvalidate, Prog.liftM_eq, Prog.ask_bind_eq,
    Prog.call_bind_eq, Prog.pure_eq, Prog.bind_assoc, Prog.ite_bind]
  refine failsClean_ofExcept_bind fun json _ => failsClean_ofExcept_bind fun named _ => ?_
  refine failsClean_ite (failsClean_pure _) ?_
  refine failsClean_ofExcept_bind fun n _ => failsClean_ofExcept_bind fun name _ => ?_
  refine failsClean_ofExcept_bind fun d _ => failsClean_ofExcept_bind fun description _ => ?_
  refine failsClean_ofExcept_bind fun k _ => failsClean_ofExcept_bind fun key _ => ?_
  refine failsClean_call (fun _ _ hw => hw) fun createdAt => ?_
  refine failsClean_write (c := .execute _) (fun r => r) (fun rows => ∃ row p, rows =
    [Postgres.pick ["id", "name", "description", "key", "owner_id", "created_at"] row.columns] ∧
      PostgresStorage.ProjectHolds p row) (fun ch w' hw => ?_) ?_
  · rcases PostgresStorage.insertProject_cases name description key userId createdAt ch w' with
      ⟨e, heq⟩ | ⟨row, projects, p, _, _, _, hp, heq⟩
    · rw [heq]
      exact Or.inl ⟨e, rfl, hw⟩
    · rw [heq]
      exact Or.inr ⟨_, rfl, row, p, rfl, hp⟩
  · rintro rows ⟨row, p, rfl, hp⟩
    have hdecode : Postgres.asSingleRow PostgresStorage.decodeProject [Postgres.pick
        ["id", "name", "description", "key", "owner_id", "created_at"] row.columns] = .ok p :=
      PostgresStorage.decodeProject_iff.mpr hp
    simp only [List.isEmpty_cons, Bool.false_eq_true, if_false, hdecode, Prog.ofExcept_ok,
      Prog.pure_bind_eq, valueOf]
    refine ⟨trivial, fun _ => settled_publish_bind fun h' => ?_⟩
    simp [Failed, Settled]

/-- Looking a project up leaves the stores. -/
theorem reads_getProjectById (id : Int) :
    Prog.Triple perform (SameStores w) (PostgresStorage.getProjectById id)
      fun _ => SameStores w := by
  simp only [PostgresStorage.getProjectById, PostgresStorage.execute, Prog.ask_bind_eq,
    Prog.call_bind_eq]
  refine Prog.triple_call_keep (fun ch w' hw => ?_) fun answer => ?_
  · rcases execute_cases ch w' _ with ⟨e, _, heq⟩ | ⟨db, rows, _, hact, heq⟩
    · rwa [heq]
    · obtain ⟨rfl, _⟩ := Prod.mk.inj (Except.ok.inj hact)
      rwa [heq]
  · cases answer with
    | error e => exact fun _ hw => hw
    | ok rows => simp

theorem failsClean_createTask : FailsClean w (createTaskHandler u request userId) := by
  simp only [createTaskHandler, createTaskIn, Prog.liftM_eq]
  refine failsClean_ofExcept_bind fun projectId _ => ?_
  refine failsClean_read_bind (reads_getProjectById w projectId) fun project => ?_
  refine failsClean_ite (failsClean_pure _) ?_
  refine failsClean_ofExcept_bind fun json _ => failsClean_ofExcept_bind fun titled _ => ?_
  refine failsClean_ite (failsClean_pure _) ?_
  refine failsClean_ofExcept_bind fun t _ => failsClean_ofExcept_bind fun title _ => ?_
  refine failsClean_ofExcept_bind fun d _ => failsClean_ofExcept_bind fun description _ => ?_
  refine failsClean_ofExcept_bind fun s _ => failsClean_ofExcept_bind fun status _ => ?_
  refine failsClean_ofExcept_bind fun p _ => failsClean_ofExcept_bind fun priority _ => ?_
  simp only [PostgresStorage.createTask, PostgresStorage.execute, publishTaskCreated, systemNow,
    Prog.liftM_eq, Prog.ask_bind_eq, Prog.call_bind_eq, Prog.pure_eq, Prog.bind_assoc]
  refine failsClean_call (fun _ _ hw => hw) fun createdAt => ?_
  refine failsClean_call (fun _ _ hw => hw) fun now => ?_
  refine failsClean_write (c := .execute _) (fun r => r)
    (fun rows => ∃ row m, rows = [row] ∧ PostgresStorage.decodeTask row = .ok m)
    (fun ch w' hw => ?_) ?_
  · rcases PostgresStorage.insertTask_cases title description
      (Models.taskStatusToString (Models.taskStatusFromString status)) projectId userId none
      priority now now ch w' with ⟨e, heq⟩ | ⟨row, tasks, m, _, _, hm, _, heq⟩
    · rw [heq]
      exact Or.inl ⟨e, rfl, hw⟩
    · rw [heq]
      exact Or.inr ⟨_, rfl, _, m, rfl, hm⟩
  · rintro rows ⟨row, m, rfl, hm⟩
    simp only [hm, Prog.ofExcept_ok, Prog.pure_bind_eq, valueOf]
    refine settled_publish_bind fun h' => ?_
    simp [Failed, Settled]

end Writers

/-- **Failed writes change nothing.** Whatever the request, the stores and the faults: a
writer that throws or answers 4xx has left the tables, the collection, the topics and the
cache as they were. -/
theorem failed_write_changes_nothing (u : Userver) (request : Request) (cs : ℕ → Choice)
    (w : World) (hwrites : WritesData request)
    (hfailed : Failed ((serve u request).exec perform cs w).1) :
    SameStores w ((serve u request).exec perform cs w).2 := by
  have hsame : SameStores w w := ⟨rfl, rfl, rfl, rfl⟩
  have hclean : FailsClean w (serve u request) := by
    cases request with
    | createProject request userId => exact failsClean_createProject u request userId w
    | createTask request userId => exact failsClean_createTask u request userId w
    | addComment request userId => exact failsClean_addComment u request userId w
    | addReply request => exact failsClean_addReply u request w
    | _ => exact hwrites.elim
  exact Prog.Triple.exec hclean cs hsame hfailed

/-- A comment that the server refuses. -/
theorem failed_write_changes_nothing_refused :
    ((serve Sample.userver (.addComment (Sample.http Sample.body "taskId" "7") 3)).exec perform
        (fun i => if i = 2 then { fault := some .writeError } else Sample.plain)
        Sample.empty).1 = .error .writeError ∧
      SameStores Sample.empty
        ((serve Sample.userver (.addComment (Sample.http Sample.body "taskId" "7") 3)).exec perform
          (fun i => if i = 2 then { fault := some .writeError } else Sample.plain)
          Sample.empty).2 := by
  refine ⟨rfl, failed_write_changes_nothing _ _ _ _ trivial ?_⟩
  exact trivial

end MyService.Handlers
