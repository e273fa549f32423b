import MyService.Framework.Serializable
import MyService.Handlers.AddReply
import MyService.Handlers.Footprint
import MyService.Storage.Nullability

/-!
# The stores are serializable

No request holds a lock or a transaction over more than one statement. Still, whatever
requests run at once, the tables and the comments are what the same requests would have left
one at a time, in the order of the calls at which each had read all it would read.
`CreateTask` reads its project before it inserts, and no project goes away. `AddReply` reads
the comment's task for the event alone. `Register` looks its login up before it inserts: when
another registration comes in between, it ends in an exception where, one at a time, it would
be answered 409. The two are taken for the same.

The two lists that go through the cache, and the login, leave both stores alone and have no
place in the order. Their answers are not compared: a list may be an older one from the cache,
and a login depends on the limiter.
-/

namespace MyService.Handlers.Serializability

open Framework Userver Userver.Postgres Models Storage MongoStorage
  PostgresStorage Event

/-- The tables and the comments. -/
def stores (w : World) : Database × Collection := (w.db, w.comments)

/-! ## Calls -/

def IsBlind : Call → Prop
  | .cacheSet _ _ _ => True
  | .cacheInvalidate _ => True
  | .cacheInvalidateByPrefix _ => True
  | .send _ _ _ => True
  | .systemNow => True
  | .randomDraws => True
  | _ => False

/-- The calls that leave the stores. -/
def IsSilent : Call → Prop
  | .execute s => ∀ db serial db', Database.Executed db serial s db' → db' = db
  | .insertOne _ => False
  | .updateOne _ _ => False
  | _ => True

def IsLocal : Call → Prop
  | .cacheGet _ => False
  | .tryAcquire _ => False
  | .getInfo _ => False
  | _ => True

theorem stores_eq {w w' : World} (h : stores w = stores w') :
    w.db = w'.db ∧ w.comments = w'.comments :=
  Prod.mk.inj h

/-- A server call that works on the stores. -/
theorem serverCall_local {α Y : Type} {ch : Choice} {w w' : World} {put put' : Y → World}
    {act act' : Except Exn (Y × α)} (hw : stores w = stores w') (hact : act = act')
    (hput : ∀ y, stores (put y) = stores (put' y)) :
    (serverCall ch w' put' act').2 = (serverCall ch w put act).2 ∧
      stores (serverCall ch w put act).1 = stores (serverCall ch w' put' act').1 := by
  subst hact
  unfold serverCall
  cases ch.fault with
  | some e => exact ⟨rfl, hw⟩
  | none =>
      cases act with
      | error e => exact ⟨rfl, hw⟩
      | ok r => exact ⟨rfl, hput r.1⟩

theorem perform_local {c : Call} (h : IsLocal c) : Prog.Local perform stores c := by
  intro ch w w' hw
  obtain ⟨hdb, hcomments⟩ := stores_eq hw
  cases c with
  | cacheGet _ | tryAcquire _ | getInfo _ => exact h.elim
  | execute s =>
      refine serverCall_local hw (by rw [hdb]) fun db => ?_
      simp [stores, hcomments]
  | insertOne doc =>
      refine serverCall_local hw (by rw [hcomments]) fun comments => ?_
      simp [stores, hdb]
  | updateOne f u =>
      refine serverCall_local hw (by rw [hcomments]) fun comments => ?_
      simp [stores, hdb]
  | find f => exact serverCall_local hw (by rw [hcomments]) fun _ => hw
  | findOne f => exact serverCall_local hw (by rw [hcomments]) fun _ => hw
  | send topic key message =>
      refine ⟨?_, ?_⟩
      · show (serverCall ch w' _ _).2 = (serverCall ch w _ _).2
        unfold serverCall
        cases ch.fault <;> rfl
      · rw [stores, stores, perform_db _ _ _ (by simp), perform_db _ _ _ (by simp),
          perform_comments _ _ _ (by simp) (by simp), perform_comments _ _ _ (by simp) (by simp)]
        exact hw
  | _ => exact ⟨rfl, hw⟩

theorem perform_blind {c : Call} (h : IsBlind c) : Prog.Blind perform stores c := by
  intro ch w w'
  cases c with
  | send topic key message =>
      refine ⟨?_, ?_⟩
      · show (serverCall ch w' _ _).2 = (serverCall ch w _ _).2
        unfold serverCall
        cases ch.fault <;> rfl
      · rw [stores, perform_db _ _ _ (by simp), perform_comments _ _ _ (by simp) (by simp)]
        rfl
  | cacheGet _ | tryAcquire _ | getInfo _ | execute _ | insertOne _ | updateOne _ _ | find _
    | findOne _ => exact h.elim
  | _ => exact ⟨rfl, rfl⟩

theorem perform_silent {c : Call} (h : IsSilent c) : Prog.Silent perform stores c := by
  intro ch w
  have hcomments : (perform c ch w).1.comments = w.comments := by
    refine perform_comments c ch w ?_ ?_
    · rintro doc rfl
      exact h
    · rintro f u rfl
      exact h
  rw [stores, hcomments]
  rcases perform_execute c ch w with hdb | ⟨s, rfl, hexec⟩
  · rw [hdb]
    rfl
  · rw [h _ _ _ hexec]
    rfl

/-! ## What the others may do meanwhile -/

/-- Rows stay, and a new user's login fits its column. -/
structure Rely (x x' : Database × Collection) : Prop where
  users : ∃ added, x'.1.users.rows = x.1.users.rows ++ added ∧
    ∀ r ∈ added, r.login.toList.length ≤ 50
  projects : ∀ r ∈ x.1.projects.rows, r ∈ x'.1.projects.rows

theorem Rely.refl (x : Database × Collection) : Rely x x :=
  ⟨⟨[], by simp, by simp⟩, fun _ h => h⟩

theorem Rely.trans {x y z : Database × Collection} (h : Rely x y) (h' : Rely y z) : Rely x z := by
  obtain ⟨added, hrows, hfits⟩ := h.users
  obtain ⟨added', hrows', hfits'⟩ := h'.users
  refine ⟨⟨added ++ added', by rw [hrows', hrows, List.append_assoc], ?_⟩,
    fun r hr => h'.projects r (h.projects r hr)⟩
  intro r hr
  rcases List.mem_append.mp hr with hold | hnew
  · exact hfits r hold
  · exact hfits' r hnew

/-- A new user's login has been through `VARCHAR(50)`. -/
theorem newUser_login {serial : Int} {login passwordHash firstName lastName email : String}
    {createdAt : Int} {row : UserRow}
    (h : Database.newUser serial login passwordHash firstName lastName email createdAt = .ok row) :
    varchar 50 login = .ok row.login := by
  simp only [Database.newUser, except_bind_ok, pure, Except.pure, Except.ok.injEq] at h
  obtain ⟨login', hlogin, _, _, _, _, _, _, _, _, rfl⟩ := h
  exact hlogin

theorem rely_perform (c : Call) (ch : Choice) (w : World) :
    Rely (stores w) (stores (perform c ch w).1) := by
  refine ⟨?_, (mem_rows_perform c ch w).2.1⟩
  show ∃ added, (perform c ch w).1.db.users.rows = w.db.users.rows ++ added ∧ _
  rcases perform_execute c ch w with hdb | ⟨s, _, hexec⟩
  · exact ⟨[], by rw [hdb]; simp, by simp⟩
  · revert hexec
    generalize (perform c ch w).1.db = db'
    rintro (⟨hrow, hinsert⟩ | _ | _ | _)
    · refine ⟨[_], (users_insert_ok hinsert).1, ?_⟩
      intro r hr
      rw [List.mem_singleton.mp hr]
      exact varchar_length (newUser_login hrow)
    · exact ⟨[], by simp, by simp⟩
    · exact ⟨[], by simp, by simp⟩
    · exact ⟨[], by simp, by simp⟩

/-! ## The handlers -/

/-- What is compared of a request's outcome: all of it, but a registration's 409 and its
exceptions are all one. -/
def observed : Request → Except Exn HttpResponse → Option (Except Exn HttpResponse)
  | .register _, .error _ => none
  | .register _, .ok response => if response.status = 409 then none else some (.ok response)
  | _, outcome => some outcome

/-- The requests that read or write the stores, and neither the cache's values nor the
limiter. -/
def TakesPart : Request → Prop
  | .login _ => False
  | .getProjects _ => False
  | .getComments _ => False
  | _ => True

abbrev Serializes (obs : Except Exn HttpResponse → Option (Except Exn HttpResponse))
    (full : Service HttpResponse) : List Choice → Service HttpResponse → Prop :=
  Prog.Serializes perform stores Rely obs full

section Rules

variable {obs : Except Exn HttpResponse → Option (Except Exn HttpResponse)}
  {full : Service HttpResponse} {made : List Choice}

/-- Publishing is blind. -/
theorem uses_publish_bind {α : Type} {topic key eventType traceId : String} {payload : Json}
    {f : Unit → Service α} (h : Prog.Uses IsBlind (f ())) :
    Prog.Uses IsBlind (EventProducer.publish topic key eventType payload traceId >>= f) :=
  EventProducer.obeys_publish_bind (fun _ _ => ⟨trivial, trivial⟩) (fun _ _ _ _ => trivial)
    fun _ _ _ _ _ => Prog.uses_of_obeys h _

theorem blind_of_uses {p : Service HttpResponse} (h : Prog.Uses IsBlind p) :
    Prog.Uses (Prog.Blind perform stores) p :=
  h.mono fun _ => perform_blind

theorem serializes_blind {c : Call} {k : c.Answer → Service HttpResponse} (hc : IsBlind c)
    (h : ∀ made r, Serializes obs full made (k r)) : Serializes obs full made (.call c k) :=
  Prog.serializes_blind (perform_blind hc) h

theorem serializes_commit {c : Call} {k : c.Answer → Service HttpResponse} (hc : IsLocal c)
    (h : ∀ r, Prog.Uses IsBlind (k r)) : Serializes obs full made (.call c k) :=
  Prog.serializes_commit (perform_local hc) fun r => blind_of_uses (h r)

theorem serializes_ended (outcome : Except Exn HttpResponse) :
    Serializes obs full made (Prog.ofExcept outcome) :=
  Prog.serializes_of_blind (by cases outcome <;> trivial)

end Rules

section Handlers

variable (u : Userver) {obs : Except Exn HttpResponse → Option (Except Exn HttpResponse)}
  {full : Service HttpResponse} {made : List Choice}

theorem serializes_addComment (request : HttpRequest) (userId : Int) :
    Serializes obs full made (addCommentHandler u request userId) := by
  simp [addCommentHandler, addCommentTo, insertComment, EventProducer.publishCommentAdded]
  refine Prog.serializes_ofExcept_bind fun taskId _ => ?_
  refine Prog.serializes_ofExcept_bind fun json _ => ?_
  refine serializes_blind trivial fun _ draws => ?_
  refine Prog.serializes_ofExcept_bind fun a _ => ?_
  refine Prog.serializes_ofExcept_bind fun author _ => ?_
  refine Prog.serializes_ofExcept_bind fun t _ => ?_
  refine Prog.serializes_ofExcept_bind fun text _ => ?_
  refine serializes_blind trivial fun _ now => ?_
  refine serializes_commit trivial fun answer => ?_
  refine Prog.uses_ofExcept_bind fun _ _ => ?_
  exact uses_publish_bind (Prog.uses_call.mpr ⟨trivial, fun _ => trivial⟩)

/-- No row or the one row, as the handlers have it. -/
theorem optional_eq {α : Type} (decode : List Value → Except Exn α) (rows : List Row)
    [Decidable (rows = [])] :
    (if rows = [] then Prog.pure none
      else Prog.ofExcept (asSingleRow decode rows) >>= fun a => Prog.pure (some a) :
        Service (Option α)) = Prog.ofExcept (Nullability.Query.optionalRow decode rows) := by
  rw [Nullability.Query.optionalRow_eq]
  by_cases hrows : rows = []
  · rw [if_pos hrows, if_pos (by simp [hrows])]
  · rw [if_neg hrows, if_neg (by simp [hrows])]

theorem serializes_createProject (request : HttpRequest) (userId : Int) :
    Serializes obs full made (createProjectHandler u request userId) := by
  simp [createProjectHandler, createProject, execute, EventProducer.publishProjectCreated,
    Prog.bind_assoc]
  refine Prog.serializes_ofExcept_bind fun json _ => ?_
  refine Prog.serializes_ofExcept_bind fun hasName _ => ?_
  refine Prog.serializes_ite (fun _ => serializes_ended (.ok _)) fun _ => ?_
  refine Prog.serializes_ofExcept_bind fun n _ => ?_
  refine Prog.serializes_ofExcept_bind fun name _ => ?_
  refine Prog.serializes_ofExcept_bind fun d _ => ?_
  refine Prog.serializes_ofExcept_bind fun description _ => ?_
  refine Prog.serializes_ofExcept_bind fun k _ => ?_
  refine Prog.serializes_ofExcept_bind fun key _ => ?_
  refine serializes_blind trivial fun _ now => ?_
  refine serializes_commit trivial fun answer => ?_
  refine Prog.uses_ofExcept_bind fun rows _ => ?_
  rw [optional_eq]
  refine Prog.uses_ofExcept_bind fun created _ => ?_
  refine Prog.uses_call.mpr ⟨trivial, fun _ => ?_⟩
  cases created with
  | none => trivial
  | some project => exact uses_publish_bind trivial

theorem serializes_userSearch (request : HttpRequest) :
    Serializes obs full made (userSearchHandler u request) := by
  have hquiet : ∀ (answer : Except Exn (List Row)),
      Prog.Uses IsBlind (do
        let users ← (do
          let result ← Prog.ofExcept answer
          Prog.ofExcept (asContainer decodeUser result))
        let result ← Prog.ofExcept (renderUsers users)
        Prog.pure { body := u.toString result } : Service HttpResponse) := by
    intro answer
    rw [Prog.bind_assoc]
    refine Prog.uses_ofExcept_bind fun rows _ => ?_
    refine Prog.uses_ofExcept_bind fun users _ => ?_
    exact Prog.uses_ofExcept_bind fun result _ => trivial
  simp [userSearchHandler, searchUsersByLogin, searchUsersByFirstNameLastName, execute]
  refine Prog.serializes_ite (fun _ => ?_) fun _ => serializes_commit trivial hquiet
  exact Prog.serializes_ite (fun _ => serializes_commit trivial hquiet)
    fun _ => serializes_ended (.ok _)

/-! ### Creating a task -/

/-- The answer of a statement that the server took. -/
theorem execute_answer {s : Statement} {ch : Choice} {w : World} {rows : List Row}
    (h : (perform (.execute s) ch w).2 = .ok rows) :
    ch.fault = none ∧ ∃ db, w.db.execute ch.serial s = .ok (db, rows) := by
  rcases execute_cases ch w s with ⟨e, _, heq⟩ | ⟨db, rows', hfault, hact, heq⟩
  · rw [heq] at h
    exact absurd h (by simp)
  · rw [heq] at h
    obtain rfl := Except.ok.inj h
    exact ⟨hfault, db, hact⟩

theorem perform_of_execute {s : Statement} {ch : Choice} {w : World} {db : Database}
    {rows : List Row} (hfault : ch.fault = none)
    (hact : w.db.execute ch.serial s = .ok (db, rows)) :
    perform (.execute s) ch w = ({ w with db := db }, .ok rows) := by
  rcases execute_cases ch w s with ⟨e, he, _⟩ | ⟨db', rows', _, hact', heq⟩
  · rcases he with hfault' | ⟨_, herror⟩
    · rw [hfault] at hfault'
      exact absurd hfault' (by simp)
    · rw [hact] at herror
      exact absurd herror (by simp)
  · rw [hact] at hact'
    obtain ⟨rfl, rfl⟩ := Prod.mk.inj (Except.ok.inj hact')
    exact heq

/-- A project that was found is found again. -/
theorem selectProject_again {columns : List String} {id : Int} {ch : Choice} {w w' : World}
    {rows : List Row}
    (h : (perform (.execute (.selectProjectById columns id)) ch w).2 = .ok rows)
    (hne : rows ≠ []) (hrely : Rely (stores w) (stores w')) :
    (perform (.execute (.selectProjectById columns id)) ch w').2 = .ok rows := by
  obtain ⟨hfault, db, hact⟩ := execute_answer h
  obtain ⟨_, rfl⟩ := Prod.mk.inj (Except.ok.inj hact)
  have hone : ∀ db : Database, (db.projects.rows.filter fun r => r.id = id) = [] ∨
      ∃ r, (db.projects.rows.filter fun r => r.id = id) = [r] := fun db =>
    Nullability.unique_row db.projects.ids_nodup (k := id) fun r hr => by simpa using hr
  -- the one row is still there, and still the only one
  obtain ⟨r, hr⟩ := (hone w.db).resolve_left fun hnone => hne (by rw [hnone]; rfl)
  have hmem : r ∈ w.db.projects.rows ∧ r.id = id := by
    have hfiltered : r ∈ w.db.projects.rows.filter fun r => r.id = id := by simp [hr]
    simpa using hfiltered
  have hlater : r ∈ w'.db.projects.rows.filter fun r => r.id = id := by
    simpa using ⟨hrely.projects r hmem.1, hmem.2⟩
  have hsame : (w'.db.projects.rows.filter fun r => r.id = id) = [r] := by
    rcases hone w'.db with hnone | ⟨r', hr'⟩
    · rw [hnone] at hlater
      exact absurd hlater (by simp)
    · rw [hr'] at hlater ⊢
      rw [List.mem_singleton.mp hlater]
  have hact' : w'.db.execute ch.serial (.selectProjectById columns id) =
      .ok (w'.db, (w'.db.projects.rows.filter fun r => r.id = id).map fun r =>
        pick columns r.columns) := rfl
  rw [perform_of_execute hfault hact', hsame, hr]

theorem serializes_createTask (request : HttpRequest) (userId : Int) :
    Serializes obs full made (createTaskHandler u request userId) := by
  simp [createTaskHandler, createTaskIn, createTask, getProjectById, execute,
    EventProducer.publishTaskCreated, Prog.bind_assoc]
  refine Prog.serializes_ofExcept_bind fun projectId _ => ?_
  refine Prog.serializes_read (perform_local trivial) (perform_silent ?_) ?_ ?_
  · rintro db serial db' ⟨⟩
    rfl
  · intro made answer
    refine Prog.serializes_ofExcept_bind fun rows _ => ?_
    rw [optional_eq]
    refine Prog.serializes_ofExcept_bind fun project _ => ?_
    refine Prog.serializes_ite (fun _ => serializes_ended (.ok _)) fun _ => ?_
    refine Prog.serializes_ofExcept_bind fun json _ => ?_
    refine Prog.serializes_ofExcept_bind fun hasTitle _ => ?_
    refine Prog.serializes_ite (fun _ => serializes_ended (.ok _)) fun _ => ?_
    refine Prog.serializes_ofExcept_bind fun t _ => ?_
    refine Prog.serializes_ofExcept_bind fun title _ => ?_
    refine Prog.serializes_ofExcept_bind fun d _ => ?_
    refine Prog.serializes_ofExcept_bind fun description _ => ?_
    refine Prog.serializes_ofExcept_bind fun s _ => ?_
    refine Prog.serializes_ofExcept_bind fun status _ => ?_
    refine Prog.serializes_ofExcept_bind fun p _ => ?_
    refine Prog.serializes_ofExcept_bind fun priority _ => ?_
    refine serializes_blind trivial fun _ createdAt => ?_
    refine serializes_blind trivial fun _ now => ?_
    refine serializes_commit trivial fun inserted => ?_
    refine Prog.uses_ofExcept_bind fun result _ => ?_
    cases result with
    | nil => trivial
    | cons row rest =>
        rw [Prog.bind_assoc]
        refine Prog.uses_ofExcept_bind fun task _ => ?_
        exact uses_publish_bind trivial
  · intro ch w
    cases hanswer : (perform (.execute (.selectProjectById
      ["id", "name", "description", "key", "owner_id", "created_at"] projectId)) ch w).2 with
    | error e => exact Or.inl trivial
    | ok rows =>
        by_cases hrows : rows = []
        · subst hrows
          exact Or.inl trivial
        · refine Or.inr fun w' hrely cs => ?_
          rw [selectProject_again hanswer hrows hrely]
          exact ⟨rfl, rfl⟩

/-! ### Replying -/

theorem uses_finish (taskId : Int) : Prog.Uses IsBlind (AddReply.finish taskId) := by
  unfold AddReply.finish
  by_cases hpos : taskId > 0
  · simp [hpos, IsBlind]
  · simp [hpos, IsBlind]

/-- After the update, the task id that was read comes only into the event and the
invalidation. -/
theorem same_replied {answer : Except Exn ℕ} {event event' : CommentAddedEvent}
    {taskId taskId' : Int} {traceId : String} (cs : ℕ → Choice) (w : World) :
    Prog.Same stores obs
      ((Prog.ofExcept answer >>= fun _ => EventProducer.publishCommentAdded event traceId >>=
        fun _ => AddReply.finish taskId : Service HttpResponse).exec perform cs w)
      ((Prog.ofExcept answer >>= fun _ => EventProducer.publishCommentAdded event' traceId >>=
        fun _ => AddReply.finish taskId' : Service HttpResponse).exec perform cs w) := by
  cases answer with
  | error e => exact ⟨rfl, rfl⟩
  | ok n =>
      have hblind : ∀ event taskId, Prog.Uses (Prog.Blind perform stores)
          (EventProducer.publishCommentAdded event traceId >>= fun _ => AddReply.finish taskId) :=
        fun event taskId => blind_of_uses (uses_publish_bind (uses_finish taskId))
      have hanswer : ∀ event taskId,
          ((EventProducer.publishCommentAdded event traceId >>= fun _ =>
            AddReply.finish taskId).exec perform cs w).1 =
            .ok { status := 201, body := statusOk } := by
        intro event taskId
        obtain ⟨message, _, hexec⟩ := EventProducer.exec_publish_bind "comment-events"
          event.commentId "CommentAdded" traceId event.toPayload
          (fun _ => AddReply.finish taskId) cs w
        rw [AddReply.exec_finish] at hexec
        exact congrArg Prod.fst hexec
      refine ⟨congrArg obs ((hanswer event taskId).trans (hanswer event' taskId').symm), ?_⟩
      exact (Prog.exec_blind (hblind event taskId) cs w w).2.trans
        (Prog.exec_blind (hblind event' taskId') cs w w).2.symm

theorem serializes_addReply (request : HttpRequest) :
    Serializes obs full made (addReplyHandler u request) := by
  simp [addReplyHandler, getTaskIdByCommentId_eq, addReply, Prog.bind_assoc]
  refine Prog.serializes_ofExcept_bind fun json _ => ?_
  refine Prog.serializes_ofExcept_bind fun a _ => ?_
  refine Prog.serializes_ofExcept_bind fun author _ => ?_
  refine Prog.serializes_ofExcept_bind fun t _ => ?_
  refine Prog.serializes_ofExcept_bind fun text _ => ?_
  refine serializes_blind trivial fun _ createdAt => ?_
  cases hoid : Oid.ofString (request.getPathArg "commentId") with
  | error e => exact serializes_ended (.error e)
  | ok oid =>
      refine Prog.serializes_read (perform_local trivial) (perform_silent trivial) ?_ ?_
      · intro made found
        refine serializes_blind trivial fun _ now => ?_
        refine serializes_commit trivial fun answer => ?_
        refine Prog.uses_ofExcept_bind fun _ _ => ?_
        exact uses_publish_bind (uses_finish (taskIdOf found))
      · intro ch w
        refine Or.inr fun w' _ cs => ?_
        -- both clocks and both updates are the same
        exact same_replied (fun i => cs (i + 1 + 1)) _

/-! ### Registering -/

/-- The login that an INSERT finds taken. -/
theorem insertUser_taken {login passwordHash firstName lastName email : String} {now : Int}
    {returning : List String} {ch : Choice} {w : World}
    (htaken : ∃ r ∈ w.db.users.rows, r.login = login) (hlen : login.toList.length ≤ 50) :
    ∃ e, perform (.execute (.insertUser login passwordHash firstName lastName email now
      returning)) ch w = (w, .error e) := by
  rcases execute_cases ch w (.insertUser login passwordHash firstName lastName email now
    returning) with ⟨e, _, heq⟩ | ⟨db, rows, _, hact, _⟩
  · exact ⟨e, heq⟩
  · simp only [Database.execute, except_bind_ok] at hact
    obtain ⟨row, hrow, users, hinsert, _⟩ := hact
    obtain ⟨_, hlogin⟩ := (varchar_ok hlen).mp (newUser_login hrow)
    obtain ⟨r, hr, hlogin'⟩ := htaken
    unfold Users.insert at hinsert
    split at hinsert
    · rename_i hnew
      exact absurd (List.mem_map.mpr ⟨r, hr, hlogin'.trans hlogin.symm⟩) hnew.2.1
    · exact absurd hinsert (by simp)

/-- A row that was found ends the request, with an answer or because it does not decode. -/
theorem found_ends {α β : Type} (decode : List Value → Except Exn α) (row : Row)
    (rest : List Row) (response : β) (p : Service β) :
    ∃ outcome : Except Exn β,
      ((Prog.ofExcept (Nullability.Query.optionalRow decode (row :: rest)) >>= fun found =>
        if found.isSome = true then Prog.pure response else p) = Prog.ofExcept outcome) ∧
      ∀ response', outcome = .ok response' → response' = response := by
  have hrow : Nullability.Query.optionalRow decode (row :: rest) =
      some <$> asSingleRow decode (row :: rest) := rfl
  rw [hrow]
  cases asSingleRow decode (row :: rest) with
  | error e => exact ⟨.error e, rfl, fun _ h => absurd h (by simp)⟩
  | ok a => exact ⟨.ok response, rfl, fun _ h => (Except.ok.inj h).symm⟩

/-- A login that was not found once and is found later has been registered in between. -/
theorem selectUser_later {columns : List String} {login : String} {ch : Choice} {w w' : World}
    (h : (perform (.execute (.selectUserByLogin columns login)) ch w).2 = .ok [])
    (hrely : Rely (stores w) (stores w')) :
    ∃ rows, (perform (.execute (.selectUserByLogin columns login)) ch w').2 = .ok rows ∧
      (rows ≠ [] → (∃ r ∈ w'.db.users.rows, r.login = login) ∧ login.toList.length ≤ 50) := by
  obtain ⟨hfault, db, hact⟩ := execute_answer h
  simp only [Database.execute, except_bind_ok, text_ok, pure, Except.pure, Except.ok.injEq,
    Prod.mk.injEq, List.map_eq_nil_iff] at hact
  obtain ⟨_, ⟨hnul, rfl⟩, _, hnone⟩ := hact
  have hact' : w'.db.execute ch.serial (.selectUserByLogin columns _) = .ok (w'.db, _) :=
    except_bind_ok.mpr ⟨_, text_ok.mpr ⟨hnul, rfl⟩, rfl⟩
  refine ⟨_, by rw [perform_of_execute hfault hact'], fun hne => ?_⟩
  rw [ne_eq, List.map_eq_nil_iff] at hne
  obtain ⟨r, hr⟩ := List.exists_mem_of_ne_nil _ hne
  obtain ⟨hmem, hfound⟩ := List.mem_filter.mp hr
  obtain ⟨added, hrows, hfits⟩ := hrely.users
  have hfound' := of_decide_eq_true hfound
  refine ⟨⟨r, hmem, hfound'.1⟩, ?_⟩
  have hrows' : w'.db.users.rows = w.db.users.rows ++ added := hrows
  rw [hrows'] at hmem
  rcases List.mem_append.mp hmem with hold | hnew
  · exact absurd hfound (List.filter_eq_nil_iff.mp hnone r hold)
  · rw [← hfound'.1]
    exact hfits r hnew

/-- The program throws, and leaves the world as it is. -/
def Refuses (w : World) (p : Service HttpResponse) : Prop :=
  Prog.Triple perform (fun w' => w' = w) p fun outcome w' =>
    (∃ e, outcome = .error e) ∧ w' = w

/-- A step of such a program on its own data. -/
theorem refuses_ofExcept_bind {α : Type} {x : Except Exn α} {f : α → Service HttpResponse}
    {w : World} (h : ∀ a, x = .ok a → Refuses w (f a)) : Refuses w (Prog.ofExcept x >>= f) :=
  Prog.triple_ofExcept_bind.mpr ⟨fun e _ _ hw => ⟨⟨e, rfl⟩, hw⟩, h⟩

/-- A statement that cannot succeed ends it. -/
theorem refuses_execute_bind {statement : Statement} {f : List Row → Service HttpResponse}
    {w : World} (h : ∀ ch, ∃ e, perform (.execute statement) ch w = (w, .error e)) :
    Refuses w (Prog.call (.execute statement) fun answer => Prog.ofExcept answer >>= f) := by
  refine Prog.triple_call (fun answer w' => (∃ e, answer = .error e) ∧ w' = w) ?_ ?_
  · rintro ch _ rfl
    obtain ⟨e, hfailed⟩ := h ch
    rw [hfailed]
    exact ⟨⟨e, rfl⟩, rfl⟩
  · intro answer
    refine Prog.triple_pre ?_
    rintro ⟨e, rfl⟩
    exact fun _ hw => ⟨⟨e, rfl⟩, hw⟩

/-- A registration that is told 409 or cannot go on, and one whose INSERT will fail. -/
theorem same_refused {request : HttpRequest} {p : Service HttpResponse} {w : World}
    {outcome : Except Exn HttpResponse} (hp : Refuses w p)
    (houtcome : ∀ response, outcome = .ok response → response.status = 409) (cs : ℕ → Choice) :
    Prog.Same stores (observed (.register request))
      ((Prog.ofExcept outcome : Service HttpResponse).exec perform cs w)
      (p.exec perform cs w) := by
  obtain ⟨⟨e, herror⟩, hworld⟩ := hp.exec cs rfl
  rw [Prog.Same, herror, hworld]
  cases outcome with
  | error e' => exact ⟨rfl, rfl⟩
  | ok response => exact ⟨if_pos (houtcome response rfl), rfl⟩

theorem serializes_register (request : HttpRequest) :
    Serializes (observed (.register request)) full made (registerHandler u request) := by
  simp [registerHandler, registerWith, createUser, getUserByLogin, PostgresStorage.execute,
    EventProducer.publishUserRegistered, Prog.bind_assoc]
  refine Prog.serializes_ofExcept_bind fun json _ => ?_
  refine Prog.serializes_ofExcept_bind fun hasLogin _ => ?_
  refine Prog.serializes_ofExcept_bind fun hasPassword _ => ?_
  refine Prog.serializes_ofExcept_bind fun hasFirst _ => ?_
  refine Prog.serializes_ofExcept_bind fun hasLast _ => ?_
  refine Prog.serializes_ofExcept_bind fun hasEmail _ => ?_
  refine Prog.serializes_ite (fun _ => serializes_ended (.ok _)) fun _ => ?_
  refine Prog.serializes_ofExcept_bind fun l _ => ?_
  refine Prog.serializes_ofExcept_bind fun login _ => ?_
  refine Prog.serializes_read (perform_local trivial) (perform_silent ?_) ?_ ?_
  · rintro db serial db' ⟨⟩
    rfl
  · intro made answer
    refine Prog.serializes_ofExcept_bind fun rows _ => ?_
    rw [optional_eq]
    refine Prog.serializes_ofExcept_bind fun found _ => ?_
    refine Prog.serializes_ite (fun _ => serializes_ended (.ok _)) fun _ => ?_
    refine Prog.serializes_ofExcept_bind fun p _ => ?_
    refine Prog.serializes_ofExcept_bind fun password _ => ?_
    refine Prog.serializes_ofExcept_bind fun f _ => ?_
    refine Prog.serializes_ofExcept_bind fun firstName _ => ?_
    refine Prog.serializes_ofExcept_bind fun n _ => ?_
    refine Prog.serializes_ofExcept_bind fun lastName _ => ?_
    refine Prog.serializes_ofExcept_bind fun m _ => ?_
    refine Prog.serializes_ofExcept_bind fun email _ => ?_
    refine serializes_blind trivial fun _ now => ?_
    refine serializes_commit trivial fun inserted => ?_
    refine Prog.uses_ofExcept_bind fun result _ => ?_
    rw [optional_eq]
    refine Prog.uses_ofExcept_bind fun created _ => ?_
    cases created with
    | none => trivial
    | some user => exact uses_publish_bind trivial
  · intro ch w
    cases hanswer : (perform (.execute (.selectUserByLogin ["id", "login", "password_hash",
      "first_name", "last_name", "email", "created_at", "is_deleted"] login)) ch w).2 with
    | error e => exact Or.inl trivial
    | ok rows =>
        cases rows with
        | cons row rest =>
            refine Or.inl ?_
            rw [Prog.ofExcept_ok, Prog.pure_bind_eq, optional_eq]
            obtain ⟨outcome, heq, _⟩ := found_ends decodeUser row rest _ _
            rw [heq]
            cases outcome <;> trivial
        | nil =>
          refine Or.inr fun w' hrely cs => ?_
          obtain ⟨rows', hanswer', htaken⟩ := selectUser_later hanswer hrely
          rw [hanswer']
          cases rows' with
          | nil => exact ⟨rfl, rfl⟩
          | cons row rest =>
            obtain ⟨hlogin, hlen⟩ := htaken (by simp)
            rw [Prog.ofExcept_ok, Prog.pure_bind_eq, optional_eq]
            obtain ⟨outcome, heq, hresponse⟩ := found_ends decodeUser row rest _ _
            rw [heq]
            refine same_refused ?_ (fun response hok => by rw [hresponse response hok]) cs
            refine refuses_ofExcept_bind fun none hnone => ?_
            obtain rfl := Except.ok.inj hnone
            rw [optional_eq]
            refine refuses_ofExcept_bind fun found hfound => ?_
            obtain rfl := Except.ok.inj hfound
            refine Prog.triple_ite.mpr ⟨fun hsome => absurd hsome (by simp), fun _ => ?_⟩
            refine refuses_ofExcept_bind fun p _ => ?_
            refine refuses_ofExcept_bind fun password _ => ?_
            refine refuses_ofExcept_bind fun f _ => ?_
            refine refuses_ofExcept_bind fun firstName _ => ?_
            refine refuses_ofExcept_bind fun n _ => ?_
            refine refuses_ofExcept_bind fun lastName _ => ?_
            refine refuses_ofExcept_bind fun m _ => ?_
            refine refuses_ofExcept_bind fun email _ => ?_
            refine Prog.triple_call_keep (fun _ _ hw => hw) fun now => ?_
            exact refuses_execute_bind fun ch => insertUser_taken hlogin hlen

end Handlers

/-- Every request of a kind that takes part. -/
theorem serializes_serve (u : Userver) {request : Request} (h : TakesPart request)
    {full : Service HttpResponse} {made : List Choice} :
    Serializes (observed request) full made (serve u request) := by
  cases request with
  | login _ | getProjects _ | getComments _ => exact h.elim
  | register request => exact serializes_register u request
  | userSearch request => exact serializes_userSearch u request
  | createProject request userId => exact serializes_createProject u request userId
  | createTask request userId => exact serializes_createTask u request userId
  | addComment request userId => exact serializes_addComment u request userId
  | addReply request => exact serializes_addReply u request

/-- The others leave the stores. -/
theorem silent_serve (u : Userver) {request : Request} (h : ¬TakesPart request) :
    Prog.Uses (Prog.Silent perform stores) (serve u request) := by
  refine (Footprint.stays_serve u request).mono fun c hc => perform_silent ?_
  have hselect : ∀ {s : Statement}, Footprint.Reaches request (.execute s) →
      ∀ db serial db', Database.Executed db serial s db' → db' = db := by
    intro s hs db serial db' hexec
    cases request with
    | register _ | userSearch _ | createProject _ _ | createTask _ _ | addComment _ _
      | addReply _ => exact absurd trivial h
    | login _ | getProjects _ | getComments _ =>
        cases hexec with
        | select => rfl
        | _ => exact hs.elim
  cases request with
  | register _ | userSearch _ | createProject _ _ | createTask _ _ | addComment _ _
    | addReply _ => exact absurd trivial h
  | login _ | getProjects _ | getComments _ =>
      cases c with
      | execute s => exact hselect hc
      | insertOne _ | updateOne _ _ => exact hc.elim
      | _ => trivial

/-- **The stores are serializable.** Whatever requests run at once, and at every moment of
every schedule, there is an order of those that take part, among them all that are over, in
which, run one at a time with the choices that each met, they leave the same tables and
comments. They end as they did, but that a registration may be answered 409 where it threw;
and a request that was over before another began comes before it. -/
theorem requests_serializable (u : Userver) (w : World) (requests : ℕ → Request)
    (sched : List (ℕ × Choice)) :
    ∃ order, SerialOrder perform stores (fun tid => observed (requests tid))
      (fun tid => TakesPart (requests tid)) w (fun tid => serve u (requests tid)) sched order :=
  run_serializable Rely.refl (fun _ _ _ => Rely.trans) rely_perform
    (fun _ h => serializes_serve u h) (fun _ h => silent_serve u h) sched

end MyService.Handlers.Serializability
