import MyService.Handlers.Calls
import MyService.Handlers.Listings

/-!
# The tables over a run

What `schema.sql` promises about the tables (every text fits its column, every reference
names a row) holds of all contents that inserts and deletes can leave. The service only
inserts, so a run goes from such contents to such contents: it keeps every row in its
place, and leaves no column of a new row NULL but a task's assignee. A read that could
decode the tables before the run can still decode them in any later state.
-/

namespace MyService.Storage.Integrity

open Framework Userver Userver.Postgres PostgresStorage Nullability Handlers.Calls

/-! ## What the schema promises -/

/-- Every text fits its column and every reference names a row. -/
structure Sound (db : Database) : Prop where
  users : ∀ r ∈ db.users.rows, UserFits r
  projects : ∀ r ∈ db.projects.rows, ProjectFits r
  tasks : ∀ r ∈ db.tasks.rows, TaskFits r
  owner : ∀ r ∈ db.projects.rows, ∀ id ∈ r.ownerId, id ∈ db.userIds
  project : ∀ r ∈ db.tasks.rows, r.projectId ∈ db.projectIds
  creator : ∀ r ∈ db.tasks.rows, r.creatorId ∈ db.userIds
  assignee : ∀ r ∈ db.tasks.rows, ∀ id ∈ r.assigneeId, id ∈ db.userIds

theorem references_ok {ids : List Int} {id : Int} : references ids id = .ok () ↔ id ∈ ids := by
  unfold references
  split <;> simp_all

theorem referencesNullable_ok {ids : List Int} {id : Option Int} :
    referencesNullable ids id = .ok () ↔ ∀ i ∈ id, i ∈ ids := by
  cases id with
  | none => simp [referencesNullable]
  | some i => simp [referencesNullable, references_ok]

theorem sound_empty : Sound Database.empty := by
  constructor <;> simp [Database.empty]

namespace Sound

variable {db : Database} (h : Sound db)

include h

theorem insertUser {r : UserRow} {users : Users} (hfits : UserFits r)
    (hinsert : db.users.insert r = .ok users) : Sound { db with users := users } := by
  have hrows : users.rows = db.users.rows ++ [r] := (users_insert_ok hinsert).1
  have hids : ∀ id ∈ db.userIds, id ∈ users.rows.map UserRow.id := by
    intro id hid
    rw [hrows, List.map_append]
    exact List.mem_append_left _ hid
  refine ⟨?_, h.projects, h.tasks, fun r hr id hid => hids _ (h.owner r hr id hid), h.project,
    fun r hr => hids _ (h.creator r hr), fun r hr id hid => hids _ (h.assignee r hr id hid)⟩
  intro r' hr'
  rw [hrows] at hr'
  rcases List.mem_append.mp hr' with hold | hnew
  · exact h.users r' hold
  · rw [List.mem_singleton.mp hnew]
    exact hfits

theorem insertProject {r : ProjectRow} {projects : Projects} (hfits : ProjectFits r)
    (howner : ∀ id ∈ r.ownerId, id ∈ db.userIds)
    (hinsert : db.projects.insert r = .ok projects) :
    Sound { db with projects := projects } := by
  have hrows : projects.rows = db.projects.rows ++ [r] := (projects_insert_ok hinsert).1
  refine ⟨h.users, ?_, h.tasks, ?_, ?_, h.creator, h.assignee⟩
  · intro r' hr'
    rw [hrows] at hr'
    rcases List.mem_append.mp hr' with hold | hnew
    · exact h.projects r' hold
    · rw [List.mem_singleton.mp hnew]
      exact hfits
  · intro r' hr'
    rw [hrows] at hr'
    rcases List.mem_append.mp hr' with hold | hnew
    · exact h.owner r' hold
    · rw [List.mem_singleton.mp hnew]
      exact howner
  · intro r' hr'
    show _ ∈ projects.rows.map ProjectRow.id
    rw [hrows, List.map_append]
    exact List.mem_append_left _ (h.project r' hr')

theorem insertTask {r : TaskRow} {tasks : Tasks} (hfits : TaskFits r)
    (hproject : r.projectId ∈ db.projectIds) (hcreator : r.creatorId ∈ db.userIds)
    (hassignee : ∀ id ∈ r.assigneeId, id ∈ db.userIds)
    (hinsert : db.tasks.insert r = .ok tasks) : Sound { db with tasks := tasks } := by
  have hrows : tasks.rows = db.tasks.rows ++ [r] := (tasks_insert_ok hinsert).1
  have hmem : ∀ r' ∈ tasks.rows, r' ∈ db.tasks.rows ∨ r' = r := by
    intro r' hr'
    rwa [hrows, List.mem_append, List.mem_singleton] at hr'
  refine ⟨h.users, h.projects, ?_, h.owner, ?_, ?_, ?_⟩ <;> intro r' hr' <;>
    rcases hmem r' hr' with hold | rfl
  · exact h.tasks r' hold
  · exact hfits
  · exact h.project r' hold
  · exact hproject
  · exact h.creator r' hold
  · exact hcreator
  · exact h.assignee r' hold
  · exact hassignee

/-- A deleted user owns and does nothing any more; one who created a task stays. -/
theorem deleteUser {db' : Database} {id : Int} (hdelete : Nullability.deleteUser db id = .ok db') :
    Sound db' := by
  unfold Nullability.deleteUser at hdelete
  split at hdelete
  · exact absurd hdelete (by simp)
  · rename_i hcreator
    obtain rfl := Except.ok.inj hdelete
    have hids : ∀ i ∈ db.userIds, i ≠ id → i ∈ (deleteFrom id db.users).rows.map UserRow.id := by
      intro i hi hne
      obtain ⟨r, hr, rfl⟩ := List.mem_map.mp hi
      exact List.mem_map_of_mem (List.mem_filter.mpr ⟨hr, decide_eq_true hne⟩)
    constructor
    · exact fun r hr => h.users r (List.mem_filter.mp hr).1
    · intro r hr
      obtain ⟨r', hr', rfl⟩ := List.mem_map.mp hr
      exact h.projects r' hr'
    · intro r hr
      obtain ⟨r', hr', rfl⟩ := List.mem_map.mp hr
      exact h.tasks r' hr'
    · intro r hr i hi
      obtain ⟨r', hr', rfl⟩ := List.mem_map.mp hr
      dsimp only at hi
      split at hi
      · exact absurd hi (by simp)
      · rename_i hne
        exact hids i (h.owner r' hr' i hi) fun heq => hne (by rw [← heq]; exact hi)
    · intro r hr
      obtain ⟨r', hr', rfl⟩ := List.mem_map.mp hr
      show r'.projectId ∈ (clearOwner id db.projects).rows.map ProjectRow.id
      rw [clearOwner, List.map_map]
      exact h.project r' hr'
    · intro r hr
      obtain ⟨r', hr', rfl⟩ := List.mem_map.mp hr
      exact hids _ (h.creator r' hr') fun heq => hcreator (List.mem_map.mpr ⟨r', hr', heq⟩)
    · intro r hr i hi
      obtain ⟨r', hr', rfl⟩ := List.mem_map.mp hr
      dsimp only at hi
      split at hi
      · exact absurd hi (by simp)
      · rename_i hne
        exact hids i (h.assignee r' hr' i hi) fun heq => hne (by rw [← heq]; exact hi)

/-- The tasks of a deleted project go with it. -/
theorem deleteProject (id : Int) : Sound (Nullability.deleteProject db id) := by
  refine ⟨h.users, fun r hr => h.projects r (List.mem_filter.mp hr).1,
    fun r hr => h.tasks r (List.mem_filter.mp hr).1,
    fun r hr => h.owner r (List.mem_filter.mp hr).1, ?_,
    fun r hr => h.creator r (List.mem_filter.mp hr).1,
    fun r hr => h.assignee r (List.mem_filter.mp hr).1⟩
  intro r hr
  obtain ⟨hold, hne⟩ := List.mem_filter.mp hr
  obtain ⟨p, hp, heq⟩ := List.mem_map.mp (h.project r hold)
  refine List.mem_map.mpr ⟨p, List.mem_filter.mpr ⟨hp, ?_⟩, heq⟩
  rw [heq]
  exact hne

end Sound

theorem sound_of_reachable {db : Database} (h : Reachable db) : Sound db := by
  induction h with
  | empty => exact sound_empty
  | insertUser _ hfits hinsert ih => exact ih.insertUser hfits hinsert
  | insertProject _ hfits howner hinsert ih =>
      exact ih.insertProject hfits (referencesNullable_ok.mp howner) hinsert
  | insertTask _ hfits hproject hcreator hassignee hinsert ih =>
      exact ih.insertTask hfits (references_ok.mp hproject) (references_ok.mp hcreator)
        (referencesNullable_ok.mp hassignee) hinsert
  | deleteUser _ hdelete ih => exact ih.deleteUser hdelete
  | deleteProject _ ih => exact ih.deleteProject _

/-! ## What a statement of the service does -/

theorem varchar_fits {n : ℕ} {s r : String} (h : varchar n s = .ok r) : Fits n r :=
  ⟨varchar_length h, varchar_nulFree h⟩

/-- Rows at the end of a table. -/
def Appended {R : Type} (P : R → Prop) (rows rows' : List R) : Prop :=
  ∃ added, rows' = rows ++ added ∧ ∀ r ∈ added, P r

namespace Appended

variable {R : Type} {P : R → Prop}

theorem refl (rows : List R) : Appended P rows rows := ⟨[], by simp, by simp⟩

theorem snoc {rows : List R} {r : R} (h : P r) : Appended P rows (rows ++ [r]) :=
  ⟨[r], rfl, by simpa using h⟩

theorem mono {Q : R → Prop} {rows rows' : List R} (h : Appended P rows rows')
    (hPQ : ∀ r, P r → Q r) : Appended Q rows rows' := by
  obtain ⟨added, hrows, hadded⟩ := h
  exact ⟨added, hrows, fun r hr => hPQ r (hadded r hr)⟩

theorem trans {a b c : List R} (h : Appended P a b) (h' : Appended P b c) : Appended P a c := by
  obtain ⟨x, rfl, hx⟩ := h
  obtain ⟨y, rfl, hy⟩ := h'
  refine ⟨x ++ y, List.append_assoc .., ?_⟩
  intro r hr
  rcases List.mem_append.mp hr with hold | hnew
  · exact hx r hold
  · exact hy r hnew

end Appended

/-- The nullable columns of a row that `CreateUser` wrote. -/
def UserWritten (r : UserRow) : Prop := UserFilled r ∧ r.isDeleted = some false

/-- The nullable columns of a row that `CreateTask` wrote: nobody is assigned. -/
structure TaskWritten (r : TaskRow) : Prop where
  description : r.description.isSome
  priority : r.priority.isSome
  createdAt : r.createdAt.isSome
  updatedAt : r.updatedAt.isSome
  assigneeId : r.assigneeId = none

/-- Every row stays in its place; in the new ones no column is NULL but the assignee. -/
structure Grown (db db' : Database) : Prop where
  users : Appended UserWritten db.users.rows db'.users.rows
  projects : Appended ProjectFilled db.projects.rows db'.projects.rows
  tasks : Appended TaskWritten db.tasks.rows db'.tasks.rows
  lower : db'.lower = db.lower

theorem Grown.refl (db : Database) : Grown db db := ⟨.refl _, .refl _, .refl _, rfl⟩

theorem Grown.trans {a b c : Database} (h : Grown a b) (h' : Grown b c) : Grown a c :=
  ⟨h.users.trans h'.users, h.projects.trans h'.projects, h.tasks.trans h'.tasks,
    h'.lower.trans h.lower⟩

theorem newUser_fits {serial : Int} {login passwordHash firstName lastName email : String}
    {createdAt : Int} {row : UserRow}
    (h : Database.newUser serial login passwordHash firstName lastName email createdAt = .ok row) :
    UserFits row ∧ UserWritten row := by
  simp only [Database.newUser, except_bind_ok, pure, Except.pure, Except.ok.injEq] at h
  obtain ⟨_, hlogin, _, hhash, _, hfirst, _, hlast, _, hemail, rfl⟩ := h
  exact ⟨⟨varchar_fits hlogin, varchar_fits hhash, varchar_fits hfirst, varchar_fits hlast,
    varchar_fits hemail⟩, rfl, rfl⟩

theorem newProject_fits {db : Database} {serial : Int} {name description key : String}
    {ownerId createdAt : Int} {row : ProjectRow}
    (h : db.newProject serial name description key ownerId createdAt = .ok row) :
    ProjectFits row ∧ ProjectFilled row ∧ referencesNullable db.userIds row.ownerId = .ok () := by
  simp only [Database.newProject, except_bind_ok, pure, Except.pure, Except.ok.injEq] at h
  obtain ⟨name', hname, description', hdesc, key', hkey, _, howner, rfl⟩ := h
  obtain ⟨hnul, rfl⟩ := text_ok.mp hdesc
  refine ⟨⟨varchar_fits hname, ?_, ?_⟩, ⟨rfl, rfl, rfl, rfl⟩, howner⟩
  · rintro _ ⟨⟩
    exact hnul
  · rintro _ ⟨⟩
    exact varchar_fits hkey

theorem newTask_fits {db : Database} {serial : Int} {title description status : String}
    {projectId creatorId : Int} {assigneeId : Option Int} {priority createdAt updatedAt : Int}
    {row : TaskRow}
    (h : db.newTask serial title description status projectId creatorId assigneeId priority
      createdAt updatedAt = .ok row) :
    TaskFits row ∧ (assigneeId = none → TaskWritten row) ∧
      references db.projectIds row.projectId = .ok () ∧
      references db.userIds row.creatorId = .ok () ∧
      referencesNullable db.userIds row.assigneeId = .ok () := by
  simp only [Database.newTask, except_bind_ok, pure, Except.pure, Except.ok.injEq] at h
  obtain ⟨_, htitle, _, hdesc, _, _, _, hproject, _, hcreator, _, hassignee, rfl⟩ := h
  obtain ⟨hnul, rfl⟩ := text_ok.mp hdesc
  refine ⟨⟨varchar_fits htitle, ?_⟩, fun hnone => ⟨rfl, rfl, rfl, rfl, hnone⟩, hproject, hcreator,
    hassignee⟩
  rintro _ ⟨⟩
  exact hnul

/-- A statement keeps the contents reachable, by an INSERT that the schema admits. -/
theorem reachable_executed {db db' : Database} {serial : Int} {s : Statement}
    (h : Reachable db) (hexec : Database.Executed db serial s db') : Reachable db' := by
  cases hexec with
  | insertUser hrow hinsert => exact .insertUser h (newUser_fits hrow).1 hinsert
  | insertProject hrow hinsert =>
      obtain ⟨hfits, _, howner⟩ := newProject_fits hrow
      exact .insertProject h hfits howner hinsert
  | insertTask hrow hinsert =>
      obtain ⟨hfits, _, hproject, hcreator, hassignee⟩ := newTask_fits hrow
      exact .insertTask h hfits hproject hcreator hassignee hinsert
  | select => exact h

/-- The service assigns a new task to nobody. -/
def Unassigned : Statement → Prop
  | .insertTask _ _ _ _ _ assigneeId _ _ _ _ => assigneeId = none
  | _ => True

theorem unassigned_of_makes {u : Userver} {request : Request} {s : Statement}
    {h : Prog.History Call Call.Answer} (hmakes : Makes u request h (.execute s)) :
    Unassigned s := by
  cases hmakes with
  | taskInsert => exact rfl
  | _ => trivial

theorem grown_executed {db db' : Database} {serial : Int} {s : Statement}
    (hs : Unassigned s) (hexec : Database.Executed db serial s db') : Grown db db' := by
  cases hexec with
  | insertUser hrow hinsert =>
      refine ⟨?_, .refl _, .refl _, rfl⟩
      rw [(users_insert_ok hinsert).1]
      exact .snoc (newUser_fits hrow).2
  | insertProject hrow hinsert =>
      refine ⟨.refl _, ?_, .refl _, rfl⟩
      rw [(projects_insert_ok hinsert).1]
      exact .snoc (newProject_fits hrow).2.1
  | insertTask hrow hinsert =>
      refine ⟨.refl _, .refl _, ?_, rfl⟩
      rw [(tasks_insert_ok hinsert).1]
      exact .snoc ((newTask_fits hrow).2.1 hs)
  | select => exact .refl db

/-! ## The first rows of a table that has grown -/

section Sorted

variable {α : Type} {r : α → α → Prop} [DecidableRel r]

/-- Inserted into more rows, the old ones keep their order. -/
theorem orderedInsert_sublist [IsTrans α r] {a : α} {l l' : List α} (h : l.Sublist l')
    (hsorted : l'.Pairwise r) : (l.orderedInsert r a).Sublist (l'.orderedInsert r a) := by
  induction h with
  | slnil => exact List.Sublist.refl _
  | @cons l l' b h ih =>
      obtain ⟨hb, hsorted⟩ := List.pairwise_cons.mp hsorted
      by_cases hab : r a b
      · rw [List.orderedInsert_cons_of_le _ _ hab]
        have hfront : l.orderedInsert r a = a :: l := by
          cases l with
          | nil => rfl
          | cons c l =>
              have hbc : r b c := hb c (h.subset List.mem_cons_self)
              exact List.orderedInsert_cons_of_le _ _ (IsTrans.trans _ _ _ hab hbc)
        rw [hfront]
        exact (h.cons b).cons_cons a
      · rw [List.orderedInsert_cons, if_neg hab]
        exact (ih hsorted).cons b
  | @cons_cons l l' b h ih =>
      rw [List.orderedInsert_cons, List.orderedInsert_cons]
      split
      · exact (h.cons_cons b).cons_cons a
      · exact (ih (List.pairwise_cons.mp hsorted).2).cons_cons b

theorem insertionSort_sublist_append [Std.Total r] [IsTrans α r] (l l' : List α) :
    (l.insertionSort r).Sublist ((l ++ l').insertionSort r) := by
  induction l with
  | nil => exact List.nil_sublist _
  | cons a l ih => exact orderedInsert_sublist ih (List.pairwise_insertionSort r _)

/-- An element among the first of more was among the first before. -/
theorem mem_take_of_sublist {l l' : List α} (h : l.Sublist l') (hnodup : l'.Nodup) {x : α}
    (hx : x ∈ l) {n : ℕ} (hn : x ∈ l'.take n) : x ∈ l.take n := by
  induction h generalizing n with
  | slnil => exact absurd hx (by simp)
  | @cons l l' b h ih =>
      obtain ⟨hb, hnodup⟩ := List.nodup_cons.mp hnodup
      cases n with
      | zero => exact absurd hn (by simp)
      | succ n =>
          rw [List.take_succ_cons, List.mem_cons] at hn
          rcases hn with rfl | hn
          · exact absurd (h.subset hx) hb
          · exact List.take_subset_take_left l (Nat.le_succ n) (ih hnodup hx hn)
  | @cons_cons l l' b h ih =>
      obtain ⟨hb, hnodup⟩ := List.nodup_cons.mp hnodup
      cases n with
      | zero => exact absurd hn (by simp)
      | succ n =>
          rw [List.take_succ_cons, List.mem_cons] at hn ⊢
          rcases hn with rfl | hn
          · exact Or.inl rfl
          · rcases List.mem_cons.mp hx with rfl | hx
            · exact Or.inl rfl
            · exact Or.inr (ih hnodup hx hn)

theorem forall_take_of_sublist {P : α → Prop} {l l' : List α} (h : l.Sublist l')
    (hnodup : l'.Nodup) (hnew : ∀ x ∈ l', x ∉ l → P x) {n : ℕ} (hfirst : ∀ x ∈ l.take n, P x) :
    ∀ x ∈ l'.take n, P x := by
  intro x hx
  by_cases hold : x ∈ l
  · exact hfirst x (mem_take_of_sublist h hnodup hold hx)
  · exact hnew x (List.mem_of_mem_take hx) hold

end Sorted

theorem Appended.forall_of_notMem {R : Type} {P : R → Prop} {rows rows' : List R}
    (h : Appended P rows rows') : ∀ r ∈ rows', r ∉ rows → P r := by
  obtain ⟨added, rfl, hadded⟩ := h
  intro r hr hold
  exact hadded r ((List.mem_append.mp hr).resolve_left hold)

/-- The first matching rows of a table that has grown. -/
theorem Appended.first_matching {R : Type} {P : R → Prop} {rows rows' : List R}
    (h : Appended P rows rows') (hnodup : rows'.Nodup) (p : R → Bool) {n : ℕ}
    (hfirst : ∀ r ∈ (rows.filter p).take n, P r) : ∀ r ∈ (rows'.filter p).take n, P r := by
  have hsub : rows.Sublist rows' := by
    obtain ⟨added, rfl, _⟩ := h
    exact List.sublist_append_left ..
  refine forall_take_of_sublist (hsub.filter p) (hnodup.filter p) ?_ hfirst
  intro r hr hold
  obtain ⟨hmem, hp⟩ := List.mem_filter.mp hr
  exact h.forall_of_notMem r hmem fun hin => hold (List.mem_filter.mpr ⟨hin, hp⟩)

/-! ## Reads of tables that have grown -/

section Reads

variable {db db' : Database} (h : Grown db db')

include h

/-- The old listing is part of the new one. -/
theorem listed_sublist :
    (db.projects.rows.insertionSort fun a b => Database.createdAfter a b).Sublist
      (db'.projects.rows.insertionSort fun a b => Database.createdAfter a b) := by
  obtain ⟨added, hrows, _⟩ := h.projects
  rw [hrows]
  exact insertionSort_sublist_append ..

theorem complete_grown (q : Query) (hcomplete : Complete db q) : Complete db' q := by
  have hfilled : Appended UserFilled db.users.rows db'.users.rows := h.users.mono fun _ hr => hr.1
  have husers : db'.users.rows.Nodup := .of_map _ db'.users.ids_nodup
  have hprojects : db'.projects.rows.Nodup := .of_map _ db'.projects.ids_nodup
  have hilike : ∀ value pattern, db'.ilike value pattern = db.ilike value pattern := by
    intro value pattern
    rw [Database.ilike, h.lower]
    rfl
  cases q with
  | getUserByLogin login =>
      intro hnul r hr hlogin hactive
      by_cases hold : r ∈ db.users.rows
      · exact hcomplete hnul r hold hlogin hactive
      · exact hfilled.forall_of_notMem r hr hold
  | searchUsersByLogin mask =>
      intro hnul
      simp only [hilike]
      exact hfilled.first_matching husers _ (hcomplete hnul)
  | searchUsersByFirstNameLastName first last =>
      intro hfirst hlast
      simp only [hilike]
      exact hfilled.first_matching husers _ (hcomplete hfirst hlast)
  | getProjectById id =>
      intro r hr hid
      by_cases hold : r ∈ db.projects.rows
      · exact hcomplete r hold hid
      · exact h.projects.forall_of_notMem r hr hold
  | getAllProjects =>
      have hperm := List.perm_insertionSort (fun a b => Database.createdAfter a b = true)
      refine forall_take_of_sublist (listed_sublist h)
        ((hperm db'.projects.rows).nodup_iff.mpr hprojects) ?_ hcomplete
      intro r hr hold
      exact h.projects.forall_of_notMem r ((hperm _).mem_iff.mp hr) fun hin =>
        hold ((hperm _).mem_iff.mpr hin)

theorem decodes_grown (q : Query) (hdecodes : Decodes db q) : Decodes db' q := by
  have hkeep := complete_grown h q
  cases q with
  | getUserByLogin login =>
      exact (decodes_getUserByLogin ..).mpr (hkeep ((decodes_getUserByLogin ..).mp hdecodes))
  | searchUsersByLogin mask =>
      exact (decodes_searchUsersByLogin ..).mpr
        (hkeep ((decodes_searchUsersByLogin ..).mp hdecodes))
  | searchUsersByFirstNameLastName first last =>
      exact (decodes_searchUsersByFirstNameLastName ..).mpr
        (hkeep ((decodes_searchUsersByFirstNameLastName ..).mp hdecodes))
  | getProjectById id =>
      exact (decodes_getProjectById ..).mpr (hkeep ((decodes_getProjectById ..).mp hdecodes))
  | getAllProjects =>
      exact (decodes_getAllProjects ..).mpr (hkeep ((decodes_getAllProjects ..).mp hdecodes))

end Reads

/-! ## Runs -/

section Runs

variable {u : Userver} {w : World} {requests : ℕ → Request} {sched : List (ℕ × Choice)}

theorem run_reachable (h : Reachable w.db) :
    Reachable (runService u w requests sched).world.db := by
  rw [runService_world]
  refine Config.stable_world perform runService_chained (P := fun w => Reachable w.db) ?_ h
  intro e _ hbefore
  rcases perform_execute e.call e.choice e.before with hsame | ⟨s, _, hexec⟩
  · rw [Event.after, hsame]
    exact hbefore
  · exact reachable_executed hbefore hexec

theorem run_grown : Grown w.db (runService u w requests sched).world.db := by
  rw [runService_world]
  refine Config.stable_world perform runService_chained (P := fun w' => Grown w.db w'.db) ?_
    (.refl _)
  intro e he hbefore
  rcases perform_execute e.call e.choice e.before with hsame | ⟨s, hcall, hexec⟩
  · rw [Event.after, hsame]
    exact hbefore
  · obtain ⟨k, hk⟩ := List.mem_iff_getElem?.mp he
    have hmakes := (conducts_run u w requests sched).calls k e hk
    rw [hcall] at hmakes
    exact hbefore.trans (grown_executed (unassigned_of_makes hmakes) hexec)

end Runs

/-- **Integrity of every run.** From contents that inserts and deletes can leave, a run
goes to such contents: every text fits its column and every reference names a row. Every
row stays in its place, and in the added ones no column is NULL but the assignee. A read
that decodes the tables at the start decodes them at the end. -/
theorem tables_keep_integrity (u : Userver) (w : World) (requests : ℕ → Request)
    (sched : List (ℕ × Choice)) (h : Reachable w.db) :
    Reachable (runService u w requests sched).world.db ∧
      Sound (runService u w requests sched).world.db ∧
      Grown w.db (runService u w requests sched).world.db ∧
      ∀ q, Decodes w.db q → Decodes (runService u w requests sched).world.db q :=
  ⟨run_reachable h, sound_of_reachable (run_reachable h), run_grown,
    fun q => decodes_grown run_grown q⟩

/-! ## A second project of the owner -/

/-- The body of a project and of a task. -/
def named : Userver :=
  { Sample.userver with
    fromString := fun _ => .ok (.object [("name", .string "q"), ("title", .string "t")]) }

/-- The owner posts a project, and a task in the old one. -/
def posts : ℕ → Request
  | 0 => .createProject (Sample.http "" "" "") 1
  | _ => .createTask (Sample.http "" "projectId" "1") 1

/-- Both up to their rows. -/
def postsSched : List (ℕ × Choice) :=
  List.replicate 2 (0, { serial := 2 }) ++ List.replicate 4 (1, { serial := 7 })

def posted : ServiceConfig :=
  runService named oneProject posts postsSched

theorem tables_keep_integrity_owning :
    posted.world.db.projects.rows.map ProjectRow.id = [1, 2] ∧
      posted.world.db.tasks.rows.map TaskRow.id = [7] ∧ Sound posted.world.db ∧
      Grown owning posted.world.db ∧ ∀ q, Decodes owning q → Decodes posted.world.db q := by
  obtain ⟨_, hsound, hgrown, hdecodes⟩ := tables_keep_integrity named oneProject posts
    postsSched owning_reachable
  exact ⟨by decide, by decide, hsound, hgrown, hdecodes⟩

end MyService.Storage.Integrity
