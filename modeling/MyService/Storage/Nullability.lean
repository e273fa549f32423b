import MyService.Storage.PostgresStorage

/-!
# Nullable columns

`schema.sql` lets `users.created_at` and four columns of `projects` be NULL, and
deletes the owner of a project without the project. `models::User` and
`models::Project` have no optional member. `decodes_iff` says which tables each of the
five reads can still decode.
-/

namespace MyService.Storage.Nullability

open Framework Userver Userver.Postgres Models PostgresStorage

/-! ## What the schema admits -/

/-- A value of a `VARCHAR(n)` column. -/
def Fits (n : ℕ) (s : String) : Prop := s.toList.length ≤ n ∧ NulFree s

/-- SHA-256 gives texts that `password_hash` takes. -/
def HashFits (u : Userver) : Prop := ∀ text, Fits 255 (u.sha256 text)

def UserFits (r : UserRow) : Prop :=
  Fits 50 r.login ∧ Fits 255 r.passwordHash ∧ Fits 100 r.firstName ∧ Fits 100 r.lastName ∧
    Fits 255 r.email

def ProjectFits (r : ProjectRow) : Prop :=
  Fits 200 r.name ∧ (∀ description ∈ r.description, NulFree description) ∧
    ∀ key ∈ r.key, Fits 10 key

def TaskFits (r : TaskRow) : Prop :=
  Fits 500 r.title ∧ ∀ description ∈ r.description, NulFree description

section Decidable

instance (n : ℕ) (s : String) : Decidable (Fits n s) := inferInstanceAs (Decidable (_ ∧ _))

instance (r : UserRow) : Decidable (UserFits r) := inferInstanceAs (Decidable (_ ∧ _))

instance (r : ProjectRow) : Decidable (ProjectFits r) :=
  inferInstanceAs (Decidable (_ ∧ (∀ _ ∈ _, _) ∧ ∀ _ ∈ _, _))

end Decidable

def deleteFrom (id : Int) (t : Users) : Users :=
  { rows := t.rows.filter fun r => r.id ≠ id
    ids_nodup := t.ids_nodup.sublist (List.filter_sublist.map _)
    logins_nodup := t.logins_nodup.sublist (List.filter_sublist.map _)
    emails_nodup := t.emails_nodup.sublist (List.filter_sublist.map _) }

/-- `owner_id … ON DELETE SET NULL`. -/
def clearOwner (id : Int) (t : Projects) : Projects :=
  let clear (r : ProjectRow) : ProjectRow :=
    { r with ownerId := if r.ownerId = some id then none else r.ownerId }
  { rows := t.rows.map clear
    ids_nodup := by
      rw [List.map_map]
      exact t.ids_nodup
    keys_nodup := by
      rw [List.filterMap_map]
      exact t.keys_nodup }

/-- `assignee_id … ON DELETE SET NULL`. -/
def clearAssignee (id : Int) (t : Tasks) : Tasks :=
  let clear (r : TaskRow) : TaskRow :=
    { r with assigneeId := if r.assigneeId = some id then none else r.assigneeId }
  { rows := t.rows.map clear
    ids_nodup := by
      rw [List.map_map]
      exact t.ids_nodup
    valid := by
      intro r hr
      obtain ⟨r', hr', rfl⟩ := List.mem_map.mp hr
      exact t.valid r' hr' }

/-- `DELETE FROM users WHERE id = …`; `creator_id … ON DELETE RESTRICT`. -/
def deleteUser (db : Database) (id : Int) : Except Exn Database :=
  if id ∈ db.tasks.rows.map TaskRow.creatorId then .error .integrityViolation
  else
    .ok
      { db with
        users := deleteFrom id db.users
        projects := clearOwner id db.projects
        tasks := clearAssignee id db.tasks }

/-- `DELETE FROM projects WHERE id = …`; `project_id … ON DELETE CASCADE`. -/
def deleteProject (db : Database) (id : Int) : Database :=
  { db with
    projects :=
      { rows := db.projects.rows.filter fun r => r.id ≠ id
        ids_nodup := db.projects.ids_nodup.sublist (List.filter_sublist.map _)
        keys_nodup := db.projects.keys_nodup.sublist (List.filter_sublist.filterMap _) }
    tasks :=
      { rows := db.tasks.rows.filter fun r => r.projectId ≠ id
        ids_nodup := db.tasks.ids_nodup.sublist (List.filter_sublist.map _)
        valid := fun r hr => db.tasks.valid r (List.mem_filter.mp hr).1 } }

/-- Contents that inserts and deletes can leave. A column that an INSERT gives as NULL is
NULL where the schema allows it. -/
inductive Reachable : Database → Prop
  | empty : Reachable Database.empty
  | insertUser {db : Database} {r : UserRow} {users : Users} (h : Reachable db)
      (hfits : UserFits r) (hinsert : db.users.insert r = .ok users) :
      Reachable { db with users := users }
  | insertProject {db : Database} {r : ProjectRow} {projects : Projects} (h : Reachable db)
      (hfits : ProjectFits r) (howner : referencesNullable db.userIds r.ownerId = .ok ())
      (hinsert : db.projects.insert r = .ok projects) :
      Reachable { db with projects := projects }
  | insertTask {db : Database} {r : TaskRow} {tasks : Tasks} (h : Reachable db)
      (hfits : TaskFits r) (hproject : references db.projectIds r.projectId = .ok ())
      (hcreator : references db.userIds r.creatorId = .ok ())
      (hassignee : referencesNullable db.userIds r.assigneeId = .ok ())
      (hinsert : db.tasks.insert r = .ok tasks) : Reachable { db with tasks := tasks }
  | deleteUser {db db' : Database} {id : Int} (h : Reachable db)
      (hdelete : deleteUser db id = .ok db') : Reachable db'
  | deleteProject {db : Database} {id : Int} (h : Reachable db) :
      Reachable (deleteProject db id)

/-! ## The reads -/

inductive Query where
  | getUserByLogin (login : String)
  | searchUsersByLogin (loginMask : String)
  | searchUsersByFirstNameLastName (firstNameMask lastNameMask : String)
  | getProjectById (id : Int)
  | getAllProjects

namespace Query

abbrev Answer : Query → Type
  | .getUserByLogin _ => Option User
  | .searchUsersByLogin _ => List User
  | .searchUsersByFirstNameLastName _ _ => List User
  | .getProjectById _ => Option Project
  | .getAllProjects => List Project

/-- The method of the storage. -/
def run : (q : Query) → Service q.Answer
  | .getUserByLogin login => PostgresStorage.getUserByLogin login
  | .searchUsersByLogin mask => PostgresStorage.searchUsersByLogin mask
  | .searchUsersByFirstNameLastName first last =>
      PostgresStorage.searchUsersByFirstNameLastName first last
  | .getProjectById id => PostgresStorage.getProjectById id
  | .getAllProjects => PostgresStorage.getAllProjects

def userColumns : List String :=
  ["id", "login", "password_hash", "first_name", "last_name", "email", "created_at",
   "is_deleted"]

def projectColumns : List String :=
  ["id", "name", "description", "key", "owner_id", "created_at"]

def statement : Query → Statement
  | .getUserByLogin login => .selectUserByLogin userColumns login
  | .searchUsersByLogin mask => .selectUsersByLogin userColumns (makeLikePattern mask) 100
  | .searchUsersByFirstNameLastName first last =>
      .selectUsersByName userColumns (makeLikePattern first) (makeLikePattern last) 100
  | .getProjectById id => .selectProjectById projectColumns id
  | .getAllProjects => .selectProjectsByCreation projectColumns 100

/-- No row or the one row. -/
def optionalRow {α : Type} (decode : List Value → Except Exn α) (rows : List Row) :
    Except Exn (Option α) :=
  if rows.isEmpty then .ok none else some <$> asSingleRow decode rows

def decode : (q : Query) → List Row → Except Exn q.Answer
  | .getUserByLogin _ => optionalRow decodeUser
  | .searchUsersByLogin _ => asContainer decodeUser
  | .searchUsersByFirstNameLastName _ _ => asContainer decodeUser
  | .getProjectById _ => optionalRow decodeProject
  | .getAllProjects => asContainer decodeProject

theorem optionalRow_eq {α : Type} (decode : List Value → Except Exn α) (rows : List Row) :
    (Prog.ofExcept (optionalRow decode rows) : Service (Option α)) =
      if rows.isEmpty then Prog.pure none
      else Prog.ofExcept (asSingleRow decode rows) >>= fun a => Prog.pure (some a) := by
  unfold optionalRow
  by_cases hempty : rows.isEmpty = true
  · rw [if_pos hempty, if_pos hempty]
    rfl
  · rw [if_neg hempty, if_neg hempty]
    cases asSingleRow decode rows <;> rfl

/-- Each read is its statement and its decoding. -/
theorem run_eq (q : Query) :
    q.run = PostgresStorage.execute q.statement >>= fun rows => Prog.ofExcept (q.decode rows) := by
  cases q with
  | getUserByLogin login =>
      simp only [decode, optionalRow_eq]
      rfl
  | searchUsersByLogin mask => rfl
  | searchUsersByFirstNameLastName first last => rfl
  | getProjectById id =>
      simp only [decode, optionalRow_eq]
      rfl
  | getAllProjects => rfl

end Query

/-- Whenever the server answers the statement, the read returns. -/
def Decodes (db : Database) (q : Query) : Prop :=
  ∀ (cs : ℕ → Choice) (w : World), w.db = db →
    ∀ rows, (perform (.execute q.statement) (cs 0) w).2 = .ok rows →
      ∃ answer, (q.run.exec perform cs w).1 = .ok answer

/-! ## Which tables decode -/

/-- The nullable column of `users` that `models::User` does not make optional, apart
from the flag the reads filter by. -/
def UserFilled (r : UserRow) : Prop := r.createdAt.isSome

/-- The nullable columns of `projects`. -/
def ProjectFilled (r : ProjectRow) : Prop :=
  r.description.isSome ∧ r.key.isSome ∧ r.ownerId.isSome ∧ r.createdAt.isSome

/-- Every row that the read selects is filled in; a parameter with the NUL character
selects nothing. -/
def Complete (db : Database) : Query → Prop
  | .getUserByLogin login => NulFree login →
      ∀ r ∈ db.users.rows, r.login = login → r.isDeleted = some false → UserFilled r
  | .searchUsersByLogin mask => NulFree mask →
      ∀ r ∈ (db.users.rows.filter fun r =>
        db.ilike r.login (makeLikePattern mask) ∧ r.isDeleted = some false).take 100,
        UserFilled r
  | .searchUsersByFirstNameLastName first last => NulFree first → NulFree last →
      ∀ r ∈ (db.users.rows.filter fun r =>
        db.ilike r.firstName (makeLikePattern first) ∧
          db.ilike r.lastName (makeLikePattern last) ∧ r.isDeleted = some false).take 100,
        UserFilled r
  | .getProjectById id => ∀ r ∈ db.projects.rows, r.id = id → ProjectFilled r
  | .getAllProjects =>
      ∀ r ∈ (db.projects.rows.insertionSort fun a b => Database.createdAfter a b).take 100,
        ProjectFilled r

theorem nulFree_makeLikePattern {mask : String} :
    NulFree (makeLikePattern mask) ↔ NulFree mask := by
  unfold NulFree makeLikePattern
  by_cases hempty : mask.isEmpty = true
  · rw [if_pos hempty]
    have hmask : mask = "" := by simpa using hempty
    rw [hmask]
    decide
  · rw [if_neg hempty]
    simp

/-! ### One row -/

theorem exists_userHolds {r : UserRow} :
    (∃ u, UserHolds u r) ↔ UserFilled r ∧ r.isDeleted.isSome := by
  constructor
  · rintro ⟨u, hu⟩
    have hcreated := hu.createdAt
    rw [Option.map_eq_some_iff] at hcreated
    obtain ⟨micros, hmicros, _⟩ := hcreated
    rw [UserFilled, hmicros, hu.isDeleted]
    exact ⟨rfl, rfl⟩
  · rintro ⟨hcreated, hdeleted⟩
    obtain ⟨micros, hmicros⟩ := Option.isSome_iff_exists.mp hcreated
    obtain ⟨deleted, hflag⟩ := Option.isSome_iff_exists.mp hdeleted
    exact ⟨⟨r.id, r.login, r.passwordHash, r.firstName, r.lastName, r.email,
      toTimePointTz micros, deleted⟩, rfl, rfl, rfl, rfl, rfl, rfl, by rw [hmicros]; rfl, hflag⟩

theorem exists_projectHolds {r : ProjectRow} :
    (∃ p, ProjectHolds p r) ↔ ProjectFilled r := by
  constructor
  · rintro ⟨p, hp⟩
    have hcreated := hp.createdAt
    rw [Option.map_eq_some_iff] at hcreated
    obtain ⟨micros, hmicros, _⟩ := hcreated
    rw [ProjectFilled, hp.description, hp.key, hp.ownerId, hmicros]
    exact ⟨rfl, rfl, rfl, rfl⟩
  · rintro ⟨hdesc, hkey, howner, hcreated⟩
    obtain ⟨description, hd⟩ := Option.isSome_iff_exists.mp hdesc
    obtain ⟨key, hk⟩ := Option.isSome_iff_exists.mp hkey
    obtain ⟨ownerId, ho⟩ := Option.isSome_iff_exists.mp howner
    obtain ⟨micros, hm⟩ := Option.isSome_iff_exists.mp hcreated
    exact ⟨⟨r.id, r.name, description, key, ownerId, toTimePointTz micros⟩, rfl, rfl, hd, hk,
      ho, by rw [hm]; rfl⟩

/-! ### A result set -/

section Rows

variable {R M : Type} {decode : List Value → Except Exn M} {columns : R → Row}
  {holds : M → R → Prop}

theorem asContainer_ok {rows : List Row} :
    (∃ ms, asContainer decode rows = .ok ms) ↔
      ∀ row ∈ rows, ∃ m, decode (row.map Prod.snd) = .ok m := by
  unfold asContainer
  induction rows with
  | nil => exact ⟨fun _ _ h => absurd h (by simp), fun _ => ⟨[], rfl⟩⟩
  | cons row rows ih =>
      simp only [List.mapM_cons, except_bind_ok, pure, Except.pure, Except.ok.injEq,
        List.forall_mem_cons, ← ih]
      constructor
      · rintro ⟨_, m, hm, ms, hms, rfl⟩
        exact ⟨⟨m, hm⟩, ms, hms⟩
      · rintro ⟨⟨m, hm⟩, ms, hms⟩
        exact ⟨m :: ms, m, hm, ms, hms, rfl⟩

/-- A listing decodes when each of its rows does. -/
theorem container_decodes (hdecode : ∀ r m, decode ((columns r).map Prod.snd) = .ok m ↔ holds m r)
    (rows : List R) :
    (∃ ms, asContainer decode (rows.map columns) = .ok ms) ↔ ∀ r ∈ rows, ∃ m, holds m r := by
  rw [asContainer_ok, List.forall_mem_map]
  simp only [hdecode]

/-- At most one row has a given value in a unique column. -/
theorem unique_row {K : Type} {rows : List R} {key : R → K} (h : (rows.map key).Nodup)
    {p : R → Bool} {k : K} (hp : ∀ r, p r = true → key r = k) :
    rows.filter p = [] ∨ ∃ r, rows.filter p = [r] := by
  have hnodup : ((rows.filter p).map key).Nodup := h.sublist (List.filter_sublist.map _)
  have hsame : (rows.filter p).map key = List.replicate (rows.filter p).length k := by
    refine List.eq_replicate_iff.mpr ⟨List.length_map .., ?_⟩
    intro k' hk'
    obtain ⟨r, hr, rfl⟩ := List.mem_map.mp hk'
    exact hp r (List.mem_filter.mp hr).2
  rw [hsame, List.nodup_replicate] at hnodup
  rcases hrows : rows.filter p with _ | ⟨r, _ | ⟨r', rest⟩⟩
  · exact Or.inl rfl
  · exact Or.inr ⟨r, rfl⟩
  · rw [hrows] at hnodup
    simp at hnodup

theorem optionalRow_decodes
    (hdecode : ∀ r m, decode ((columns r).map Prod.snd) = .ok m ↔ holds m r) {rows : List R}
    (hrows : rows = [] ∨ ∃ r, rows = [r]) :
    (∃ m, Query.optionalRow decode (rows.map columns) = .ok m) ↔
      ∀ r ∈ rows, ∃ m, holds m r := by
  rcases hrows with rfl | ⟨r, rfl⟩
  · exact ⟨fun _ _ h => absurd h (by simp), fun _ => ⟨none, rfl⟩⟩
  · have hone : Query.optionalRow decode ([r].map columns) =
        some <$> decode ((columns r).map Prod.snd) := rfl
    rw [hone, List.forall_mem_singleton]
    simp only [← hdecode]
    cases decode ((columns r).map Prod.snd) with
    | error e => exact ⟨fun ⟨_, h⟩ => absurd h (by simp), fun ⟨_, h⟩ => absurd h (by simp)⟩
    | ok m => exact ⟨fun _ => ⟨m, rfl⟩, fun _ => ⟨some m, rfl⟩⟩

end Rows

/-- What a read gives when the server answered its statement. -/
theorem run_exec {q : Query} {cs : ℕ → Choice} {w : World} {rows : List Row}
    (h : (perform (.execute q.statement) (cs 0) w).2 = .ok rows) :
    (q.run.exec perform cs w).1 = q.decode rows := by
  rw [Query.run_eq, exec_execute_bind]
  revert h
  rcases perform (.execute q.statement) (cs 0) w with ⟨w', answer⟩
  rintro rfl
  show ((Prog.ofExcept (q.decode rows) : Service q.Answer).exec perform _ _).1 = _
  cases q.decode rows <;> rfl

/-- A read decodes when its decoder takes every result of its statement. -/
theorem decodes_iff_statement (db : Database) (q : Query) :
    Decodes db q ↔ ∀ serial db' rows, db.execute serial q.statement = .ok (db', rows) →
      ∃ answer, q.decode rows = .ok answer := by
  constructor
  · intro h serial db' rows hact
    have hperform : (perform (.execute q.statement) { serial := serial }
        (World.boot db Collection.empty [])).2 = .ok rows := by
      show (serverCall _ _ _ (db.execute serial q.statement)).2 = _
      rw [hact]
      rfl
    obtain ⟨answer, hanswer⟩ := h (fun _ => { serial := serial }) _ rfl rows hperform
    exact ⟨answer, (run_exec hperform).symm.trans hanswer⟩
  · rintro h cs w rfl rows hperform
    rcases execute_cases (cs 0) w q.statement with ⟨e, _, heq⟩ | ⟨db', rows', _, hact, heq⟩
    · rw [heq] at hperform
      exact absurd hperform (by simp)
    · rw [run_exec hperform]
      rw [heq] at hperform
      obtain rfl := Except.ok.inj hperform
      exact h _ _ _ hact

/-- The same for a statement that selects `rows` when its parameters are accepted. -/
theorem decodes_iff_selected {db : Database} {q : Query} (accepted : Prop) (rows : List Row)
    (hselect : ∀ serial db' answer, db.execute serial q.statement = .ok (db', answer) ↔
      accepted ∧ db = db' ∧ rows = answer) :
    Decodes db q ↔ (accepted → ∃ answer, q.decode rows = .ok answer) := by
  rw [decodes_iff_statement]
  constructor
  · intro h haccepted
    exact h 0 db rows ((hselect _ _ _).mpr ⟨haccepted, rfl, rfl⟩)
  · intro h serial db' answer hact
    obtain ⟨haccepted, _, rfl⟩ := (hselect _ _ _).mp hact
    exact h haccepted

/-! ### The five reads -/

theorem decodeUser_row (r : UserRow) (u : User) :
    decodeUser ((pick Query.userColumns r.columns).map Prod.snd) = .ok u ↔ UserHolds u r :=
  decodeUser_iff

theorem decodeProject_row (r : ProjectRow) (p : Project) :
    decodeProject ((pick Query.projectColumns r.columns).map Prod.snd) = .ok p ↔ ProjectHolds p r :=
  decodeProject_iff

theorem users_decode {rows : List UserRow} (hactive : ∀ r ∈ rows, r.isDeleted = some false) :
    (∀ r ∈ rows, ∃ u, UserHolds u r) ↔ ∀ r ∈ rows, UserFilled r := by
  refine forall₂_congr ?_
  intro r hr
  rw [exists_userHolds, hactive r hr]
  exact and_iff_left rfl

theorem projects_decode {rows : List ProjectRow} :
    (∀ r ∈ rows, ∃ p, ProjectHolds p r) ↔ ∀ r ∈ rows, ProjectFilled r :=
  forall₂_congr fun _ _ => exists_projectHolds

/-- The rows that a lookup by login finds. -/
def rowsByLogin (db : Database) (login : String) : List Row :=
  (db.users.rows.filter fun r => decide (r.login = login ∧ r.isDeleted = some false)).map
    fun r => pick Query.userColumns r.columns

theorem getUserByLogin_ok {db db' : Database} {serial : Int} {login : String}
    {answer : List Row} :
    db.execute serial (Query.getUserByLogin login).statement = .ok (db', answer) ↔
      NulFree login ∧ db = db' ∧ rowsByLogin db login = answer := by
  simp [Query.statement, Database.execute, except_bind_ok, text_ok, pure, Except.pure,
    rowsByLogin, and_assoc]

/-- A login is unique, so its row decodes when it is filled in. -/
theorem rowsByLogin_decode (db : Database) (login : String) :
    (∃ found, Query.optionalRow decodeUser (rowsByLogin db login) = .ok found) ↔
      ∀ r ∈ db.users.rows, r.login = login → r.isDeleted = some false → UserFilled r := by
  have hone : ∀ r : UserRow, decide (r.login = login ∧ r.isDeleted = some false) = true →
      r.login = login := fun r hr => (of_decide_eq_true hr).1
  rw [rowsByLogin, optionalRow_decodes decodeUser_row (unique_row db.users.logins_nodup hone),
    users_decode (by simp)]
  simp [and_imp]

theorem decodes_getUserByLogin (db : Database) (login : String) :
    Decodes db (.getUserByLogin login) ↔ Complete db (.getUserByLogin login) := by
  rw [decodes_iff_selected (NulFree login) (rowsByLogin db login) fun _ _ _ => getUserByLogin_ok]
  exact imp_congr_right fun _ => rowsByLogin_decode db login

theorem decodes_searchUsersByLogin (db : Database) (mask : String) :
    Decodes db (.searchUsersByLogin mask) ↔ Complete db (.searchUsersByLogin mask) := by
  rw [decodes_iff_selected (NulFree mask) (((db.users.rows.filter fun r =>
    decide (db.ilike r.login (makeLikePattern mask) ∧ r.isDeleted = some false)).take
      100).map fun r => pick Query.userColumns r.columns)]
  · refine imp_congr_right ?_
    intro _
    rw [Query.decode, container_decodes decodeUser_row, users_decode]
    intro r hr
    have hmem := List.mem_filter.mp (List.mem_of_mem_take hr)
    exact (of_decide_eq_true hmem.2).2
  · intro serial db' answer
    simp [Query.statement, Database.execute, except_bind_ok, text_ok, pure, Except.pure,
      nulFree_makeLikePattern, and_assoc]

theorem decodes_searchUsersByFirstNameLastName (db : Database) (first last : String) :
    Decodes db (.searchUsersByFirstNameLastName first last) ↔
      Complete db (.searchUsersByFirstNameLastName first last) := by
  rw [decodes_iff_selected (NulFree first ∧ NulFree last) (((db.users.rows.filter fun r =>
    decide (db.ilike r.firstName (makeLikePattern first) ∧
      db.ilike r.lastName (makeLikePattern last) ∧ r.isDeleted = some false)).take
        100).map fun r => pick Query.userColumns r.columns), and_imp]
  · refine imp_congr_right fun _ => imp_congr_right ?_
    intro _
    rw [Query.decode, container_decodes decodeUser_row, users_decode]
    intro r hr
    have hmem := List.mem_filter.mp (List.mem_of_mem_take hr)
    exact (of_decide_eq_true hmem.2).2.2
  · intro serial db' answer
    simp [Query.statement, Database.execute, except_bind_ok, text_ok, pure, Except.pure,
      nulFree_makeLikePattern, and_assoc]

theorem decodes_getProjectById (db : Database) (id : Int) :
    Decodes db (.getProjectById id) ↔ Complete db (.getProjectById id) := by
  have hone : ∀ r : ProjectRow, decide (r.id = id) = true → r.id = id :=
    fun r hr => of_decide_eq_true hr
  rw [decodes_iff_selected True ((db.projects.rows.filter fun r =>
    decide (r.id = id)).map fun r => pick Query.projectColumns r.columns), true_imp_iff]
  · rw [Query.decode, optionalRow_decodes decodeProject_row
      (unique_row db.projects.ids_nodup hone), projects_decode]
    simp [Complete]
  · intro serial db' answer
    simp [Query.statement, Database.execute, pure, Except.pure]

theorem decodes_getAllProjects (db : Database) :
    Decodes db .getAllProjects ↔ Complete db .getAllProjects := by
  rw [decodes_iff_selected True (((db.projects.rows.insertionSort fun a b =>
    Database.createdAfter a b).take 100).map fun r => pick Query.projectColumns r.columns),
    true_imp_iff]
  · rw [Query.decode, container_decodes decodeProject_row, projects_decode]
    rfl
  · intro serial db' answer
    simp [Query.statement, Database.execute, pure, Except.pure]

/-- **Which tables decode.** A read returns exactly when every row it selects is
filled in. -/
theorem decodes_iff (db : Database) (q : Query) : Decodes db q ↔ Complete db q := by
  cases q with
  | getUserByLogin login => exact decodes_getUserByLogin db login
  | searchUsersByLogin mask => exact decodes_searchUsersByLogin db mask
  | searchUsersByFirstNameLastName first last =>
      exact decodes_searchUsersByFirstNameLastName db first last
  | getProjectById id => exact decodes_getProjectById db id
  | getAllProjects => exact decodes_getAllProjects db

/-! ## A project whose owner was deleted -/

def owned : ProjectRow :=
  { id := 1, name := "p", description := some "", key := some "P", ownerId := some 1
    createdAt := some 0 }

def owning : Database :=
  { Sample.userTable Sample.ann with projects := ⟨[owned], by decide, by decide⟩ }

/-- Ann and her project. -/
def oneProject : World := World.boot owning Collection.empty []

/-- The project alone, its owner gone. -/
def orphaned : Database :=
  { Database.empty with
    projects := ⟨[{ owned with ownerId := none }], by decide, by decide⟩ }

theorem owning_reachable : Reachable owning := by
  have huser : Reachable (Sample.userTable Sample.ann) :=
    .insertUser .empty (r := Sample.ann) (by decide) rfl
  exact .insertProject huser (r := owned) (by decide) rfl rfl

theorem orphaned_reachable : Reachable orphaned := by
  have hdelete : deleteUser owning 1 = .ok orphaned := rfl
  exact .deleteUser owning_reachable hdelete

/-- The listing of all projects throws. -/
theorem decodes_fails_on_orphan :
    ¬∀ (db : Database) (q : Query), Reachable db → Decodes db q := by
  intro h
  have hcomplete : Complete orphaned .getAllProjects :=
    (decodes_getAllProjects _).mp (h orphaned .getAllProjects orphaned_reachable)
  have hfilled := hcomplete { owned with ownerId := none } (by decide)
  exact absurd hfilled.2.2.1 (by decide)

end MyService.Storage.Nullability
