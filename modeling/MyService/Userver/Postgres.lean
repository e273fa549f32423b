import MyService.Chrono
import MyService.Framework.Prog
import MyService.Userver.Json
import Mathlib.Data.List.Nodup
import Mathlib.Data.List.Sort

/-!
# userver::storages::postgres

The three tables of `schema.sql` with their constraints, the statements the
service runs on them, and the decoding of a result set. A statement applies fully
or fails and leaves the tables as they were; a failed constraint is such a
failure. Positional decoding takes the columns in the order the statement names
them and throws when there are fewer columns than members.
-/

namespace MyService.Userver.Postgres

open Framework Chrono

/-! ## Values and decoding -/

/-- A timestamp counts microseconds from 2000-01-01. -/
inductive Value where
  | null
  | int (n : Int)
  | text (s : String)
  | bool (b : Bool)
  | timestamptz (micros : Int)
deriving DecidableEq

/-- The columns of one row by name, in the order the statement gives them. -/
abbrev Row : Type := List (String × Value)

/-- 2000-01-01 in clock ticks. -/
def epoch : Int := 946684800 * ticksPerSecond

def fromTimePointTz (t : Int) : Int := toMicros (t - epoch)

def toTimePointTz (micros : Int) : Int := micros * 1000 + epoch

namespace Value

def asInt : Value → Except Exn Int
  | .int n => .ok n
  | .null => .error .fieldValueIsNull
  | _ => .error .typeMismatch

def asString : Value → Except Exn String
  | .text s => .ok s
  | .null => .error .fieldValueIsNull
  | _ => .error .typeMismatch

def asBool : Value → Except Exn Bool
  | .bool b => .ok b
  | .null => .error .fieldValueIsNull
  | _ => .error .typeMismatch

def asTimePointTz : Value → Except Exn Int
  | .timestamptz micros => .ok (toTimePointTz micros)
  | .null => .error .fieldValueIsNull
  | _ => .error .typeMismatch

def asOptional {α : Type} (as : Value → Except Exn α) : Value → Except Exn (Option α)
  | .null => .ok none
  | v => some <$> as v

def ofOption {α : Type} (ctor : α → Value) : Option α → Value
  | none => .null
  | some a => ctor a

/-! A nullable column decodes exactly when it is filled in. -/

theorem asInt_ofOption {x : Option Int} {n : Int} :
    (ofOption int x).asInt = .ok n ↔ x = some n := by
  cases x <;> simp [ofOption, asInt]

theorem asString_ofOption {x : Option String} {s : String} :
    (ofOption text x).asString = .ok s ↔ x = some s := by
  cases x <;> simp [ofOption, asString]

theorem asBool_ofOption {x : Option Bool} {b : Bool} :
    (ofOption bool x).asBool = .ok b ↔ x = some b := by
  cases x <;> simp [ofOption, asBool]

theorem asTimePointTz_ofOption {x : Option Int} {t : Int} :
    (ofOption timestamptz x).asTimePointTz = .ok t ↔ x.map toTimePointTz = some t := by
  cases x <;> simp [ofOption, asTimePointTz]

end Value

/-- `row["name"]`. -/
def column (row : Row) (name : String) : Except Exn Value :=
  match row.lookup name with
  | some v => .ok v
  | none => .error .fieldNameDoesntExist

/-- `AsSingleRow<T>(kRowTag)`, with the positional decoder of `T`. -/
def asSingleRow {α : Type} (decode : List Value → Except Exn α) : List Row → Except Exn α
  | [row] => decode (row.map Prod.snd)
  | _ => .error .nonSingleRow

/-- `AsContainer<std::vector<T>>(kRowTag)`. -/
def asContainer {α : Type} (decode : List Value → Except Exn α) (rows : List Row) :
    Except Exn (List α) :=
  rows.mapM fun row => decode (row.map Prod.snd)

/-! ## The schema -/

structure UserRow where
  id : Int
  login : String
  passwordHash : String
  firstName : String
  lastName : String
  email : String
  createdAt : Option Int
  isDeleted : Option Bool
deriving DecidableEq

structure ProjectRow where
  id : Int
  name : String
  description : Option String
  key : Option String
  ownerId : Option Int
  createdAt : Option Int
deriving DecidableEq

structure TaskRow where
  id : Int
  title : String
  description : Option String
  status : String
  projectId : Int
  assigneeId : Option Int
  creatorId : Int
  priority : Option Int
  createdAt : Option Int
  updatedAt : Option Int
deriving DecidableEq

def UserRow.columns (r : UserRow) : Row :=
  [("id", .int r.id), ("login", .text r.login), ("password_hash", .text r.passwordHash),
   ("first_name", .text r.firstName), ("last_name", .text r.lastName),
   ("email", .text r.email), ("created_at", .ofOption .timestamptz r.createdAt),
   ("is_deleted", .ofOption .bool r.isDeleted)]

def ProjectRow.columns (r : ProjectRow) : Row :=
  [("id", .int r.id), ("name", .text r.name), ("description", .ofOption .text r.description),
   ("key", .ofOption .text r.key), ("owner_id", .ofOption .int r.ownerId),
   ("created_at", .ofOption .timestamptz r.createdAt)]

def TaskRow.columns (r : TaskRow) : Row :=
  [("id", .int r.id), ("title", .text r.title),
   ("description", .ofOption .text r.description), ("status", .text r.status),
   ("project_id", .int r.projectId), ("assignee_id", .ofOption .int r.assigneeId),
   ("creator_id", .int r.creatorId), ("priority", .ofOption .int r.priority),
   ("created_at", .ofOption .timestamptz r.createdAt),
   ("updated_at", .ofOption .timestamptz r.updatedAt)]

/-- The columns a statement asks for. -/
def pick (names : List String) (row : Row) : Row :=
  names.map fun name => (name, (row.lookup name).getD .null)

/-- The checks `valid_status` and `valid_priority`; a null priority passes. -/
def TaskRow.Valid (r : TaskRow) : Prop :=
  r.status ∈ ["TODO", "IN_PROGRESS", "REVIEW", "DONE"] ∧
    ∀ p ∈ r.priority, 1 ≤ p ∧ p ≤ 5

instance (r : TaskRow) : Decidable r.Valid :=
  inferInstanceAs (Decidable (_ ∧ _))

/-- `users`: primary key, UNIQUE(login), UNIQUE(email). -/
structure Users where
  rows : List UserRow
  ids_nodup : (rows.map UserRow.id).Nodup
  logins_nodup : (rows.map UserRow.login).Nodup
  emails_nodup : (rows.map UserRow.email).Nodup

/-- `projects`: primary key, UNIQUE(key), nulls distinct. -/
structure Projects where
  rows : List ProjectRow
  ids_nodup : (rows.map ProjectRow.id).Nodup
  keys_nodup : (rows.filterMap ProjectRow.key).Nodup

/-- `tasks`: primary key and the two checks. -/
structure Tasks where
  rows : List TaskRow
  ids_nodup : (rows.map TaskRow.id).Nodup
  valid : ∀ r ∈ rows, r.Valid

structure Database where
  users : Users
  projects : Projects
  tasks : Tasks
  /-- the case folding of the database's locale -/
  lower : Char → Char := Char.toLower

/-- The tables as `schema.sql` creates them. -/
def Database.empty : Database :=
  { users := ⟨[], List.nodup_nil, List.nodup_nil, List.nodup_nil⟩
    projects := ⟨[], List.nodup_nil, List.nodup_nil⟩
    tasks := ⟨[], List.nodup_nil, by simp⟩ }

theorem nodup_map_snoc {α β : Type} {f : α → β} {rows : List α} {r : α}
    (h : (rows.map f).Nodup) (hr : f r ∉ rows.map f) :
    ((rows ++ [r]).map f).Nodup := by
  rw [List.map_append, List.map_singleton]
  exact List.Nodup.append h (List.nodup_singleton _) (by simpa using hr)

theorem nodup_filterMap_snoc {α β : Type} {f : α → Option β} {rows : List α} {r : α}
    (h : (rows.filterMap f).Nodup) (hr : ∀ b ∈ f r, b ∉ rows.filterMap f) :
    ((rows ++ [r]).filterMap f).Nodup := by
  rw [List.filterMap_append]
  cases hf : f r with
  | none => simpa [hf] using h
  | some b =>
      have hb : b ∉ rows.filterMap f := hr b (by simp [hf])
      simp only [List.filterMap_cons, hf, List.filterMap_nil]
      exact List.Nodup.append h (List.nodup_singleton _) (by simpa using hb)

def Users.insert (t : Users) (r : UserRow) : Except Exn Users :=
  if h : r.id ∉ t.rows.map UserRow.id ∧ r.login ∉ t.rows.map UserRow.login ∧
      r.email ∉ t.rows.map UserRow.email then
    .ok { rows := t.rows ++ [r]
          ids_nodup := nodup_map_snoc t.ids_nodup h.1
          logins_nodup := nodup_map_snoc t.logins_nodup h.2.1
          emails_nodup := nodup_map_snoc t.emails_nodup h.2.2 }
  else .error .integrityViolation

def Projects.insert (t : Projects) (r : ProjectRow) : Except Exn Projects :=
  if h : r.id ∉ t.rows.map ProjectRow.id ∧
      ∀ k ∈ r.key, k ∉ t.rows.filterMap ProjectRow.key then
    .ok { rows := t.rows ++ [r]
          ids_nodup := nodup_map_snoc t.ids_nodup h.1
          keys_nodup := nodup_filterMap_snoc t.keys_nodup h.2 }
  else .error .integrityViolation

def Tasks.insert (t : Tasks) (r : TaskRow) : Except Exn Tasks :=
  if h : r.id ∉ t.rows.map TaskRow.id ∧ r.Valid then
    .ok { rows := t.rows ++ [r]
          ids_nodup := nodup_map_snoc t.ids_nodup h.1
          valid := by
            intro r' hr'
            rcases List.mem_append.mp hr' with hm | hm
            · exact t.valid r' hm
            · rw [List.mem_singleton.mp hm]
              exact h.2 }
  else .error .integrityViolation

/-! ## Statements -/

/-- The statements of the service, with their parameters and the columns they
return. -/
inductive Statement where
  | insertUser (login passwordHash firstName lastName email : String) (createdAt : Int)
      (returning : List String)
  | insertProject (name description key : String) (ownerId createdAt : Int)
      (returning : List String)
  | insertTask (title description status : String) (projectId creatorId : Int)
      (assigneeId : Option Int) (priority createdAt updatedAt : Int)
      (returning : List String)
  | selectUserByLogin (columns : List String) (login : String)
  | selectUsersByLogin (columns : List String) (pattern : String) (limit : ℕ)
  | selectUsersByName (columns : List String) (firstPattern lastPattern : String) (limit : ℕ)
  | selectProjectById (columns : List String) (id : Int)
  | selectProjectsByCreation (columns : List String) (limit : ℕ)

/-- A text parameter; the server rejects the NUL character. -/
def text (s : String) : Except Exn String :=
  if '\x00' ∈ s.toList then .error .stringDataTruncation else .ok s

/-- Assignment to `VARCHAR(n)`: only spaces may be cut off. -/
def varchar (n : ℕ) (s : String) : Except Exn String :=
  if '\x00' ∈ s.toList then .error .stringDataTruncation
  else if s.toList.length ≤ n then .ok s
  else if (s.toList.drop n).all (· = ' ') then .ok (String.ofList (s.toList.take n))
  else .error .stringDataTruncation

/-- PostgreSQL text has no NUL character. -/
def NulFree (s : String) : Prop := '\x00' ∉ s.toList

instance (s : String) : Decidable (NulFree s) := inferInstanceAs (Decidable (_ ∉ _))

theorem text_ok {s r : String} : text s = .ok r ↔ NulFree s ∧ r = s := by
  unfold text NulFree
  by_cases hnul : '\x00' ∈ s.toList
  · simp [hnul]
  · simp [hnul, eq_comm]

theorem varchar_ok {n : ℕ} {s r : String} (h : s.toList.length ≤ n) :
    varchar n s = .ok r ↔ NulFree s ∧ r = s := by
  unfold varchar NulFree
  by_cases hnul : '\x00' ∈ s.toList
  · simp [hnul]
  · simp [hnul, h, eq_comm]

theorem varchar_length {n : ℕ} {s r : String} (h : varchar n s = .ok r) : r.toList.length ≤ n := by
  unfold varchar at h
  split at h
  · exact absurd h (by simp)
  · split at h
    · rename_i hlen
      rwa [← Except.ok.inj h]
    · split at h
      · rw [← Except.ok.inj h, String.toList_ofList, List.length_take]
        omega
      · exact absurd h (by simp)

theorem varchar_nulFree {n : ℕ} {s r : String} (h : varchar n s = .ok r) : NulFree r := by
  unfold varchar at h
  split at h
  · exact absurd h (by simp)
  · rename_i hnul
    split at h
    · rwa [← Except.ok.inj h]
    · split at h
      · rw [← Except.ok.inj h, NulFree, String.toList_ofList]
        exact fun hmem => hnul (List.mem_of_mem_take hmem)
      · exact absurd h (by simp)

/-- `REFERENCES`. -/
def references (ids : List Int) (id : Int) : Except Exn Unit :=
  if id ∈ ids then .ok () else .error .integrityViolation

/-- `REFERENCES` on a nullable column. -/
def referencesNullable (ids : List Int) : Option Int → Except Exn Unit
  | some id => references ids id
  | none => .ok ()

namespace Database

def userIds (db : Database) : List Int := db.users.rows.map UserRow.id

def projectIds (db : Database) : List Int := db.projects.rows.map ProjectRow.id

/-- The row that an INSERT into `users` stores; `serial` is the next value of the
id's sequence. -/
def newUser (serial : Int) (login passwordHash firstName lastName email : String)
    (createdAt : Int) : Except Exn UserRow := do
  pure
    { id := serial
      login := ← varchar 50 login
      passwordHash := ← varchar 255 passwordHash
      firstName := ← varchar 100 firstName
      lastName := ← varchar 100 lastName
      email := ← varchar 255 email
      createdAt := some (fromTimePointTz createdAt)
      isDeleted := some false }

def newProject (db : Database) (serial : Int) (name description key : String)
    (ownerId createdAt : Int) : Except Exn ProjectRow := do
  let row : ProjectRow :=
    { id := serial
      name := ← varchar 200 name
      description := some (← text description)
      key := some (← varchar 10 key)
      ownerId := some ownerId
      createdAt := some (fromTimePointTz createdAt) }
  references db.userIds ownerId
  pure row

def newTask (db : Database) (serial : Int) (title description status : String)
    (projectId creatorId : Int) (assigneeId : Option Int)
    (priority createdAt updatedAt : Int) : Except Exn TaskRow := do
  let row : TaskRow :=
    { id := serial
      title := ← varchar 500 title
      description := some (← text description)
      status := ← varchar 20 status
      projectId := projectId
      assigneeId := assigneeId
      creatorId := creatorId
      priority := some priority
      createdAt := some (fromTimePointTz createdAt)
      updatedAt := some (fromTimePointTz updatedAt) }
  references db.projectIds projectId
  references db.userIds creatorId
  referencesNullable db.userIds assigneeId
  pure row

/-- `LIKE`: `%` stands for any text, `_` for any character, and a backslash takes the
character after it as it is. No pattern of the service ends in a backslash. -/
def like : List Char → List Char → Bool
  | [], text => text.isEmpty
  | '%' :: pattern, text => text.tails.any (like pattern)
  | '_' :: pattern, text =>
      match text with
      | [] => false
      | _ :: rest => like pattern rest
  | '\\' :: c :: pattern, text =>
      match text with
      | [] => false
      | c' :: rest => c = c' && like pattern rest
  | c :: pattern, text =>
      match text with
      | [] => false
      | c' :: rest => c = c' && like pattern rest

/-- `ILIKE`. -/
def ilike (db : Database) (value pattern : String) : Bool :=
  like (pattern.toList.map db.lower) (value.toList.map db.lower)

/-- `ORDER BY created_at DESC`, nulls first. -/
def createdAfter (a b : ProjectRow) : Bool :=
  match a.createdAt, b.createdAt with
  | none, _ => true
  | some _, none => false
  | some x, some y => y ≤ x

/-- Run one statement: the tables it leaves and the rows it returns. -/
def execute (db : Database) (serial : Int) : Statement → Except Exn (Database × List Row)
  | .insertUser login passwordHash firstName lastName email createdAt returning => do
      let row ← newUser serial login passwordHash firstName lastName email createdAt
      let users ← db.users.insert row
      pure ({ db with users := users }, [pick returning row.columns])
  | .insertProject name description key ownerId createdAt returning => do
      let row ← db.newProject serial name description key ownerId createdAt
      let projects ← db.projects.insert row
      pure ({ db with projects := projects }, [pick returning row.columns])
  | .insertTask title description status projectId creatorId assigneeId priority createdAt
      updatedAt returning => do
      let row ← db.newTask serial title description status projectId creatorId assigneeId
        priority createdAt updatedAt
      let tasks ← db.tasks.insert row
      pure ({ db with tasks := tasks }, [pick returning row.columns])
  | .selectUserByLogin columns login => do
      let login ← text login
      let rows := db.users.rows.filter fun r => r.login = login ∧ r.isDeleted = some false
      pure (db, rows.map fun r => pick columns r.columns)
  | .selectUsersByLogin columns pattern limit => do
      let pattern ← text pattern
      let rows := db.users.rows.filter fun r =>
        db.ilike r.login pattern ∧ r.isDeleted = some false
      pure (db, (rows.take limit).map fun r => pick columns r.columns)
  | .selectUsersByName columns firstPattern lastPattern limit => do
      let firstPattern ← text firstPattern
      let lastPattern ← text lastPattern
      let rows := db.users.rows.filter fun r =>
        db.ilike r.firstName firstPattern ∧ db.ilike r.lastName lastPattern ∧
          r.isDeleted = some false
      pure (db, (rows.take limit).map fun r => pick columns r.columns)
  | .selectProjectById columns id =>
      let rows := db.projects.rows.filter fun r => r.id = id
      pure (db, rows.map fun r => pick columns r.columns)
  | .selectProjectsByCreation columns limit =>
      let rows := (db.projects.rows.insertionSort fun a b => createdAfter a b).take limit
      pure (db, rows.map fun r => pick columns r.columns)

/-- What a statement that succeeded has done: it inserted one row, or changed nothing. -/
inductive Executed (db : Database) (serial : Int) : Statement → Database → Prop
  | insertUser {login passwordHash firstName lastName email : String} {createdAt : Int}
      {returning : List String} {row : UserRow} {users : Users}
      (hrow : newUser serial login passwordHash firstName lastName email createdAt = .ok row)
      (hinsert : db.users.insert row = .ok users) :
      Executed db serial
        (.insertUser login passwordHash firstName lastName email createdAt returning)
        { db with users := users }
  | insertProject {name description key : String} {ownerId createdAt : Int}
      {returning : List String} {row : ProjectRow} {projects : Projects}
      (hrow : db.newProject serial name description key ownerId createdAt = .ok row)
      (hinsert : db.projects.insert row = .ok projects) :
      Executed db serial (.insertProject name description key ownerId createdAt returning)
        { db with projects := projects }
  | insertTask {title description status : String} {projectId creatorId : Int}
      {assigneeId : Option Int} {priority createdAt updatedAt : Int} {returning : List String}
      {row : TaskRow} {tasks : Tasks}
      (hrow : db.newTask serial title description status projectId creatorId assigneeId priority
        createdAt updatedAt = .ok row)
      (hinsert : db.tasks.insert row = .ok tasks) :
      Executed db serial
        (.insertTask title description status projectId creatorId assigneeId priority createdAt
          updatedAt returning)
        { db with tasks := tasks }
  | select {s : Statement} : Executed db serial s db

theorem execute_executed {db db' : Database} {serial : Int} {s : Statement} {rows : List Row}
    (h : db.execute serial s = .ok (db', rows)) : Executed db serial s db' := by
  cases s with
  | insertUser _ _ _ _ _ _ _ | insertProject _ _ _ _ _ _ | insertTask _ _ _ _ _ _ _ _ _ _ =>
      simp only [execute, except_bind_ok, pure, Except.pure, Except.ok.injEq, Prod.mk.injEq] at h
      obtain ⟨row, hrow, table, hinsert, rfl, _⟩ := h
      constructor
      · exact hrow
      · exact hinsert
  | selectUsersByName _ _ _ _ =>
      simp only [execute, except_bind_ok, pure, Except.pure, Except.ok.injEq, Prod.mk.injEq] at h
      obtain ⟨_, _, _, _, rfl, _⟩ := h
      exact .select
  | selectUserByLogin _ _ | selectUsersByLogin _ _ _ =>
      simp only [execute, except_bind_ok, pure, Except.pure, Except.ok.injEq, Prod.mk.injEq] at h
      obtain ⟨_, _, rfl, _⟩ := h
      exact .select
  | selectProjectById _ _ | selectProjectsByCreation _ _ =>
      obtain ⟨rfl, _⟩ := Prod.mk.inj (Except.ok.inj h)
      exact .select

end Database

end MyService.Userver.Postgres
