import MyService.Models
import MyService.World

/-!
# PostgresStorage

Each method runs one statement and decodes its result. `CreateUser` and
`CreateProject` decode by position, `CreateTask` by name.

The row is there before it is decoded. `CreateProject` and `CreateTask` return
columns that always decode, so they insert and return or throw and do nothing.
`CreateUser` returns seven columns for the eight members of `models::User`; it
throws after every insert (`create_all_or_nothing_iff`).
-/

namespace MyService.Storage.PostgresStorage

open Framework Userver Userver.Postgres Models
open Framework.Prog (ask)

def execute (s : Statement) : Service (List Row) := do
  Prog.ofExcept (← ask (.execute s))

/-! ## Decoding by position -/

def decodeUser : List Value → Except Exn User
  | id :: login :: passwordHash :: firstName :: lastName :: email :: createdAt ::
      isDeleted :: _ => do
      pure
        { id := ← id.asInt
          login := ← login.asString
          passwordHash := ← passwordHash.asString
          firstName := ← firstName.asString
          lastName := ← lastName.asString
          email := ← email.asString
          createdAt := ← createdAt.asTimePointTz
          isDeleted := ← isDeleted.asBool }
  | _ => throw .invalidTupleSize

def decodeProject : List Value → Except Exn Project
  | id :: name :: description :: key :: ownerId :: createdAt :: _ => do
      pure
        { id := ← id.asInt
          name := ← name.asString
          description := ← description.asString
          key := ← key.asString
          ownerId := ← ownerId.asInt
          createdAt := ← createdAt.asTimePointTz }
  | _ => throw .invalidTupleSize

/-! ## Methods -/

/-- The empty mask matches everything; `%`, `_` and backslash in a mask are not escaped. -/
def makeLikePattern (mask : String) : String :=
  if mask.isEmpty then "%" else "%" ++ mask ++ "%"

def createUser (user : User) : Service (Option User) := do
  let result ← execute (.insertUser user.login user.passwordHash user.firstName
    user.lastName user.email user.createdAt
    ["id", "login", "password_hash", "first_name", "last_name", "email", "created_at"])
  if result.isEmpty then
    return none
  return some (← asSingleRow decodeUser result)

def getUserByLogin (login : String) : Service (Option User) := do
  let result ← execute (.selectUserByLogin
    ["id", "login", "password_hash", "first_name", "last_name", "email", "created_at",
     "is_deleted"] login)
  if result.isEmpty then
    return none
  return some (← asSingleRow decodeUser result)

def searchUsersByLogin (loginMask : String) : Service (List User) := do
  let result ← execute (.selectUsersByLogin
    ["id", "login", "password_hash", "first_name", "last_name", "email", "created_at",
     "is_deleted"] (makeLikePattern loginMask) 100)
  asContainer decodeUser result

def searchUsersByFirstNameLastName (firstNameMask lastNameMask : String) :
    Service (List User) := do
  let result ← execute (.selectUsersByName
    ["id", "login", "password_hash", "first_name", "last_name", "email", "created_at",
     "is_deleted"] (makeLikePattern firstNameMask) (makeLikePattern lastNameMask) 100)
  asContainer decodeUser result

def createProject (project : Project) : Service (Option Project) := do
  let result ← execute (.insertProject project.name project.description project.key
    project.ownerId project.createdAt
    ["id", "name", "description", "key", "owner_id", "created_at"])
  if result.isEmpty then
    return none
  return some (← asSingleRow decodeProject result)

def getProjectById (id : Int) : Service (Option Project) := do
  let result ← execute (.selectProjectById
    ["id", "name", "description", "key", "owner_id", "created_at"] id)
  if result.isEmpty then
    return none
  return some (← asSingleRow decodeProject result)

def getAllProjects : Service (List Project) := do
  let result ← execute (.selectProjectsByCreation
    ["id", "name", "description", "key", "owner_id", "created_at"] 100)
  asContainer decodeProject result

/-- `result[0]`, read column by column. -/
def decodeTask (row : Row) : Except Exn Task := do
  pure
    { id := ← (← column row "id").asInt
      title := ← (← column row "title").asString
      description := ← (← column row "description").asString
      status := taskStatusFromString (← (← column row "status").asString)
      projectId := ← (← column row "project_id").asInt
      creatorId := ← (← column row "creator_id").asInt
      assigneeId := ← (← column row "assignee_id").asOptional Value.asInt
      priority := ← (← column row "priority").asInt
      createdAt := ← (← column row "created_at").asTimePointTz
      updatedAt := ← (← column row "updated_at").asOptional Value.asTimePointTz }

/-- Both time columns take the clock read here, not the task's. -/
def createTask (task : Task) : Service (Option Task) := do
  let statusStr := taskStatusToString task.status
  let now ← systemNow
  let result ← execute (.insertTask task.title task.description statusStr task.projectId
    task.creatorId task.assigneeId task.priority now now
    ["id", "title", "description", "status", "project_id", "creator_id", "assignee_id",
     "priority", "created_at", "updated_at"])
  match result with
  | [] => return none
  | row :: _ => return some (← decodeTask row)

/-! ## Running a method alone -/

/-- A statement, then the rest: a failed one ends the method. -/
theorem exec_execute_bind {α : Type} (s : Statement) (f : List Row → Service α)
    (cs : ℕ → Choice) (w : World) :
    (execute s >>= f).exec perform cs w =
      match perform (.execute s) (cs 0) w with
      | (w', .ok rows) => (f rows).exec perform (fun i => cs (i + 1)) w'
      | (w', .error e) => (.error e, w') := by
  have hrun : (execute s >>= f).exec perform cs w =
      (Prog.ofExcept (perform (.execute s) (cs 0) w).2 >>= f).exec perform
        (fun i => cs (i + 1)) (perform (.execute s) (cs 0) w).1 := rfl
  rw [hrun]
  rcases perform (.execute s) (cs 0) w with ⟨w', _ | _⟩ <;> rfl

/-! ## What an insert answers -/

/-- The record is the row, member by member. -/
structure UserHolds (u : User) (r : UserRow) : Prop where
  id : u.id = r.id
  login : u.login = r.login
  passwordHash : u.passwordHash = r.passwordHash
  firstName : u.firstName = r.firstName
  lastName : u.lastName = r.lastName
  email : u.email = r.email
  createdAt : r.createdAt.map toTimePointTz = some u.createdAt
  isDeleted : r.isDeleted = some u.isDeleted

structure ProjectHolds (p : Project) (r : ProjectRow) : Prop where
  id : p.id = r.id
  name : p.name = r.name
  description : r.description = some p.description
  key : r.key = some p.key
  ownerId : r.ownerId = some p.ownerId
  createdAt : r.createdAt.map toTimePointTz = some p.createdAt

structure TaskHolds (t : Task) (r : TaskRow) : Prop where
  id : t.id = r.id
  title : t.title = r.title
  description : r.description = some t.description
  status : taskStatusToString t.status = r.status
  projectId : t.projectId = r.projectId
  assigneeId : t.assigneeId = r.assigneeId
  creatorId : t.creatorId = r.creatorId
  priority : r.priority = some t.priority
  createdAt : r.createdAt.map toTimePointTz = some t.createdAt
  updatedAt : r.updatedAt.map toTimePointTz = t.updatedAt

/-! ## What a decoder accepts

A row decodes exactly when every nullable column that its model does not make optional
is filled in. -/

theorem decodeUser_iff {r : UserRow} {u : User} :
    decodeUser ((pick ["id", "login", "password_hash", "first_name", "last_name", "email",
      "created_at", "is_deleted"] r.columns).map Prod.snd) = .ok u ↔ UserHolds u r := by
  have hdecode : decodeUser ((pick ["id", "login", "password_hash", "first_name", "last_name",
      "email", "created_at", "is_deleted"] r.columns).map Prod.snd) = (do
        let createdAt ← (Value.ofOption .timestamptz r.createdAt).asTimePointTz
        let isDeleted ← (Value.ofOption .bool r.isDeleted).asBool
        pure
          { id := r.id, login := r.login, passwordHash := r.passwordHash
            firstName := r.firstName, lastName := r.lastName, email := r.email
            createdAt := createdAt, isDeleted := isDeleted }) := rfl
  rw [hdecode]
  simp only [except_bind_ok, Value.asTimePointTz_ofOption, Value.asBool_ofOption, pure,
    Except.pure, Except.ok.injEq]
  constructor
  · rintro ⟨createdAt, hcreated, isDeleted, hdeleted, rfl⟩
    exact ⟨rfl, rfl, rfl, rfl, rfl, rfl, hcreated, hdeleted⟩
  · rintro ⟨hid, hlogin, hhash, hfirst, hlast, hemail, hcreated, hdeleted⟩
    refine ⟨u.createdAt, hcreated, u.isDeleted, hdeleted, ?_⟩
    rw [← hid, ← hlogin, ← hhash, ← hfirst, ← hlast, ← hemail]

/-- Fewer than eight columns decode to no user. -/
theorem length_of_decodeUser {values : List Value} {u : User} (h : decodeUser values = .ok u) :
    8 ≤ values.length := by
  unfold decodeUser at h
  split at h
  · simp
  · exact absurd h (by simp [throw, throwThe, MonadExceptOf.throw])

/-- What decodes from some of the columns, in the order of the members, is the row. -/
theorem decodeUser_holds {r : UserRow} {u : User} {columns : List String}
    (hcolumns : columns <+: ["id", "login", "password_hash", "first_name", "last_name", "email",
      "created_at", "is_deleted"])
    (h : decodeUser ((pick columns r.columns).map Prod.snd) = .ok u) : UserHolds u r := by
  have hlength := length_of_decodeUser h
  rw [List.length_map] at hlength
  have hpicked : (pick columns r.columns).length ≤ columns.length :=
    (List.length_map _).le
  obtain rfl := hcolumns.eq_of_length_le (hlength.trans hpicked)
  exact decodeUser_iff.mp h

theorem decodeProject_iff {r : ProjectRow} {p : Project} :
    decodeProject ((pick ["id", "name", "description", "key", "owner_id", "created_at"]
      r.columns).map Prod.snd) = .ok p ↔ ProjectHolds p r := by
  have hdecode : decodeProject ((pick ["id", "name", "description", "key", "owner_id",
      "created_at"] r.columns).map Prod.snd) = (do
        let description ← (Value.ofOption .text r.description).asString
        let key ← (Value.ofOption .text r.key).asString
        let ownerId ← (Value.ofOption .int r.ownerId).asInt
        let createdAt ← (Value.ofOption .timestamptz r.createdAt).asTimePointTz
        pure
          { id := r.id, name := r.name, description := description, key := key
            ownerId := ownerId, createdAt := createdAt }) := rfl
  rw [hdecode]
  simp only [except_bind_ok, Value.asString_ofOption, Value.asInt_ofOption,
    Value.asTimePointTz_ofOption, pure, Except.pure, Except.ok.injEq]
  constructor
  · rintro ⟨description, hdesc, key, hkey, ownerId, howner, createdAt, hcreated, rfl⟩
    exact ⟨rfl, rfl, hdesc, hkey, howner, hcreated⟩
  · rintro ⟨hid, hname, hdesc, hkey, howner, hcreated⟩
    refine ⟨p.description, hdesc, p.key, hkey, p.ownerId, howner, p.createdAt, hcreated, ?_⟩
    rw [← hid, ← hname]

/-- The call returned the record of one new row with a fresh id, or threw and left
the table as it was. -/
def AllOrNothing {M R : Type} (rows : World → List R) (id : R → Int) (holds : M → R → Prop)
    (w : World) (result : Except Exn (Option M) × World) : Prop :=
  (∃ m r, result.1 = .ok (some m) ∧ rows result.2 = rows w ++ [r] ∧
    id r ∉ (rows w).map id ∧ holds m r) ∨
  ∃ e, result.1 = .error e ∧ rows result.2 = rows w

theorem users_insert_ok {t t' : Users} {r : UserRow} (h : t.insert r = .ok t') :
    t'.rows = t.rows ++ [r] ∧ r.id ∉ t.rows.map UserRow.id := by
  unfold Users.insert at h
  split at h
  · rename_i hr
    obtain rfl := Except.ok.inj h
    exact ⟨rfl, hr.1⟩
  · exact absurd h (by simp)

theorem projects_insert_ok {t t' : Projects} {r : ProjectRow} (h : t.insert r = .ok t') :
    t'.rows = t.rows ++ [r] ∧ r.id ∉ t.rows.map ProjectRow.id := by
  unfold Projects.insert at h
  split at h
  · rename_i hr
    obtain rfl := Except.ok.inj h
    exact ⟨rfl, hr.1⟩
  · exact absurd h (by simp)

theorem tasks_insert_ok {t t' : Tasks} {r : TaskRow} (h : t.insert r = .ok t') :
    t'.rows = t.rows ++ [r] ∧ r.id ∉ t.rows.map TaskRow.id ∧ r.Valid := by
  unfold Tasks.insert at h
  split at h
  · rename_i hr
    obtain rfl := Except.ok.inj h
    exact ⟨rfl, hr.1, hr.2⟩
  · exact absurd h (by simp)

/-- A new project's row has every column filled in. -/
theorem newProject_holds {db : Database} {serial : Int} {name description key : String}
    {ownerId createdAt : Int} {row : ProjectRow}
    (h : db.newProject serial name description key ownerId createdAt = .ok row) :
    ∃ p, ProjectHolds p row ∧ row.id = serial := by
  simp only [Database.newProject, except_bind_ok, pure, Except.pure, Except.ok.injEq] at h
  obtain ⟨name', _, description', _, key', _, _, _, rfl⟩ := h
  exact ⟨⟨serial, name', description', key', ownerId, toTimePointTz (fromTimePointTz createdAt)⟩,
    ⟨rfl, rfl, rfl, rfl, rfl, rfl⟩, rfl⟩

/-- An INSERT into `projects` fails, or stores a row that decodes. -/
theorem insertProject_cases (name description key : String) (ownerId createdAt : Int)
    (ch : Choice) (w : World) :
    (∃ e, perform (.execute (.insertProject name description key ownerId createdAt
        ["id", "name", "description", "key", "owner_id", "created_at"])) ch w =
      (w, .error e)) ∨
    ∃ row projects p,
      ch.fault = none ∧
      w.db.newProject ch.serial name description key ownerId createdAt = .ok row ∧
      w.db.projects.insert row = .ok projects ∧ ProjectHolds p row ∧
      perform (.execute (.insertProject name description key ownerId createdAt
        ["id", "name", "description", "key", "owner_id", "created_at"])) ch w =
        ({ w with db := { w.db with projects := projects } },
          .ok [pick ["id", "name", "description", "key", "owner_id", "created_at"]
            row.columns]) := by
  rcases execute_cases ch w _ with ⟨e, _, heq⟩ | ⟨db, rows, hfault, hact, heq⟩
  · exact Or.inl ⟨e, heq⟩
  · simp only [Database.execute, except_bind_ok, pure, Except.pure, Except.ok.injEq,
      Prod.mk.injEq] at hact
    obtain ⟨row, hrow, projects, hinsert, rfl, rfl⟩ := hact
    obtain ⟨p, hp, _⟩ := newProject_holds hrow
    exact Or.inr ⟨row, projects, p, hfault, hrow, hinsert, hp, heq⟩

theorem createProject_all_or_nothing (project : Project) (cs : ℕ → Choice) (w : World) :
    AllOrNothing (fun w => w.db.projects.rows) ProjectRow.id ProjectHolds w
      ((createProject project).exec perform cs w) := by
  unfold createProject
  rw [exec_execute_bind]
  rcases insertProject_cases project.name project.description project.key project.ownerId
    project.createdAt (cs 0) w with ⟨e, heq⟩ | ⟨row, projects, p, _, _, hinsert, hp, heq⟩
  · rw [heq]
    exact Or.inr ⟨e, rfl, rfl⟩
  · rw [heq]
    obtain ⟨hrows, hfresh⟩ := projects_insert_ok hinsert
    have hdecode : asSingleRow decodeProject [pick ["id", "name", "description", "key",
      "owner_id", "created_at"] row.columns] = .ok p := decodeProject_iff.mpr hp
    simp only [Prog.liftM_eq]
    rw [hdecode]
    exact Or.inl ⟨p, row, rfl, hrows, hfresh, hp⟩

/-- The ten columns decode whenever the nullable ones among them that `models::Task`
does not make optional are filled in. -/
theorem decodeTask_pick (r : TaskRow) {description : String} {priority createdAt : Int}
    (hdesc : r.description = some description) (hprio : r.priority = some priority)
    (hcreated : r.createdAt = some createdAt) :
    decodeTask (pick ["id", "title", "description", "status", "project_id", "creator_id",
      "assignee_id", "priority", "created_at", "updated_at"] r.columns) =
      .ok
        { id := r.id, title := r.title, description := description
          status := taskStatusFromString r.status, projectId := r.projectId
          creatorId := r.creatorId, assigneeId := r.assigneeId, priority := priority
          createdAt := toTimePointTz createdAt
          updatedAt := r.updatedAt.map toTimePointTz } := by
  obtain ⟨id, title, _, status, projectId, assigneeId, creatorId, _, _, updatedAt⟩ := r
  obtain rfl := hdesc
  obtain rfl := hprio
  obtain rfl := hcreated
  cases assigneeId <;> cases updatedAt <;> rfl

/-- What the ten columns decode to is what a valid row holds. -/
theorem decodeTask_holds {r : TaskRow} (hvalid : r.Valid) {description : String}
    {priority createdAt : Int} (hdesc : r.description = some description)
    (hprio : r.priority = some priority) (hcreated : r.createdAt = some createdAt) :
    TaskHolds
      { id := r.id, title := r.title, description := description
        status := taskStatusFromString r.status, projectId := r.projectId
        creatorId := r.creatorId, assigneeId := r.assigneeId, priority := priority
        createdAt := toTimePointTz createdAt
        updatedAt := r.updatedAt.map toTimePointTz } r := by
  have hstatus : ∀ status ∈ ["TODO", "IN_PROGRESS", "REVIEW", "DONE"],
      taskStatusToString (taskStatusFromString status) = status := by decide
  refine ⟨rfl, rfl, hdesc, hstatus _ hvalid.1, rfl, rfl, rfl, hprio, ?_, rfl⟩
  rw [hcreated]
  rfl

/-- A new task's row has the three columns filled in. -/
theorem newTask_filled {db : Database} {serial : Int} {title description status : String}
    {projectId creatorId : Int} {assigneeId : Option Int} {priority createdAt updatedAt : Int}
    {row : TaskRow}
    (h : db.newTask serial title description status projectId creatorId assigneeId priority
      createdAt updatedAt = .ok row) :
    ∃ description', row.description = some description' ∧ row.priority = some priority ∧
      row.createdAt = some (fromTimePointTz createdAt) := by
  simp only [Database.newTask, except_bind_ok, pure, Except.pure, Except.ok.injEq] at h
  obtain ⟨_, _, description', _, _, _, _, _, _, _, _, _, rfl⟩ := h
  exact ⟨description', rfl, rfl, rfl⟩

/-- An INSERT into `tasks` fails, or stores a row that decodes. -/
theorem insertTask_cases (title description status : String) (projectId creatorId : Int)
    (assigneeId : Option Int) (priority createdAt updatedAt : Int) (ch : Choice) (w : World) :
    (∃ e, perform (.execute (.insertTask title description status projectId creatorId
        assigneeId priority createdAt updatedAt
        ["id", "title", "description", "status", "project_id", "creator_id", "assignee_id",
         "priority", "created_at", "updated_at"])) ch w = (w, .error e)) ∨
    ∃ row tasks m,
      w.db.newTask ch.serial title description status projectId creatorId assigneeId priority
        createdAt updatedAt = .ok row ∧
      w.db.tasks.insert row = .ok tasks ∧
      decodeTask (pick ["id", "title", "description", "status", "project_id", "creator_id",
        "assignee_id", "priority", "created_at", "updated_at"] row.columns) = .ok m ∧
      TaskHolds m row ∧
      perform (.execute (.insertTask title description status projectId creatorId assigneeId
        priority createdAt updatedAt
        ["id", "title", "description", "status", "project_id", "creator_id", "assignee_id",
         "priority", "created_at", "updated_at"])) ch w =
        ({ w with db := { w.db with tasks := tasks } },
          .ok [pick ["id", "title", "description", "status", "project_id", "creator_id",
            "assignee_id", "priority", "created_at", "updated_at"] row.columns]) := by
  rcases execute_cases ch w _ with ⟨e, _, heq⟩ | ⟨db, rows, _, hact, heq⟩
  · exact Or.inl ⟨e, heq⟩
  · simp only [Database.execute, except_bind_ok, pure, Except.pure, Except.ok.injEq,
      Prod.mk.injEq] at hact
    obtain ⟨row, hrow, tasks, hinsert, rfl, rfl⟩ := hact
    obtain ⟨_, _, hvalid⟩ := tasks_insert_ok hinsert
    obtain ⟨description', hdesc, hprio, hcreated⟩ := newTask_filled hrow
    have hdecode := decodeTask_pick row hdesc hprio hcreated
    exact Or.inr ⟨row, tasks, _, hrow, hinsert, hdecode,
      decodeTask_holds hvalid hdesc hprio hcreated, heq⟩

theorem createTask_all_or_nothing (task : Task) (cs : ℕ → Choice) (w : World) :
    AllOrNothing (fun w => w.db.tasks.rows) TaskRow.id TaskHolds w
      ((createTask task).exec perform cs w) := by
  unfold createTask systemNow
  rw [Prog.exec_ask_bind, exec_execute_bind]
  rcases insertTask_cases task.title task.description (taskStatusToString task.status)
    task.projectId task.creatorId task.assigneeId task.priority (cs 0).system (cs 0).system
    (cs 1) w with ⟨e, heq⟩ | ⟨row, tasks, m, _, hinsert, hdecode, hm, heq⟩
  · rw [perform_systemNow, heq]
    exact Or.inr ⟨e, rfl, rfl⟩
  · rw [perform_systemNow, heq]
    obtain ⟨hrows, hfresh, _⟩ := tasks_insert_ok hinsert
    simp only [Prog.liftM_eq]
    rw [hdecode]
    exact Or.inl ⟨m, row, rfl, hrows, hfresh, hm⟩

/-- PostgreSQL rejects the INSERT of the user: the server fails, a value does not fit
its column, or the id, the login or the email is taken. -/
def InsertRejected (user : User) (ch : Choice) (w : World) : Prop :=
  ch.fault ≠ none ∨
    ∃ e, (do
      let row ← Database.newUser ch.serial user.login user.passwordHash user.firstName
        user.lastName user.email user.createdAt
      w.db.users.insert row) = .error e

/-- A rejected INSERT throws and leaves the table. -/
theorem createUser_rejected {user : User} {cs : ℕ → Choice} {w : World}
    (h : InsertRejected user (cs 0) w) :
    AllOrNothing (fun w => w.db.users.rows) UserRow.id UserHolds w
      ((createUser user).exec perform cs w) := by
  unfold createUser
  rw [exec_execute_bind]
  rcases execute_cases (cs 0) w _ with ⟨e, _, heq⟩ | ⟨db, rows, hf, hact, _⟩
  · rw [heq]
    exact Or.inr ⟨e, rfl, rfl⟩
  · rcases h with hfault | ⟨e, hrejected⟩
    · exact absurd hf hfault
    · simp only [Database.execute, except_bind_ok] at hact
      obtain ⟨row, hrow, users, hinsert, _⟩ := hact
      rw [except_bind_ok.mpr ⟨row, hrow, hinsert⟩] at hrejected
      exact absurd hrejected (by simp)

/-- Seven columns do not fill eight members: an inserted user is never returned. -/
theorem createUser_inserted {user : User} {cs : ℕ → Choice} {w : World}
    (h : ¬InsertRejected user (cs 0) w) :
    ¬AllOrNothing (fun w => w.db.users.rows) UserRow.id UserHolds w
      ((createUser user).exec perform cs w) := by
  have hnofault : (cs 0).fault = none := by
    by_contra hfault
    exact h (Or.inl hfault)
  obtain ⟨users, hok⟩ : ∃ users, Database.newUser (cs 0).serial user.login user.passwordHash
      user.firstName user.lastName user.email user.createdAt >>= w.db.users.insert =
        .ok users := by
    cases hrow : Database.newUser (cs 0).serial user.login user.passwordHash user.firstName
        user.lastName user.email user.createdAt >>= w.db.users.insert with
    | error e => exact absurd (Or.inr ⟨e, hrow⟩) h
    | ok users => exact ⟨users, rfl⟩
  obtain ⟨row, hnew, hinsert⟩ := except_bind_ok.mp hok
  obtain ⟨hrows, _⟩ := users_insert_ok hinsert
  have hact : w.db.execute (cs 0).serial (.insertUser user.login user.passwordHash
      user.firstName user.lastName user.email user.createdAt
      ["id", "login", "password_hash", "first_name", "last_name", "email",
       "created_at"]) = .ok ({ w.db with users := users }, [pick ["id", "login",
      "password_hash", "first_name", "last_name", "email", "created_at"] row.columns]) := by
    simp only [Database.execute, except_bind_ok, pure, Except.pure, Except.ok.injEq]
    exact ⟨row, hnew, users, hinsert, rfl⟩
  unfold createUser
  rw [exec_execute_bind]
  rcases execute_cases (cs 0) w _ with ⟨e, he, _⟩ | ⟨db, rows, _, hact', heq⟩
  · rcases he with hfault | ⟨_, herr⟩
    · rw [hnofault] at hfault
      exact absurd hfault (by simp)
    · rw [hact] at herr
      exact absurd herr (by simp)
  · rw [hact] at hact'
    obtain ⟨rfl, rfl⟩ := Prod.mk.inj (Except.ok.inj hact')
    rw [heq]
    -- it neither returns a user nor leaves the table
    rintro (⟨m, r, hm, _⟩ | ⟨e, _, hunchanged⟩)
    · have hdecode : (.error .invalidTupleSize : Except Exn (Option User)) = .ok (some m) := hm
      exact absurd hdecode (by simp)
    · have hlen : (w.db.users.rows ++ [row]).length = w.db.users.rows.length :=
        congrArg List.length (hrows.symm.trans hunchanged)
      simp at hlen

theorem createUser_all_or_nothing_iff (user : User) (cs : ℕ → Choice) (w : World) :
    AllOrNothing (fun w => w.db.users.rows) UserRow.id UserHolds w
      ((createUser user).exec perform cs w) ↔ InsertRejected user (cs 0) w := by
  constructor
  · intro hall
    by_contra hinserted
    exact createUser_inserted hinserted hall
  · intro hrejected
    exact createUser_rejected hrejected

/-- **When creating is all-or-nothing.** Always for projects and tasks; for a user
only when the INSERT is rejected. -/
theorem create_all_or_nothing_iff (user : User) (project : Project) (task : Task)
    (cs : ℕ → Choice) (w : World) :
    AllOrNothing (fun w => w.db.projects.rows) ProjectRow.id ProjectHolds w
      ((createProject project).exec perform cs w) ∧
    AllOrNothing (fun w => w.db.tasks.rows) TaskRow.id TaskHolds w
      ((createTask task).exec perform cs w) ∧
    (AllOrNothing (fun w => w.db.users.rows) UserRow.id UserHolds w
      ((createUser user).exec perform cs w) ↔ InsertRejected user (cs 0) w) :=
  ⟨createProject_all_or_nothing project cs w, createTask_all_or_nothing task cs w,
    createUser_all_or_nothing_iff user cs w⟩

/-- The first registration on an empty table: it throws, and the row is there. -/
theorem createUser_leaves_row :
    ¬AllOrNothing (fun w => w.db.users.rows) UserRow.id UserHolds Sample.empty
      ((createUser
        { id := 0, login := "ann", passwordHash := "x", firstName := "Ann", lastName := "Lee"
          email := "ann@example.com", createdAt := 0 }).exec perform
        (fun _ => { serial := 1 }) Sample.empty) := by
  rintro (⟨m, r, hm, _⟩ | ⟨e, _, hunchanged⟩)
  · have hdecode : (.error .invalidTupleSize : Except Exn (Option User)) = .ok (some m) := hm
    exact absurd hdecode (by simp)
  · exact absurd (congrArg List.length hunchanged) (by decide)

end MyService.Storage.PostgresStorage
