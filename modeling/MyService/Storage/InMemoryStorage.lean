import MyService.Framework.KeyedStore
import MyService.Models

/-!
# In-memory storage

The storage without a database: three `unordered_map`s under one mutex, ids counted from 1.
Every call holds the mutex, so a run is a list of calls. `inMemoryStorage_refines` compares
the maps with what the calls before have created, in their order.
-/

namespace MyService.Storage

open Framework Models

/-- The order in which a loop meets the entries of an `unordered_map`. -/
structure Iteration (α : Type) where
  order : List (Int × α) → List (Int × α)
  perm : ∀ entries, (order entries).Perm entries

/-- `++` of an `int`, which has no meaning at the largest. -/
def increment (n : Int) : Option Int := if n < 2 ^ 31 - 1 then some (n + 1) else none

structure InMemoryStorage where
  users : KeyedStore Int User := .empty
  projects : KeyedStore Int Project := .empty
  tasks : KeyedStore Int Task := .empty
  nextUserId : Int := 1
  nextProjectId : Int := 1
  nextTaskId : Int := 1

namespace InMemoryStorage

/-- `find` of UTF-8 bytes finds whole characters. -/
def matchesMask (value mask : String) : Bool :=
  if mask.isEmpty then true else decide (mask.toList <:+: value.toList)

def createUser (s : InMemoryStorage) (user : User) :
    Option (Option User × InMemoryStorage) := do
  let nextUserId ← increment s.nextUserId
  let newUser := { user with id := s.nextUserId }
  return (some newUser, { s with
    nextUserId := nextUserId, users := s.users.assign newUser.id newUser })

def getUserByLogin (s : InMemoryStorage) (login : String) (visit : Iteration User) :
    Option User :=
  ((visit.order s.users.entries).find? fun e => e.2.login = login).map Prod.snd

def searchUsersByLogin (s : InMemoryStorage) (loginMask : String) (visit : Iteration User) :
    List User :=
  ((visit.order s.users.entries).filter fun e => matchesMask e.2.login loginMask).map Prod.snd

def searchUsersByFirstNameLastName (s : InMemoryStorage) (firstNameMask lastNameMask : String)
    (visit : Iteration User) : List User :=
  ((visit.order s.users.entries).filter fun e =>
    matchesMask e.2.firstName firstNameMask && matchesMask e.2.lastName lastNameMask).map Prod.snd

def createProject (s : InMemoryStorage) (project : Project) :
    Option (Option Project × InMemoryStorage) := do
  let nextProjectId ← increment s.nextProjectId
  let newProject := { project with id := s.nextProjectId }
  return (some newProject, { s with
    nextProjectId := nextProjectId, projects := s.projects.assign newProject.id newProject })

def getProjectById (s : InMemoryStorage) (id : Int) : Option Project := s.projects.get? id

def getAllProjects (s : InMemoryStorage) (visit : Iteration Project) : List Project :=
  (visit.order s.projects.entries).map Prod.snd

def createTask (s : InMemoryStorage) (task : Task) :
    Option (Option Task × InMemoryStorage) := do
  let nextTaskId ← increment s.nextTaskId
  let newTask := { task with id := s.nextTaskId }
  return (some newTask, { s with
    nextTaskId := nextTaskId, tasks := s.tasks.assign newTask.id newTask })

/-! ## Calls -/

/-- A call, with the order that its loop meets. -/
inductive Operation where
  | createUser (user : User)
  | getUserByLogin (login : String) (visit : Iteration User)
  | searchUsersByLogin (loginMask : String) (visit : Iteration User)
  | searchUsersByFirstNameLastName (firstNameMask lastNameMask : String) (visit : Iteration User)
  | createProject (project : Project)
  | getProjectById (id : Int)
  | getAllProjects (visit : Iteration Project)
  | createTask (task : Task)

def Operation.Answer : Operation → Type
  | .createUser _ => Option User
  | .getUserByLogin _ _ => Option User
  | .searchUsersByLogin _ _ => List User
  | .searchUsersByFirstNameLastName _ _ _ => List User
  | .createProject _ => Option Project
  | .getProjectById _ => Option Project
  | .getAllProjects _ => List Project
  | .createTask _ => Option Task

def step (s : InMemoryStorage) : (op : Operation) → Option (op.Answer × InMemoryStorage)
  | .createUser user => s.createUser user
  | .getUserByLogin login visit => some (s.getUserByLogin login visit, s)
  | .searchUsersByLogin loginMask visit => some (s.searchUsersByLogin loginMask visit, s)
  | .searchUsersByFirstNameLastName firstNameMask lastNameMask visit =>
      some (s.searchUsersByFirstNameLastName firstNameMask lastNameMask visit, s)
  | .createProject project => s.createProject project
  | .getProjectById id => some (s.getProjectById id, s)
  | .getAllProjects visit => some (s.getAllProjects visit, s)
  | .createTask task => s.createTask task

/-- The answers of a list of calls, as long as every one has a meaning. -/
def run (s : InMemoryStorage) :
    List Operation → Option (List (Σ op : Operation, op.Answer) × InMemoryStorage)
  | [] => some ([], s)
  | op :: ops => do
      let (answer, s) ← s.step op
      let (answers, s) ← s.run ops
      return (⟨op, answer⟩ :: answers, s)

/-! ## What the calls have created -/

def Operation.user? : Operation → Option User
  | .createUser user => some user
  | _ => none

def Operation.project? : Operation → Option Project
  | .createProject project => some project
  | _ => none

def Operation.task? : Operation → Option Task
  | .createTask task => some task
  | _ => none

/-- The first gets id 1. -/
def numbered {α : Type} (withId : Int → α → α) (vs : List α) : List α :=
  vs.mapIdx fun i v => withId (i + 1) v

def usersOf (ops : List Operation) : List User :=
  numbered (fun id user => { user with id := id }) (ops.filterMap Operation.user?)

def projectsOf (ops : List Operation) : List Project :=
  numbered (fun id project => { project with id := id }) (ops.filterMap Operation.project?)

def tasksOf (ops : List Operation) : List Task :=
  numbered (fun id task => { task with id := id }) (ops.filterMap Operation.task?)

/-- The ids have fitted into an `int` so far, and so does the next. -/
structure Fits (ops : List Operation) : Prop where
  users : (usersOf ops).length ≤ 2 ^ 31 - 2
  projects : (projectsOf ops).length ≤ 2 ^ 31 - 2
  tasks : (tasksOf ops).length ≤ 2 ^ 31 - 2

/-- What a call may answer after these. -/
def Specifies (before : List Operation) : (op : Operation) → op.Answer → Prop
  | .createUser user, answer =>
      answer = some { user with id := (usersOf before).length + 1 }
  | .getUserByLogin login _, answer =>
      (answer = none ∧ ∀ user ∈ usersOf before, user.login ≠ login) ∨
        ∃ user ∈ usersOf before, user.login = login ∧ answer = some user
  | .searchUsersByLogin loginMask _, answer =>
      List.Perm answer ((usersOf before).filter fun user =>
        loginMask.toList <:+: user.login.toList)
  | .searchUsersByFirstNameLastName firstNameMask lastNameMask _, answer =>
      List.Perm answer ((usersOf before).filter fun user =>
        firstNameMask.toList <:+: user.firstName.toList ∧
          lastNameMask.toList <:+: user.lastName.toList)
  | .createProject project, answer =>
      answer = some { project with id := (projectsOf before).length + 1 }
  | .getProjectById id, answer => answer = (projectsOf before).find? fun project => project.id = id
  | .getAllProjects _, answer => List.Perm answer (projectsOf before)
  | .createTask task, answer =>
      answer = some { task with id := (tasksOf before).length + 1 }

/-! ## A numbered map -/

/-- The values are in the map under their ids, which count from 1 up to the next. -/
structure Numbered {α : Type} (idOf : α → Int) (store : KeyedStore Int α) (next : Int)
    (vs : List α) : Prop where
  entries : store.entries = vs.map fun v => (idOf v, v)
  ids : ∀ (i : ℕ) (v : α), vs[i]? = some v → idOf v = i + 1
  next : next = vs.length + 1

section Numbered

variable {α : Type} {idOf : α → Int} {store : KeyedStore Int α} {next : Int} {vs : List α}

theorem numbered_empty : Numbered idOf .empty 1 [] :=
  ⟨rfl, fun _ _ h => absurd h (by simp), rfl⟩

theorem Numbered.keys (h : Numbered idOf store next vs) :
    store.entries.map Prod.fst = vs.map idOf := by
  rw [h.entries, List.map_map]
  rfl

theorem Numbered.next_not_mem (h : Numbered idOf store next vs) :
    next ∉ store.entries.map Prod.fst := by
  rw [h.keys, List.mem_map]
  rintro ⟨v, hv, heq⟩
  obtain ⟨i, hi⟩ := List.mem_iff_getElem?.mp hv
  have hlt : i < vs.length := (List.getElem?_eq_some_iff.mp hi).1
  rw [h.ids i v hi, h.next] at heq
  omega

/-- A new value gets the next id. -/
theorem Numbered.assign (h : Numbered idOf store next vs) {v : α} (hv : idOf v = next) :
    Numbered idOf (store.assign next v) (next + 1) (vs ++ [v]) where
  entries := by
    rw [KeyedStore.assign_of_not_mem store h.next_not_mem, h.entries, List.map_append, ← hv]
    rfl
  ids := by
    intro i w hi
    rcases lt_or_ge i vs.length with hlt | hge
    · rw [List.getElem?_append_left hlt] at hi
      exact h.ids i w hi
    · rw [List.getElem?_append_right hge, List.getElem?_singleton] at hi
      split at hi
      · rw [← Option.some.inj hi, hv, h.next]
        omega
      · exact absurd hi (by simp)
  next := by
    rw [h.next, List.length_append]
    rfl

theorem Numbered.get? (h : Numbered idOf store next vs) (k : Int) :
    store.get? k = vs.find? fun v => idOf v = k := by
  rw [KeyedStore.get?, h.entries, List.find?_map, Option.map_map]
  exact Option.map_id'

/-- A loop meets every value once. -/
theorem Numbered.visit (h : Numbered idOf store next vs) (visit : Iteration α) :
    ((visit.order store.entries).map Prod.snd).Perm vs := by
  refine ((visit.perm _).map Prod.snd).trans ?_
  rw [h.entries, List.map_map]
  exact List.Perm.of_eq (List.map_id' _)

end Numbered

section Created

variable {α : Type} {withId : Int → α → α} {created : Operation → Option α}
  {before : List Operation} {op : Operation}

/-- A call that creates nothing of the kind. -/
theorem numbered_none (h : created op = none) :
    numbered withId ((before ++ [op]).filterMap created) =
      numbered withId (before.filterMap created) := by
  rw [List.filterMap_append, List.filterMap_cons_none h, List.filterMap_nil, List.append_nil]

theorem Numbered.other {idOf : α → Int} {store : KeyedStore Int α} {next : Int}
    (h : Numbered idOf store next (numbered withId (before.filterMap created)))
    (hnone : created op = none) :
    Numbered idOf store next (numbered withId ((before ++ [op]).filterMap created)) := by
  rw [numbered_none hnone]
  exact h

theorem length_other (h : created op = none) :
    (numbered withId ((before ++ [op]).filterMap created)).length =
      (numbered withId (before.filterMap created)).length := by
  rw [numbered_none h]

/-- What a call creates is numbered next. -/
theorem numbered_some {v : α} (h : created op = some v) :
    numbered withId ((before ++ [op]).filterMap created) =
      numbered withId (before.filterMap created) ++
        [withId ((numbered withId (before.filterMap created)).length + 1) v] := by
  rw [List.filterMap_append, List.filterMap_cons_some h, List.filterMap_nil]
  simp [numbered]

theorem increment_cases (n : Int) :
    (n < 2 ^ 31 - 1 ∧ increment n = some (n + 1)) ∨ ¬n < 2 ^ 31 - 1 ∧ increment n = none := by
  unfold increment
  split
  · exact Or.inl ⟨‹_›, rfl⟩
  · exact Or.inr ⟨‹_›, rfl⟩

/-- A value that a call creates is stored under the next id, as long as there is another. -/
theorem Numbered.create {idOf : α → Int} {store : KeyedStore Int α} {next : Int}
    (h : Numbered idOf store next (numbered withId (before.filterMap created))) (op : Operation)
    (hid : ∀ id v, idOf (withId id v) = id) {v : α} (hcreated : created op = some v) :
    (increment next = some (next + 1) ∧
      Numbered idOf (store.assign next (withId next v)) (next + 1)
        (numbered withId ((before ++ [op]).filterMap created)) ∧
      (numbered withId ((before ++ [op]).filterMap created)).length ≤ 2 ^ 31 - 2) ∨
      increment next = none ∧
        ¬(numbered withId ((before ++ [op]).filterMap created)).length ≤ 2 ^ 31 - 2 := by
  have hnext := h.next
  rw [numbered_some hcreated, ← hnext, List.length_append, List.length_singleton]
  rcases increment_cases next with ⟨hlt, hincrement⟩ | ⟨hlt, hincrement⟩
  · exact Or.inl ⟨hincrement, h.assign (hid _ _), by omega⟩
  · exact Or.inr ⟨hincrement, by omega⟩

end Created

/-! ## Steps -/

/-- The maps hold what the calls have created. -/
structure Holds (s : InMemoryStorage) (before : List Operation) : Prop where
  users : Numbered User.id s.users s.nextUserId (usersOf before)
  projects : Numbered Project.id s.projects s.nextProjectId (projectsOf before)
  tasks : Numbered Task.id s.tasks s.nextTaskId (tasksOf before)

theorem holds_empty : Holds {} [] := ⟨numbered_empty, numbered_empty, numbered_empty⟩

@[simp] theorem matchesMask_iff {value mask : String} :
    matchesMask value mask = true ↔ mask.toList <:+: value.toList := by
  unfold matchesMask
  split
  · rename_i hempty
    simp [String.isEmpty_iff.mp hempty]
  · exact decide_eq_true_iff

/-- A call that creates nothing. -/
theorem Holds.read {s : InMemoryStorage} {before : List Operation} (h : Holds s before)
    {op : Operation} (huser : op.user? = none) (hproject : op.project? = none)
    (htask : op.task? = none) : Holds s (before ++ [op]) :=
  ⟨h.users.other huser, h.projects.other hproject, h.tasks.other htask⟩

theorem Fits.read {before : List Operation} (h : Fits before) {op : Operation}
    (huser : op.user? = none) (hproject : op.project? = none) (htask : op.task? = none) :
    Fits (before ++ [op]) :=
  ⟨(length_other huser).trans_le h.users, (length_other hproject).trans_le h.projects,
    (length_other htask).trans_le h.tasks⟩

/-- A call that has a meaning answers as specified, and its answer leaves the maps right. -/
def Steps (s : InMemoryStorage) (before : List Operation) (op : Operation) : Prop :=
  ∃ answer s', s.step op = some (answer, s') ∧ Specifies before op answer ∧
    Holds s' (before ++ [op]) ∧ Fits (before ++ [op])

section Step

variable {s : InMemoryStorage} {before : List Operation}

theorem createUser_cases (h : Holds s before) (hfits : Fits before) (user : User) :
    Steps s before (.createUser user) ∨
      s.step (.createUser user) = none ∧ ¬Fits (before ++ [.createUser user]) := by
  rcases h.users.create (.createUser user) (fun _ _ => rfl) rfl with
    ⟨hnext, husers, hfit⟩ | ⟨hnext, hfit⟩
  · have hstep : s.createUser user = some (some { user with id := s.nextUserId }, { s with
        nextUserId := s.nextUserId + 1
        users := s.users.assign s.nextUserId { user with id := s.nextUserId } }) := by
      rw [createUser, hnext]
      rfl
    refine Or.inl ⟨_, _, hstep, by rw [h.users.next]; rfl, ⟨husers, ?_, ?_⟩, hfit, ?_, ?_⟩
    · exact h.projects.other rfl
    · exact h.tasks.other rfl
    · exact (length_other rfl).trans_le hfits.projects
    · exact (length_other rfl).trans_le hfits.tasks
  · refine Or.inr ⟨?_, fun h => hfit h.users⟩
    show s.createUser user = none
    rw [createUser, hnext]
    rfl

theorem createProject_cases (h : Holds s before) (hfits : Fits before) (project : Project) :
    Steps s before (.createProject project) ∨
      s.step (.createProject project) = none ∧ ¬Fits (before ++ [.createProject project]) := by
  rcases h.projects.create (.createProject project) (fun _ _ => rfl) rfl with
    ⟨hnext, hprojects, hfit⟩ | ⟨hnext, hfit⟩
  · have hstep : s.createProject project = some (some { project with id := s.nextProjectId },
        { s with
          nextProjectId := s.nextProjectId + 1
          projects := s.projects.assign s.nextProjectId
            { project with id := s.nextProjectId } }) := by
      rw [createProject, hnext]
      rfl
    refine Or.inl ⟨_, _, hstep, by rw [h.projects.next]; rfl, ⟨?_, hprojects, ?_⟩, ?_, hfit, ?_⟩
    · exact h.users.other rfl
    · exact h.tasks.other rfl
    · exact (length_other rfl).trans_le hfits.users
    · exact (length_other rfl).trans_le hfits.tasks
  · refine Or.inr ⟨?_, fun h => hfit h.projects⟩
    show s.createProject project = none
    rw [createProject, hnext]
    rfl

theorem createTask_cases (h : Holds s before) (hfits : Fits before) (task : Task) :
    Steps s before (.createTask task) ∨
      s.step (.createTask task) = none ∧ ¬Fits (before ++ [.createTask task]) := by
  rcases h.tasks.create (.createTask task) (fun _ _ => rfl) rfl with
    ⟨hnext, htasks, hfit⟩ | ⟨hnext, hfit⟩
  · have hstep : s.createTask task = some (some { task with id := s.nextTaskId }, { s with
        nextTaskId := s.nextTaskId + 1
        tasks := s.tasks.assign s.nextTaskId { task with id := s.nextTaskId } }) := by
      rw [createTask, hnext]
      rfl
    refine Or.inl ⟨_, _, hstep, by rw [h.tasks.next]; rfl, ⟨?_, ?_, htasks⟩, ?_, ?_, hfit⟩
    · exact h.users.other rfl
    · exact h.projects.other rfl
    · exact (length_other rfl).trans_le hfits.users
    · exact (length_other rfl).trans_le hfits.projects
  · refine Or.inr ⟨?_, fun h => hfit h.tasks⟩
    show s.createTask task = none
    rw [createTask, hnext]
    rfl

/-- The first user that a loop meets with the login. -/
theorem getUserByLogin_spec (h : Holds s before) (login : String) (visit : Iteration User) :
    Specifies before (.getUserByLogin login visit) (s.getUserByLogin login visit) := by
  have hperm := h.users.visit visit
  have hfind : s.getUserByLogin login visit =
      ((visit.order s.users.entries).map Prod.snd).find? fun user => user.login = login := by
    rw [List.find?_map]
    rfl
  rw [hfind]
  cases hfound : List.find? (fun user : User => decide (user.login = login))
      ((visit.order s.users.entries).map Prod.snd) with
  | none =>
      refine Or.inl ⟨rfl, fun user huser => ?_⟩
      have hother := List.find?_eq_none.mp hfound user (hperm.mem_iff.mpr huser)
      simpa using hother
  | some user =>
      refine Or.inr ⟨user, hperm.mem_iff.mp (List.mem_of_find?_eq_some hfound), ?_, rfl⟩
      simpa using List.find?_some hfound

/-- What a loop collects is there as often as it should be. -/
theorem search_perm (h : Holds s before) (visit : Iteration User) {p q : User → Bool}
    (hpq : ∀ user, p user = q user) :
    (((visit.order s.users.entries).filter fun e => p e.2).map Prod.snd).Perm
      ((usersOf before).filter q) := by
  have hfilter : ((visit.order s.users.entries).filter fun e => p e.2).map Prod.snd =
      ((visit.order s.users.entries).map Prod.snd).filter p := by
    rw [List.filter_map]
    rfl
  rw [hfilter, show p = q from funext hpq]
  exact (h.users.visit visit).filter q

theorem step_cases (h : Holds s before) (hfits : Fits before) (op : Operation) :
    Steps s before op ∨ s.step op = none ∧ ¬Fits (before ++ [op]) := by
  cases op with
  | createUser user => exact createUser_cases h hfits user
  | createProject project => exact createProject_cases h hfits project
  | createTask task => exact createTask_cases h hfits task
  | getUserByLogin login visit =>
      exact Or.inl ⟨_, s, rfl, getUserByLogin_spec h login visit, h.read rfl rfl rfl,
        hfits.read rfl rfl rfl⟩
  | searchUsersByLogin loginMask visit =>
      refine Or.inl ⟨_, s, rfl, search_perm h visit
        (p := fun user => matchesMask user.login loginMask) fun user => ?_, h.read rfl rfl rfl,
        hfits.read rfl rfl rfl⟩
      rw [Bool.eq_iff_iff, matchesMask_iff, decide_eq_true_iff]
  | searchUsersByFirstNameLastName firstNameMask lastNameMask visit =>
      refine Or.inl ⟨_, s, rfl, search_perm h visit
        (p := fun user => matchesMask user.firstName firstNameMask &&
          matchesMask user.lastName lastNameMask) fun user => ?_, h.read rfl rfl rfl,
        hfits.read rfl rfl rfl⟩
      rw [Bool.eq_iff_iff, Bool.and_eq_true, matchesMask_iff, matchesMask_iff,
        decide_eq_true_iff]
  | getProjectById id =>
      exact Or.inl ⟨_, s, rfl, h.projects.get? id, h.read rfl rfl rfl, hfits.read rfl rfl rfl⟩
  | getAllProjects visit =>
      exact Or.inl ⟨_, s, rfl, h.projects.visit visit, h.read rfl rfl rfl,
        hfits.read rfl rfl rfl⟩

end Step

/-! ## Runs -/

theorem Fits.of_append {before after : List Operation} (h : Fits (before ++ after)) :
    Fits before := by
  have hle : ∀ {α : Type} (withId : Int → α → α) (created : Operation → Option α),
      (numbered withId (before.filterMap created)).length ≤
        (numbered withId ((before ++ after).filterMap created)).length := by
    intro α withId created
    rw [List.filterMap_append, numbered, numbered, List.length_mapIdx, List.length_mapIdx,
      List.length_append]
    exact Nat.le_add_right _ _
  exact ⟨(hle _ _).trans h.users, (hle _ _).trans h.projects, (hle _ _).trans h.tasks⟩

/-- A run goes on as long as the ids fit, and every answer is as specified by the calls
before it. -/
theorem run_spec {s : InMemoryStorage} {before : List Operation} (h : Holds s before)
    (hfits : Fits before) (ops : List Operation) :
    ((s.run ops).isSome ↔ Fits (before ++ ops)) ∧
      ∀ answers s', s.run ops = some (answers, s') →
        answers.map Sigma.fst = ops ∧
          ∀ (i : ℕ) (a : Σ op : Operation, op.Answer), answers[i]? = some a →
            Specifies (before ++ ops.take i) a.1 a.2 := by
  induction ops generalizing s before with
  | nil =>
      refine ⟨iff_of_true rfl (by rwa [List.append_nil]), ?_⟩
      intro answers s' hrun
      obtain ⟨rfl, rfl⟩ := Prod.mk.inj (Option.some.inj hrun)
      exact ⟨rfl, fun i a hi => absurd hi (by simp)⟩
  | cons op ops ih =>
      have hassoc : ∀ rest, before ++ op :: rest = before ++ [op] ++ rest := fun rest => by simp
      rcases step_cases h hfits op with ⟨answer, s₁, hstep, hspec, hholds, hfit⟩ | ⟨hstep, hover⟩
      · obtain ⟨hdefined, hanswers⟩ := ih hholds hfit
        cases hrest : s₁.run ops with
        | none =>
            have hrun : s.run (op :: ops) = none := by rw [run, hstep]; simp [hrest]
            rw [hrun]
            rw [hrest, ← hassoc] at hdefined
            exact ⟨hdefined, fun _ _ hsome => absurd hsome (by simp)⟩
        | some result =>
            have hrun : s.run (op :: ops) = some (⟨op, answer⟩ :: result.1, result.2) := by
              rw [run, hstep]
              simp [hrest]
            rw [hrest, ← hassoc] at hdefined
            rw [hrun]
            refine ⟨hdefined, fun answers s' hsome => ?_⟩
            obtain ⟨rfl, rfl⟩ := Prod.mk.inj (Option.some.inj hsome)
            obtain ⟨hops, hspecs⟩ := hanswers _ _ hrest
            refine ⟨by rw [List.map_cons, hops], fun i a hi => ?_⟩
            cases i with
            | zero =>
                obtain rfl := Option.some.inj hi
                rw [List.take_zero, List.append_nil]
                exact hspec
            | succ i =>
                rw [List.take_succ_cons, hassoc]
                exact hspecs i a hi
      · have hrun : s.run (op :: ops) = none := by rw [run, hstep]; rfl
        rw [hrun]
        refine ⟨iff_of_false (by simp) fun hfit => hover ?_, fun _ _ hsome =>
          absurd hsome (by simp)⟩
        rw [hassoc] at hfit
        exact hfit.of_append

/-- **The maps are what was created.** Every list of calls, whatever order the loops meet the
entries in: an id is the number of the call among those of its kind, a search finds each match
among the earlier creations once, and a read by id or login finds one of them if there is
one. A run has a meaning exactly as long as the counters fit into an `int`. -/
theorem inMemoryStorage_refines (ops : List Operation) :
    ((run {} ops).isSome ↔ Fits ops) ∧
      ∀ answers s, run {} ops = some (answers, s) →
        answers.map Sigma.fst = ops ∧
          ∀ (i : ℕ) (a : Σ op : Operation, op.Answer), answers[i]? = some a →
            Specifies (ops.take i) a.1 a.2 := by
  have hspec := run_spec holds_empty ⟨by decide, by decide, by decide⟩ ops
  simpa only [List.nil_append] using hspec

end InMemoryStorage

end MyService.Storage
