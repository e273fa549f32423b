import MyService.Storage.Nullability
import MyService.System

/-!
# Project keys

A request without a key is stored with the key `""`, which `UNIQUE(key)` admits once.
`allCreated_iff` says which sequences of requests an empty table takes.
-/

namespace MyService.Handlers.ProjectKeys

open Framework Userver Userver.Postgres Event EventProducer
open Storage Storage.PostgresStorage Storage.Nullability

/-- A request to create a project: the members of its body, and what the environment
chooses while it is served. -/
structure Submission where
  request : HttpRequest
  userId : Int
  name : String
  description : Option String
  key : Option String
  cs : ℕ → Choice

namespace Submission

/-- The member holds this text, or is missing or null. -/
def Member (j : Option Json) : Option String → Prop
  | some s => j = some (.string s)
  | none => j = none ∨ j = some .null

/-- The body of the request. -/
def Posts (u : Userver) (s : Submission) : Prop :=
  ∃ members, u.fromString s.request.body = .ok (.object members) ∧
    members.lookup "name" = some (.string s.name) ∧
    Member (members.lookup "description") s.description ∧
    Member (members.lookup "key") s.key

/-- A request of an existing user, with a name and a key that are short enough; the
server takes the INSERT. -/
structure WellFormed (u : Userver) (userIds : List Int) (s : Submission) : Prop where
  posts : s.Posts u
  user : s.userId ∈ userIds
  name : s.name.toList.length ≤ 200
  key : ∀ k ∈ s.key, k ≠ "" ∧ k.toList.length ≤ 10
  nofault : (s.cs 1).fault = none

def serial (s : Submission) : Int := (s.cs 1).serial

/-- What the two optional members are stored as. -/
def storedKey (s : Submission) : String := s.key.getD ""

def storedDescription (s : Submission) : String := s.description.getD ""

/-- No text of the request has the NUL character. -/
def Storable (s : Submission) : Prop :=
  NulFree s.name ∧ NulFree s.storedDescription ∧ NulFree s.storedKey

/-- The request served alone. -/
def run (u : Userver) (s : Submission) (w : World) : Except Exn HttpResponse × World :=
  (createProjectHandler u s.request s.userId).exec perform s.cs w

/-- The row holds what the request gave. -/
structure OwnRow (s : Submission) (r : ProjectRow) : Prop where
  name : r.name = s.name
  ownerId : r.ownerId = some s.userId
  description : ∀ d ∈ s.description, r.description = some d
  key : ∀ k ∈ s.key, r.key = some k

/-- The request was answered 201 and added its own row. -/
def Created (u : Userver) (s : Submission) (w : World) : Prop :=
  ∃ response row, (s.run u w).1 = .ok response ∧ response.status = 201 ∧
    (s.run u w).2.db.projects.rows = w.db.projects.rows ++ [row] ∧ s.OwnRow row

/-- The row that the INSERT stores. -/
def row (s : Submission) : ProjectRow :=
  { id := s.serial, name := s.name, description := some s.storedDescription
    key := some s.storedKey, ownerId := some s.userId
    createdAt := some (fromTimePointTz (s.cs 0).system) }

/-- The table takes the row. -/
def Fresh (s : Submission) (w : World) : Prop :=
  s.serial ∉ w.db.projects.rows.map ProjectRow.id ∧
    s.storedKey ∉ w.db.projects.rows.filterMap ProjectRow.key

section Step

variable {u : Userver} {s : Submission} {w : World}

theorem asOr_member {j : Option Json} {x : Option String} {default : String}
    (h : Member j x) : Json.asOr Json.asString default j = .ok (x.getD default) := by
  cases x with
  | some s => rw [show j = some (.string s) from h]; rfl
  | none =>
      rcases h with rfl | rfl
      · rfl
      · rfl

/-- The INSERT of the request. -/
def insertion (s : Submission) : Statement :=
  .insertProject s.name s.storedDescription s.storedKey s.userId (s.cs 0).system
    ["id", "name", "description", "key", "owner_id", "created_at"]

/-- A row came back: the request is answered 201, and only the INSERT has touched the
tables. -/
def Answers201 (rest : List Row → Service HttpResponse) : Prop :=
  ∀ r p cs w, ProjectHolds p r →
    let result := (rest [pick ["id", "name", "description", "key", "owner_id", "created_at"]
      r.columns]).exec perform cs w
    (∃ response, result.1 = .ok response ∧ response.status = 201) ∧ result.2.db = w.db

/-- The handler on a body with these members: the clock, the INSERT, the rest. -/
theorem run_eq (h : s.Posts u) :
    ∃ rest, Answers201 rest ∧
      s.run u w = (PostgresStorage.execute s.insertion >>= rest).exec perform
        (fun i => s.cs (i + 1)) w := by
  obtain ⟨members, hbody, hname, hdesc, hkey⟩ := h
  unfold run createProjectHandler createProject
  simp only [hbody, Json.hasMember, Json.member, hname, asOr_member hdesc, asOr_member hkey,
    Json.asString, systemNow, Prog.liftM_eq, Prog.ofExcept_ok, Prog.pure_bind_eq,
    Prog.ask_bind_eq, Prog.bind_assoc]
  refine ⟨_, ?_, rfl⟩
  intro r p cs w hp
  have hdecode : asSingleRow decodeProject
      [pick ["id", "name", "description", "key", "owner_id", "created_at"] r.columns] = .ok p :=
    decodeProject_iff.mpr hp
  simp [hdecode, publishProjectCreated, valueOf]
  obtain ⟨message, _, hpublish⟩ := exec_publish_bind "project-events" p.id.repr
    "ProjectCreated" (s.request.getHeader "X-Request-Id")
    (ProjectCreatedEvent.toPayload ⟨p.id, p.name, p.key, p.ownerId⟩) _ (fun i => cs (i + 1))
    (perform (.cacheInvalidate projectsKey) (cs 0) w).1
  rw [hpublish]
  refine ⟨⟨_, rfl, rfl⟩, ?_⟩
  rw [Prog.exec_pure, perform_db _ _ _ (by simp), perform_db _ _ _ (by simp)]

theorem storedKey_length {userIds : List Int} (h : s.WellFormed u userIds) :
    s.storedKey.toList.length ≤ 10 := by
  unfold storedKey
  cases hkey : s.key with
  | none => simp
  | some k => exact (h.key k hkey).2

/-- The server takes the INSERT exactly when its texts can be stored and the id and the
key are new. -/
theorem insertion_ok (h : s.WellFormed u w.db.userIds) {db : Database} {rows : List Row} :
    w.db.execute s.serial s.insertion = .ok (db, rows) ↔
      s.Storable ∧ ∃ projects, w.db.projects.insert s.row = .ok projects ∧
        { w.db with projects := projects } = db ∧
        [pick ["id", "name", "description", "key", "owner_id", "created_at"] s.row.columns] =
          rows := by
  simp [insertion, Database.execute, Database.newProject, except_bind_ok, varchar_ok h.name,
    varchar_ok (storedKey_length h), text_ok, references, h.user, Storable, pure, Except.pure,
    row, and_assoc]

theorem fresh_iff : s.Fresh w ↔ ∃ projects, w.db.projects.insert s.row = .ok projects := by
  have hfresh : s.Fresh w ↔ s.row.id ∉ w.db.projects.rows.map ProjectRow.id ∧
      ∀ k ∈ s.row.key, k ∉ w.db.projects.rows.filterMap ProjectRow.key := by
    simp [Fresh, row]
  rw [hfresh]
  unfold Projects.insert
  split
  · rename_i hnew
    exact iff_of_true hnew ⟨_, rfl⟩
  · rename_i hold
    exact iff_of_false hold (by simp)

/-- What serving one request does. -/
theorem run_cases (h : s.WellFormed u w.db.userIds) :
    (¬(s.Storable ∧ s.Fresh w) ∧ ∃ e, s.run u w = (.error e, w)) ∨
    (s.Storable ∧ s.Fresh w) ∧ ∃ response, (s.run u w).1 = .ok response ∧
      response.status = 201 ∧ (s.run u w).2.db.users = w.db.users ∧
      (s.run u w).2.db.projects.rows = w.db.projects.rows ++ [s.row] := by
  obtain ⟨rest, hrest, hrun⟩ := run_eq (w := w) h.posts
  rw [hrun, exec_execute_bind]
  rcases execute_cases (s.cs 1) w s.insertion with ⟨e, he, heq⟩ | ⟨db, rows, _, hact, heq⟩
  · refine Or.inl ⟨?_, e, by rw [heq]⟩
    rintro ⟨hstorable, hfresh⟩
    rcases he with hfault | ⟨_, herr⟩
    · rw [h.nofault] at hfault
      exact absurd hfault (by simp)
    · obtain ⟨projects, hinsert⟩ := fresh_iff.mp hfresh
      have hok := (insertion_ok h).mpr ⟨hstorable, projects, hinsert, rfl, rfl⟩
      exact absurd (hok.symm.trans herr) (by simp)
  · obtain ⟨hstorable, projects, hinsert, rfl, rfl⟩ := (insertion_ok h).mp hact
    obtain ⟨hrows, _⟩ := projects_insert_ok hinsert
    obtain ⟨⟨response, hresponse, hstatus⟩, hdb⟩ := hrest s.row
      ⟨s.serial, s.name, s.storedDescription, s.storedKey, s.userId, _⟩
      (fun i => s.cs (i + 1 + 1)) { w with db := { w.db with projects := projects } }
      ⟨rfl, rfl, rfl, rfl, rfl, rfl⟩
    rw [heq]
    refine Or.inr ⟨⟨hstorable, fresh_iff.mpr ⟨projects, hinsert⟩⟩, response, hresponse, hstatus, ?_⟩
    dsimp only
    rw [hdb]
    exact ⟨rfl, hrows⟩

/-- **One request.** It is created exactly when its texts can be stored and its id and
stored key are new. -/
theorem created_iff (h : s.WellFormed u w.db.userIds) :
    s.Created u w ↔ s.Storable ∧ s.Fresh w := by
  rcases run_cases h with ⟨hnot, e, hrun⟩ | ⟨hyes, response, hresponse, hstatus, _, hrows⟩
  · refine iff_of_false ?_ hnot
    rintro ⟨response, row, hok, _⟩
    rw [hrun] at hok
    exact absurd hok (by simp)
  · refine iff_of_true ⟨response, s.row, hresponse, hstatus, hrows, rfl, rfl, ?_, ?_⟩ hyes
    · intro d hd
      rw [row, storedDescription, Option.mem_def.mp hd]
      rfl
    · intro k hk
      rw [row, storedKey, Option.mem_def.mp hk]
      rfl

theorem Created.rows (h : s.WellFormed u w.db.userIds) (hcreated : s.Created u w) :
    (s.run u w).2.db.projects.rows = w.db.projects.rows ++ [s.row] := by
  rcases run_cases h with ⟨hnot, _⟩ | ⟨_, _, _, _, _, hrows⟩
  · exact absurd ((created_iff h).mp hcreated) hnot
  · exact hrows

theorem run_users (h : s.WellFormed u w.db.userIds) :
    (s.run u w).2.db.users = w.db.users := by
  rcases run_cases h with ⟨_, e, hrun⟩ | ⟨_, _, _, _, husers, _⟩
  · rw [hrun]
  · exact husers

end Step

end Submission

/-! ## Sequences of requests -/

open Submission

/-- The world after the first `n` requests. -/
def after (u : Userver) (submissions : List Submission) (w : World) (n : ℕ) : World :=
  (Prog.execAll perform ((submissions.take n).map fun s =>
    (createProjectHandler u s.request s.userId, s.cs)) w).2

/-- Every request is answered 201 and adds its own row. -/
def AllCreated (u : Userver) (submissions : List Submission) (w : World) : Prop :=
  ∀ (i : ℕ) (s : Submission), submissions[i]? = some s → s.Created u (after u submissions w i)

section Sequences

variable {u : Userver} {submissions : List Submission} {w : World}

theorem after_succ {i : ℕ} {s : Submission} (hi : submissions[i]? = some s) :
    after u submissions w (i + 1) = (s.run u (after u submissions w i)).2 := by
  unfold after
  rw [List.take_add_one, hi, Option.toList_some, List.map_append, List.map_singleton,
    Prog.execAll_snoc]
  rfl

/-- As long as every request is created, the table holds their rows and the users stay. -/
theorem after_rows (hwf : ∀ s ∈ submissions, s.WellFormed u w.db.userIds) {n : ℕ}
    (hn : n ≤ submissions.length)
    (hcreated : ∀ (i : ℕ) (s : Submission), i < n → submissions[i]? = some s →
      s.Created u (after u submissions w i)) :
    (after u submissions w n).db.users = w.db.users ∧
      (after u submissions w n).db.projects.rows =
        w.db.projects.rows ++ (submissions.take n).map row := by
  induction n with
  | zero => exact ⟨rfl, by simp [after, Prog.execAll]⟩
  | succ n ih =>
      have hnext : submissions[n]? = some submissions[n] := List.getElem?_eq_getElem hn
      obtain ⟨husers, hrows⟩ := ih (by omega) fun i s hi => hcreated i s (by omega)
      have hwf' : submissions[n].WellFormed u (after u submissions w n).db.userIds := by
        rw [Database.userIds, husers]
        exact hwf _ (List.getElem_mem _)
      rw [after_succ hnext]
      refine ⟨(run_users hwf').trans husers, ?_⟩
      rw [Created.rows hwf' (hcreated n _ (by omega) hnext), hrows, List.take_add_one, hnext,
        List.map_append, List.append_assoc]
      rfl

theorem notMem_take {α : Type} {l : List α} (h : l.Nodup) {i : ℕ} {a : α}
    (hi : l[i]? = some a) : a ∉ l.take i := by
  have hsub : (l.take i ++ [a]).Nodup := by
    have htake : l.take (i + 1) = l.take i ++ [a] := by
      rw [List.take_add_one, hi]
      rfl
    rw [← htake]
    exact h.sublist (List.take_sublist _ _)
  intro hmem
  exact (List.nodup_append.mp hsub).2.2 a hmem a (List.mem_singleton.mpr rfl) rfl

/-- The `i`-th request meets an empty place in a table of the rows before it. -/
theorem fresh_after (hwf : ∀ s ∈ submissions, s.WellFormed u w.db.userIds)
    (hempty : w.db.projects.rows = []) {n : ℕ} {s : Submission} (hs : submissions[n]? = some s)
    (hcreated : ∀ (i : ℕ) (s : Submission), i < n → submissions[i]? = some s →
      s.Created u (after u submissions w i)) :
    (s.Created u (after u submissions w n) ↔ s.Storable ∧ s.Fresh (after u submissions w n)) ∧
    (s.Fresh (after u submissions w n) ↔ s.serial ∉ (submissions.take n).map serial ∧
      s.storedKey ∉ (submissions.take n).map storedKey) := by
  obtain ⟨hn, _⟩ := List.getElem?_eq_some_iff.mp hs
  obtain ⟨husers, hrows⟩ := after_rows hwf hn.le hcreated
  constructor
  · refine created_iff ?_
    rw [Database.userIds, husers]
    exact hwf s (List.mem_of_getElem? hs)
  · rw [Fresh, hrows, hempty, List.nil_append, List.map_map]
    have hkeys : ((submissions.take n).map row).filterMap ProjectRow.key =
        (submissions.take n).map storedKey := by
      rw [List.filterMap_map, ← List.filterMap_eq_map]
      rfl
    rw [hkeys]
    rfl

/-- Every request is created exactly when its texts can be stored and no two are stored
under one key. -/
theorem allCreated_iff_keys (hwf : ∀ s ∈ submissions, s.WellFormed u w.db.userIds)
    (hempty : w.db.projects.rows = []) (hserials : (submissions.map serial).Nodup) :
    AllCreated u submissions w ↔
      (∀ s ∈ submissions, s.Storable) ∧ (submissions.map storedKey).Nodup := by
  constructor
  · intro hall
    have hstep : ∀ (n : ℕ) s, submissions[n]? = some s →
        s.Storable ∧ s.storedKey ∉ (submissions.take n).map storedKey := by
      intro n s hs
      obtain ⟨hcreated, hfresh⟩ := fresh_after hwf hempty hs fun i s _ hi => hall i s hi
      obtain ⟨hstorable, hnew⟩ := hcreated.mp (hall n s hs)
      exact ⟨hstorable, (hfresh.mp hnew).2⟩
    refine ⟨?_, ?_⟩
    · intro s hs
      obtain ⟨n, hn⟩ := List.mem_iff_getElem?.mp hs
      exact (hstep n s hn).1
    · have htake : ∀ n ≤ submissions.length, ((submissions.take n).map storedKey).Nodup := by
        intro n hn
        induction n with
        | zero => simp
        | succ n ih =>
            have hnext : submissions[n]? = some submissions[n] := List.getElem?_eq_getElem hn
            rw [List.take_add_one, hnext]
            exact nodup_map_snoc (ih (by omega)) (hstep n _ hnext).2
      have hlast := htake _ le_rfl
      rwa [List.take_length] at hlast
  · rintro ⟨hstorable, hkeys⟩ i
    induction i using Nat.strong_induction_on with
    | h i ih =>
        intro s hs
        obtain ⟨hcreated, hfresh⟩ :=
          fresh_after hwf hempty hs fun j t hj ht => ih j hj t ht
        refine hcreated.mpr ⟨hstorable s (List.mem_of_getElem? hs), hfresh.mpr ⟨?_, ?_⟩⟩
        · rw [List.map_take]
          exact notMem_take hserials (by rw [List.getElem?_map, hs]; rfl)
        · rw [List.map_take]
          exact notMem_take hkeys (by rw [List.getElem?_map, hs]; rfl)

/-- Supplied keys are distinct and not empty, so only the requests without one can
collide. -/
theorem storedKeys_nodup_iff (hkeys : (submissions.filterMap Submission.key).Nodup)
    (hne : ∀ s ∈ submissions, ∀ k ∈ s.key, k ≠ "") :
    (submissions.map storedKey).Nodup ↔
      submissions.countP (fun s => s.key.isNone) ≤ 1 := by
  induction submissions with
  | nil => simp
  | cons s rest ih =>
      have hne' : ∀ t ∈ rest, ∀ k ∈ t.key, k ≠ "" :=
        fun t ht => hne t (List.mem_cons_of_mem _ ht)
      have hrest : (rest.filterMap Submission.key).Nodup :=
        hkeys.sublist ((List.sublist_cons_self s rest).filterMap _)
      rw [List.map_cons, List.nodup_cons, ih hrest hne', List.countP_cons]
      cases hkey : s.key with
      | none =>
          -- another request without a key is stored under the same text
          have hmem : s.storedKey ∈ rest.map storedKey ↔
              0 < rest.countP fun s => s.key.isNone := by
            rw [storedKey, hkey, List.mem_map, List.countP_pos_iff]
            refine exists_congr fun t => and_congr_right ?_
            intro ht
            cases htkey : t.key with
            | none => simp [storedKey, htkey]
            | some k => simpa [storedKey, htkey] using hne' t ht k htkey
          rw [hmem, if_pos (by simp)]
          omega
      | some k =>
          have hk : k ≠ "" := hne s List.mem_cons_self k hkey
          have hnew : k ∉ rest.filterMap Submission.key := by
            rw [List.filterMap_cons_some hkey] at hkeys
            exact (List.nodup_cons.mp hkeys).1
          have hmem : s.storedKey ∉ rest.map storedKey := by
            rw [storedKey, hkey, List.mem_map]
            rintro ⟨t, ht, heq⟩
            cases htkey : t.key with
            | none => exact hk (by simpa [storedKey, htkey] using heq.symm)
            | some k' =>
                have hkk : k' = k := by simpa [storedKey, htkey] using heq
                exact hnew (List.mem_filterMap.mpr ⟨t, ht, hkk ▸ htkey⟩)
          rw [if_neg (by simp)]
          exact and_iff_right hmem

/-- **When every request is created.** At most one of them has no key, and PostgreSQL can
store their texts. -/
theorem allCreated_iff (hwf : ∀ s ∈ submissions, s.WellFormed u w.db.userIds)
    (hempty : w.db.projects.rows = []) (hserials : (submissions.map serial).Nodup)
    (hkeys : (submissions.filterMap Submission.key).Nodup) :
    AllCreated u submissions w ↔
      submissions.countP (fun s => s.key.isNone) ≤ 1 ∧ ∀ s ∈ submissions, s.Storable := by
  rw [allCreated_iff_keys hwf hempty hserials, and_comm,
    storedKeys_nodup_iff hkeys fun s hs k hk => ((hwf s hs).key k hk).1]

end Sequences

/-! ## Requests without a key -/

def submission (key : Option String) (serial : Int) : Submission :=
  { request := Sample.http (key.getD "") "" "", userId := 1, name := "p", description := none
    key := key, cs := fun _ => { serial := serial } }

theorem submission_wellFormed {key : Option String} (serial : Int)
    (hkey : ∀ k ∈ key, k ≠ "" ∧ k.toList.length ≤ 10) :
    (submission key serial).WellFormed Sample.keyOnly (Sample.oneUser Sample.ann).db.userIds := by
  refine ⟨?_, List.mem_singleton.mpr rfl, by simp [submission], hkey, rfl⟩
  cases key with
  | none => exact ⟨_, rfl, rfl, Or.inl rfl, Or.inl rfl⟩
  | some k => exact ⟨_, if_neg (hkey k rfl).1, rfl, Or.inl rfl, rfl⟩

theorem submission_storable {key : Option String} (serial : Int) (hkey : NulFree (key.getD "")) :
    (submission key serial).Storable :=
  ⟨by simp [NulFree, submission], by simp [NulFree, submission, storedDescription], hkey⟩

/-- One without a key among two with one. -/
def three : List Submission :=
  [submission (some "K") 1, submission none 2, submission (some "L") 3]

theorem allCreated_three : AllCreated Sample.keyOnly three (Sample.oneUser Sample.ann) := by
  refine (allCreated_iff ?_ rfl (by decide) (by decide)).mpr ⟨by decide, ?_⟩
  · intro s hs
    simp only [three, List.mem_cons, List.not_mem_nil, or_false] at hs
    rcases hs with rfl | rfl | rfl
    · exact submission_wellFormed 1 (by decide)
    · exact submission_wellFormed 2 (by decide)
    · exact submission_wellFormed 3 (by decide)
  · intro s hs
    simp only [three, List.mem_cons, List.not_mem_nil, or_false] at hs
    rcases hs with rfl | rfl | rfl
    · exact submission_storable 1 (by decide)
    · exact submission_storable 2 (by decide)
    · exact submission_storable 3 (by decide)

/-- The second one without a key is not created. -/
theorem allCreated_fails_on_two :
    (∀ s ∈ [submission none 1, submission none 2],
        s.WellFormed Sample.keyOnly (Sample.oneUser Sample.ann).db.userIds) ∧
      ¬AllCreated Sample.keyOnly [submission none 1, submission none 2]
        (Sample.oneUser Sample.ann) := by
  have hwf : ∀ s ∈ [submission none 1, submission none 2],
      s.WellFormed Sample.keyOnly (Sample.oneUser Sample.ann).db.userIds := by
    intro s hs
    simp only [List.mem_cons, List.not_mem_nil, or_false] at hs
    rcases hs with rfl | rfl <;> exact submission_wellFormed _ (by simp)
  refine ⟨hwf, ?_⟩
  intro hall
  have hkeys := ((allCreated_iff_keys hwf rfl (by decide)).mp hall).2
  exact absurd hkeys (by decide)

end MyService.Handlers.ProjectKeys
