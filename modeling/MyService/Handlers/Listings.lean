import MyService.Cache.Transparency
import MyService.Storage.Nullability

/-!
# What the list endpoints return

`GetComments` writes its elements by index into a fresh builder, which has no elements to
write to: it throws on every list but the empty one, which it renders as null
(`comments_never_listed`). `GetProjects` pushes its elements onto an array, as `UserSearch`
does, but its query stops at 100 rows (`projects_listed_iff`).
-/

namespace MyService.Handlers.Listings

open Framework Userver Userver.Postgres Models Storage PostgresStorage Cache Calls
open Cache.FreshReads (Resource)

/-! ## A read on a cache miss -/

theorem exec_readThrough_miss {u : Userver} {r : Resource} {cs : ℕ → Choice} {w : World}
    (hmiss : (w.cache.get r.key (cs 0).steady).1 = none) (hfault : (cs 1).fault = none) :
    ((Transparency.readThrough u r).exec perform cs w).1 =
      (r.render u (Isolation.current w r)).map fun body => { body := body } := by
  have hcall : perform (.cacheGet r.key) (cs 0) w =
      ({ w with cache := (w.cache.get r.key (cs 0).steady).2 }, none) := by
    rw [← hmiss]
    rfl
  have hfetched : Transparency.fetched u r (cs 1)
      { w with cache := (w.cache.get r.key (cs 0).steady).2 } =
      r.render u (Isolation.current w r) := by
    unfold Transparency.fetched
    rw [hfault]
    cases r <;> rfl
  rw [Transparency.exec_miss hcall, Transparency.exec_fetch,
    show Transparency.fetched u r (cs (0 + 1)) _ = _ from hfetched]
  cases r.render u (Isolation.current w r) <;> rfl

/-! ## Comments -/

/-- An element of `replies` carries the reply. -/
structure CarriesReply (item : Json) (reply : Reply) : Prop where
  author : item.member "author" = .ok (some (.string reply.author))
  text : item.member "text" = .ok (some (.string reply.text))
  createdAt : item.member "created_at" = .ok (some (.int (Chrono.toTimeT reply.createdAt)))

/-- An element of the list carries the comment, and its replies in order. -/
structure Carries (item : Json) (comment : Comment) : Prop where
  id : item.member "id" = .ok (some (.string comment.id))
  author : item.member "author" = .ok (some (.string comment.author))
  text : item.member "text" = .ok (some (.string comment.text))
  createdAt : item.member "created_at" = .ok (some (.int (Chrono.toTimeT comment.createdAt)))
  replies : ∃ items, item.member "replies" = .ok (some (.array items)) ∧
    List.Forall₂ CarriesReply items comment.replies

/-- The answer is an array of the comments. -/
def ListsComments (u : Userver) (comments : List Comment) (result : Except Exn HttpResponse) :
    Prop :=
  ∃ response items, result = .ok response ∧ u.fromString response.body = .ok (.array items) ∧
    List.Forall₂ Carries items comments

/-- A fresh builder is no array. -/
theorem renderComments_nil : renderComments [] = .ok .null := rfl

/-- And it has no element to write to. -/
theorem renderComments_cons (c : Comment) (rest : List Comment) :
    renderComments (c :: rest) = .error .outOfBounds := rfl

section Comments

variable {u : Userver} {request : HttpRequest} {taskId : Int} {cs : ℕ → Choice} {w : World}
  {comments : List Comment}

theorem exec_getComments_miss (htask : stoi (request.getPathArg "taskId") = .ok taskId)
    (hmiss : (w.cache.get (commentsKey taskId) (cs 0).steady).1 = none)
    (hfault : (cs 1).fault = none)
    (hcomments : (w.comments.find (taskFilter taskId)).mapM commentFromBson =
      .ok comments) :
    ((getCommentsHandler u request).exec perform cs w).1 =
      (renderComments comments).map fun result => { body := u.toString result } := by
  rw [Transparency.getComments_eq htask,
    exec_readThrough_miss (r := .comments taskId) hmiss hfault]
  have hrender : (Resource.comments taskId).render u
      (Isolation.current w (.comments taskId)) =
      (renderComments comments).map u.toString := by
    show ((w.comments.find (taskFilter taskId)).mapM commentFromBson >>=
      fun comments => renderComments comments >>= fun result => pure (u.toString result)) = _
    rw [hcomments]
    cases hresult : renderComments comments with
    | error e =>
        show (renderComments comments >>= fun result => pure (u.toString result)) = _
        rw [hresult]
        rfl
    | ok result =>
        show (renderComments comments >>= fun result => pure (u.toString result)) = _
        rw [hresult]
        rfl
  rw [hrender]
  cases renderComments comments <;> rfl

/-- **The comments are never listed.** Whatever the task's comments are, a reader that does
not find them cached throws, or returns a null. -/
theorem comments_never_listed (hnull : u.fromString (u.toString .null) = .ok .null)
    (htask : stoi (request.getPathArg "taskId") = .ok taskId)
    (hmiss : (w.cache.get (commentsKey taskId) (cs 0).steady).1 = none)
    (hfault : (cs 1).fault = none)
    (hcomments : (w.comments.find (taskFilter taskId)).mapM commentFromBson =
      .ok comments) :
    ¬ListsComments u comments ((getCommentsHandler u request).exec perform cs w).1 := by
  rw [exec_getComments_miss htask hmiss hfault hcomments]
  rintro ⟨response, items, hresult, hbody, _⟩
  cases comments with
  | nil =>
      rw [renderComments_nil] at hresult
      obtain rfl := Except.ok.inj hresult
      rw [show u.fromString (u.toString .null) = .ok (.array items) from hbody] at hnull
      exact absurd (Except.ok.inj hnull) (by simp)
  | cons c rest => exact absurd hresult (by simp [renderComments_cons, Except.map])

end Comments

/-! ### One comment -/

/-- The library where it reads its own null. -/
def nullUserver : Userver :=
  { Sample.userver with
    fromString := fun text => if text = "null" then .ok .null else .error .parseError }

def request : HttpRequest := Sample.http "" "taskId" "7"

/-- A comment without replies on task 7. -/
def comment : Comment :=
  { id := Oid.zeros.toString, taskId := 7, author := "ann", authorId := 1, text := "hi"
    createdAt := 0, updatedAt := none, replies := [] }

/-- Another one, with two replies. -/
def answered : Comment :=
  { comment with
    id := (Sample.idOf 1).toString, text := "why"
    replies := [⟨"bob", "so", 0⟩, ⟨"ann", "ah", 0⟩] }

def discussed : World :=
  { Sample.empty with
    comments :=
      { docs := [Collection.stored Oid.zeros (commentToBson comment),
          Collection.stored (Sample.idOf 1) (commentToBson answered)]
        ids_nodup :=
          show ([Oid.zeros, Sample.idOf 1].map Bson.oid).Nodup from
            List.Nodup.map (fun _ _ h => Bson.oid.inj h) (by decide) } }

theorem comments_never_listed_discussed :
    ¬ListsComments nullUserver [comment, answered]
      ((getCommentsHandler nullUserver request).exec perform (fun _ => Sample.plain)
        discussed).1 := by
  have htask : stoi (request.getPathArg "taskId") = .ok 7 := by decide
  exact comments_never_listed rfl htask rfl rfl rfl

def commented : World :=
  { Sample.empty with
    comments :=
      { docs := [Collection.stored Oid.zeros (commentToBson comment)]
        ids_nodup := List.nodup_singleton _ } }

/-- A request for it fails. -/
theorem comments_listed_fails :
    (commented.comments.find (taskFilter 7)).mapM commentFromBson = .ok [comment] ∧
      ((getCommentsHandler nullUserver request).exec perform (fun _ => Sample.plain)
        commented).1 = .error .outOfBounds ∧
      ¬ListsComments nullUserver [comment]
        ((getCommentsHandler nullUserver request).exec perform (fun _ => Sample.plain)
          commented).1 := by
  have hthrows : ((getCommentsHandler nullUserver request).exec perform
      (fun _ => Sample.plain) commented).1 = .error .outOfBounds := rfl
  refine ⟨rfl, hthrows, ?_⟩
  rw [hthrows]
  rintro ⟨response, _, hresult, _⟩
  exact absurd hresult (by simp)

/-! ## Projects -/

/-- The project of a row without nulls. -/
def projectOf (r : ProjectRow) : Project :=
  { id := r.id, name := r.name, description := r.description.getD "", key := r.key.getD ""
    ownerId := r.ownerId.getD 0, createdAt := toTimePointTz (r.createdAt.getD 0) }

theorem projectHolds_projectOf {r : ProjectRow} (h : Nullability.ProjectFilled r) :
    ProjectHolds (projectOf r) r := by
  obtain ⟨id, name, description, key, ownerId, createdAt⟩ := r
  obtain ⟨hdesc, hkey, howner, hcreated⟩ := h
  obtain ⟨_, rfl⟩ := Option.isSome_iff_exists.mp hdesc
  obtain ⟨_, rfl⟩ := Option.isSome_iff_exists.mp hkey
  obtain ⟨_, rfl⟩ := Option.isSome_iff_exists.mp howner
  obtain ⟨_, rfl⟩ := Option.isSome_iff_exists.mp hcreated
  exact ⟨rfl, rfl, rfl, rfl, rfl, rfl⟩

theorem projectHolds_unique {p p' : Project} {r : ProjectRow} (h : ProjectHolds p r)
    (h' : ProjectHolds p' r) : p = p' :=
  Except.ok.inj ((decodeProject_iff.mpr h).symm.trans (decodeProject_iff.mpr h'))

/-- Rows without nulls decode one by one. -/
theorem asContainer_projects {rows : List ProjectRow}
    (h : ∀ r ∈ rows, Nullability.ProjectFilled r) :
    asContainer decodeProject (rows.map fun r =>
      pick ["id", "name", "description", "key", "owner_id", "created_at"] r.columns) =
      .ok (rows.map projectOf) := by
  induction rows with
  | nil => rfl
  | cons r rows ih =>
      have hhead := decodeProject_iff.mpr (projectHolds_projectOf (h r List.mem_cons_self))
      have htail := ih fun r' hr' => h r' (List.mem_cons_of_mem _ hr')
      unfold asContainer at htail ⊢
      rw [List.map_cons, List.mapM_cons, hhead, htail]
      rfl

instance : Std.Total fun a b : ProjectRow => Database.createdAfter a b = true where
  total a b := by
    unfold Database.createdAfter
    cases a.createdAt <;> cases b.createdAt <;> simp [Int.le_total]

instance : IsTrans ProjectRow fun a b => Database.createdAfter a b = true where
  trans a b c := by
    unfold Database.createdAfter
    cases a.createdAt <;> cases b.createdAt <;> cases c.createdAt <;> simp
    omega

/-- The rows that the query of `GetAllProjects` selects. -/
def listed (db : Database) : List ProjectRow :=
  (db.projects.rows.insertionSort fun a b => Database.createdAfter a b).take 100

theorem pairwise_listed (db : Database) :
    (listed db).Pairwise fun a b => Database.createdAfter a b = true :=
  (List.pairwise_insertionSort _ _).sublist (List.take_sublist _ _)

theorem mem_listed {db : Database} {r : ProjectRow} (h : r ∈ listed db) :
    r ∈ db.projects.rows :=
  (List.perm_insertionSort _ _).mem_iff.mp (List.mem_of_mem_take h)

/-- Newer rows give newer projects. -/
theorem pairwise_projectOf {rows : List ProjectRow}
    (hfilled : ∀ r ∈ rows, Nullability.ProjectFilled r)
    (h : rows.Pairwise fun a b => Database.createdAfter a b = true) :
    (rows.map projectOf).Pairwise fun a b => b.createdAt ≤ a.createdAt := by
  rw [List.pairwise_map]
  refine h.imp_of_mem ?_
  intro a b ha hb hafter
  obtain ⟨x, hx⟩ := Option.isSome_iff_exists.mp (hfilled a ha).2.2.2
  obtain ⟨y, hy⟩ := Option.isSome_iff_exists.mp (hfilled b hb).2.2.2
  have hle : y ≤ x := by simpa [Database.createdAfter, hx, hy] using hafter
  simp only [projectOf, hx, hy, Option.getD_some, toTimePointTz]
  omega

theorem renderProjects_eq (projects : List Project) :
    renderProjects projects = .ok (.array (projects.map projectItem)) := by
  rw [renderProjects, Json.foldlM_pushBack]
  rfl

/-- What the query answers decodes. -/
theorem asContainer_listed {db : Database}
    (h : ∀ r ∈ db.projects.rows, Nullability.ProjectFilled r) :
    asContainer decodeProject (((db.projects.rows.insertionSort fun a b =>
      Database.createdAfter a b).take 100).map fun r =>
        pick ["id", "name", "description", "key", "owner_id", "created_at"] r.columns) =
      .ok ((listed db).map projectOf) :=
  asContainer_projects fun r hr => h r (mem_listed hr)

section Exec

variable {u : Userver} {request : HttpRequest} {cs : ℕ → Choice} {w : World}

theorem exec_getAllProjects (hfault : (cs 0).fault = none)
    (hfilled : ∀ r ∈ w.db.projects.rows, Nullability.ProjectFilled r) :
    (getAllProjects.exec perform cs w).1 = .ok ((listed w.db).map projectOf) := by
  unfold getAllProjects
  rw [exec_execute_bind]
  rcases execute_cases (cs 0) w (.selectProjectsByCreation
      ["id", "name", "description", "key", "owner_id", "created_at"] 100) with
    ⟨e, he, _⟩ | ⟨db, rows, _, hact, heq⟩
  · rcases he with h | ⟨_, h⟩
    · rw [hfault] at h
      exact absurd h (by simp)
    · exact absurd h (by simp [Database.execute, pure, Except.pure])
  · obtain ⟨rfl, rfl⟩ := Prod.mk.inj (Except.ok.inj hact)
    rw [heq]
    show ((Prog.ofExcept (asContainer decodeProject _) : Service (List Project)).exec
      perform _ _).1 = _
    rw [asContainer_listed hfilled]
    rfl

theorem exec_getProjects_miss
    (hmiss : (w.cache.get projectsKey (cs 0).steady).1 = none) (hfault : (cs 1).fault = none)
    (hfilled : ∀ r ∈ w.db.projects.rows, Nullability.ProjectFilled r) :
    ((getProjectsHandler u request).exec perform cs w).1 =
      .ok { body := u.toString (.array (((listed w.db).map projectOf).map projectItem)) } := by
  have hrender : Resource.projects.render u (Isolation.current w .projects) =
      .ok (u.toString (.array (((listed w.db).map projectOf).map projectItem))) := by
    show (asContainer decodeProject _ >>= fun projects =>
      renderProjects projects >>= fun result => pure (u.toString result)) = _
    rw [asContainer_listed hfilled]
    show (renderProjects _ >>= fun result => pure (u.toString result)) = _
    rw [renderProjects_eq]
    rfl
  rw [Transparency.getProjects_eq, exec_readThrough_miss (r := .projects) hmiss hfault, hrender]
  rfl

end Exec

/-! ### The law -/

/-- The INSERT of a `CreateProject` that returned this project. -/
def Created (e : ServiceEvent) (p : Project) : Prop :=
  ∃ name description key ownerId createdAt rows,
    e.seen perform = ⟨.execute (.insertProject name description key ownerId createdAt
      ["id", "name", "description", "key", "owner_id", "created_at"]), .ok rows⟩ ∧
    asSingleRow decodeProject rows = .ok p

/-- The projects are those of the table, each once, newest first. -/
structure Listing (table : List ProjectRow) (projects : List Project) : Prop where
  complete : ∃ rows : List ProjectRow, rows.Perm table ∧ List.Forall₂ ProjectHolds projects rows
  newestFirst : projects.Pairwise fun a b => b.createdAt ≤ a.createdAt

/-- After these events, `GetAllProjects` returns the whole table, a `GetProjects` that finds
nothing cached shows it, and it has what every `CreateProject` has created. -/
def ListsAll (u : Userver) (request : HttpRequest) (tr : List ServiceEvent) (cs : ℕ → Choice)
    (w : World) : Prop :=
  ∃ projects, (getAllProjects.exec perform (fun i => cs (i + 1)) w).1 = .ok projects ∧
    Listing w.db.projects.rows projects ∧
    ((getProjectsHandler u request).exec perform cs w).1 =
      .ok { body := u.toString (.array (projects.map projectItem)) } ∧
    ∀ e ∈ tr, ∀ p, Created e p → p ∈ projects

section Runs

variable {u : Userver} {request : HttpRequest} {w : World} {requests : ℕ → Request}
  {sched : List (ℕ × Choice)} {cs : ℕ → Choice}

/-- No request leaves a null in the table. -/
theorem filled_perform (c : Call) (ch : Choice) (w : World)
    (h : ∀ r ∈ w.db.projects.rows, Nullability.ProjectFilled r) :
    ∀ r ∈ (perform c ch w).1.db.projects.rows, Nullability.ProjectFilled r := by
  rcases perform_execute c ch w with hsame | ⟨s, _, hexec⟩
  · rw [hsame]
    exact h
  · revert hexec
    generalize (perform c ch w).1.db = db'
    rintro (⟨_, _⟩ | ⟨hrow, hinsert⟩ | ⟨_, _⟩ | _)
    · exact h
    · intro r hr
      rw [(projects_insert_ok hinsert).1] at hr
      rcases List.mem_append.mp hr with hold | hlast
      · exact h r hold
      · obtain ⟨p, hp, _⟩ := newProject_holds hrow
        rw [List.mem_singleton.mp hlast]
        exact Nullability.exists_projectHolds.mp ⟨p, hp⟩
    · exact h
    · exact h

theorem run_filled (hw : ∀ r ∈ w.db.projects.rows, Nullability.ProjectFilled r) :
    ∀ r ∈ (runService u w requests sched).world.db.projects.rows,
      Nullability.ProjectFilled r := by
  rw [runService_world]
  exact Config.stable_world perform runService_chained
    (P := fun w => ∀ r ∈ w.db.projects.rows, Nullability.ProjectFilled r)
    (fun e _ h => filled_perform e.call e.choice e.before h) hw

/-- A created project has a row at the end of the run. -/
theorem row_of_created {e : ServiceEvent} {p : Project}
    (he : e ∈ (runService u w requests sched).trace) (h : Created e p) :
    ∃ r ∈ (runService u w requests sched).world.db.projects.rows, ProjectHolds p r := by
  obtain ⟨name, description, key, ownerId, createdAt, rows, hseen, hp⟩ := h
  obtain ⟨i, hi⟩ := List.mem_iff_getElem?.mp he
  obtain ⟨tid, c, ch, before⟩ := e
  obtain ⟨rfl, hanswer⟩ := seen_execute hseen
  have hrow : ∃ r ∈ (perform (.execute (.insertProject name description key ownerId createdAt
      ["id", "name", "description", "key", "owner_id", "created_at"])) ch
      before).1.db.projects.rows, ProjectHolds p r := by
    rcases insertProject_cases name description key ownerId createdAt ch before with
      ⟨x, heq⟩ | ⟨row, projects, p', _, _, hinsert, hp', heq⟩
    · rw [heq] at hanswer
      exact absurd hanswer (by simp)
    · rw [heq] at hanswer ⊢
      obtain rfl := Except.ok.inj hanswer
      obtain rfl : p' = p := Except.ok.inj ((decodeProject_iff.mpr hp').symm.trans hp)
      refine ⟨row, ?_, hp'⟩
      rw [(projects_insert_ok hinsert).1]
      simp
  rw [runService_world]
  refine Config.stable_end perform runService_chained
    (P := fun w => ∃ r ∈ w.db.projects.rows, ProjectHolds p r) ?_ hi hrow
  rintro e _ ⟨r, hr, hholds⟩
  exact ⟨r, (mem_rows_perform e.call e.choice e.before).2.1 r hr, hholds⟩

/-- More than 100 rows are not listed. -/
theorem length_le_of_listsAll {tr : List ServiceEvent} (hfault : (cs 1).fault = none)
    (hfilled : ∀ r ∈ w.db.projects.rows, Nullability.ProjectFilled r)
    (h : ListsAll u request tr cs w) : w.db.projects.rows.length ≤ 100 := by
  obtain ⟨projects, hprojects, ⟨⟨rows, hperm, hholds⟩, _⟩, _⟩ := h
  have hreturned := @exec_getAllProjects (fun i => cs (i + 1)) _ hfault hfilled
  obtain rfl := Except.ok.inj (hreturned.symm.trans hprojects)
  have hlength := hholds.length_eq
  rw [List.length_map, listed, List.length_take, List.length_insertionSort,
    hperm.length_eq] at hlength
  omega

/-- **When the listing is complete.** In any state of any run: while the table has no more
than 100 rows. -/
theorem projects_listed_iff (hw : ∀ r ∈ w.db.projects.rows, Nullability.ProjectFilled r)
    (hmiss : ((runService u w requests sched).world.cache.get projectsKey
      (cs 0).steady).1 = none)
    (hfault : (cs 1).fault = none) :
    ListsAll u request (runService u w requests sched).trace cs
        (runService u w requests sched).world ↔
      (runService u w requests sched).world.db.projects.rows.length ≤ 100 := by
  have hfilled : ∀ r ∈ (runService u w requests sched).world.db.projects.rows,
      Nullability.ProjectFilled r := run_filled hw
  have hcreated : ∀ e ∈ (runService u w requests sched).trace, ∀ p, Created e p →
      ∃ r ∈ (runService u w requests sched).world.db.projects.rows, ProjectHolds p r :=
    fun e he p => row_of_created he
  generalize (runService u w requests sched).world = w' at hmiss hfilled hcreated ⊢
  constructor
  · exact length_le_of_listsAll hfault hfilled
  · intro hle
    have hlisted : (listed w'.db).Perm w'.db.projects.rows := by
      rw [listed, List.take_of_length_le (by rwa [List.length_insertionSort])]
      exact List.perm_insertionSort _ _
    refine ⟨_, @exec_getAllProjects (fun i => cs (i + 1)) _ hfault hfilled,
      ⟨⟨listed w'.db, hlisted, ?_⟩, ?_⟩,
      exec_getProjects_miss hmiss hfault hfilled, ?_⟩
    · rw [List.forall₂_map_left_iff, List.forall₂_same]
      intro r hr
      exact projectHolds_projectOf (hfilled r (mem_listed hr))
    · exact pairwise_projectOf (fun r hr => hfilled r (mem_listed hr)) (pairwise_listed w'.db)
    · intro e he p hp
      obtain ⟨r, hr, hholds⟩ := hcreated e he p hp
      rw [projectHolds_unique hholds (projectHolds_projectOf (hfilled r hr))]
      exact List.mem_map_of_mem (hlisted.mem_iff.mpr hr)

end Runs

/-! ### Tables -/

/-- The `n`-th project. -/
def projectRow (n : ℕ) : ProjectRow :=
  { id := n, name := "p", description := some "", key := some (toString (n : Int))
    ownerId := some 1, createdAt := some n }

theorem projectRows_nodup (n : ℕ) :
    (((List.range n).map projectRow).map ProjectRow.id).Nodup ∧
      (((List.range n).map projectRow).filterMap ProjectRow.key).Nodup := by
  have hkeys : ((List.range n).map projectRow).filterMap ProjectRow.key =
      (List.range n).map fun m : ℕ => toString (m : Int) := by
    rw [List.filterMap_map]
    exact congrFun List.filterMap_eq_map' _
  rw [hkeys, List.map_map]
  refine ⟨List.Nodup.map ?_ List.nodup_range, List.Nodup.map ?_ List.nodup_range⟩
  · intro a b hab
    exact Int.ofNat.inj hab
  · intro a b hab
    exact Int.ofNat.inj (toString_injective hab)

/-- A table of the first `n` projects. -/
def tableOf (n : ℕ) : World :=
  { Sample.empty with
    db :=
      { Database.empty with
        projects :=
          { rows := (List.range n).map projectRow
            ids_nodup := (projectRows_nodup n).1
            keys_nodup := (projectRows_nodup n).2 } } }

theorem tableOf_filled (n : ℕ) :
    ∀ r ∈ (tableOf n).db.projects.rows, Nullability.ProjectFilled r := by
  intro r hr
  obtain ⟨m, _, rfl⟩ := List.mem_map.mp hr
  exact ⟨rfl, rfl, rfl, rfl⟩

/-- Ann posts two projects at once, the second with a key. -/
def creations (tid : ℕ) : Request :=
  .createProject (Sample.http (if tid = 0 then "" else "K") "" "") 1

/-- They take turns. -/
def created : ServiceConfig :=
  runService Sample.keyOnly (Sample.oneUser Sample.ann) creations
    ((List.range 12).map fun i => (i % 2, { serial := i % 2 + 1, system := i }))

theorem projects_listed_iff_created :
    created.world.db.projects.rows.map ProjectRow.id = [1, 2] ∧
      ListsAll Sample.keyOnly request created.trace (fun _ => Sample.plain) created.world :=
  ⟨rfl, (projects_listed_iff (fun _ hr => absurd hr List.not_mem_nil) rfl rfl).mpr (by decide)⟩

/-- The 101st project is not listed. -/
theorem projects_listed_fails :
    ¬ListsAll Sample.userver request [] (fun _ => Sample.plain) (tableOf 101) := by
  intro h
  exact absurd (length_le_of_listsAll rfl (tableOf_filled 101) h) (by decide)

end MyService.Handlers.Listings
