import MyService.Cache.Isolation
import MyService.Framework.Sequential

/-!
# Transparency of the cache

Requests served one at a time, with the cache and without it. Between two requests
whatever is cached under a list's key renders the list that the database has
(`Coherent`): a writer that changed the list has dropped the key by the time it ends,
on each of its branches. So a hit returns what the skipped read would have given, had
the database answered it.
-/

namespace MyService.Cache.Transparency

open Framework Userver Handlers Handlers.Calls Models Storage Event EventProducer FreshReads
  Isolation

/-! ## The service without its cache -/

/-- Every `Get` misses. -/
def performUncached : (c : Call) → Choice → World → World × c.Answer
  | .cacheGet _, _, w => (w, none)
  | c, ch, w => perform c ch w

/-- The requests served one after another, each with its own choices of the environment. -/
def serveAll (m : (c : Call) → Choice → World → World × c.Answer) (u : Userver)
    (steps : List (Request × (ℕ → Choice))) (w : World) :
    List (Except Exn HttpResponse) × World :=
  Prog.execAll m (steps.map fun s => (serve u s.1, s.2)) w

/-- The worlds agree but for what is cached. -/
def SameButCache (w w' : World) : Prop := ∃ cache, w' = { w with cache := cache }

/-- A call other than `Get` does not show whether there is a cache. -/
theorem perform_sameButCache {c : Call} (hc : ∀ key, c ≠ .cacheGet key) (ch : Choice)
    {w w' : World} (h : SameButCache w w') :
    (performUncached c ch w').2 = (perform c ch w).2 ∧
      SameButCache (perform c ch w).1 (performUncached c ch w').1 := by
  obtain ⟨cache, rfl⟩ := h
  cases c with
  | cacheGet key => exact absurd rfl (hc key)
  | execute s =>
      simp only [performUncached, perform, serverCall]
      split <;> exact ⟨rfl, _, rfl⟩
  | insertOne doc =>
      simp only [performUncached, perform, serverCall]
      split <;> exact ⟨rfl, _, rfl⟩
  | updateOne f update =>
      simp only [performUncached, perform, serverCall]
      split <;> exact ⟨rfl, _, rfl⟩
  | find f =>
      simp only [performUncached, perform, serverCall]
      split <;> exact ⟨rfl, _, rfl⟩
  | findOne f =>
      simp only [performUncached, perform, serverCall]
      split <;> exact ⟨rfl, _, rfl⟩
  | send topic key message =>
      simp only [performUncached, perform, serverCall]
      split <;> exact ⟨rfl, _, rfl⟩
  | _ => exact ⟨rfl, _, rfl⟩

/-! ## Coherence -/

/-- But for the stale lists, whatever is cached under a list's key renders the list as the
database has it. -/
def CoherentBut (u : Userver) (stale : Resource → Prop) (w : World) : Prop :=
  ∀ r, ¬stale r → ∀ value e, w.cache.store r.key = some (value, e) →
    r.render u (current w r) = .ok value

def Coherent (u : Userver) : World → Prop := CoherentBut u fun _ => False

theorem coherent_boot (u : Userver) (db : Postgres.Database) (comments : Collection)
    (topics : List KafkaRecord) : Coherent u (World.boot db comments topics) := by
  intro r _ value e h
  simp [World.boot] at h

/-- A call that neither writes to a list nor caches one. -/
def Harmless : Call → Prop
  | .cacheSet _ _ _ | .insertOne _ | .updateOne _ _ => False
  | .execute (.insertProject _ _ _ _ _ _) => False
  | _ => True

theorem current_comments {w w' : World} {taskId : Int}
    (h : w'.comments.find (taskFilter taskId) = w.comments.find (taskFilter taskId)) :
    current w' (.comments taskId) = current w (.comments taskId) :=
  congrArg Except.ok h

theorem current_congr {w w' : World} (hcomments : w'.comments = w.comments)
    (hprojects : w'.db.projects = w.db.projects) (r : Resource) : current w' r = current w r := by
  cases r with
  | comments taskId => exact current_comments (by rw [hcomments])
  | projects =>
      unfold current
      rw [hprojects]

section Calls

variable {u : Userver} {c : Call} {ch : Choice} {w : World} {stale : Resource → Prop}

theorem current_harmless (h : Harmless c) (r : Resource) :
    current (perform c ch w).1 r = current w r := by
  refine current_congr (perform_comments c ch w ?_ ?_) ?_ r
  · rintro doc rfl
    exact h
  · rintro f update rfl
    exact h
  · by_cases hexec : ∃ s, c = .execute s
    · obtain ⟨s, rfl⟩ := hexec
      rcases execute_cases ch w s with ⟨e, _, heq⟩ | ⟨db, rows, _, hact, heq⟩
      · rw [heq]
      · rw [heq]
        cases s with
        | insertProject _ _ _ _ _ _ => exact absurd h id
        | insertUser _ _ _ _ _ _ _ =>
            simp only [Postgres.Database.execute, except_bind_ok, pure, Except.pure,
              Except.ok.injEq, Prod.mk.injEq] at hact
            obtain ⟨_, _, _, _, rfl, _⟩ := hact
            rfl
        | insertTask _ _ _ _ _ _ _ _ _ _ =>
            simp only [Postgres.Database.execute, except_bind_ok, pure, Except.pure,
              Except.ok.injEq, Prod.mk.injEq] at hact
            obtain ⟨_, _, _, _, rfl, _⟩ := hact
            rfl
        | selectUserByLogin _ _ | selectUsersByLogin _ _ _ =>
            simp only [Postgres.Database.execute, except_bind_ok, pure, Except.pure,
              Except.ok.injEq, Prod.mk.injEq] at hact
            obtain ⟨_, _, rfl, _⟩ := hact
            rfl
        | selectUsersByName _ _ _ _ =>
            simp only [Postgres.Database.execute, except_bind_ok, pure, Except.pure,
              Except.ok.injEq, Prod.mk.injEq] at hact
            obtain ⟨_, _, _, _, rfl, _⟩ := hact
            rfl
        | selectProjectById _ _ | selectProjectsByCreation _ _ =>
            obtain ⟨rfl, _⟩ := Prod.mk.inj (Except.ok.inj hact)
            rfl
    · rw [perform_db c ch w fun s hs => hexec ⟨s, hs⟩]

/-- What is cached after such a call was cached before. -/
theorem store_harmless (h : Harmless c) {key : String} {x : String × Int}
    (hx : (perform c ch w).1.cache.store key = some x) : w.cache.store key = some x := by
  cases c with
  | cacheGet key' =>
      have hget : (w.cache.get key' ch.steady).2.store key = some x := hx
      rcases CacheManager.store_get w.cache key' ch.steady with heq | ⟨v, e, _, _, heq⟩
      · rwa [heq] at hget
      · rw [heq] at hget
        by_cases hkey : key = key'
        · subst hkey
          simp at hget
        · rwa [Function.update_of_ne hkey] at hget
  | cacheInvalidate key' =>
      have hinvalidate : (w.cache.invalidate key').store key = some x := hx
      rw [CacheManager.store_invalidate, TtlMap.Store.apply] at hinvalidate
      by_cases hkey : key = key'
      · subst hkey
        simp at hinvalidate
      · rwa [Function.update_of_ne hkey] at hinvalidate
  | cacheInvalidateByPrefix pfx =>
      have hinvalidate : (w.cache.invalidateByPrefix pfx).store key = some x := hx
      rw [CacheManager.store_invalidateByPrefix, TtlMap.Store.apply] at hinvalidate
      by_cases hkey : CacheManager.hasPrefix pfx key = true
      · simp [hkey] at hinvalidate
      · simpa [hkey] using hinvalidate
  | cacheSet _ _ _ => exact absurd h id
  | _ =>
      rw [perform_cache] at hx
      exact hx

theorem coherentBut_harmless (h : Harmless c) (hw : CoherentBut u stale w) :
    CoherentBut u stale (perform c ch w).1 := by
  intro r hr value e hvalue
  rw [current_harmless h]
  exact hw r hr value e (store_harmless h hvalue)

/-- Dropping the keys of the stale lists restores coherence. -/
theorem coherent_drop (h : Harmless c) (hdrop : ∀ r, stale r → DropsKey r.key c)
    (hw : CoherentBut u stale w) : Coherent u (perform c ch w).1 := by
  intro r _ value e hvalue
  by_cases hr : stale r
  · -- nothing is cached under a dropped key
    have hkey := hdrop r hr
    cases c with
    | cacheInvalidate key =>
        obtain rfl : key = r.key := hkey
        have hinvalidate : (w.cache.invalidate r.key).store r.key = some (value, e) := hvalue
        rw [CacheManager.store_invalidate, TtlMap.Store.apply] at hinvalidate
        simp at hinvalidate
    | cacheInvalidateByPrefix pfx =>
        have hpfx : CacheManager.hasPrefix pfx r.key = true := hkey
        have hinvalidate : (w.cache.invalidateByPrefix pfx).store r.key = some (value, e) :=
          hvalue
        rw [CacheManager.store_invalidateByPrefix, TtlMap.Store.apply] at hinvalidate
        simp [hpfx] at hinvalidate
    | _ => exact absurd hkey id
  · exact coherentBut_harmless h hw r hr value e hvalue

end Calls

/-! ## Readers -/

/-- Read the list, render it and cache what it renders to. -/
def fetch (u : Userver) (r : Resource) : Service HttpResponse :=
  .call r.query fun answer =>
    Prog.ofExcept (r.render u answer) >>= fun response =>
      .call (.cacheSet r.key response r.ttlSeconds) fun _ => .pure { body := response }

/-- What both readers do. -/
def readThrough (u : Userver) (r : Resource) : Service HttpResponse :=
  .call (.cacheGet r.key) fun
    | some cached => .pure { body := cached }
    | none => fetch u r

theorem ofExcept_render_comments (u : Userver) (taskId : Int)
    (answer : Except Exn (List Document)) :
    Prog.ofExcept ((Resource.comments taskId).render u answer) =
      (do
        let docs ← Prog.ofExcept answer
        let comments ← Prog.ofExcept (docs.mapM commentFromBson)
        let result ← Prog.ofExcept (renderComments comments)
        pure (u.toString result) : Service String) := by
  cases answer with
  | error e => rfl
  | ok docs =>
      show Prog.ofExcept (docs.mapM commentFromBson >>= fun comments =>
        renderComments comments >>= fun result => pure (u.toString result)) = _
      simp only [Prog.ofExcept_bind]
      rfl

theorem ofExcept_render_projects (u : Userver) (answer : Except Exn (List Postgres.Row)) :
    Prog.ofExcept (Resource.projects.render u answer) =
      (do
        let rows ← Prog.ofExcept answer
        let projects ← Prog.ofExcept (Postgres.asContainer PostgresStorage.decodeProject rows)
        let result ← Prog.ofExcept (renderProjects projects)
        pure (u.toString result) : Service String) := by
  cases answer with
  | error e => rfl
  | ok rows =>
      show Prog.ofExcept (Postgres.asContainer PostgresStorage.decodeProject rows >>=
        fun projects => renderProjects projects >>= fun result => pure (u.toString result)) = _
      simp only [Prog.ofExcept_bind]
      rfl

theorem getComments_eq {u : Userver} {request : HttpRequest} {taskId : Int}
    (h : stoi (request.getPathArg "taskId") = .ok taskId) :
    getCommentsHandler u request = readThrough u (.comments taskId) := by
  simp only [getCommentsHandler, getCommentsOf, readThrough, MongoStorage.getCommentsByTask, h,
    cacheGet, Prog.liftM_eq, Prog.ofExcept_ok, Prog.pure_bind_eq, Prog.ask_bind_eq]
  refine congrArg (Prog.call _) ?_
  ext found
  cases found with
  | some cached => rfl
  | none =>
      refine congrArg (Prog.call _) ?_
      ext answer
      rw [ofExcept_render_comments]
      simp only [Prog.bind_assoc, Prog.pure_eq, Prog.pure_bind_eq]
      exact Prog.bind_assoc _ _ _

theorem getProjects_eq (u : Userver) (request : HttpRequest) :
    getProjectsHandler u request = readThrough u .projects := by
  simp only [getProjectsHandler, readThrough, PostgresStorage.getAllProjects,
    PostgresStorage.execute, cacheGet, Prog.ask_bind_eq]
  refine congrArg (Prog.call _) ?_
  ext found
  cases found with
  | some cached => rfl
  | none =>
      refine congrArg (Prog.call _) ?_
      ext answer
      rw [ofExcept_render_projects]
      simp only [Prog.bind_assoc, Prog.pure_eq, Prog.pure_bind_eq]
      exact Prog.bind_assoc _ _ _

/-- A reader is a `readThrough` of its list, or its path argument is no number. -/
theorem serve_reader {u : Userver} {request : Request} {r : Resource} (h : Reads request r) :
    serve u request = readThrough u r := by
  cases request with
  | getComments request =>
      obtain ⟨taskId, htask, rfl⟩ := h
      exact getComments_eq htask
  | getProjects request =>
      obtain rfl : r = .projects := h
      exact getProjects_eq u request
  | _ => exact absurd h id

/-- What a fetch renders, if its read succeeds. -/
def fetched (u : Userver) (r : Resource) (ch : Choice) (w : World) : Except Exn String :=
  match ch.fault with
  | some e => .error e
  | none => r.render u (current w r)

/-- A fetch throws and changes nothing, or caches what it renders. -/
theorem exec_fetch (u : Userver) (r : Resource) (cs : ℕ → Choice) (w : World) :
    (fetch u r).exec perform cs w =
      match fetched u r (cs 0) w with
      | .error e => (.error e, w)
      | .ok body => (.ok { body := body },
          { w with cache := w.cache.set r.key body r.ttlSeconds (cs 1).steady }) := by
  obtain ⟨hworld, hanswer⟩ := query_cases u r (cs 0) w
  have hrender : r.render u (perform r.query (cs 0) w).2 = fetched u r (cs 0) w := by
    unfold fetched
    rcases hanswer with ⟨e, hfault, herror⟩ | ⟨hfault, hok⟩
    · rw [hfault, herror]
    · rw [hfault, hok]
  rw [fetch, Prog.exec_call, hworld, hrender]
  cases fetched u r (cs 0) w <;> rfl

/-- There is no `Get` in a fetch. -/
theorem exec_fetch_uncached (u : Userver) (r : Resource) (cs : ℕ → Choice) (w : World) :
    (fetch u r).exec performUncached cs w = (fetch u r).exec perform cs w := by
  have hquery : ∀ ch w, performUncached r.query ch w = perform r.query ch w := by
    intro ch w
    cases r <;> rfl
  rw [fetch, Prog.exec_call, Prog.exec_call, hquery]
  cases r.render u (perform r.query (cs 0) w).2 <;> rfl

/-- What was just rendered may be cached. -/
theorem coherent_set {u : Userver} {w : World} {r : Resource} {body : String}
    (hw : Coherent u w) (hbody : r.render u (current w r) = .ok body) (now : Int) :
    Coherent u { w with cache := w.cache.set r.key body r.ttlSeconds now } := by
  intro r' _ value e hvalue
  have hset : (w.cache.set r.key body r.ttlSeconds now).store r'.key = some (value, e) := hvalue
  have hsame : current { w with cache := w.cache.set r.key body r.ttlSeconds now } r' =
      current w r' := current_congr rfl rfl r'
  rw [CacheManager.store_set, TtlMap.Store.apply] at hset
  rw [hsame]
  by_cases hkey : r'.key = r.key
  · obtain rfl := Resource.key_injective hkey
    rw [Function.update_self] at hset
    obtain ⟨rfl, _⟩ := Prod.mk.inj (Option.some.inj hset)
    exact hbody
  · rw [Function.update_of_ne hkey] at hset
    exact hw r' id value e hset

/-- The reader returns what it found cached while its read in the run without the cache
fails with `e`; the body renders the list that the database has. -/
def HitOverFailure (u : Userver) (r : Resource) (w : World) (cs : ℕ → Choice)
    (cached uncached : Except Exn HttpResponse) : Prop :=
  ∃ body e, (w.cache.get r.key (cs 0).steady).1 = some body ∧ cached = .ok { body := body } ∧
    r.render u (current w r) = .ok body ∧ (cs 1).fault = some e ∧ uncached = .error e

theorem exec_hit {m : (c : Call) → Choice → World → World × c.Answer} {u : Userver}
    {r : Resource} {cs : ℕ → Choice} {w w₁ : World} {body : String}
    (h : m (.cacheGet r.key) (cs 0) w = (w₁, some body)) :
    (readThrough u r).exec m cs w = (.ok { body := body }, w₁) := by
  rw [readThrough, Prog.exec_call, h]
  rfl

theorem exec_miss {m : (c : Call) → Choice → World → World × c.Answer} {u : Userver}
    {r : Resource} {cs : ℕ → Choice} {w w₁ : World}
    (h : m (.cacheGet r.key) (cs 0) w = (w₁, none)) :
    (readThrough u r).exec m cs w = (fetch u r).exec m (fun i => cs (i + 1)) w₁ := by
  rw [readThrough, Prog.exec_call, h]

/-- A fetch does not depend on what is cached. -/
theorem fetched_cached (u : Userver) (r : Resource) (ch : Choice) (w : World)
    (cache : CacheManager) : fetched u r ch { w with cache := cache } = fetched u r ch w := by
  unfold fetched
  rw [show current { w with cache := cache } r = current w r from current_congr rfl rfl r]

theorem fetched_ok {u : Userver} {r : Resource} {ch : Choice} {w : World} {body : String}
    (h : fetched u r ch w = .ok body) : r.render u (current w r) = .ok body := by
  unfold fetched at h
  cases hfault : ch.fault with
  | none => rwa [hfault] at h
  | some e =>
      rw [hfault] at h
      exact absurd h (by simp)

/-- A reader in both runs. -/
theorem exec_readThrough {u : Userver} {w w' : World} (hw : Coherent u w)
    (hsame : SameButCache w w') (r : Resource) (cs : ℕ → Choice) :
    (Coherent u ((readThrough u r).exec perform cs w).2 ∧
      SameButCache ((readThrough u r).exec perform cs w).2
        ((readThrough u r).exec performUncached cs w').2) ∧
    (((readThrough u r).exec performUncached cs w').1 =
        ((readThrough u r).exec perform cs w).1 ∨
      HitOverFailure u r w cs ((readThrough u r).exec perform cs w).1
        ((readThrough u r).exec performUncached cs w').1) := by
  obtain ⟨cache, rfl⟩ := hsame
  have hexec : ∀ c, (fetch u r).exec perform (fun i => cs (i + 1)) { w with cache := c } =
      match fetched u r (cs 1) w with
      | .error e => (.error e, { w with cache := c })
      | .ok body => (.ok { body := body },
          { w with cache := c.set r.key body r.ttlSeconds (cs 2).steady }) := by
    intro c
    rw [exec_fetch, fetched_cached]
  have hget : Coherent u { w with cache := (w.cache.get r.key (cs 0).steady).2 } :=
    coherentBut_harmless (c := .cacheGet r.key) trivial hw
  rw [exec_miss (m := performUncached) rfl, exec_fetch_uncached, hexec]
  cases hhit : (w.cache.get r.key (cs 0).steady).1 with
  | some body =>
      have hcall : perform (.cacheGet r.key) (cs 0) w =
          ({ w with cache := (w.cache.get r.key (cs 0).steady).2 }, some body) := by
        rw [← hhit]
        rfl
      -- what is cached renders the list that the run without the cache reads
      obtain ⟨e, hstored, _⟩ := (CacheManager.get_eq_some _ _ _ _).mp hhit
      have hbody := hw r id body e hstored
      rw [exec_hit hcall]
      unfold fetched
      rw [hbody]
      cases hfault : (cs 1).fault with
      | none => exact ⟨⟨hget, _, rfl⟩, Or.inl rfl⟩
      | some x => exact ⟨⟨hget, cache, rfl⟩, Or.inr ⟨body, x, hhit, rfl, hbody, hfault, rfl⟩⟩
  | none =>
      have hcall : perform (.cacheGet r.key) (cs 0) w =
          ({ w with cache := (w.cache.get r.key (cs 0).steady).2 }, none) := by
        rw [← hhit]
        rfl
      rw [exec_miss hcall, hexec]
      cases hfetch : fetched u r (cs 1) w with
      | error e => exact ⟨⟨hget, cache, rfl⟩, Or.inl rfl⟩
      | ok body =>
          have hrender := fetched_ok
            ((fetched_cached u r (cs 1) w (w.cache.get r.key (cs 0).steady).2).trans hfetch)
          exact ⟨⟨coherent_set hget hrender _, _, rfl⟩, Or.inl rfl⟩

/-! ## The other requests -/

/-- The calls of a request that reads no list: no `Get`, and nothing that touches a list
unless it writes to one. -/
def MayCall (request : Request) (c : Call) : Prop :=
  (∀ key, c ≠ .cacheGet key) ∧ (IsWriter request ∨ Harmless c)

abbrev StaysWithin (request : Request) : Service HttpResponse → Prop :=
  Prog.Obeys (fun _ c => MayCall request c) (fun _ _ => True) (fun _ _ => True) []

/-- The requests that read a list. -/
def IsReader : Request → Prop
  | .getProjects _ | .getComments _ => True
  | _ => False

theorem mayCall_of_makes {u : Userver} {request : Request} {h : Prog.History Call Call.Answer}
    {c : Call} (hreader : ¬IsReader request) (hmakes : Makes u request h c) :
    MayCall request c := by
  cases hmakes with
  | projectsGet | projectsSelect | projectsSet | commentsGet | commentsFind | commentsSet =>
      exact absurd trivial hreader
  | projectInsert | projectDrop | commentInsert | commentDrop | replyUpdate | replyDrop
    | replyDropAll => exact ⟨by simp, Or.inl trivial⟩
  | _ => exact ⟨by simp, Or.inr trivial⟩

theorem staysWithin_serve (u : Userver) {request : Request} (hreader : ¬IsReader request) :
    StaysWithin request (serve u request) :=
  (conducts_serve u request).mono (fun _ _ hmakes => mayCall_of_makes hreader hmakes)
    (fun _ _ _ => trivial) fun _ _ _ => trivial

/-! ## Writers

A writer leaves the lists coherent, whether it ends well or not. -/

theorem harmless_of_publish {topic key eventType : String} {payload : Json} {c : Call}
    (h : IsPublishCall topic key eventType payload c) : Harmless c := by
  rcases h with rfl | rfl | ⟨message, _, rfl⟩ <;> trivial

/-- Only the list of its own task has a new comment. -/
theorem coherentBut_insertOne {u : Userver} {w : World} {comments : Collection} {ch : Choice}
    {comment : Comment} (hw : Coherent u w)
    (hinsert : w.comments.insertOne ch.oid (commentToBson comment) = .ok comments) :
    CoherentBut u (· = .comments comment.taskId) { w with comments := comments } := by
  have hdocs : comments.docs = w.comments.docs ++
      [Collection.stored (Collection.documentId ch.oid (commentToBson comment))
        (commentToBson comment)] := by
    rcases w.comments.insertOne_cases ch.oid (commentToBson comment) with
      ⟨_, c, hok, hdocs⟩ | ⟨_, herror⟩
    · rw [hinsert] at hok
      rwa [Except.ok.inj hok]
    · rw [hinsert] at herror
      exact absurd herror (by simp)
  intro r hr value e hvalue
  have hcurrent : current { w with comments := comments } r = current w r := by
    cases r with
    | projects => exact current_congr rfl rfl .projects
    | comments taskId =>
        have hne : comment.taskId ≠ taskId := fun h => hr (by rw [h])
        have hmatch : (taskFilter taskId).matches
            (Collection.stored (Collection.documentId ch.oid (commentToBson comment))
              (commentToBson comment)) = false := by
          simp [Filter.matches, Collection.stored, commentToBson,
            Document.get?, Bson.matchedBy, Bson.equals, Bson.number?, hne.symm]
        refine current_comments ?_
        unfold Collection.find
        rw [hdocs, List.filter_append, List.filter_singleton, hmatch]
        simp
  rw [hcurrent]
  exact hw r id value e hvalue

/-- The lists that a reply may have changed, by what its lookup gave. -/
def Affected (found : Except Exn (Option Document)) (r : Resource) : Prop :=
  ∃ taskId, r = .comments taskId ∧
    (0 < MongoStorage.taskIdOf found → taskId = MongoStorage.taskIdOf found)

/-- The lookup answered with the comment, or failed. -/
def LookedUp (oid : Oid) (found : Except Exn (Option Document)) (w : World) : Prop :=
  found = .ok (w.comments.findOne (MongoStorage.idFilter oid)) ∨ ∃ e, found = .error e

/-- A reply that changed the comment that its lookup gave changed no other list. -/
theorem not_matches_of_lookup {w : World} {oid : Oid} {found : Except Exn (Option Document)}
    {d d' : Document} {reply : Reply} {taskId : Int} (hfound : LookedUp oid found w)
    (hpos : 0 < MongoStorage.taskIdOf found) (hne : taskId ≠ MongoStorage.taskIdOf found)
    (hd : d ∈ w.comments.docs) (hid : d.id = .oid oid)
    (hext : MongoStorage.Extends reply d d') :
    (taskFilter taskId).matches d = false ∧
      (taskFilter taskId).matches d' = false := by
  have htask : Bson.asInt (d.get? "task_id") = .ok (MongoStorage.taskIdOf found) := by
    rcases hfound with rfl | ⟨e, rfl⟩
    · cases hdoc : w.comments.findOne (MongoStorage.idFilter oid) with
      | none =>
          rw [hdoc] at hpos
          exact absurd hpos (by simp [MongoStorage.taskIdOf])
      | some doc =>
          have hmatch := List.find?_some hdoc
          rw [MongoStorage.idFilter, Filter.matches_oid, Document.hasId_iff] at hmatch
          obtain rfl : doc = d :=
            MongoStorage.eq_of_id (List.mem_of_find?_eq_some hdoc) hd (hmatch.trans hid.symm)
          rw [hdoc] at hpos
          exact MongoStorage.asInt_of_taskIdOf_pos hpos
    · exact absurd hpos (by simp [MongoStorage.taskIdOf])
  have hsame : d'.get? "task_id" = d.get? "task_id" :=
    hext.other "task_id" (by decide) (by decide)
  have hno : ∀ x : Document, x.get? "task_id" = d.get? "task_id" →
      (taskFilter taskId).matches x = false := by
    intro x hx
    by_contra hmatch
    rw [Bool.not_eq_false] at hmatch
    rw [← hx] at htask
    exact hne (Bson.asInt_of_matchedBy hmatch htask).symm
  exact ⟨hno d rfl, hno d' hsame⟩

theorem coherentBut_updateOne {u : Userver} {w : World} {oid : Oid} {reply : Reply}
    {now : Int} {found : Except Exn (Option Document)} {comments : Collection} {n : ℕ}
    (hw : Coherent u w) (hfound : LookedUp oid found w)
    (hupdate : w.comments.updateOne (MongoStorage.idFilter oid)
      (MongoStorage.replyUpdate reply now) = .ok (comments, n)) :
    CoherentBut u (Affected found) { w with comments := comments } := by
  intro r hr value e hvalue
  have hcurrent : current { w with comments := comments } r = current w r := by
    cases r with
    | projects => exact current_congr rfl rfl .projects
    | comments taskId =>
        obtain ⟨hpos, hne⟩ : 0 < MongoStorage.taskIdOf found ∧
            taskId ≠ MongoStorage.taskIdOf found := by
          by_contra hno
          exact hr ⟨taskId, rfl, fun hpos => by
            by_contra hne
            exact hno ⟨hpos, hne⟩⟩
        rcases MongoStorage.updateReply_cases w.comments oid reply now with
          ⟨_, hsame⟩ | ⟨pre, d, post, hsplit, hid, hres⟩
        · rw [hsame] at hupdate
          obtain ⟨rfl, _⟩ := Prod.mk.inj (Except.ok.inj hupdate)
          rfl
        · rcases hres with ⟨d', c', hext, hdocs, hok⟩ | ⟨_, x, herror⟩
          · rw [hok] at hupdate
            obtain ⟨rfl, _⟩ := Prod.mk.inj (Except.ok.inj hupdate)
            obtain ⟨hd, hd'⟩ := not_matches_of_lookup hfound hpos hne
              (by rw [hsplit]; simp) hid hext.toExtends
            refine current_comments ?_
            unfold Collection.find
            rw [hdocs, hsplit]
            simp [hd, hd']
          · rw [herror] at hupdate
            exact absurd hupdate (by simp)
  rw [hcurrent]
  exact hw r id value e hvalue

/-- After a write: a failed one leaves the lists coherent, one that was made leaves the
affected ones stale. -/
def AfterWrite {α : Type} (u : Userver) (affected : Resource → Prop) :
    Except Exc α → World → Prop
  | .error _ => Coherent u
  | .ok _ => CoherentBut u affected

/-- **Invalidation rule.** Dropping the lists that a write affected restores coherence. -/
theorem triple_drop {u : Userver} {α : Type} {c : Call} {k : c.Answer → Service α}
    {affected : Resource → Prop} {Q : Except Exn α → World → Prop} (h : Harmless c)
    (hdrop : ∀ r, affected r → DropsKey r.key c)
    (hrest : ∀ a, Prog.Triple perform (Coherent u) (k a) Q) :
    Prog.Triple perform (CoherentBut u affected) (.call c k) Q :=
  Prog.triple_call (fun _ => Coherent u) (fun _ _ hw => coherent_drop h hdrop hw) hrest

section Handlers

variable (u : Userver) (request : HttpRequest) (userId : Int)

theorem triple_createProject :
    Prog.Triple perform (Coherent u) (createProjectHandler u request userId)
      fun _ => Coherent u := by
  simp [createProjectHandler, PostgresStorage.createProject, PostgresStorage.execute,
    publishProjectCreated, valueOf, Prog.bind_assoc, Prog.ite_bind]
  intro json _ _ _ _ name _ _ _ description _ _ _ key _
  refine Prog.triple_call_keep (fun ch w => coherentBut_harmless trivial) ?_
  intro now
  refine Prog.triple_call (fun answer w =>
    (∀ rows, answer = .ok rows → ∃ row p, rows = [Postgres.pick
      ["id", "name", "description", "key", "owner_id", "created_at"] row.columns] ∧
        PostgresStorage.ProjectHolds p row) ∧ AfterWrite u (· = .projects) answer w) ?_ ?_
  · intro ch w hw
    rcases PostgresStorage.insertProject_cases name description key userId now ch w with
      ⟨e, heq⟩ | ⟨row, projects, p, _, _, _, hp, heq⟩
    · rw [heq]
      exact ⟨fun rows hrows => absurd hrows (by simp), hw⟩
    · rw [heq]
      refine ⟨?_, ?_⟩
      · rintro _ ⟨⟩
        exact ⟨row, p, rfl, hp⟩
      · intro r hr value e hvalue
        cases r with
        | projects => exact absurd rfl hr
        | comments taskId => exact hw (.comments taskId) id value e hvalue
  · rintro (e | rows)
    · exact fun w hw => hw.2
    · refine Prog.triple_pre ?_
      intro hrows
      obtain ⟨row, p, rfl, hp⟩ := hrows rows rfl
      -- the row decodes, so the handler gets to the invalidation
      have hdecode : Postgres.asSingleRow PostgresStorage.decodeProject [Postgres.pick
          ["id", "name", "description", "key", "owner_id", "created_at"] row.columns] = .ok p :=
        PostgresStorage.decodeProject_iff.mpr hp
      simp [hdecode]
      refine triple_drop trivial (fun r hr => by rw [hr]; rfl) ?_
      intro _
      refine triple_publish_bind
        (fun c ch w hc => coherentBut_harmless (harmless_of_publish hc)) ?_
      exact fun w hw => hw

theorem triple_addComment :
    Prog.Triple perform (Coherent u) (addCommentHandler u request userId)
      fun _ => Coherent u := by
  simp [addCommentHandler, addCommentTo, MongoStorage.insertComment, publishCommentAdded]
  intro taskId _ json _
  refine Prog.triple_call_keep (fun ch w => coherentBut_harmless trivial) ?_
  intro draws
  simp
  intro _ _ author _ _ _ text _
  refine Prog.triple_call_keep (fun ch w => coherentBut_harmless trivial) ?_
  intro now
  refine Prog.triple_call (AfterWrite u (· = .comments taskId)) ?_ ?_
  · intro ch w hw
    rcases insertOne_cases ch w _ with ⟨e, _, heq⟩ | ⟨comments, _, hinsert, heq⟩
    · rw [heq]
      exact hw
    · rw [heq]
      exact coherentBut_insertOne hw hinsert
  · rintro (e | _)
    · exact fun w hw => hw
    · refine triple_publish_bind
        (fun c ch w hc => coherentBut_harmless (harmless_of_publish hc)) ?_
      refine triple_drop trivial (fun r hr => by rw [hr]; rfl) ?_
      exact fun _ w hw => hw

theorem triple_addReply :
    Prog.Triple perform (Coherent u) (addReplyHandler u request) fun _ => Coherent u := by
  cases hoid : Oid.ofString (request.getPathArg "commentId") with
  | error e =>
      simp [addReplyHandler, MongoStorage.getTaskIdByCommentId_eq, MongoStorage.addReply, hoid]
      intro json _ _ _ author _ _ _ text _
      refine Prog.triple_call_keep (fun ch w => coherentBut_harmless trivial) ?_
      exact fun _ w hw => hw
  | ok oid =>
      simp [addReplyHandler, MongoStorage.getTaskIdByCommentId_eq,
        MongoStorage.addReply, publishCommentAdded, Prog.bind_assoc, hoid]
      intro json _ _ _ author _ _ _ text _
      refine Prog.triple_call_keep (fun ch w => coherentBut_harmless trivial) ?_
      intro now
      refine Prog.triple_call (fun found w => LookedUp oid found w ∧ Coherent u w) ?_ ?_
      · intro ch w hw
        rcases findOne_cases ch w (MongoStorage.idFilter oid) with ⟨e, _, heq⟩ | ⟨_, heq⟩
        · rw [heq]
          exact ⟨Or.inr ⟨e, rfl⟩, hw⟩
        · rw [heq]
          exact ⟨Or.inl rfl, hw⟩
      · intro found
        refine Prog.triple_call_keep (fun ch w hw => hw) ?_
        intro now'
        refine Prog.triple_call (AfterWrite u (Affected found)) ?_ ?_
        · rintro ch w ⟨hfound, hw⟩
          rcases updateOne_cases ch w _ _ with ⟨e, _, heq⟩ | ⟨comments, n, _, hupdate, heq⟩
          · rw [heq]
            exact hw
          · rw [heq]
            exact coherentBut_updateOne hw hfound hupdate
        · rintro (e | n)
          · exact fun w hw => hw
          · refine triple_publish_bind
              (fun c ch w hc => coherentBut_harmless (harmless_of_publish hc)) ?_
            rw [Prog.triple_ite]
            constructor
            · -- the one list that the lookup gave
              intro hpos
              refine triple_drop trivial ?_ fun _ w hw => hw
              rintro r ⟨taskId, rfl, htask⟩
              rw [htask hpos]
              rfl
            · -- every list of comments
              intro _
              refine triple_drop trivial ?_ fun _ w hw => hw
              rintro r ⟨taskId, rfl, _⟩
              exact hasPrefix_commentsKey taskId

end Handlers

/-! ## Both runs -/

/-- A request that neither reads nor writes a list leaves them coherent. -/
theorem triple_of_stays (u : Userver) {request : Request} (hreader : ¬IsReader request)
    (hwriter : ¬IsWriter request) :
    Prog.Triple perform (Coherent u) (serve u request) fun _ => Coherent u := by
  have hstep : ∀ c ch w, MayCall request c → Coherent u w → Coherent u (perform c ch w).1 :=
    fun c ch w hc hw => coherentBut_harmless (hc.2.resolve_left hwriter) hw
  exact (Prog.triple_invariant (B := fun _ => True) hstep (staysWithin_serve u hreader)).mono
    (fun _ hw => hw) fun _ _ hq => hq.2

/-- So does every request that reads none. -/
theorem triple_serve (u : Userver) {request : Request} (hreader : ¬IsReader request) :
    Prog.Triple perform (Coherent u) (serve u request) fun _ => Coherent u := by
  cases request with
  | createProject request userId => exact triple_createProject u request userId
  | addComment request userId => exact triple_addComment u request userId
  | addReply request => exact triple_addReply u request
  | getProjects _ | getComments _ => exact absurd trivial hreader
  | _ => exact triple_of_stays u id id

section BothRuns

variable {u : Userver} {w w' : World}

/-- What one request leaves and answers in the two runs. -/
def SameOutcome (u : Userver) (request : Request) (cs : ℕ → Choice) (w w' : World) : Prop :=
  (Coherent u ((serve u request).exec perform cs w).2 ∧
    SameButCache ((serve u request).exec perform cs w).2
      ((serve u request).exec performUncached cs w').2) ∧
  (((serve u request).exec performUncached cs w').1 =
      ((serve u request).exec perform cs w).1 ∨
    ∃ r, Reads request r ∧
      HitOverFailure u r w cs ((serve u request).exec perform cs w).1
        ((serve u request).exec performUncached cs w').1)

/-- A request that reads no list runs the same way in both runs. -/
theorem sameOutcome_of_stays {request : Request} (hreader : ¬IsReader request)
    (hw : Coherent u w) (hsame : SameButCache w w') (cs : ℕ → Choice) :
    SameOutcome u request cs w w' := by
  have hagree : ((serve u request).exec performUncached cs w').1 =
        ((serve u request).exec perform cs w).1 ∧
      SameButCache ((serve u request).exec perform cs w).2
        ((serve u request).exec performUncached cs w').2 :=
    Prog.exec_agree (A := MayCall request)
      (fun c ch w w' hc h => perform_sameButCache hc.1 ch h) (staysWithin_serve u hreader) cs w w'
      hsame
  exact ⟨⟨(triple_serve u hreader).exec cs hw, hagree.2⟩, Or.inl hagree.1⟩

theorem sameOutcome_of_reads {request : Request} {r : Resource} (hreads : Reads request r)
    (hw : Coherent u w) (hsame : SameButCache w w') (cs : ℕ → Choice) :
    SameOutcome u request cs w w' := by
  unfold SameOutcome
  rw [serve_reader hreads]
  obtain ⟨hinv, hout⟩ := exec_readThrough hw hsame r cs
  exact ⟨hinv, hout.imp_right fun h => ⟨r, hreads, h⟩⟩

theorem sameOutcome (hw : Coherent u w) (hsame : SameButCache w w') (request : Request)
    (cs : ℕ → Choice) : SameOutcome u request cs w w' := by
  cases request with
  | getProjects request =>
      have hreads : Reads (.getProjects request) .projects := rfl
      exact sameOutcome_of_reads hreads hw hsame cs
  | getComments request =>
      cases htask : stoi (request.getPathArg "taskId") with
      | ok taskId =>
          have hreads : Reads (.getComments request) (.comments taskId) := ⟨taskId, htask, rfl⟩
          exact sameOutcome_of_reads hreads hw hsame cs
      | error e =>
          -- the path argument is read before the cache
          have hthrow : serve u (.getComments request) = .throw e := by
            simp [serve, getCommentsHandler, htask]
          unfold SameOutcome
          rw [hthrow]
          exact ⟨⟨hw, hsame⟩, Or.inl rfl⟩
  | _ => exact sameOutcome_of_stays id hw hsame cs

/-- The two runs before each request. -/
theorem serveAll_related (db : Postgres.Database) (comments : Collection)
    (topics : List KafkaRecord) (steps : List (Request × (ℕ → Choice))) :
    Coherent u (serveAll perform u steps (World.boot db comments topics)).2 ∧
      SameButCache (serveAll perform u steps (World.boot db comments topics)).2
        (serveAll performUncached u steps (World.boot db comments topics)).2 := by
  refine Prog.execAll_related (fun w w' => Coherent u w ∧ SameButCache w w') ?_
    ⟨coherent_boot u db comments topics, _, rfl⟩
  rintro job hjob w w' ⟨hw, hsame⟩
  obtain ⟨step, _, rfl⟩ := List.mem_map.mp hjob
  exact (sameOutcome hw hsame step.1 step.2).1

end BothRuns

/-- **Transparency.** Served one at a time, every request ends the same way without the
cache, unless a reader finds its list cached and the read that it would have made instead
fails; then what it returns renders the list that the database has. -/
theorem cache_transparent (u : Userver) (db : Postgres.Database) (comments : Collection)
    (topics : List KafkaRecord) (steps : List (Request × (ℕ → Choice))) (i : ℕ) :
    (serveAll performUncached u steps (World.boot db comments topics)).1[i]? =
        (serveAll perform u steps (World.boot db comments topics)).1[i]? ∨
      ∃ request cs r cached uncached, steps[i]? = some (request, cs) ∧ Reads request r ∧
        (serveAll perform u steps (World.boot db comments topics)).1[i]? = some cached ∧
        (serveAll performUncached u steps (World.boot db comments topics)).1[i]? =
          some uncached ∧
        HitOverFailure u r
          (serveAll perform u (steps.take i) (World.boot db comments topics)).2 cs cached
          uncached := by
  unfold serveAll
  rw [Prog.execAll_getElem?, Prog.execAll_getElem?, ← List.map_take, List.getElem?_map]
  cases hstep : steps[i]? with
  | none => exact Or.inl rfl
  | some step =>
      obtain ⟨hw, hsame⟩ := serveAll_related (u := u) db comments topics (steps.take i)
      rcases (sameOutcome hw hsame step.1 step.2).2 with heq | ⟨r, hreads, hhit⟩
      · exact Or.inl (congrArg some heq)
      · exact Or.inr ⟨step.1, step.2, r, _, _, rfl, hreads, rfl, rfl, hhit⟩

/-! ## A hit over a failed read -/

/-- The outcome of every reader is the same without the cache. -/
def Transparent (u : Userver) (w : World) (steps : List (Request × (ℕ → Choice))) : Prop :=
  ∀ (i : ℕ) (request : Request) (cs : ℕ → Choice) (r : Resource),
    steps[i]? = some (request, cs) → Reads request r →
      (serveAll performUncached u steps w).1[i]? = (serveAll perform u steps w).1[i]?

/-- The comments of task 7 twice; the second time the collection cannot be read. -/
def readTwice : List (Request × (ℕ → Choice)) :=
  [(.getComments (Sample.http "" "taskId" "7"), fun _ => Sample.plain),
   (.getComments (Sample.http "" "taskId" "7"), fun i =>
      if i = 1 then { fault := some (.unavailable "mongo") } else Sample.plain)]

theorem transparent_fails_on_read :
    (∀ step ∈ readTwice, ∀ i, (step.2 i).steady = 0 ∧ (step.2 i).system = 0) ∧
      ¬Transparent Sample.userver Sample.empty readTwice := by
  constructor
  · simp only [readTwice, List.forall_mem_cons, List.not_mem_nil, false_implies, implies_true,
      and_true]
    refine ⟨fun i => ⟨rfl, rfl⟩, ?_⟩
    intro i
    by_cases hi : i = 1
    · rw [if_pos hi]
      exact ⟨rfl, rfl⟩
    · rw [if_neg hi]
      exact ⟨rfl, rfl⟩
  · intro h
    have hcached : (serveAll perform Sample.userver readTwice Sample.empty).1[1]? =
        some (.ok { body := "null" }) := rfl
    have huncached : (serveAll performUncached Sample.userver readTwice Sample.empty).1[1]? =
        some (.error (.unavailable "mongo")) := rfl
    have hreads : Reads (.getComments (Sample.http "" "taskId" "7")) (.comments 7) :=
      ⟨7, by decide, rfl⟩
    have hsame := h 1 _ _ (.comments 7) rfl hreads
    rw [hcached, huncached] at hsame
    exact absurd hsame (by simp)

end MyService.Cache.Transparency
