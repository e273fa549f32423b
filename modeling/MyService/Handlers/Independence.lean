import MyService.Cache.FreshReads
import MyService.Framework.Erasure
import MyService.Framework.Lockstep
import MyService.Handlers.Footprint
import Mathlib.Order.CompletePartialOrder

/-!
# Requests that do not interfere

The world is made of parts: the tables, the comments, one cache entry a key, one window an
address, one topic a name. `Request.reads` and `Request.writes` say which parts a request
depends on and which it may change. Requests that write nothing the others read can be left
out of any run: the others make the same calls, get the same answers and end with the same
responses. So the comments and the rest of the service run side by side as two services
would, and what the clients at one address do at `/login` shows at no other address.
-/

namespace MyService.Handlers.Independence

open Framework Userver Userver.Postgres Cache RateLimit Footprint

inductive Table where
  | users
  | projects
  | tasks
deriving DecidableEq

inductive Part where
  | table (t : Table)
  | comments
  | cached (key : String)
  | window (address : String)
  | topic (name : String)

/-- Two databases have the table alike. -/
def SameIn : Table → Database → Database → Prop
  | .users, db, db' => db.users = db'.users ∧ db.lower = db'.lower
  | .projects, db, db' => db.projects = db'.projects
  | .tasks, db, db' => db.tasks = db'.tasks

theorem database_ext {db db' : Database} (h : ∀ t, SameIn t db db') : db = db' := by
  obtain ⟨users, projects, tasks, lower⟩ := db
  obtain ⟨users', projects', tasks', lower'⟩ := db'
  obtain ⟨rfl, rfl⟩ := h .users
  obtain rfl : projects = projects' := h .projects
  obtain rfl : tasks = tasks' := h .tasks
  rfl

/-- Two limiters have the window of the address alike, and the same settings. -/
def SameWindow (address : String) (l l' : SlidingWindowLimiter) : Prop :=
  l.maxRequests = l'.maxRequests ∧ l.windowSize = l'.windowSize ∧
    l.windows.lookup address = l'.windows.lookup address

/-- Two worlds have the part alike. -/
def SameAt : Part → World → World → Prop
  | .table t, w, w' => SameIn t w.db w'.db
  | .comments, w, w' => w.comments = w'.comments
  | .cached key, w, w' => w.cache.store key = w'.cache.store key
  | .window address, w, w' => SameWindow address w.limiter w'.limiter
  | .topic name, w, w' =>
      w.topics.filter (fun r => r.topic = name) = w'.topics.filter fun r => r.topic = name

/-- The tables a statement reads, its constraints included. -/
def tablesRead : Statement → Set Table
  | .insertUser _ _ _ _ _ _ _ => {.users}
  | .insertProject _ _ _ _ _ _ => {.users, .projects}
  | .insertTask _ _ _ _ _ _ _ _ _ _ => {.users, .projects, .tasks}
  | .selectUserByLogin _ _ => {.users}
  | .selectUsersByLogin _ _ _ => {.users}
  | .selectUsersByName _ _ _ _ => {.users}
  | .selectProjectById _ _ => {.projects}
  | .selectProjectsByCreation _ _ => {.projects}

def tablesWritten : Statement → Set Table
  | .insertUser _ _ _ _ _ _ _ => {.users}
  | .insertProject _ _ _ _ _ _ => {.projects}
  | .insertTask _ _ _ _ _ _ _ _ _ _ => {.tasks}
  | _ => ∅

/-- The parts that the answer of a call depends on. -/
def reads : Call → Set Part
  | .cacheGet key => {.cached key}
  | .tryAcquire key => {.window key}
  | .getInfo key => {.window key}
  | .execute s => Part.table '' tablesRead s
  | .insertOne _ => {.comments}
  | .find _ => {.comments}
  | .findOne _ => {.comments}
  | .updateOne _ _ => {.comments}
  | _ => ∅

/-- The parts that a call may change; a `Get` evicts. -/
def writes : Call → Set Part
  | .cacheGet key => {.cached key}
  | .cacheSet key _ _ => {.cached key}
  | .cacheInvalidate key => {.cached key}
  | .cacheInvalidateByPrefix pfx => {p | ∃ key, CacheManager.hasPrefix pfx key ∧ p = .cached key}
  | .tryAcquire key => {.window key}
  | .getInfo key => {.window key}
  | .execute s => Part.table '' tablesWritten s
  | .insertOne _ => {.comments}
  | .updateOne _ _ => {.comments}
  | .send topic _ _ => {.topic topic}
  | _ => ∅

/-! ## Statements -/

theorem execute_related {db db' : Database} {serial : Int} {s : Statement}
    (h : ∀ t ∈ tablesRead s, SameIn t db db') :
    ExceptRel (fun x y : Database × List Row => x.2 = y.2 ∧
        ∀ t, SameIn t db db' → SameIn t x.1 y.1)
      (db.execute serial s) (db'.execute serial s) := by
  obtain ⟨users, projects, tasks, lower⟩ := db
  obtain ⟨users', projects', tasks', lower'⟩ := db'
  cases s with
  | insertUser login passwordHash firstName lastName email createdAt returning =>
      obtain ⟨rfl, rfl⟩ := h .users (by simp [tablesRead])
      refine (ExceptRel.refl _).bind ?_
      rintro row _ rfl
      refine (ExceptRel.refl _).bind ?_
      rintro users₁ _ rfl
      refine .ok ⟨rfl, ?_⟩
      rintro (_ | _ | _) hsame
      · exact ⟨rfl, rfl⟩
      · exact hsame
      · exact hsame
  | insertProject name description key ownerId createdAt returning =>
      obtain ⟨rfl, rfl⟩ := h .users (by simp [tablesRead])
      obtain rfl : projects = projects' := h .projects (by simp [tablesRead])
      refine (ExceptRel.refl _).bind ?_
      rintro row _ rfl
      refine (ExceptRel.refl _).bind ?_
      rintro projects₁ _ rfl
      refine .ok ⟨rfl, ?_⟩
      rintro (_ | _ | _) hsame
      · exact ⟨rfl, rfl⟩
      · rfl
      · exact hsame
  | insertTask title description status projectId creatorId assigneeId priority createdAt
      updatedAt returning =>
      obtain ⟨rfl, rfl⟩ := h .users (by simp [tablesRead])
      obtain rfl : projects = projects' := h .projects (by simp [tablesRead])
      obtain rfl : tasks = tasks' := h .tasks (by simp [tablesRead])
      refine (ExceptRel.refl _).bind ?_
      rintro row _ rfl
      refine (ExceptRel.refl _).bind ?_
      rintro tasks₁ _ rfl
      refine .ok ⟨rfl, ?_⟩
      rintro (_ | _ | _) _
      · exact ⟨rfl, rfl⟩
      · rfl
      · rfl
  | selectUserByLogin _ _ | selectUsersByLogin _ _ _ =>
      obtain ⟨rfl, rfl⟩ := h .users (by simp [tablesRead])
      refine (ExceptRel.refl _).bind ?_
      rintro pattern _ rfl
      exact .ok ⟨rfl, fun _ hsame => hsame⟩
  | selectUsersByName _ _ _ _ =>
      obtain ⟨rfl, rfl⟩ := h .users (by simp [tablesRead])
      refine (ExceptRel.refl _).bind ?_
      rintro first _ rfl
      refine (ExceptRel.refl _).bind ?_
      rintro last _ rfl
      exact .ok ⟨rfl, fun _ hsame => hsame⟩
  | selectProjectById _ _ | selectProjectsByCreation _ _ =>
      obtain rfl : projects = projects' := h .projects (by simp [tablesRead])
      exact .ok ⟨rfl, fun _ hsame => hsame⟩

/-- A statement leaves the tables it does not write. -/
theorem execute_frame {db db₁ db' : Database} {serial : Int} {s : Statement} {rows : List Row}
    (h : db.execute serial s = .ok (db₁, rows)) {t : Table} (ht : t ∉ tablesWritten s)
    (hsame : SameIn t db db') : SameIn t db₁ db' := by
  cases Database.execute_executed h with
  | insertUser _ _ =>
      cases t with
      | users => exact absurd rfl ht
      | projects => exact hsame
      | tasks => exact hsame
  | insertProject _ _ =>
      cases t with
      | users => exact hsame
      | projects => exact absurd rfl ht
      | tasks => exact hsame
  | insertTask _ _ =>
      cases t with
      | users => exact hsame
      | projects => exact hsame
      | tasks => exact absurd rfl ht
  | select => exact hsame

/-! ## Calls -/

/-- A server call whose action gives related results in two worlds. -/
theorem serverCall_related {X α : Type} (ch : Choice) (w w' : World) (put put' : X → World)
    {act act' : Except Exn (X × α)} (RX : X → X → Prop)
    (hact : ExceptRel (fun x y : X × α => x.2 = y.2 ∧ RX x.1 y.1) act act') :
    (serverCall ch w' put' act').2 = (serverCall ch w put act).2 ∧
      ∀ p, SameAt p w w' → (∀ x y, RX x y → SameAt p (put x) (put' y)) →
        SameAt p (serverCall ch w put act).1 (serverCall ch w' put' act').1 := by
  unfold serverCall
  cases ch.fault with
  | some e => exact ⟨rfl, fun _ hsame _ => hsame⟩
  | none =>
      cases hact with
      | error e => exact ⟨rfl, fun _ hsame _ => hsame⟩
      | @ok x y hxy => exact ⟨congrArg Except.ok hxy.1.symm, fun _ _ hput => hput _ _ hxy.2⟩

/-- A server call that works on one part of the world, alike on both sides. -/
theorem serverCall_same {X α : Type} {ch : Choice} {w w' : World} {put put' : X → World}
    {act act' : Except Exn (X × α)} (hact : act = act')
    (hput : ∀ p x, SameAt p w w' → SameAt p (put x) (put' x)) :
    (serverCall ch w' put' act').2 = (serverCall ch w put act).2 ∧
      ∀ p, SameAt p w w' →
        SameAt p (serverCall ch w put act).1 (serverCall ch w' put' act').1 := by
  have hrel : ExceptRel (fun x y : X × α => x.2 = y.2 ∧ x.1 = y.1) act act' := by
    subst hact
    cases act with
    | error e => exact .error e
    | ok x => exact .ok ⟨rfl, rfl⟩
  obtain ⟨hanswer, hkeep⟩ := serverCall_related ch w w' put put' _ hrel
  refine ⟨hanswer, fun p hsame => hkeep p hsame ?_⟩
  rintro x _ rfl
  exact hput p x hsame

/-! The cache and the limiter act key by key. -/

theorem store_get_of_ne (c : CacheManager) {key k : String} (hk : k ≠ key) (now : Int) :
    (c.get key now).2.store k = c.store k := by
  rcases c.store_get key now with heq | ⟨_, _, _, _, heq⟩
  · rw [heq]
  · rw [heq, Function.update_of_ne hk]

theorem store_get_self (c : CacheManager) (key : String) (now : Int) :
    (c.get key now).2.store key = (c.store key).filter fun x => now ≤ x.2 := by
  unfold CacheManager.get CacheManager.store
  cases hlookup : c.cache.lookup key with
  | none => simp [hlookup]
  | some entry =>
      by_cases hexp : now > entry.expiresAt
      · have hdead : ¬now ≤ entry.expiresAt := by omega
        simp [hexp, AList.lookup_erase, Option.filter, hdead]
      · have halive : now ≤ entry.expiresAt := by omega
        simp [hexp, hlookup, Option.filter, halive]

/-- A `Get` is answered from its own entry alone. -/
theorem get_same {c c' : CacheManager} {key : String} (h : c.store key = c'.store key)
    (now : Int) :
    (c'.get key now).1 = (c.get key now).1 ∧
      ∀ k, c.store k = c'.store k → (c.get key now).2.store k = (c'.get key now).2.store k := by
  refine ⟨?_, fun k hk => ?_⟩
  · refine Option.ext ?_
    intro v
    rw [CacheManager.get_eq_some, CacheManager.get_eq_some, h]
  · by_cases heq : k = key
    · subst heq
      rw [store_get_self, store_get_self, h]
    · rw [store_get_of_ne c heq, store_get_of_ne c' heq, hk]

theorem tryAcquire_frame {l l' : SlidingWindowLimiter} {key address : String}
    (hne : address ≠ key) (now stamp : Int) (h : SameWindow address l l') :
    SameWindow address (l.tryAcquire key now stamp).2 l' := by
  refine ⟨by simpa using h.1, by simpa using h.2.1, ?_⟩
  rw [← h.2.2]
  rcases l.tryAcquire_cases key now stamp with ⟨_, heq⟩ | ⟨_, heq⟩
  · rw [heq]
    exact AList.lookup_insert_ne hne
  · rw [heq]
    exact AList.lookup_insert_ne hne

theorem getInfo_frame {l l' : SlidingWindowLimiter} {key address : String}
    (hne : address ≠ key) (now : Int) (h : SameWindow address l l') :
    SameWindow address (l.getInfo key now).2 l' := by
  refine ⟨by simpa using h.1, by simpa using h.2.1, ?_⟩
  rw [← h.2.2]
  unfold SlidingWindowLimiter.getInfo
  cases l.windows.lookup key with
  | none => rfl
  | some state => exact AList.lookup_insert_ne hne

theorem SameWindow.symm {address : String} {l l' : SlidingWindowLimiter}
    (h : SameWindow address l l') : SameWindow address l' l :=
  ⟨h.1.symm, h.2.1.symm, h.2.2.symm⟩

theorem tryAcquire_same {l l' : SlidingWindowLimiter} {key : String} (h : SameWindow key l l')
    (now stamp : Int) :
    (l'.tryAcquire key now stamp).1 = (l.tryAcquire key now stamp).1 ∧
      SameWindow key (l.tryAcquire key now stamp).2 (l'.tryAcquire key now stamp).2 := by
  obtain ⟨maxRequests, windowSize, windows⟩ := l
  obtain ⟨maxRequests', windowSize', windows'⟩ := l'
  obtain ⟨rfl, rfl, hlookup⟩ := h
  have hclean : SlidingWindowLimiter.cleanExpired ⟨maxRequests, windowSize, windows⟩ =
    SlidingWindowLimiter.cleanExpired ⟨maxRequests, windowSize, windows'⟩ := rfl
  dsimp only at hlookup
  unfold SlidingWindowLimiter.tryAcquire
  simp only [hlookup, hclean]
  split
  · exact ⟨rfl, rfl, rfl, by simp [AList.lookup_insert]⟩
  · exact ⟨rfl, rfl, rfl, by simp [AList.lookup_insert]⟩

theorem getInfo_same {l l' : SlidingWindowLimiter} {key : String} (h : SameWindow key l l')
    (now : Int) :
    (l'.getInfo key now).1 = (l.getInfo key now).1 ∧
      SameWindow key (l.getInfo key now).2 (l'.getInfo key now).2 := by
  obtain ⟨maxRequests, windowSize, windows⟩ := l
  obtain ⟨maxRequests', windowSize', windows'⟩ := l'
  obtain ⟨rfl, rfl, hlookup⟩ := h
  have hclean : SlidingWindowLimiter.cleanExpired ⟨maxRequests, windowSize, windows⟩ =
    SlidingWindowLimiter.cleanExpired ⟨maxRequests, windowSize, windows'⟩ := rfl
  dsimp only at hlookup
  unfold SlidingWindowLimiter.getInfo
  rw [hlookup]
  cases windows'.lookup key with
  | none => exact ⟨rfl, rfl, rfl, hlookup⟩
  | some state => exact ⟨by rw [hclean], rfl, rfl, by simp [hclean, AList.lookup_insert]⟩

/-- Two steps that leave the other windows alone and agree on their own agree on each. -/
theorem windows_same {key : String} {l l' l₁ l₁' : SlidingWindowLimiter}
    (hself : SameWindow key l₁ l₁')
    (hframe : ∀ {address m}, address ≠ key → SameWindow address l m → SameWindow address l₁ m)
    (hframe' : ∀ {address m}, address ≠ key → SameWindow address l' m →
      SameWindow address l₁' m) (address : String) (h : SameWindow address l l') :
    SameWindow address l₁ l₁' := by
  by_cases heq : address = key
  · rw [heq]
    exact hself
  · exact hframe heq (hframe' heq h.symm).symm

/-- A cache call that is not a `Get`, made in both worlds. -/
theorem cache_same {c c' : CacheManager} (call : CacheManager.Call)
    (hcall : ∀ k t, call ≠ .get k t) {k : String} (h : c.store k = c'.store k) :
    (c.apply call).store k = (c'.apply call).store k := by
  rw [CacheManager.store_apply hcall, CacheManager.store_apply hcall]
  exact TtlMap.Store.apply_congr h _

theorem cache_frame {c : CacheManager} (call : CacheManager.Call)
    (hcall : ∀ k t, call ≠ .get k t) {k : String} (h : call.concerns k = false) :
    (c.apply call).store k = c.store k := by
  rw [CacheManager.store_apply hcall]
  exact TtlMap.Store.apply_of_not_concerns _ (by rw [CacheManager.Call.toPure_concerns, h])

/-- Worlds that differ in their caches alone. -/
theorem sameAt_cache {w w' : World} {c c' : CacheManager}
    (h : ∀ k, w.cache.store k = w'.cache.store k → c.store k = c'.store k) {p : Part}
    (hsame : SameAt p w w') : SameAt p { w with cache := c } { w' with cache := c' } := by
  cases p with
  | cached k => exact h k hsame
  | _ => exact hsame

theorem sameAt_limiter {w w' : World} {l l' : SlidingWindowLimiter}
    (h : ∀ address, SameWindow address w.limiter w'.limiter → SameWindow address l l')
    {p : Part} (hsame : SameAt p w w') :
    SameAt p { w with limiter := l } { w' with limiter := l' } := by
  cases p with
  | window address => exact h address hsame
  | _ => exact hsame

theorem sameAt_comments {w w' : World} (comments : Collection) {p : Part}
    (hsame : SameAt p w w') :
    SameAt p { w with comments := comments } { w' with comments := comments } := by
  cases p with
  | comments => rfl
  | _ => exact hsame

theorem sameAt_db {w w' : World} {db db' : Database}
    (h : ∀ t, SameIn t w.db w'.db → SameIn t db db') {p : Part} (hsame : SameAt p w w') :
    SameAt p { w with db := db } { w' with db := db' } := by
  cases p with
  | table t => exact h t hsame
  | _ => exact hsame

theorem sameAt_topics {w w' : World} {records : List KafkaRecord} {p : Part}
    (hsame : SameAt p w w') :
    SameAt p { w with topics := w.topics ++ records }
      { w' with topics := w'.topics ++ records } := by
  cases p with
  | topic name =>
      show (w.topics ++ records).filter _ = (w'.topics ++ records).filter _
      rw [List.filter_append, List.filter_append]
      exact congrArg (· ++ _) hsame
  | _ => exact hsame

/-- A call is answered from what it reads, and works on each part by itself. -/
theorem perform_same {c : Call} {w w' : World} (ch : Choice)
    (h : ∀ p ∈ reads c, SameAt p w w') :
    (perform c ch w').2 = (perform c ch w).2 ∧
      ∀ p, SameAt p w w' → SameAt p (perform c ch w).1 (perform c ch w').1 := by
  cases c with
  | cacheGet key =>
      obtain ⟨hanswer, hkeep⟩ := get_same (h (.cached key) rfl) ch.steady
      exact ⟨hanswer, fun p hsame => sameAt_cache hkeep hsame⟩
  | cacheSet key value ttl =>
      refine ⟨rfl, fun p hsame => sameAt_cache (fun k hk => ?_) hsame⟩
      exact cache_same (CacheManager.Call.set key value ttl ch.steady) (by simp) hk
  | cacheInvalidate key =>
      refine ⟨rfl, fun p hsame => sameAt_cache (fun k hk => ?_) hsame⟩
      exact cache_same (CacheManager.Call.invalidate key) (by simp) hk
  | cacheInvalidateByPrefix pfx =>
      refine ⟨rfl, fun p hsame => sameAt_cache (fun k hk => ?_) hsame⟩
      exact cache_same (CacheManager.Call.invalidateByPrefix pfx) (by simp) hk
  | tryAcquire key =>
      obtain ⟨hanswer, hkeep⟩ := tryAcquire_same (h (.window key) rfl) ch.steady ch.stamp
      exact ⟨hanswer, fun p hsame => sameAt_limiter (windows_same hkeep
        (fun hne => tryAcquire_frame hne _ _) fun hne => tryAcquire_frame hne _ _) hsame⟩
  | getInfo key =>
      obtain ⟨hanswer, hkeep⟩ := getInfo_same (h (.window key) rfl) ch.steady
      exact ⟨hanswer, fun p hsame => sameAt_limiter (windows_same hkeep
        (fun hne => getInfo_frame hne _) fun hne => getInfo_frame hne _) hsame⟩
  | execute s =>
      obtain ⟨hanswer, hkeep⟩ := serverCall_related ch w w' (fun db => { w with db := db })
        (fun db => { w' with db := db }) (fun x y => ∀ t, SameIn t w.db w'.db → SameIn t x y)
        (execute_related fun t ht => h (.table t) (Set.mem_image_of_mem _ ht))
      exact ⟨hanswer, fun p hsame => hkeep p hsame fun x y hxy => sameAt_db hxy hsame⟩
  | insertOne _ | updateOne _ _ =>
      have hcomments : w.comments = w'.comments := h .comments rfl
      exact serverCall_same (by rw [hcomments]) fun p x hsame => sameAt_comments x hsame
  | find _ | findOne _ =>
      have hcomments : w.comments = w'.comments := h .comments rfl
      exact serverCall_same (by rw [hcomments]) fun p x hsame => hsame
  | send topic key message =>
      obtain ⟨hanswer, hkeep⟩ := serverCall_related ch w w'
        (fun topics => { w with topics := topics }) (fun topics => { w' with topics := topics })
        (fun x y => x = w.topics ++ [⟨topic, key, message⟩] ∧
          y = w'.topics ++ [⟨topic, key, message⟩])
        (ExceptRel.ok (a := (w.topics ++ [⟨topic, key, message⟩], ()))
          (b := (w'.topics ++ [⟨topic, key, message⟩], ())) ⟨rfl, rfl, rfl⟩)
      refine ⟨hanswer, fun p hsame => hkeep p hsame ?_⟩
      rintro _ _ ⟨rfl, rfl⟩
      exact sameAt_topics hsame
  | systemNow | randomDraws => exact ⟨rfl, fun _ hsame => hsame⟩

/-- What an action does on the left alone, it does not show in the part. -/
theorem serverCall_sameAt {X α : Type} {ch : Choice} {w w' : World} {put : X → World}
    {act : Except Exn (X × α)} {p : Part} (hsame : SameAt p w w')
    (hput : ∀ x a, act = .ok (x, a) → SameAt p (put x) w') :
    SameAt p (serverCall ch w put act).1 w' := by
  rcases serverCall_cases ch w put act with ⟨e, _, heq⟩ | ⟨x, a, _, hact, heq⟩
  · rw [heq]
    exact hsame
  · rw [heq]
    exact hput x a hact

/-- A call changes only what it writes. -/
theorem perform_frame {c : Call} {w w' : World} (ch : Choice) {p : Part} (hp : p ∉ writes c)
    (hsame : SameAt p w w') : SameAt p (perform c ch w).1 w' := by
  cases c with
  | cacheGet key =>
      cases p with
      | cached k =>
          have hne : k ≠ key := fun heq => hp (by rw [heq]; rfl)
          exact (store_get_of_ne w.cache hne ch.steady).trans hsame
      | _ => exact hsame
  | cacheSet key value ttl =>
      cases p with
      | cached k =>
          have hne : key ≠ k := fun heq => hp (by rw [heq]; rfl)
          exact (cache_frame (CacheManager.Call.set key value ttl ch.steady) (by simp)
            (by simpa [CacheManager.Call.concerns] using hne)).trans hsame
      | _ => exact hsame
  | cacheInvalidate key =>
      cases p with
      | cached k =>
          have hne : key ≠ k := fun heq => hp (by rw [heq]; rfl)
          exact (cache_frame (CacheManager.Call.invalidate key) (by simp)
            (by simpa [CacheManager.Call.concerns] using hne)).trans hsame
      | _ => exact hsame
  | cacheInvalidateByPrefix pfx =>
      cases p with
      | cached k =>
          have hmiss : CacheManager.hasPrefix pfx k = false :=
            Bool.eq_false_iff.mpr fun hhit => hp ⟨k, hhit, rfl⟩
          exact (cache_frame (CacheManager.Call.invalidateByPrefix pfx) (by simp) hmiss).trans hsame
      | _ => exact hsame
  | tryAcquire key =>
      cases p with
      | window address =>
          have hne : address ≠ key := fun heq => hp (by rw [heq]; rfl)
          exact tryAcquire_frame hne _ _ hsame
      | _ => exact hsame
  | getInfo key =>
      cases p with
      | window address =>
          have hne : address ≠ key := fun heq => hp (by rw [heq]; rfl)
          exact getInfo_frame hne _ hsame
      | _ => exact hsame
  | execute s =>
      refine serverCall_sameAt hsame fun db rows hact => ?_
      cases p with
      | table t =>
          exact execute_frame hact (fun ht => hp (Set.mem_image_of_mem _ ht)) hsame
      | _ => exact hsame
  | insertOne doc =>
      refine serverCall_sameAt hsame fun comments _ _ => ?_
      cases p with
      | comments => exact absurd rfl hp
      | _ => exact hsame
  | updateOne f u =>
      refine serverCall_sameAt hsame fun comments _ _ => ?_
      cases p with
      | comments => exact absurd rfl hp
      | _ => exact hsame
  | find f => exact serverCall_sameAt hsame fun _ _ _ => hsame
  | findOne f => exact serverCall_sameAt hsame fun _ _ _ => hsame
  | send topic key message =>
      refine serverCall_sameAt hsame fun topics _ hact => ?_
      obtain ⟨rfl, _⟩ := Prod.mk.inj (Except.ok.inj hact)
      cases p with
      | topic name =>
          have hne : topic ≠ name := fun heq => hp (by rw [heq]; rfl)
          show (w.topics ++ [_]).filter _ = _
          rw [List.filter_append, List.filter_singleton, decide_eq_false hne, cond_false,
            List.append_nil]
          exact hsame
      | _ => exact hsame
  | systemNow | randomDraws => exact hsame

theorem footprints : Config.Footprints perform SameAt reads writes where
  answer _ ch _ _ h := (perform_same ch h).1
  keep _ ch _ _ h := (perform_same ch h).2
  frame _ ch _ _ _ hp := perform_frame ch hp

/-! ## Requests -/

/-- The cached comment lists. -/
def commentLists : Set Part :=
  {p | ∃ key, CacheManager.hasPrefix "comments:task:" key ∧ p = .cached key}

/-- The parts that a request depends on. -/
def requestReads : Request → Set Part
  | .register _ => {.table .users}
  | .login request => {.table .users, .window request.remoteAddress}
  | .userSearch _ => {.table .users}
  | .createProject _ _ => {.table .users, .table .projects}
  | .getProjects _ => {.table .projects, .cached projectsKey}
  | .createTask _ _ => {.table .users, .table .projects, .table .tasks}
  | .addComment _ _ => {.comments}
  | .getComments _ => insert .comments commentLists
  | .addReply _ => {.comments}

/-- The parts that a request may change. -/
def requestWrites : Request → Set Part
  | .register _ => {.table .users, .topic "user-events"}
  | .login request => {.window request.remoteAddress, .topic "user-events"}
  | .userSearch _ => ∅
  | .createProject _ _ => {.table .projects, .cached projectsKey, .topic "project-events"}
  | .getProjects _ => {.cached projectsKey}
  | .createTask _ _ => {.table .tasks, .topic "task-events"}
  | .addComment _ _ => insert .comments (insert (.topic "comment-events") commentLists)
  | .getComments _ => commentLists
  | .addReply _ => insert .comments (insert (.topic "comment-events") commentLists)

theorem commentsKey_mem (taskId : Int) : Part.cached (commentsKey taskId) ∈ commentLists :=
  ⟨_, FreshReads.hasPrefix_commentsKey taskId, rfl⟩

section Requests

variable {request : Request} {c : Call}

theorem reads_subset (h : Reaches request c) : reads c ⊆ requestReads request := by
  cases c with
  | cacheGet key =>
      cases request with
      | getProjects _ => simp [reads, requestReads, show key = projectsKey from h]
      | getComments _ =>
          obtain ⟨taskId, rfl⟩ := h
          simp [reads, requestReads, commentsKey_mem]
      | _ => exact h.elim
  | tryAcquire key =>
      cases request with
      | login request => simp [reads, requestReads, show key = request.remoteAddress from h]
      | _ => exact h.elim
  | getInfo key =>
      cases request with
      | login request => simp [reads, requestReads, show key = request.remoteAddress from h]
      | _ => exact h.elim
  | execute s =>
      cases request <;> cases s <;>
        first
          | exact h.elim
          | simp [reads, tablesRead, requestReads, Set.image_insert_eq]
  | insertOne _ | find _ | findOne _ | updateOne _ _ =>
      cases request <;>
        first
          | exact h.elim
          | simp [reads, requestReads]
  | _ => exact Set.empty_subset _

theorem writes_subset (h : Reaches request c) : writes c ⊆ requestWrites request := by
  cases c with
  | cacheGet key | cacheSet key _ _ | cacheInvalidate key =>
      cases request <;>
        first
          | exact h.elim
          | simp [writes, requestWrites, show key = projectsKey from h]
          | (obtain ⟨taskId, rfl⟩ := h
             simp [writes, requestWrites, commentsKey_mem])
  | cacheInvalidateByPrefix pfx =>
      cases request with
      | addReply _ =>
          obtain rfl : pfx = "comments:task:" := h
          exact (Set.subset_insert _ _).trans (Set.subset_insert _ _)
      | _ => exact h.elim
  | tryAcquire key =>
      cases request with
      | login request => simp [writes, requestWrites, show key = request.remoteAddress from h]
      | _ => exact h.elim
  | getInfo key =>
      cases request with
      | login request => simp [writes, requestWrites, show key = request.remoteAddress from h]
      | _ => exact h.elim
  | execute s =>
      cases request <;> cases s <;>
        first
          | exact h.elim
          | simp [writes, tablesWritten, requestWrites]
  | insertOne _ | updateOne _ _ =>
      cases request <;>
        first
          | exact h.elim
          | simp [writes, requestWrites]
  | send topic _ _ =>
      cases request <;>
        first
          | exact h.elim
          | simp [writes, requestWrites, show topic = _ from h]
  | _ => exact Set.empty_subset _

end Requests

/-! ## Runs -/

section Runs

variable (u : Userver) (w : World) (requests : ℕ → Request) (sched : List (ℕ × Choice))

/-- The run with only the requests in `G` let in. -/
abbrev runAlone (G : ℕ → Bool) : ServiceConfig :=
  runService u w requests (scheduleOf G sched)

/-- The parts that no request outside `G` may change. -/
abbrev Kept (G : ℕ → Bool) : Part → Prop :=
  Config.Untouched (fun tid => requestWrites (requests tid)) G

/-- **Requests that write nothing the others read can be left out.** The others make the
same calls with the same answers, and end alike; the parts that the requests left out may
not change are the same in both runs. -/
theorem seenBy_of_disjoint {G : ℕ → Bool}
    (hdisjoint : ∀ i j, !G i → G j →
      Disjoint (requestWrites (requests i)) (requestReads (requests j))) :
    Config.SeenBy perform G (Config.SameOn SameAt (Kept requests G))
      (runService u w requests sched) (runAlone u w requests sched G) := by
  refine Config.run_disjoint footprints (fun tid => requestReads (requests tid))
    (fun tid => (stays_serve u (requests tid)).mono fun c hc => reads_subset hc)
    (fun tid => (stays_serve u (requests tid)).mono fun c hc => writes_subset hc)
    (fun i j hi hj _ hw => Set.disjoint_left.mp (hdisjoint i j hi hj) hw)
    ⟨fun p _ => ?_, fun _ _ => rfl, fun _ _ => rfl⟩ sched
  show SameAt p w w
  cases p with
  | table t =>
      cases t with
      | users => exact ⟨rfl, rfl⟩
      | projects => rfl
      | tasks => rfl
  | window address => exact ⟨rfl, rfl, rfl⟩
  | _ => rfl

end Runs

/-! ### The comments and the rest -/

def isComment : Request → Bool
  | .addComment _ _ => true
  | .getComments _ => true
  | .addReply _ => true
  | _ => false

theorem hasPrefix_projectsKey : CacheManager.hasPrefix "comments:task:" projectsKey = false := by
  decide

/-- The two halves of the service write nothing of each other. -/
theorem disjoint_halves {request request' : Request}
    (h : isComment request ≠ isComment request') :
    Disjoint (requestWrites request) (requestReads request') := by
  cases request <;> cases request' <;>
    first
      | exact absurd rfl h
      | simp [requestWrites, requestReads, commentLists, hasPrefix_projectsKey]

theorem comments_not_written {request : Request} (h : isComment request = false) :
    .comments ∉ requestWrites request := by
  cases request with
  | addComment _ _ | getComments _ | addReply _ => exact Bool.noConfusion h
  | _ => simp [requestWrites]

theorem table_not_written {request : Request} (h : isComment request = true) (t : Table) :
    .table t ∉ requestWrites request := by
  cases request with
  | addComment _ _ | getComments _ | addReply _ => simp [requestWrites, commentLists]
  | _ => exact Bool.noConfusion h

/-- The half of the service that a cache key belongs to. -/
def isCommentKey (key : String) : Bool := CacheManager.hasPrefix "comments:task:" key

theorem cached_not_written {request : Request} {key : String}
    (h : isComment request ≠ isCommentKey key) : .cached key ∉ requestWrites request := by
  cases request with
  | addComment _ _ | getComments _ | addReply _ =>
      have hother : isCommentKey key = false := (Bool.eq_false_iff.mpr (Ne.symm h))
      simpa [requestWrites, commentLists, isCommentKey] using hother
  | createProject _ _ | getProjects _ =>
      have hne : key ≠ projectsKey := by
        rintro rfl
        exact h hasPrefix_projectsKey.symm
      simpa [requestWrites] using hne
  | _ => simp [requestWrites]

/-- The requests on one side. -/
def onSide (requests : ℕ → Request) (side : Bool) (tid : ℕ) : Bool :=
  isComment (requests tid) = side

/-! ### One address at `/login` -/

/-- Registrations, and logins at the address. -/
def decidesLogin (address : String) : Request → Bool
  | .register _ => true
  | .login request => request.remoteAddress = address
  | _ => false

theorem disjoint_decidesLogin {address : String} {request request' : Request}
    (h : decidesLogin address request = false) (h' : decidesLogin address request' = true) :
    Disjoint (requestWrites request) (requestReads request') := by
  cases request' with
  | register _ =>
      cases request <;>
        first
          | exact Bool.noConfusion h
          | simp [requestWrites, requestReads, commentLists]
  | login there =>
      obtain rfl : there.remoteAddress = address := by simpa [decidesLogin] using h'
      cases request with
      | login here =>
          have hne : here.remoteAddress ≠ there.remoteAddress := by simpa [decidesLogin] using h
          simp [requestWrites, requestReads, Ne.symm hne]
      | register _ => exact Bool.noConfusion h
      | _ => simp [requestWrites, requestReads, commentLists]
  | _ => exact Bool.noConfusion h'

theorem users_not_written {address : String} {request : Request}
    (h : decidesLogin address request = false) : .table .users ∉ requestWrites request := by
  cases request with
  | register _ => exact Bool.noConfusion h
  | _ => simp [requestWrites, commentLists]

theorem window_not_written {address : String} {request : Request}
    (h : decidesLogin address request = false) : .window address ∉ requestWrites request := by
  cases request with
  | login request =>
      have hne : request.remoteAddress ≠ address := by simpa [decidesLogin] using h
      simp [requestWrites, Ne.symm hne]
  | _ => simp [requestWrites, commentLists]

section Runs

variable (u : Userver) (w : World) (requests : ℕ → Request) (sched : List (ℕ × Choice))

/-- **The comments and the rest of the service do not touch.** Every request ends as it
would with the other half of the service left out, having made the same calls with the same
answers; the comments are those that the comment requests alone leave, the tables those that
the other requests alone leave, and a cache entry is the one that its half alone leaves. -/
theorem halves_independent :
    (∀ tid, (runService u w requests sched).pool tid =
        (runAlone u w requests sched (onSide requests (isComment (requests tid)))).pool tid ∧
      own perform tid (runService u w requests sched).trace = own perform tid
        (runAlone u w requests sched (onSide requests (isComment (requests tid)))).trace) ∧
    (runService u w requests sched).world.comments =
      (runAlone u w requests sched (onSide requests true)).world.comments ∧
    (runService u w requests sched).world.db =
      (runAlone u w requests sched (onSide requests false)).world.db ∧
    ∀ key, (runService u w requests sched).world.cache.store key =
      (runAlone u w requests sched (onSide requests (isCommentKey key))).world.cache.store key := by
  have hseen : ∀ side, Config.SeenBy perform (onSide requests side)
      (Config.SameOn SameAt (Kept requests (onSide requests side)))
      (runService u w requests sched) (runAlone u w requests sched (onSide requests side)) := by
    intro side
    refine seenBy_of_disjoint u w requests sched fun i j hi hj => disjoint_halves fun heq => ?_
    simp only [onSide, heq] at hi hj
    simp [hj] at hi
  refine ⟨fun tid => ?_, ?_, ?_, fun key => ?_⟩
  · have hmem : onSide requests (isComment (requests tid)) tid := by simp [onSide]
    exact ⟨(hseen _).pool tid hmem, (hseen _).seen tid hmem⟩
  · exact (hseen true).world .comments fun tid hG =>
      comments_not_written (by simpa [onSide] using hG)
  · exact database_ext fun t => (hseen false).world (.table t) fun tid hG =>
      table_not_written (by simpa [onSide] using hG) t
  · exact (hseen _).world (.cached key) fun tid hG =>
      cached_not_written (by simpa [onSide] using hG)

/-- The run without the requests that do not decide a login at the address. -/
abbrev runLogins (address : String) : ServiceConfig :=
  runAlone u w requests sched fun tid => decidesLogin address (requests tid)

/-- **A login depends on its own address.** Leave out of any run every request but the
registrations and the logins at one address: those logins are answered as before, the 429s
included, and the users and the address's window are the same. -/
theorem logins_local (address : String) :
    (∀ tid, decidesLogin address (requests tid) →
      (runService u w requests sched).pool tid = (runLogins u w requests sched address).pool tid ∧
        own perform tid (runService u w requests sched).trace =
          own perform tid (runLogins u w requests sched address).trace) ∧
    (runService u w requests sched).world.db.users =
      (runLogins u w requests sched address).world.db.users ∧
    SameWindow address (runService u w requests sched).world.limiter
      (runLogins u w requests sched address).world.limiter := by
  have hseen := seenBy_of_disjoint u w requests sched
    (G := fun tid => decidesLogin address (requests tid)) fun i j hi hj =>
      disjoint_decidesLogin (by simpa using hi) hj
  refine ⟨fun tid hG => ⟨hseen.pool tid hG, hseen.seen tid hG⟩, ?_, ?_⟩
  · exact (hseen.world (.table .users) fun tid hG => users_not_written (by simpa using hG)).1
  · exact hseen.world (.window address) fun tid hG => window_not_written (by simpa using hG)

end Runs

end MyService.Handlers.Independence
