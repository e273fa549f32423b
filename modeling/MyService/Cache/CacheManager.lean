import MyService.Chrono
import MyService.Framework.TtlMap
import Mathlib.Data.List.AList
import Mathlib.Data.Int.Order.Basic

/-!
# CacheManager

The in-memory response cache. `std::unordered_map` is an association list with
distinct keys; a call takes the `steady_clock` reading it makes, in nanoseconds.
The mutex makes each call atomic, so a run of the cache is a list of calls.

The map evicts only when it reads an expired entry, and a prefix invalidation
erases while it iterates. `get_eq_some_iff` says that neither shows: a read finds what
the last call concerning its key left, and only until that entry expires.
-/

namespace MyService.Cache

open Framework Chrono

structure CacheEntry where
  value : String
  expiresAt : Int
deriving DecidableEq

structure CacheManager where
  cache : AList fun _ : String => CacheEntry

namespace CacheManager

def empty : CacheManager := ⟨∅⟩

/-- The clock is read only once an entry is found. -/
def get (c : CacheManager) (key : String) (now : Int) : Option String × CacheManager :=
  match c.cache.lookup key with
  | none => (none, c)
  | some entry =>
      if now > entry.expiresAt then (none, ⟨c.cache.erase key⟩)
      else (some entry.value, c)

def set (c : CacheManager) (key value : String) (ttlSeconds now : Int) : CacheManager :=
  ⟨c.cache.insert key
    { value := value, expiresAt := now + ttlSeconds * ticksPerSecond }⟩

def invalidate (c : CacheManager) (key : String) : CacheManager :=
  ⟨c.cache.erase key⟩

/-- `key.rfind(prefix, 0) == 0`. -/
def hasPrefix (pfx key : String) : Bool := pfx.toList.isPrefixOf key.toList

/-- The loop of `InvalidateByPrefix` over the keys from the iterator on. -/
def eraseMatching (pfx : String) (m : AList fun _ : String => CacheEntry) :
    List String → AList fun _ : String => CacheEntry
  | [] => m
  | key :: rest =>
      if hasPrefix pfx key then eraseMatching pfx (m.erase key) rest
      else eraseMatching pfx m rest

def invalidateByPrefix (c : CacheManager) (pfx : String) : CacheManager :=
  ⟨eraseMatching pfx c.cache c.cache.keys⟩

/-! ## What one call does to the entries -/

/-- The entries as a store of values with their expiry. -/
def store (c : CacheManager) : TtlMap.Store String String Int :=
  fun key => (c.cache.lookup key).map fun e => (e.value, e.expiresAt)

@[simp] theorem store_empty : store empty = fun _ => none := rfl

theorem store_set (c : CacheManager) (key value : String) (ttl now : Int) :
    (c.set key value ttl now).store =
      c.store.apply (.set key value (ttl * ticksPerSecond) now) := by
  funext k
  by_cases h : k = key
  · subst h
    simp [store, set, TtlMap.Store.apply, AList.lookup_insert]
  · simp [store, set, TtlMap.Store.apply, AList.lookup_insert_ne h,
      Function.update_of_ne h]

theorem store_invalidate (c : CacheManager) (key : String) :
    (c.invalidate key).store = c.store.apply (.remove key) := by
  funext k
  by_cases h : k = key
  · subst h
    simp [store, invalidate, TtlMap.Store.apply, AList.lookup_erase]
  · simp [store, invalidate, TtlMap.Store.apply, AList.lookup_erase_ne h,
      Function.update_of_ne h]

theorem lookup_eraseMatching (pfx key : String) :
    ∀ (keys : List String) (m : AList fun _ : String => CacheEntry),
      (eraseMatching pfx m keys).lookup key =
        if hasPrefix pfx key ∧ key ∈ keys then none else m.lookup key
  | [], m => by simp [eraseMatching]
  | k :: rest, m => by
      rw [eraseMatching]
      by_cases hk : hasPrefix pfx k = true
      · rw [if_pos hk, lookup_eraseMatching pfx key rest]
        by_cases heq : key = k
        · subst heq
          simp [hk, AList.lookup_erase]
        · simp [heq, AList.lookup_erase_ne heq]
      · rw [if_neg hk, lookup_eraseMatching pfx key rest]
        by_cases heq : key = k
        · subst heq
          simp [hk]
        · simp [heq]

theorem store_invalidateByPrefix (c : CacheManager) (pfx : String) :
    (c.invalidateByPrefix pfx).store = c.store.apply (.drop (hasPrefix pfx)) := by
  funext k
  by_cases hp : hasPrefix pfx k = true
  · -- the loop sees only the keys that are there
    have hmem : k ∉ c.cache → c.cache.lookup k = none := AList.lookup_eq_none.mpr
    by_cases hk : k ∈ c.cache.keys
    · simp [store, invalidateByPrefix, TtlMap.Store.apply, lookup_eraseMatching, hp, hk]
    · simp [store, invalidateByPrefix, TtlMap.Store.apply, lookup_eraseMatching, hp, hk,
        hmem hk]
  · simp [store, invalidateByPrefix, TtlMap.Store.apply, lookup_eraseMatching, hp]

/-- A read answers the entry until it expires. -/
theorem get_eq_some (c : CacheManager) (key value : String) (now : Int) :
    (c.get key now).1 = some value ↔
      ∃ e, c.store key = some (value, e) ∧ now ≤ e := by
  unfold get store
  cases h : c.cache.lookup key with
  | none => simp
  | some entry =>
      by_cases hexp : now > entry.expiresAt
      · simp only [if_pos hexp, Option.map_some, Option.some.injEq, Prod.mk.injEq]
        constructor
        · intro habs
          exact absurd habs (by simp)
        · rintro ⟨e, ⟨_, rfl⟩, hle⟩
          exact absurd hexp (by omega)
      · simp only [if_neg hexp, Option.map_some, Option.some.injEq, Prod.mk.injEq]
        constructor
        · intro hv
          exact ⟨entry.expiresAt, ⟨hv, rfl⟩, by omega⟩
        · rintro ⟨e, ⟨hv, _⟩, _⟩
          exact hv

/-- A read leaves the entries as they are, or evicts its own expired one. -/
theorem store_get (c : CacheManager) (key : String) (now : Int) :
    (c.get key now).2.store = c.store ∨
      ∃ v e, c.store key = some (v, e) ∧ e < now ∧
        (c.get key now).2.store = Function.update c.store key none := by
  unfold get
  cases h : c.cache.lookup key with
  | none => exact Or.inl rfl
  | some entry =>
      by_cases hexp : now > entry.expiresAt
      · -- an expired entry is erased on the way
        right
        refine ⟨entry.value, entry.expiresAt, by simp [store, h], hexp, ?_⟩
        simp only [if_pos hexp]
        exact store_invalidate c key
      · exact Or.inl (by simp only [if_neg hexp])

/-! ## Runs -/

/-- A call on the cache with the clock reading it makes. -/
inductive Call where
  | get (key : String) (now : Int)
  | set (key value : String) (ttlSeconds now : Int)
  | invalidate (key : String)
  | invalidateByPrefix (pfx : String)

def Call.now? : Call → Option Int
  | .get _ now => some now
  | .set _ _ _ now => some now
  | .invalidate _ => none
  | .invalidateByPrefix _ => none

/-- Set on `k`, Invalidate of `k`, InvalidateByPrefix of a prefix of `k`. -/
def Call.concerns (k : String) : Call → Bool
  | .get _ _ => false
  | .set key _ _ _ => key = k
  | .invalidate key => key = k
  | .invalidateByPrefix pfx => hasPrefix pfx k

def apply (c : CacheManager) : Call → CacheManager
  | .get key now => (c.get key now).2
  | .set key value ttl now => c.set key value ttl now
  | .invalidate key => c.invalidate key
  | .invalidateByPrefix pfx => c.invalidateByPrefix pfx

def run (calls : List Call) : CacheManager := calls.foldl apply empty

/-- The readings of a run, in the order they are made, do not go back. -/
def NonDecreasing (calls : List Call) : Prop :=
  (calls.filterMap Call.now?).Pairwise (· ≤ ·)

/-- The same call on the pure map. -/
def Call.toPure : Call → TtlMap.Call String String Int
  | .get key now => .get key now
  | .set key value ttl now => .set key value (ttl * ticksPerSecond) now
  | .invalidate key => .remove key
  | .invalidateByPrefix pfx => .drop (hasPrefix pfx)

@[simp] theorem Call.toPure_concerns (k : String) (c : Call) :
    c.toPure.concerns k = c.concerns k := by
  cases c <;> rfl

def lastConcerning (k : String) (calls : List Call) : Option Call :=
  TtlMap.lastWith (Call.concerns k) calls

theorem lastConcerning_toPure (k : String) (calls : List Call) :
    TtlMap.lastWith (TtlMap.Call.concerns k) (calls.map Call.toPure) =
      (lastConcerning k calls).map Call.toPure := by
  have hcomp : (TtlMap.Call.concerns k ∘ Call.toPure) = Call.concerns k :=
    funext (Call.toPure_concerns k)
  rw [TtlMap.lastWith, lastConcerning, TtlMap.lastWith, List.filter_map, hcomp,
    List.getLast?_map]

theorem run_snoc (calls : List Call) (c : Call) :
    run (calls ++ [c]) = (run calls).apply c := by
  simp [run]

/-- A call that is not a read acts on the entries as on the pure map. -/
theorem store_apply {c : CacheManager} {call : Call} (h : ∀ k t, call ≠ .get k t) :
    (c.apply call).store = c.store.apply call.toPure := by
  cases call with
  | get key now => exact absurd rfl (h key now)
  | set key value ttl now => exact store_set c key value ttl now
  | invalidate key => exact store_invalidate c key
  | invalidateByPrefix pfx => exact store_invalidateByPrefix c pfx

/-- One call keeps the relation to the pure map if a read that evicts evicts a
dead entry. -/
theorem evicted_apply {dead : Int → Prop} {c : CacheManager}
    {pur : TtlMap.Store String String Int} (h : TtlMap.Evicted dead c.store pur)
    (call : Call) (hdead : ∀ k now e, call = .get k now → e < now → dead e) :
    TtlMap.Evicted dead (c.apply call).store (pur.apply call.toPure) := by
  cases call with
  | get key now =>
      show TtlMap.Evicted dead (c.get key now).2.store pur
      rcases store_get c key now with heq | ⟨v, e, hk, he, heq⟩
      · rwa [heq]
      · rw [heq]
        exact h.evict hk (hdead key now e rfl he)
  | set key value ttl now =>
      rw [store_apply (by simp)]
      exact h.apply _
  | invalidate key =>
      rw [store_apply (by simp)]
      exact h.apply _
  | invalidateByPrefix pfx =>
      rw [store_apply (by simp)]
      exact h.apply _

/-- **Refinement.** After any calls with a non-decreasing clock the entries are
those of the pure map, but for some that expired before the present reading. -/
theorem run_evicted {calls : List Call} (hmono : NonDecreasing calls) {t : Int}
    (ht : ∀ now ∈ calls.filterMap Call.now?, now ≤ t) :
    TtlMap.Evicted (· < t) (run calls).store
      (TtlMap.pureRun (calls.map Call.toPure)) := by
  induction calls using List.reverseRecOn with
  | nil => exact TtlMap.Evicted.refl _ _
  | append_singleton calls c ih =>
      rw [NonDecreasing, List.filterMap_append, List.pairwise_append] at hmono
      rw [List.filterMap_append] at ht
      rw [run_snoc, List.map_append, List.map_singleton, TtlMap.pureRun_snoc]
      -- a read evicts what expired before its own reading, which is before `t`
      refine evicted_apply (ih hmono.1 fun now hn => ht now (List.mem_append_left _ hn)) c ?_
      rintro k now e rfl he
      exact lt_of_lt_of_le he (ht now (List.mem_append_right _ (by simp [Call.now?])))

/-- Whatever the clock does, the entries are entries of the pure map. -/
theorem run_sound (calls : List Call) :
    TtlMap.Evicted (fun _ => True) (run calls).store
      (TtlMap.pureRun (calls.map Call.toPure)) := by
  induction calls using List.reverseRecOn with
  | nil => exact TtlMap.Evicted.refl _ _
  | append_singleton calls c ih =>
      rw [run_snoc, List.map_append, List.map_singleton, TtlMap.pureRun_snoc]
      exact evicted_apply ih c fun _ _ _ _ _ => trivial

/-- What a read finds on the pure map, in terms of the calls made. -/
theorem pureRun_toPure (calls : List Call) (k v : String) (e : Int) :
    TtlMap.pureRun (calls.map Call.toPure) k = some (v, e) ↔
      ∃ ttl s, lastConcerning k calls = some (.set k v ttl s) ∧
        s + ttl * ticksPerSecond = e := by
  rw [TtlMap.pureRun_eq_lastWith, lastConcerning_toPure]
  cases h : lastConcerning k calls with
  | none => simp
  | some c =>
      have hc : c.concerns k = true := (TtlMap.lastWith_split h).1
      cases c with
      | get key now => simp [Call.concerns] at hc
      | set key value ttl now =>
          have hkey : key = k := by simpa [Call.concerns] using hc
          subst hkey
          simp only [Option.map_some, Call.toPure, Option.some.injEq, Prod.mk.injEq,
            Call.set.injEq, true_and]
          constructor
          · rintro ⟨rfl, rfl⟩
            exact ⟨ttl, now, ⟨rfl, rfl, rfl⟩, rfl⟩
          · rintro ⟨ttl', s, ⟨rfl, rfl, rfl⟩, rfl⟩
            exact ⟨rfl, rfl⟩
      | invalidate key => simp [Call.toPure]
      | invalidateByPrefix pfx => simp [Call.toPure]

/-- A read that hits returns what the last call concerning its key wrote, within
its lifetime. -/
theorem get_hit {calls : List Call} {k v : String} {t : Int}
    (h : ((run calls).get k t).1 = some v) :
    ∃ ttl s, lastConcerning k calls = some (.set k v ttl s) ∧
      t ≤ s + ttl * ticksPerSecond := by
  obtain ⟨e, hk, hle⟩ := (get_eq_some _ k v t).mp h
  obtain ⟨ttl, s, hlast, rfl⟩ := (pureRun_toPure calls k v e).mp ((run_sound calls).sound hk)
  exact ⟨ttl, s, hlast, hle⟩

/-- With a non-decreasing clock a read misses only when it has to. -/
theorem get_eq_some_iff {calls : List Call} {k : String} {t : Int}
    (h : NonDecreasing (calls ++ [.get k t])) (v : String) :
    ((run calls).get k t).1 = some v ↔
      ∃ ttl s, lastConcerning k calls = some (.set k v ttl s) ∧
        t ≤ s + ttl * ticksPerSecond := by
  refine ⟨get_hit, ?_⟩
  rintro ⟨ttl, s, hlast, hle⟩
  rw [NonDecreasing, List.filterMap_append, List.pairwise_append] at h
  have hev := run_evicted h.1 (t := t) fun n hn => h.2.2 n hn t (by simp [Call.now?])
  rw [get_eq_some, hev.read k v]
  exact ⟨_, (pureRun_toPure calls k v _).mpr ⟨ttl, s, hlast, rfl⟩, hle⟩

/-- Leaving a call out keeps the readings in order. -/
theorem NonDecreasing.drop {pre post : List Call} {c : Call}
    (h : NonDecreasing (pre ++ c :: post)) : NonDecreasing (pre ++ post) := by
  refine List.Pairwise.sublist ?_ h
  exact List.Sublist.filterMap _
    (List.Sublist.append (List.Sublist.refl pre) (List.sublist_cons_self c post))

/-- **The cache refines a pure TTL map.** A read at `t` returns `v` exactly when
the last earlier call concerning its key is a Set of `v` whose lifetime reaches
`t`; a call that does not concern the key, an evicting Get included, could have
been left out. -/
theorem get_refines_ttl_map {calls : List Call} {k : String} {t : Int}
    (h : NonDecreasing (calls ++ [.get k t])) :
    (∀ v, ((run calls).get k t).1 = some v ↔
      ∃ ttl s, lastConcerning k calls = some (.set k v ttl s) ∧
        t ≤ s + ttl * ticksPerSecond) ∧
    ∀ pre c post, calls = pre ++ c :: post → c.concerns k = false →
      ((run (pre ++ post)).get k t).1 = ((run calls).get k t).1 := by
  refine ⟨get_eq_some_iff h, ?_⟩
  rintro pre c post rfl hc
  have hdrop : NonDecreasing (pre ++ post ++ [.get k t]) := by
    rw [List.append_assoc, List.cons_append] at h
    rw [List.append_assoc]
    exact h.drop
  have hlast : lastConcerning k (pre ++ c :: post) = lastConcerning k (pre ++ post) :=
    TtlMap.lastWith_dropped hc
  refine Option.ext ?_
  intro v
  rw [get_eq_some_iff h, get_eq_some_iff hdrop, hlast]

/-- At the last tick of its lifetime an entry is still there; the earlier, longer
lifetime it overwrote does not count. -/
theorem get_refines_ttl_map_at_expiry :
    ((run [.set "a" "x" 60 0, .set "a" "y" 1 0, .set "ab" "z" 60 0]).get "a"
      1000000000).1 = some "y" :=
  ((@get_refines_ttl_map [.set "a" "x" 60 0, .set "a" "y" 1 0, .set "ab" "z" 60 0]
    "a" 1000000000 (by simp [NonDecreasing, Call.now?])).1 "y").mpr
    ⟨1, 0, rfl, by decide⟩

end CacheManager

end MyService.Cache
