import Mathlib.Order.Basic
import Mathlib.Order.Defs.LinearOrder
import Mathlib.Logic.Function.Basic
import Mathlib.Data.List.Basic
import Mathlib.Data.List.Induction

/-!
# A map with expiring entries, and its lazily evicting implementations

The pure map never forgets: a write stores a value with its expiry, a removal
drops keys, and a read ignores an entry whose expiry has passed. What a read
finds is decided by the last call that concerns its key
(`pureRun_eq_lastWith`).

An implementation may drop an expired entry whenever it reads it. `Evicted dead`
relates such an implementation to the pure map: they agree but for entries with
a `dead` expiry, which the implementation may have dropped. Every call preserves
it, and reads at `t` agree when only expiries before `t` are dead.
-/

namespace Framework.TtlMap

variable {K V T A : Type}

/-! ## The last call of a kind -/

/-- The last element that satisfies `p`. -/
def lastWith (p : A → Bool) (l : List A) : Option A := (l.filter p).getLast?

theorem lastWith_snoc (p : A → Bool) (l : List A) (a : A) :
    lastWith p (l ++ [a]) = if p a then some a else lastWith p l := by
  unfold lastWith
  cases h : p a <;> simp [h]

/-- The last element of a kind splits the list: none after it is of the kind. -/
theorem lastWith_split {p : A → Bool} {l : List A} {a : A} (h : lastWith p l = some a) :
    p a = true ∧ ∃ pre post, l = pre ++ a :: post ∧ ∀ b ∈ post, p b = false := by
  induction l using List.reverseRecOn with
  | nil => simp [lastWith] at h
  | append_singleton l d ih =>
      rw [lastWith_snoc] at h
      split at h
      · rename_i hd
        obtain rfl := Option.some.inj h
        exact ⟨hd, l, [], by simp, by simp⟩
      · rename_i hd
        obtain ⟨ha, pre, post, rfl, hpost⟩ := ih h
        refine ⟨ha, pre, post ++ [d], by simp, ?_⟩
        intro b hb
        rcases List.mem_append.mp hb with hm | hm
        · exact hpost b hm
        · rw [List.mem_singleton.mp hm]
          simpa using hd

/-- The same for the images of a list. -/
theorem lastWith_filterMap_split {B : Type} {f : B → Option A} {p : A → Bool} {l : List B}
    {a : A} (h : lastWith p (l.filterMap f) = some a) :
    ∃ pre b post, l = pre ++ b :: post ∧ f b = some a ∧
      ∀ b' ∈ post, ∀ a' ∈ f b', p a' = false := by
  obtain ⟨_, pre, post, hsplit, hpost⟩ := lastWith_split h
  obtain ⟨l₁, l₂, rfl, _, htail⟩ := List.filterMap_eq_append_iff.mp hsplit
  obtain ⟨l₃, b, l₄, rfl, _, hb, hrest⟩ := List.filterMap_eq_cons_iff.mp htail
  refine ⟨l₁ ++ l₃, b, l₄, by simp, hb, fun b' hb' a' ha' => hpost a' ?_⟩
  rw [← hrest]
  exact List.mem_filterMap.mpr ⟨b', hb', ha'⟩

/-- An element of another kind can be left out. -/
theorem lastWith_dropped {p : A → Bool} {pre post : List A} {a : A} (h : p a = false) :
    lastWith p (pre ++ a :: post) = lastWith p (pre ++ post) := by
  simp [lastWith, h]

/-! ## The pure map -/

/-- The calls on the map. `drop p` removes every key that satisfies `p`. -/
inductive Call (K V T : Type) where
  | get (k : K) (now : T)
  | set (k : K) (v : V) (ttl : T) (now : T)
  | remove (k : K)
  | drop (p : K → Bool)

/-- The calls that can change what a read of `k` finds. -/
def Call.concerns [DecidableEq K] (k : K) : Call K V T → Bool
  | .get _ _ => false
  | .set k' _ _ _ => k' = k
  | .remove k' => k' = k
  | .drop p => p k

/-- The contents: a value and the time it expires. -/
abbrev Store (K V T : Type) : Type := K → Option (V × T)

variable [DecidableEq K]

/-- The pure map's step. A read changes nothing. -/
def Store.apply [Add T] (m : Store K V T) : Call K V T → Store K V T
  | .get _ _ => m
  | .set k v ttl now => Function.update m k (some (v, now + ttl))
  | .remove k => Function.update m k none
  | .drop p => fun k => if p k then none else m k

/-- A call leaves the keys that it does not concern. -/
theorem Store.apply_of_not_concerns [Add T] (m : Store K V T) {c : Call K V T} {k : K}
    (h : c.concerns k = false) : m.apply c k = m k := by
  cases c with
  | get k' now => rfl
  | set k' v ttl now =>
      have hk : k' ≠ k := by simpa [Call.concerns] using h
      simp [Store.apply, Function.update_of_ne (Ne.symm hk)]
  | remove k' =>
      have hk : k' ≠ k := by simpa [Call.concerns] using h
      simp [Store.apply, Function.update_of_ne (Ne.symm hk)]
  | drop p =>
      have hp : p k = false := h
      simp [Store.apply, hp]

/-- A call works on each key by itself. -/
theorem Store.apply_congr [Add T] {m m' : Store K V T} {k : K} (h : m k = m' k)
    (c : Call K V T) : m.apply c k = m'.apply c k := by
  cases c with
  | get k' now => exact h
  | set k' v ttl now =>
      by_cases hk : k = k'
      · subst hk; simp [Store.apply]
      · simpa [Store.apply, Function.update_of_ne hk] using h
  | remove k' =>
      by_cases hk : k = k'
      · subst hk; simp [Store.apply]
      · simpa [Store.apply, Function.update_of_ne hk] using h
  | drop p =>
      by_cases hp : p k = true
      · simp [Store.apply, hp]
      · simpa [Store.apply, hp] using h

def pureRun [Add T] (calls : List (Call K V T)) : Store K V T :=
  calls.foldl Store.apply fun _ => none

theorem pureRun_snoc [Add T] (calls : List (Call K V T)) (c : Call K V T) :
    pureRun (calls ++ [c]) = (pureRun calls).apply c := by
  simp [pureRun]

/-- **The last concerning call decides.** The pure map holds an entry for `k`
exactly when the last call that concerns `k` is a write of `k`. -/
theorem pureRun_eq_lastWith [Add T] (calls : List (Call K V T)) (k : K) :
    pureRun calls k =
      match lastWith (Call.concerns k) calls with
      | some (.set _ v ttl now) => some (v, now + ttl)
      | _ => none := by
  induction calls using List.reverseRecOn with
  | nil => rfl
  | append_singleton calls c ih =>
      rw [pureRun_snoc, lastWith_snoc]
      cases c with
      | get k' now => simpa [Store.apply, Call.concerns] using ih
      | set k' v ttl now =>
          by_cases h : k' = k
          · subst h; simp [Store.apply, Call.concerns]
          · simpa [Store.apply, Call.concerns, h, Function.update_of_ne (Ne.symm h)] using ih
      | remove k' =>
          by_cases h : k' = k
          · subst h; simp [Store.apply, Call.concerns]
          · simpa [Store.apply, Call.concerns, h, Function.update_of_ne (Ne.symm h)] using ih
      | drop p =>
          by_cases h : p k = true
          · simp [Store.apply, Call.concerns, h]
          · simpa [Store.apply, Call.concerns, h] using ih

/-! ## Lazy eviction -/

/-- The implementation agrees with the pure map but for entries it dropped,
whose expiry is `dead`. -/
def Evicted (dead : T → Prop) (impl pur : Store K V T) : Prop :=
  ∀ k, impl k = pur k ∨ impl k = none ∧ ∃ v e, pur k = some (v, e) ∧ dead e

omit [DecidableEq K] in
theorem Evicted.refl (dead : T → Prop) (m : Store K V T) : Evicted dead m m :=
  fun _ => Or.inl rfl

/-- A call that is not a read is performed the same way on both sides. -/
theorem Evicted.apply [Add T] {dead : T → Prop} {impl pur : Store K V T}
    (h : Evicted dead impl pur) (c : Call K V T) :
    Evicted dead (impl.apply c) (pur.apply c) := by
  intro k
  cases c with
  | get k' now => exact h k
  | set k' v ttl now =>
      by_cases hk : k = k'
      · subst hk; simp [Store.apply]
      · simpa [Store.apply, Function.update_of_ne hk] using h k
  | remove k' =>
      by_cases hk : k = k'
      · subst hk; simp [Store.apply]
      · simpa [Store.apply, Function.update_of_ne hk] using h k
  | drop p =>
      by_cases hp : p k = true
      · simp [Store.apply, hp]
      · simpa [Store.apply, hp] using h k

/-- Dropping a dead entry keeps the relation. -/
theorem Evicted.evict {dead : T → Prop} {impl pur : Store K V T}
    (h : Evicted dead impl pur) {k : K} {v : V} {e : T} (hk : impl k = some (v, e))
    (he : dead e) : Evicted dead (Function.update impl k none) pur := by
  intro k'
  by_cases hkk : k' = k
  · subst hkk
    right
    refine ⟨by simp, v, e, ?_, he⟩
    rcases h k' with heq | ⟨hnone, _⟩
    · rw [← heq, hk]
    · rw [hnone] at hk; exact absurd hk (by simp)
  · simpa [Function.update_of_ne hkk] using h k'

omit [DecidableEq K] in
/-- What the implementation holds, the pure map holds. -/
theorem Evicted.sound {dead : T → Prop} {impl pur : Store K V T}
    (h : Evicted dead impl pur) {k : K} {x : V × T} (hk : impl k = some x) :
    pur k = some x := by
  rcases h k with heq | ⟨hnone, _⟩
  · rw [← heq, hk]
  · rw [hnone] at hk; exact absurd hk (by simp)

omit [DecidableEq K] in
/-- **Reads agree.** If only entries that expired before `t` were dropped, a read
at `t` answers the same on both sides. -/
theorem Evicted.read [Preorder T] {t : T} {impl pur : Store K V T}
    (h : Evicted (· < t) impl pur) (k : K) (v : V) :
    (∃ e, impl k = some (v, e) ∧ t ≤ e) ↔ ∃ e, pur k = some (v, e) ∧ t ≤ e := by
  constructor
  · rintro ⟨e, hk, hle⟩
    exact ⟨e, h.sound hk, hle⟩
  · rintro ⟨e, hk, hle⟩
    rcases h k with heq | ⟨_, v', e', hp, he⟩
    · exact ⟨e, by rw [heq, hk], hle⟩
    · -- a dropped entry had expired before `t`
      rw [hk, Option.some.injEq, Prod.mk.injEq] at hp
      exact absurd hle (not_le_of_gt (hp.2 ▸ he))

end Framework.TtlMap
