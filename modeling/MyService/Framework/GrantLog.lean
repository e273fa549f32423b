import Mathlib.Algebra.Order.Group.Defs
import Mathlib.Algebra.Order.Sub.Defs
import Mathlib.Algebra.Order.Group.Unbundled.Basic
import Mathlib.Data.List.Basic
import Mathlib.Data.List.Induction
import Mathlib.Order.Basic

/-!
# Sliding windows over a full grant history

A limiter grants a request of key `k` at time `t` when fewer than `max` grants
of `k` carry a stamp from `t - window` on. The history is never pruned here:
`Admitted` are the histories such a limiter records, each grant stamped no
earlier than the reading it was decided with. `window_bound` is what they are
for: no closed interval of length `window` holds more than `max` grants of a key.

An implementation keeps, for each key, a queue cleaned from the front only.
`Pruned c` says that a queue holds the grants stamped from `c` on;
`Pruned.dropWhile` that cleaning a sorted queue moves `c` forward.
-/

namespace Framework.GrantLog

variable {K T : Type}

/-- The stamps recorded for `k`, oldest first. -/
def stamps [DecidableEq K] (k : K) (log : List (K × T)) : List T :=
  (log.filter fun g => g.1 = k).map Prod.snd

section Stamps

variable [DecidableEq K] {k : K} {log : List (K × T)}

@[simp] theorem stamps_nil : stamps k ([] : List (K × T)) = [] := rfl

theorem stamps_append (log log' : List (K × T)) :
    stamps k (log ++ log') = stamps k log ++ stamps k log' := by
  simp [stamps]

theorem stamps_snoc_self (log : List (K × T)) (s : T) :
    stamps k (log ++ [(k, s)]) = stamps k log ++ [s] := by
  simp [stamps]

theorem stamps_snoc_ne {k' : K} (h : k' ≠ k) (log : List (K × T)) (s : T) :
    stamps k (log ++ [(k', s)]) = stamps k log := by
  simp [stamps, h]

end Stamps

variable [LinearOrder T] [AddCommGroup T] [IsOrderedAddMonoid T] [DecidableEq K]

/-- The decision on the full history. -/
def Admits (max : ℕ) (window : T) (log : List (K × T)) (k : K) (t : T) : Prop :=
  ((stamps k log).filter fun s => t - window ≤ s).length < max

instance (max : ℕ) (window : T) (log : List (K × T)) (k : K) (t : T) :
    Decidable (Admits max window log k t) :=
  inferInstanceAs (Decidable (_ < _))

/-- The histories of a limiter: each grant was admitted at a reading `t` and
stamped at a reading `s` made no earlier. -/
inductive Admitted (max : ℕ) (window : T) : List (K × T) → Prop where
  | nil : Admitted max window []
  | snoc {log : List (K × T)} {k : K} {t s : T} (h : Admitted max window log)
      (hadm : Admits max window log k t) (hts : t ≤ s) :
      Admitted max window (log ++ [(k, s)])

/-- **Window bound.** No closed interval of length `window` holds more than `max`
grants of one key. -/
theorem window_bound {max : ℕ} {window : T} {log : List (K × T)}
    (h : Admitted max window log) (k : K) (a : T) :
    ((stamps k log).filter fun s => a ≤ s ∧ s ≤ a + window).length ≤ max := by
  induction h with
  | nil => simp
  | @snoc log k' t s _ hadm hts ih =>
      by_cases hk : k' = k
      · subst hk
        rw [stamps_snoc_self, List.filter_append]
        by_cases hs : a ≤ s ∧ s ≤ a + window
        · -- Each earlier grant in the interval still counted when this one was decided.
          have hcut : t - window ≤ a := by
            rw [sub_le_iff_le_add]
            exact le_trans hts hs.2
          have hsub : ((stamps k' log).filter fun s => a ≤ s ∧ s ≤ a + window).length ≤
              ((stamps k' log).filter fun s => t - window ≤ s).length := by
            apply List.Sublist.length_le
            apply List.monotone_filter_right
            intro s' hs'
            simp only [decide_eq_true_eq] at hs' ⊢
            exact le_trans hcut hs'.1
          have hlt : ((stamps k' log).filter fun s => t - window ≤ s).length < max := hadm
          have hone : ([s].filter fun s => decide (a ≤ s ∧ s ≤ a + window)).length = 1 := by
            simp [hs]
          rw [List.length_append, hone]
          omega
        · have hzero : ([s].filter fun s => decide (a ≤ s ∧ s ≤ a + window)) = [] := by
            simp only [List.filter_eq_nil_iff, List.mem_singleton, decide_eq_true_eq]
            rintro s' rfl
            exact hs
          rw [hzero, List.append_nil]
          exact ih
      · rw [stamps_snoc_ne hk]
        exact ih

/-! ## Queues cleaned from the front -/

/-- `q` holds the stamps of the full history from the cutoff `c` on. -/
def Pruned (c : T) (full q : List T) : Prop := q = full.filter fun s => c ≤ s

omit [AddCommGroup T] [IsOrderedAddMonoid T] in
/-- In a sorted queue the stamps before a cutoff are at the front. -/
theorem dropWhile_eq_filter {q : List T} (hq : q.Pairwise (· ≤ ·)) (c : T) :
    q.dropWhile (fun s => s < c) = q.filter fun s => c ≤ s := by
  induction q with
  | nil => rfl
  | cons s q ih =>
      obtain ⟨hs, hq'⟩ := List.pairwise_cons.mp hq
      by_cases h : s < c
      · rw [List.dropWhile_cons_of_pos (by simpa using h), ih hq',
          List.filter_cons_of_neg (by simpa using h)]
      · rw [List.dropWhile_cons_of_neg (by simpa using h), eq_comm, List.filter_eq_self]
        intro s' hs'
        have hcs : c ≤ s := le_of_not_gt h
        rcases List.mem_cons.mp hs' with rfl | hm
        · simpa using hcs
        · simpa using le_trans hcs (hs s' hm)

omit [AddCommGroup T] [IsOrderedAddMonoid T] in
/-- **Cleaning.** Popping the stamps before a later cutoff from the front moves
the cutoff. -/
theorem Pruned.dropWhile {c c' : T} {full q : List T} (h : Pruned c full q)
    (hfull : full.Pairwise (· ≤ ·)) (hc : c ≤ c') :
    Pruned c' full (q.dropWhile fun s => s < c') := by
  have hq : q.Pairwise (· ≤ ·) := by
    rw [h]
    exact hfull.filter _
  rw [Pruned, dropWhile_eq_filter hq, h, List.filter_filter]
  refine List.filter_congr ?_
  intro s _
  by_cases hs : c' ≤ s
  · simp [hs, le_trans hc hs]
  · simp [hs]

omit [AddCommGroup T] [IsOrderedAddMonoid T] in
/-- A new stamp at or after the cutoff goes to the back of both. -/
theorem Pruned.snoc {c s : T} {full q : List T} (h : Pruned c full q) (hs : c ≤ s) :
    Pruned c (full ++ [s]) (q ++ [s]) := by
  rw [Pruned, h, List.filter_append]
  simp [hs]

/-! ## Moving windows -/

omit [AddCommGroup T] [IsOrderedAddMonoid T] in
/-- A later cutoff takes something out of a sorted queue exactly when it takes out the
oldest stamp. -/
theorem length_filter_lt_iff {q : List T} (hq : q.Pairwise (· ≤ ·)) {a : T}
    (ha : q.head? = some a) (c : T) :
    (q.filter fun s => c ≤ s).length < q.length ↔ a < c := by
  obtain ⟨q, rfl⟩ := List.head?_eq_some_iff.mp ha
  rw [List.length_filter_lt_length_iff_exists]
  constructor
  · rintro ⟨s, hs, hlt⟩
    have hlt : s < c := by simpa using hlt
    rcases List.mem_cons.mp hs with rfl | hm
    · exact hlt
    · exact lt_of_le_of_lt ((List.pairwise_cons.mp hq).1 s hm) hlt
  · intro hlt
    exact ⟨a, List.mem_cons_self, by simpa using hlt⟩

omit [AddCommGroup T] [IsOrderedAddMonoid T] in
/-- When the cutoff moves on while grants are added, the count loses what expired and gains
what was taken since. -/
theorem length_filter_moved {c c' : T} (hc : c ≤ c') (old new : List T) :
    ((old ++ new).filter fun s => c' ≤ s).length +
        (old.filter fun s => c ≤ s ∧ s < c').length =
      (old.filter fun s => c ≤ s).length + (new.filter fun s => c' ≤ s).length := by
  have hsplit : (old.filter fun s => c' ≤ s).length + (old.filter fun s => c ≤ s ∧ s < c').length =
      (old.filter fun s => c ≤ s).length := by
    induction old with
    | nil => rfl
    | cons s old ih =>
        by_cases hs : c' ≤ s
        · have hcs : c ≤ s := le_trans hc hs
          rw [List.filter_cons_of_pos (by simpa using hs),
            List.filter_cons_of_neg (by simpa using fun _ => hs),
            List.filter_cons_of_pos (by simpa using hcs), List.length_cons, List.length_cons]
          omega
        · rw [List.filter_cons_of_neg (by simpa using hs)]
          by_cases hcs : c ≤ s
          · rw [List.filter_cons_of_pos (by simpa using ⟨hcs, lt_of_not_ge hs⟩),
              List.filter_cons_of_pos (by simpa using hcs), List.length_cons, List.length_cons]
            omega
          · rw [List.filter_cons_of_neg (by simpa using fun h => absurd h hcs),
              List.filter_cons_of_neg (by simpa using hcs)]
            exact ih
  rw [List.filter_append, List.length_append]
  omega

end Framework.GrantLog
