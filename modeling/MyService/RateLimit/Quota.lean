import MyService.RateLimit.SlidingWindow

/-!
# What GetInfo promises

`TryAcquire` compares the size of a cleaned deque with `max_requests`, `GetInfo` subtracts
one from the other. `counted` is the number of grants that both go by at one instant;
a granted call takes it up by one and nothing else changes it, so the `remaining` that
`GetInfo` reports is the number of calls that will be granted (`getInfo_predicts`).
-/

namespace MyService.RateLimit.SlidingWindowLimiter

open Framework Framework.GrantLog Chrono

/-- A key that was never asked about has a whole quota, as one with an empty deque. -/
theorem getInfo_remaining {l : SlidingWindowLimiter} (hmax : 0 ≤ l.maxRequests) (key : String)
    (now : Int) :
    (l.getInfo key now).1.remaining =
      max 0 (l.maxRequests - ((l.cleaned key now).length : Int)) := by
  unfold getInfo cleaned cleanExpired queue
  cases h : l.windows.lookup key with
  | none => simp [hmax]
  | some state => rfl

/-- The grants of `k` that count at `t`. -/
def counted (windowSeconds : Int) (r : Recorded) (k : String) (t : Int) : ℕ :=
  ((stamps k r.grants).filter fun s => t - windowSeconds * ticksPerSecond ≤ s).length

section Counted

variable {maxRequests windowSeconds t : Int} {r : Recorded}

theorem Inv.counted (h : Inv maxRequests windowSeconds t r) (k : String) :
    (r.limiter.cleaned k t).length = counted windowSeconds r k t := by
  rw [h.cleaned k]
  rfl

theorem Inv.grants_iff (h : Inv maxRequests windowSeconds t r) (hmax : 0 ≤ maxRequests)
    (hint : maxRequests < 2 ^ 31) (k : String) (s : Int) :
    (r.limiter.tryAcquire k t s).1 = true ↔
      (SlidingWindowLimiter.counted windowSeconds r k t : Int) < maxRequests := by
  rw [tryAcquire_fst, h.counted k, h.maxRequests, toSizeT_lt hmax hint]

theorem Inv.remaining (h : Inv maxRequests windowSeconds t r) (hmax : 0 ≤ maxRequests)
    (k : String) :
    (r.limiter.getInfo k t).1.remaining =
      max 0 (maxRequests - (SlidingWindowLimiter.counted windowSeconds r k t : Int)) := by
  have hlimit : 0 ≤ r.limiter.maxRequests := by
    rw [h.maxRequests]
    exact hmax
  rw [getInfo_remaining hlimit, h.counted k, h.maxRequests]

end Counted

/-- A `TryAcquire` of `k`. -/
def Call.acquires (k : String) : Call → Bool
  | .tryAcquire key _ _ => key = k
  | .getInfo _ _ => false

section Held

variable {maxRequests windowSeconds t : Int} {calls held : List Call}

/-- Calls at one instant after the others keep the readings in order. -/
theorem NonDecreasing.append_held (hmono : NonDecreasing calls)
    (ht : ∀ a ∈ calls.flatMap Call.readings, a ≤ t)
    (hheld : ∀ c ∈ held, ∀ a ∈ c.readings, a = t) : NonDecreasing (calls ++ held) := by
  have hsame : ∀ a ∈ held.flatMap Call.readings, a = t := by
    intro a ha
    obtain ⟨c, hc, hac⟩ := List.mem_flatMap.mp ha
    exact hheld c hc a hac
  unfold NonDecreasing
  rw [List.flatMap_append, List.pairwise_append]
  refine ⟨hmono, ?_, ?_⟩
  · refine List.pairwise_of_forall_mem_list ?_
    intro a ha b hb
    rw [hsame a ha, hsame b hb]
  · intro a ha b hb
    rw [hsame b hb]
    exact ht a ha

/-- The readings so far, those at the instant included, are not past it. -/
theorem readings_held (ht : ∀ a ∈ calls.flatMap Call.readings, a ≤ t)
    (hheld : ∀ c ∈ held, ∀ a ∈ c.readings, a = t) :
    ∀ a ∈ (calls ++ held).flatMap Call.readings, a ≤ t := by
  intro a ha
  rw [List.flatMap_append] at ha
  rcases List.mem_append.mp ha with hm | hm
  · exact ht a hm
  · obtain ⟨c, hc, hac⟩ := List.mem_flatMap.mp hm
    exact (hheld c hc a hac).le

/-- At no instant do more than `max_requests` grants count. -/
theorem counted_le (hmax : 0 ≤ maxRequests) (hint : maxRequests < 2 ^ 31) (hw : 0 ≤ windowSeconds)
    (hmono : NonDecreasing calls) (ht : ∀ a ∈ calls.flatMap Call.readings, a ≤ t) (k : String) :
    (counted windowSeconds (run maxRequests windowSeconds calls) k t : Int) ≤ maxRequests := by
  have hinv : Inv maxRequests windowSeconds t (run maxRequests windowSeconds calls) :=
    run_inv hw hmono ht
  have hbound := grants_in_window_le hmax hint hw hmono k (t - windowSeconds * ticksPerSecond)
  have hsame : counted windowSeconds (run maxRequests windowSeconds calls) k t =
      ((stamps k (run maxRequests windowSeconds calls).grants).filter fun s =>
        t - windowSeconds * ticksPerSecond ≤ s ∧
          s ≤ t - windowSeconds * ticksPerSecond + windowSeconds * ticksPerSecond).length := by
    unfold counted
    congr 1
    refine List.filter_congr ?_
    intro s hs
    have hpast := hinv.past k s hs
    simp [hpast]
  rw [hsame]
  exact hbound

/-- A denial finds the quota used up to the last slot. -/
theorem counted_of_denied (hmax : 0 ≤ maxRequests) (hint : maxRequests < 2 ^ 31)
    (hw : 0 ≤ windowSeconds) (hmono : NonDecreasing calls)
    (ht : ∀ a ∈ calls.flatMap Call.readings, a ≤ t) {k : String} {s : Int}
    (hdenied : ((run maxRequests windowSeconds calls).limiter.tryAcquire k t s).1 = false) :
    (counted windowSeconds (run maxRequests windowSeconds calls) k t : Int) = maxRequests := by
  have hinv : Inv maxRequests windowSeconds t (run maxRequests windowSeconds calls) :=
    run_inv hw hmono ht
  have hle := counted_le hmax hint hw hmono ht k
  have hgrants := hinv.grants_iff hmax hint k s
  rw [hdenied] at hgrants
  have hnot : ¬((counted windowSeconds (run maxRequests windowSeconds calls) k t : Int) <
      maxRequests) := fun hlt => Bool.false_ne_true (hgrants.mpr hlt)
  omega

/-- A granted `TryAcquire` of the key adds the stamp of this instant, which counts. -/
theorem counted_apply_self (hw : 0 ≤ windowSeconds) (r : Recorded) (key : String) (t : Int) :
    counted windowSeconds (r.apply (.tryAcquire key t t)) key t =
      counted windowSeconds r key t + if (r.limiter.tryAcquire key t t).1 then 1 else 0 := by
  have hwindow : 0 ≤ windowSeconds * ticksPerSecond := Int.mul_nonneg hw (by decide)
  by_cases hgranted : (r.limiter.tryAcquire key t t).1 = true
  · simp only [counted, Recorded.apply]
    rw [if_pos hgranted, if_pos hgranted, stamps_snoc_self, List.filter_append]
    simp [hwindow]
  · simp only [counted, Recorded.apply]
    rw [if_neg hgranted, if_neg hgranted, Nat.add_zero]

/-- A call on another key adds nothing. -/
theorem counted_apply_other {key k : String} (hk : key ≠ k) (now stamp : Int) :
    counted windowSeconds ((run maxRequests windowSeconds calls).apply
        (.tryAcquire key now stamp)) k t =
      counted windowSeconds (run maxRequests windowSeconds calls) k t := by
  have hother : stamps k ((run maxRequests windowSeconds calls).apply
      (.tryAcquire key now stamp)).grants =
      stamps k (run maxRequests windowSeconds calls).grants := by
    refine stamps_apply_noGrant ?_
    rintro _ _ ⟨⟩
    exact absurd rfl hk
  rw [counted, hother]
  rfl

/-- What one call at the instant adds: one for a granted `TryAcquire` of `k`. -/
theorem counted_snoc (hmax : 0 ≤ maxRequests) (hint : maxRequests < 2 ^ 31)
    (hw : 0 ≤ windowSeconds) (hmono : NonDecreasing calls)
    (ht : ∀ a ∈ calls.flatMap Call.readings, a ≤ t) (k : String) {c : Call}
    (hc : ∀ a ∈ c.readings, a = t) :
    (counted windowSeconds (run maxRequests windowSeconds (calls ++ [c])) k t : Int) =
      min maxRequests
        (counted windowSeconds (run maxRequests windowSeconds calls) k t +
          if c.acquires k then 1 else 0) := by
  have hinv : Inv maxRequests windowSeconds t (run maxRequests windowSeconds calls) :=
    run_inv hw hmono ht
  have hle := counted_le hmax hint hw hmono ht k
  rw [run_snoc]
  cases c with
  | getInfo key now =>
      show (counted windowSeconds (run maxRequests windowSeconds calls) k t : Int) =
        min maxRequests (counted windowSeconds (run maxRequests windowSeconds calls) k t + 0)
      omega
  | tryAcquire key now stamp =>
      obtain rfl : now = t := hc now (by simp [Call.readings])
      obtain rfl : stamp = now := hc stamp (by simp [Call.readings])
      by_cases hk : key = k
      · subst hk
        have hgrants := hinv.grants_iff hmax hint key stamp
        rw [counted_apply_self hw, Call.acquires, decide_eq_true rfl, if_pos rfl]
        split <;> rename_i hgranted
        · rw [hgrants] at hgranted
          omega
        · rw [hgrants] at hgranted
          omega
      · rw [counted_apply_other hk, Call.acquires, decide_eq_false hk]
        show (counted windowSeconds (run maxRequests windowSeconds calls) k stamp : Int) =
          min maxRequests (counted windowSeconds (run maxRequests windowSeconds calls) k stamp + 0)
        omega

/-- After any calls at the instant, the `TryAcquire`s of `k` among them have been taken off
the quota. -/
theorem counted_held (hmax : 0 ≤ maxRequests) (hint : maxRequests < 2 ^ 31)
    (hw : 0 ≤ windowSeconds) (hmono : NonDecreasing calls)
    (ht : ∀ a ∈ calls.flatMap Call.readings, a ≤ t) (k : String)
    (hheld : ∀ c ∈ held, ∀ a ∈ c.readings, a = t) :
    (counted windowSeconds (run maxRequests windowSeconds (calls ++ held)) k t : Int) =
      min maxRequests
        (counted windowSeconds (run maxRequests windowSeconds calls) k t +
          held.countP (Call.acquires k)) := by
  induction held using List.reverseRecOn with
  | nil =>
      have hle := counted_le hmax hint hw hmono ht k
      simp [hle]
  | append_singleton held c ih =>
      have hheld' : ∀ d ∈ held, ∀ a ∈ d.readings, a = t := fun d hd =>
        hheld d (List.mem_append_left _ hd)
      rw [← List.append_assoc, counted_snoc hmax hint hw (hmono.append_held ht hheld')
        (readings_held ht hheld') k (hheld c (by simp)), ih hheld', List.countP_append,
        List.countP_singleton]
      split <;> push_cast <;> omega

/-- **`GetInfo` predicts admissions.** With the clock held, after any calls that have a
number of `TryAcquire(k)` among them, the next `TryAcquire(k)` is granted exactly when
that number is below the `remaining` reported at first, and `GetInfo` reports what is left
of it. -/
theorem getInfo_predicts (hmax : 0 ≤ maxRequests) (hint : maxRequests < 2 ^ 31)
    (hw : 0 ≤ windowSeconds) (hmono : NonDecreasing calls)
    (ht : ∀ a ∈ calls.flatMap Call.readings, a ≤ t) (k : String) :
    ∃ remaining, ((run maxRequests windowSeconds calls).limiter.getInfo k t).1.remaining =
        remaining ∧ 0 ≤ remaining ∧ remaining ≤ maxRequests ∧
      ∀ held : List Call, (∀ c ∈ held, ∀ a ∈ c.readings, a = t) →
        (∀ s, ((run maxRequests windowSeconds (calls ++ held)).limiter.tryAcquire k t s).1 = true ↔
          (held.countP (Call.acquires k) : Int) < remaining) ∧
        ((run maxRequests windowSeconds (calls ++ held)).limiter.getInfo k t).1.remaining =
          max 0 (remaining - held.countP (Call.acquires k)) := by
  have hinv : Inv maxRequests windowSeconds t (run maxRequests windowSeconds calls) :=
    run_inv hw hmono ht
  have hle := counted_le hmax hint hw hmono ht k
  refine ⟨_, hinv.remaining hmax k, by omega, by omega, ?_⟩
  intro held hheld
  have hinv' : Inv maxRequests windowSeconds t (run maxRequests windowSeconds (calls ++ held)) :=
    run_inv hw (hmono.append_held ht hheld) (readings_held ht hheld)
  have hcounted := counted_held hmax hint hw hmono ht k hheld
  refine ⟨fun s => ?_, ?_⟩
  · rw [hinv'.grants_iff hmax hint, hcounted]
    omega
  · rw [hinv'.remaining hmax, hcounted]
    omega

end Held

/-- One of two slots is taken: one more call is granted, the next is not. -/
theorem getInfo_predicts_half :
    ∃ remaining, ((run 2 1 [.tryAcquire "a" 0 0]).limiter.getInfo "a" 5).1.remaining = remaining ∧
      remaining = 1 ∧
      ((run 2 1 [.tryAcquire "a" 0 0]).limiter.tryAcquire "a" 5 5).1 = true ∧
      ((run 2 1 [.tryAcquire "a" 0 0, .tryAcquire "a" 5 5, .getInfo "b" 5]).limiter.tryAcquire "a"
        5 5).1 = false := by
  obtain ⟨remaining, hremaining, _, _, hheld⟩ := @getInfo_predicts 2 1 5 [.tryAcquire "a" 0 0]
    (by decide) (by decide) (by decide) (by simp [NonDecreasing, Call.readings])
    (by simp [Call.readings]) "a"
  have hone : remaining = 1 := hremaining.symm.trans (by decide)
  refine ⟨remaining, hremaining, hone, ?_, ?_⟩
  · exact ((hheld [] (by simp)).1 5).mpr (by rw [hone]; decide)
  · rw [← Bool.not_eq_true]
    intro hgranted
    have hlt := ((hheld [.tryAcquire "a" 5 5, .getInfo "b" 5] (by simp [Call.readings])).1 5).mp
      hgranted
    rw [hone] at hlt
    exact absurd hlt (by decide)

end MyService.RateLimit.SlidingWindowLimiter
