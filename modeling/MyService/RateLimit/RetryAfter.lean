import MyService.Handlers.AuthHandlers
import MyService.RateLimit.Quota

/-!
# Retry-After

`GetInfo` reports the whole window as the time to wait, whatever is in the deque. A slot
comes free when the oldest stamp that counts is strictly more than a window old, and
nothing else matters until then (`retry_granted_iff`); so the report is exact only where
that stamp is at most one second old and older than the denial.
-/

namespace MyService.RateLimit.SlidingWindowLimiter

open Framework Framework.GrantLog Chrono Userver Handlers

/-- The calls between a denial of `k` at `t` and a retry at `t'`: any, but none of them
grants `k` a slot. -/
structure Between (maxRequests windowSeconds : Int) (calls : List Call) (k : String)
    (t t' : Int) (held : List Call) : Prop where
  ordered : NonDecreasing held
  during : ∀ c ∈ held, ∀ a ∈ c.readings, t ≤ a ∧ a ≤ t'
  noGrant : ∀ pre c post, held = pre ++ c :: post →
    NoGrant maxRequests windowSeconds (calls ++ pre) k c

/-- The denied `TryAcquire(k)` and the `GetInfo(k)` of its answer. -/
def rejection (k : String) (t : Int) : List Call := [.tryAcquire k t t, .getInfo k t]

/-- A retry `n` seconds after the denial is answered by `granted`, whatever happened in
between. -/
def RetryAnswered (maxRequests windowSeconds : Int) (calls : List Call) (k : String) (t : Int)
    (granted : Bool) (n : ℕ) : Prop :=
  ∀ held stamp, Between maxRequests windowSeconds (calls ++ rejection k t) k t
      (t + n * ticksPerSecond) held →
    ((run maxRequests windowSeconds (calls ++ rejection k t ++ held)).limiter.tryAcquire k
      (t + n * ticksPerSecond) stamp).1 = granted

/-- What a client denied at `t` is told: the `reset_seconds` of `GetInfo`, which the login
handler sends in two headers. -/
structure Told (l : SlidingWindowLimiter) (k : String) (t : Int) (n : ℕ) : Prop where
  reported : ((l.tryAcquire k t t).2.getInfo k t).1.resetSeconds = n
  sent : ∀ (u : Userver) (request : HttpRequest) (cs : ℕ → Choice) (w : World),
    request.remoteAddress = k → w.limiter = l → (cs 0).steady = t → (cs 1).steady = t →
      ∃ response, ((loginHandler u request).exec perform cs w).1 = .ok response ∧
        response.status = 429 ∧
        response.headers.lookup "X-RateLimit-Reset" = some (toString n) ∧
        response.headers.lookup "Retry-After" = some (toString n)

/-- The client is told the least number of seconds after which it is let in. -/
def RetryAfterExact (maxRequests windowSeconds : Int) (calls : List Call) (k : String)
    (t : Int) : Prop :=
  ∃ n : ℕ, Told (run maxRequests windowSeconds calls).limiter k t n ∧
    RetryAnswered maxRequests windowSeconds calls k t true n ∧
    ∀ m < n, RetryAnswered maxRequests windowSeconds calls k t false m

/-- The oldest grant of `k` that counts at `t`. -/
def oldest (windowSeconds : Int) (r : Recorded) (k : String) (t : Int) : Option Int :=
  ((stamps k r.grants).filter fun s => t - windowSeconds * ticksPerSecond ≤ s).head?

section Denied

variable {maxRequests windowSeconds t t' : Int} {calls held : List Call} {k : String}

/-- Calls that grant nothing to `k` leave its history. -/
theorem stamps_run_between (h : Between maxRequests windowSeconds calls k t t' held) :
    stamps k (run maxRequests windowSeconds (calls ++ held)).grants =
      stamps k (run maxRequests windowSeconds calls).grants := by
  have hnoGrant := h.noGrant
  clear h
  induction held using List.reverseRecOn with
  | nil => rw [List.append_nil]
  | append_singleton held c ih =>
      rw [← List.append_assoc, run_snoc, stamps_apply_noGrant (hnoGrant held c [] rfl)]
      refine ih ?_
      rintro pre d post rfl
      refine hnoGrant pre d (post ++ [c]) ?_
      rw [List.append_assoc, List.cons_append]

/-- The rejection is itself one of the things that may happen from `t` on. -/
theorem Between.rejected (h : Between maxRequests windowSeconds (calls ++ rejection k t) k t t'
      held) (htt' : t ≤ t')
    (hdenied : ((run maxRequests windowSeconds calls).limiter.tryAcquire k t t).1 = false) :
    Between maxRequests windowSeconds calls k t t' (rejection k t ++ held) := by
  refine ⟨?_, ?_, ?_⟩
  · have hstart : NonDecreasing (rejection k t) := by simp [NonDecreasing, rejection, Call.readings]
    unfold NonDecreasing at hstart ⊢
    rw [List.flatMap_append, List.pairwise_append]
    refine ⟨hstart, h.ordered, ?_⟩
    intro a ha b hb
    obtain rfl : a = t := by simpa [rejection, Call.readings] using ha
    obtain ⟨c, hc, hbc⟩ := List.mem_flatMap.mp hb
    exact (h.during c hc b hbc).1
  · intro c hc a ha
    rcases List.mem_append.mp hc with hm | hm
    · obtain rfl : a = t := by
        rcases List.mem_pair.mp hm with rfl | rfl
        · simpa [Call.readings] using ha
        · simpa [Call.readings] using ha
      exact ⟨le_refl a, htt'⟩
    · exact h.during c hm a ha
  · intro pre c post hsplit
    cases pre with
    | nil =>
        obtain ⟨rfl, _⟩ := List.cons.inj hsplit
        rintro _ _ ⟨⟩
        rwa [List.append_nil]
    | cons d pre =>
        obtain ⟨hd, hrest⟩ := List.cons.inj hsplit
        cases pre with
        | nil =>
            obtain ⟨rfl, _⟩ := List.cons.inj hrest
            rintro _ _ ⟨⟩
        | cons d' pre =>
            obtain ⟨hd', hheld⟩ := List.cons.inj hrest
            have hnoGrant := h.noGrant pre c post hheld
            rw [List.append_assoc] at hnoGrant
            rw [← hd, ← hd']
            exact hnoGrant

/-- With a positive quota, some grant counts at a denial. -/
theorem exists_oldest (hmax : 1 ≤ maxRequests) (hint : maxRequests < 2 ^ 31)
    (hw : 0 ≤ windowSeconds) (hmono : NonDecreasing calls)
    (ht : ∀ a ∈ calls.flatMap Call.readings, a ≤ t)
    (hdenied : ((run maxRequests windowSeconds calls).limiter.tryAcquire k t t).1 = false) :
    ∃ a, oldest windowSeconds (run maxRequests windowSeconds calls) k t = some a := by
  have hfull := counted_of_denied (by omega) hint hw hmono ht hdenied
  cases hhead : oldest windowSeconds (run maxRequests windowSeconds calls) k t with
  | some a => exact ⟨a, rfl⟩
  | none =>
      have hempty : counted windowSeconds (run maxRequests windowSeconds calls) k t = 0 := by
        rw [counted, List.head?_eq_none_iff.mp hhead]
        rfl
      omega

/-- **When a retry is granted.** As soon as the oldest grant that counted at the denial is
more than a window old, whatever else is called in between. -/
theorem retry_granted_iff (hmax : 1 ≤ maxRequests) (hint : maxRequests < 2 ^ 31)
    (hw : 0 ≤ windowSeconds) (hmono : NonDecreasing calls)
    (ht : ∀ a ∈ calls.flatMap Call.readings, a ≤ t) (htt' : t ≤ t')
    (hdenied : ((run maxRequests windowSeconds calls).limiter.tryAcquire k t t).1 = false)
    (hheld : Between maxRequests windowSeconds (calls ++ rejection k t) k t t' held)
    {a : Int} (ha : oldest windowSeconds (run maxRequests windowSeconds calls) k t = some a)
    (stamp : Int) :
    ((run maxRequests windowSeconds (calls ++ rejection k t ++ held)).limiter.tryAcquire k t'
      stamp).1 = true ↔ a < t' - windowSeconds * ticksPerSecond := by
  have hbetween := hheld.rejected htt' hdenied
  have hreadings : ∀ b ∈ (rejection k t ++ held).flatMap Call.readings, t ≤ b ∧ b ≤ t' := by
    intro b hb
    obtain ⟨c, hc, hbc⟩ := List.mem_flatMap.mp hb
    exact hbetween.during c hc b hbc
  have hmono' : NonDecreasing (calls ++ (rejection k t ++ held)) := by
    unfold NonDecreasing
    rw [List.flatMap_append, List.pairwise_append]
    exact ⟨hmono, hbetween.ordered, fun b hb b' hb' => le_trans (ht b hb) (hreadings b' hb').1⟩
  have hinv' : Inv maxRequests windowSeconds t'
      (run maxRequests windowSeconds (calls ++ (rejection k t ++ held))) := by
    refine run_inv hw hmono' ?_
    intro b hb
    rw [List.flatMap_append] at hb
    rcases List.mem_append.mp hb with hm | hm
    · exact le_trans (ht b hm) htt'
    · exact (hreadings b hm).2
  -- what counts at the retry is what is left of what counted at the denial
  have hleft : counted windowSeconds
      (run maxRequests windowSeconds (calls ++ (rejection k t ++ held))) k t' =
      (((stamps k (run maxRequests windowSeconds calls).grants).filter
        fun s => t - windowSeconds * ticksPerSecond ≤ s).filter
          fun s => t' - windowSeconds * ticksPerSecond ≤ s).length := by
    rw [counted, stamps_run_between hbetween, List.filter_filter]
    congr 1
    refine List.filter_congr ?_
    intro s _
    by_cases hs : t' - windowSeconds * ticksPerSecond ≤ s
    · have hs' : t - windowSeconds * ticksPerSecond ≤ s := by omega
      simp [hs, hs']
    · simp [hs]
  have hinv : Inv maxRequests windowSeconds t (run maxRequests windowSeconds calls) :=
    run_inv hw hmono ht
  have hfull := counted_of_denied (by omega) hint hw hmono ht hdenied
  have hshift := length_filter_lt_iff ((hinv.sorted k).filter _) ha
    (t' - windowSeconds * ticksPerSecond)
  rw [counted] at hfull
  rw [List.append_assoc, hinv'.grants_iff (by omega) hint, hleft, ← hshift]
  omega

/-- Nothing at all may happen in between. -/
theorem between_nil : Between maxRequests windowSeconds calls k t t' [] where
  ordered := List.Pairwise.nil
  during _ hc := absurd hc List.not_mem_nil
  noGrant pre _ _ hsplit := absurd hsplit.symm (by simp)

theorem retryAnswered_iff (hmax : 1 ≤ maxRequests) (hint : maxRequests < 2 ^ 31)
    (hw : 0 ≤ windowSeconds) (hmono : NonDecreasing calls)
    (ht : ∀ a ∈ calls.flatMap Call.readings, a ≤ t)
    (hdenied : ((run maxRequests windowSeconds calls).limiter.tryAcquire k t t).1 = false)
    {a : Int} (ha : oldest windowSeconds (run maxRequests windowSeconds calls) k t = some a)
    (granted : Bool) (n : ℕ) :
    RetryAnswered maxRequests windowSeconds calls k t granted n ↔
      (granted = true ↔ a < t + n * ticksPerSecond - windowSeconds * ticksPerSecond) := by
  have hlater : t ≤ t + n * ticksPerSecond := by
    have hpos : 0 ≤ (n : Int) * ticksPerSecond := Int.mul_nonneg (by omega) (by decide)
    omega
  have hiff := fun held (hheld : Between maxRequests windowSeconds (calls ++ rejection k t) k t
      (t + n * ticksPerSecond) held) stamp =>
    retry_granted_iff hmax hint hw hmono ht hlater hdenied hheld ha stamp
  constructor
  · intro h
    rw [← h [] 0 between_nil]
    exact hiff [] between_nil 0
  · intro h held stamp hheld
    rw [Bool.eq_iff_iff, hiff held hheld stamp, h]

end Denied

theorem getInfo_resetSeconds (l : SlidingWindowLimiter) (key : String) (now : Int) :
    (l.getInfo key now).1.resetSeconds = l.windowSize := by
  unfold getInfo
  split <;> rfl

/-- A denied login is answered with the report. -/
theorem told_iff {l : SlidingWindowLimiter} {k : String} {t : Int}
    (hdenied : (l.tryAcquire k t t).1 = false) (n : ℕ) :
    Told l k t n ↔ l.windowSize = n := by
  constructor
  · intro h
    rw [← h.reported, getInfo_resetSeconds, tryAcquire_windowSize]
  · intro hn
    refine ⟨?_, ?_⟩
    · rw [getInfo_resetSeconds, tryAcquire_windowSize, hn]
    · rintro u request cs w rfl rfl rfl hreport
      -- the decision does not depend on the reading that would stamp a grant
      have hanswer : (perform (.tryAcquire request.remoteAddress) (cs 0) w).2 = false := by
        show (w.limiter.tryAcquire request.remoteAddress (cs 0).steady (cs 0).stamp).1 = false
        rw [← Bool.not_eq_true, tryAcquire_fst] at hdenied ⊢
        exact hdenied
      have hreset : ∀ w' : World, w'.limiter.windowSize = n →
          (perform (.getInfo request.remoteAddress) (cs 1) w').2.resetSeconds = n :=
        fun w' hw' => (getInfo_resetSeconds _ _ _).trans hw'
      have hkept : (perform (.tryAcquire request.remoteAddress) (cs 0) w).1.limiter.windowSize =
          n := (tryAcquire_windowSize _ _ _ _).trans hn
      simp only [loginHandler, MyService.tryAcquire, MyService.getInfo, Prog.ask_bind_eq,
        Prog.exec_call, hanswer, Bool.not_false, if_true, Prog.pure_eq, Prog.exec_pure]
      refine ⟨_, rfl, rfl, ?_, ?_⟩
      · show some (toString _) = _
        rw [hreset _ hkept]
        rfl
      · show some (toString _) = _
        rw [hreset _ hkept]
        rfl

/-- **When `Retry-After` is exact.** Only where the oldest grant that counts at the denial
was stamped before it, by one second at most. -/
theorem retryAfter_exact_iff {maxRequests windowSeconds t : Int} {calls : List Call}
    {k : String} (hmax : 1 ≤ maxRequests) (hint : maxRequests < 2 ^ 31)
    (hw : 1 ≤ windowSeconds) (hmono : NonDecreasing calls)
    (ht : ∀ a ∈ calls.flatMap Call.readings, a ≤ t)
    (hdenied : ((run maxRequests windowSeconds calls).limiter.tryAcquire k t t).1 = false) :
    RetryAfterExact maxRequests windowSeconds calls k t ↔
      ∃ a, oldest windowSeconds (run maxRequests windowSeconds calls) k t = some a ∧
        t - ticksPerSecond ≤ a ∧ a < t := by
  have hw' : 0 ≤ windowSeconds := by omega
  obtain ⟨a, ha⟩ := exists_oldest hmax hint hw' hmono ht hdenied
  have hsize : (run maxRequests windowSeconds calls).limiter.windowSize = windowSeconds :=
    (run_inv hw' hmono ht).windowSize
  have hticks : ticksPerSecond = 1000000000 := rfl
  have hanswered := retryAnswered_iff hmax hint hw' hmono ht hdenied ha
  constructor
  · rintro ⟨n, htold, hgranted, hdenied'⟩
    rw [told_iff hdenied, hsize] at htold
    subst htold
    refine ⟨a, ha, ?_, ?_⟩
    · -- one second less was not enough
      have hlast := (hanswered false (n - 1)).mp (hdenied' (n - 1) (by omega))
      simp only [Bool.false_eq_true, false_iff, hticks] at hlast
      omega
    · have hfirst := ((hanswered true n).mp hgranted).mp rfl
      omega
  · rintro ⟨b, hb, hrecent, hbefore⟩
    obtain rfl : a = b := Option.some.inj (ha.symm.trans hb)
    refine ⟨windowSeconds.toNat, (told_iff hdenied _).mpr ?_, ?_, ?_⟩
    · rw [hsize, Int.toNat_of_nonneg hw']
    · rw [hanswered, Int.toNat_of_nonneg hw']
      simpa using hbefore
    · intro m hm
      rw [hanswered]
      simp only [Bool.false_eq_true, false_iff, hticks]
      omega

/-- Five logins at the start, one denied half a second later: a minute is right. -/
theorem retryAfter_exact_iff_half :
    RetryAfterExact 5 60 (List.replicate 5 (.tryAcquire "10.0.0.1" 0 0)) "10.0.0.1" 500000000 :=
  (retryAfter_exact_iff (by decide) (by decide) (by decide)
    (by simp [NonDecreasing, Call.readings]) (by simp [Call.readings]) (by decide)).mpr
    ⟨0, by decide, by decide, by decide⟩

/-- Denied half a minute later, a client is let in after 31 seconds and told to wait 60. -/
theorem retryAfter_not_exact :
    ((run 5 60 (List.replicate 5 (.tryAcquire "10.0.0.1" 0 0))).limiter.tryAcquire "10.0.0.1"
        30000000000 30000000000).1 = false ∧
      ¬RetryAfterExact 5 60 (List.replicate 5 (.tryAcquire "10.0.0.1" 0 0)) "10.0.0.1"
        30000000000 := by
  refine ⟨by decide, ?_⟩
  rintro ⟨n, htold, -, hlate⟩
  have hn : n = 60 := Int.ofNat_inj.mp (htold.reported.symm.trans (by decide))
  subst hn
  have hdenied : ((run 5 60 (List.replicate 5 (.tryAcquire "10.0.0.1" 0 0) ++
      rejection "10.0.0.1" 30000000000)).limiter.tryAcquire "10.0.0.1"
        (30000000000 + (31 : ℕ) * ticksPerSecond) 61000000000).1 = false := by
    have hanswer := hlate 31 (by decide) [] 61000000000 between_nil
    rwa [List.append_nil] at hanswer
  exact absurd hdenied (by decide)

end MyService.RateLimit.SlidingWindowLimiter
