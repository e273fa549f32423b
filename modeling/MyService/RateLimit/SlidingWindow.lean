import MyService.Chrono
import MyService.Framework.GrantLog
import Mathlib.Algebra.Order.Group.Int
import Mathlib.Data.Int.Order.Basic
import Mathlib.Data.List.AList

/-!
# SlidingWindowLimiter

The limiter keeps, for each key, the stamps of its recent grants in a deque and
pops the expired ones from the front whenever it looks at the key. A call takes
the `steady_clock` readings it makes: one to expire, and one more to stamp a
grant.

`run_inv` ties each deque to the stamps of every grant ever made to its key;
with it the limiter decides as the unpruned history would
(`tryAcquire_refines_history`), and `Framework.GrantLog.window_bound` bounds its
grants over every closed window (`grants_in_window_le`).
-/

namespace MyService.RateLimit

open Framework Framework.GrantLog Chrono

structure RateLimitInfo where
  limit : Int
  remaining : Int
  resetSeconds : Int
deriving DecidableEq

/-- The stamps in the deque, front first. -/
structure WindowState where
  requests : List Int
deriving DecidableEq

structure SlidingWindowLimiter where
  maxRequests : Int
  windowSize : Int
  windows : AList fun _ : String => WindowState

/-- `static_cast<size_t>` of an `int`. -/
def toSizeT (n : Int) : ℕ := (n % 2 ^ 64).toNat

namespace SlidingWindowLimiter

def new (maxRequests windowSeconds : Int) : SlidingWindowLimiter :=
  { maxRequests := maxRequests, windowSize := windowSeconds, windows := ∅ }

/-- The window in clock ticks. -/
def windowTicks (l : SlidingWindowLimiter) : Int := l.windowSize * ticksPerSecond

def cleanExpired (l : SlidingWindowLimiter) (state : WindowState) (now : Int) :
    WindowState :=
  let cutoff := now - l.windowTicks
  { requests := state.requests.dropWhile fun s => s < cutoff }

/-- `windows_[key]` inserts an empty state for a new key. `now` is the reading of
`CleanExpired`, `stamp` that of `push_back`. -/
def tryAcquire (l : SlidingWindowLimiter) (key : String) (now stamp : Int) :
    Bool × SlidingWindowLimiter :=
  let state := (l.windows.lookup key).getD { requests := [] }
  let state := l.cleanExpired state now
  if state.requests.length ≥ toSizeT l.maxRequests then
    (false, { l with windows := l.windows.insert key state })
  else
    (true, { l with windows :=
      l.windows.insert key { requests := state.requests ++ [stamp] } })

/-- For a known key the clock is read once, in `CleanExpired`. -/
def getInfo (l : SlidingWindowLimiter) (key : String) (now : Int) :
    RateLimitInfo × SlidingWindowLimiter :=
  match l.windows.lookup key with
  | none =>
      ({ limit := l.maxRequests, remaining := l.maxRequests,
         resetSeconds := l.windowSize }, l)
  | some state =>
      let state := l.cleanExpired state now
      ({ limit := l.maxRequests
         remaining := max 0 (l.maxRequests - (state.requests.length : Int))
         resetSeconds := l.windowSize },
       { l with windows := l.windows.insert key state })

/-! ## Runs -/

/-- A call with its clock readings. A denied `tryAcquire` makes no second
reading; its `stamp` is then any value between its neighbours. -/
inductive Call where
  | tryAcquire (key : String) (now stamp : Int)
  | getInfo (key : String) (now : Int)

def Call.readings : Call → List Int
  | .tryAcquire _ now stamp => [now, stamp]
  | .getInfo _ now => [now]

/-- The readings of a run, in the order they are made, do not go back. -/
def NonDecreasing (calls : List Call) : Prop :=
  (calls.flatMap Call.readings).Pairwise (· ≤ ·)

/-- The limiter with the history of its grants: key and recorded stamp. -/
structure Recorded where
  limiter : SlidingWindowLimiter
  grants : List (String × Int)

def Recorded.apply (r : Recorded) : Call → Recorded
  | .tryAcquire key now stamp =>
      { limiter := (r.limiter.tryAcquire key now stamp).2
        grants :=
          if (r.limiter.tryAcquire key now stamp).1 then r.grants ++ [(key, stamp)]
          else r.grants }
  | .getInfo key now =>
      { r with limiter := (r.limiter.getInfo key now).2 }

def run (maxRequests windowSeconds : Int) (calls : List Call) : Recorded :=
  calls.foldl Recorded.apply { limiter := new maxRequests windowSeconds, grants := [] }

theorem run_snoc (maxRequests windowSeconds : Int) (calls : List Call) (c : Call) :
    run maxRequests windowSeconds (calls ++ [c]) =
      (run maxRequests windowSeconds calls).apply c := by
  simp [run]

/-- The deque of a key; a key without an entry has an empty one. -/
def queue (l : SlidingWindowLimiter) (key : String) : List Int :=
  ((l.windows.lookup key).getD { requests := [] }).requests

/-- The limiter with the queue of `key` replaced. -/
def withQueue (l : SlidingWindowLimiter) (key : String) (q : List Int) :
    SlidingWindowLimiter :=
  { l with windows := l.windows.insert key { requests := q } }

theorem withQueue_queue (l : SlidingWindowLimiter) (key k : String) (q : List Int) :
    (l.withQueue key q).queue k = if k = key then q else l.queue k := by
  by_cases hk : k = key
  · subst hk; simp [withQueue, queue, AList.lookup_insert]
  · simp [withQueue, queue, AList.lookup_insert_ne hk, hk]

/-- The queue of `key` after `CleanExpired` at `now`. -/
def cleaned (l : SlidingWindowLimiter) (key : String) (now : Int) : List Int :=
  (l.queue key).dropWhile fun s => s < now - l.windowTicks

/-- What `tryAcquire` can do: both branches store the cleaned queue of the key,
and a grant appends its stamp. -/
theorem tryAcquire_cases (l : SlidingWindowLimiter) (key : String) (now stamp : Int) :
    toSizeT l.maxRequests ≤ (l.cleaned key now).length ∧
      l.tryAcquire key now stamp = (false, l.withQueue key (l.cleaned key now)) ∨
    (l.cleaned key now).length < toSizeT l.maxRequests ∧
      l.tryAcquire key now stamp =
        (true, l.withQueue key (l.cleaned key now ++ [stamp])) := by
  by_cases h : toSizeT l.maxRequests ≤ (l.cleaned key now).length
  · exact Or.inl ⟨h, if_pos h⟩
  · exact Or.inr ⟨by omega, if_neg h⟩

theorem tryAcquire_fst (l : SlidingWindowLimiter) (key : String) (now stamp : Int) :
    (l.tryAcquire key now stamp).1 = true ↔
      (l.cleaned key now).length < toSizeT l.maxRequests := by
  rcases l.tryAcquire_cases key now stamp with ⟨h, heq⟩ | ⟨h, heq⟩
  · simp [heq, h]
  · simp [heq, h]

/-- `tryAcquire` only touches the queue of its key. -/
theorem tryAcquire_queue (l : SlidingWindowLimiter) (key k : String) (now stamp : Int) :
    (l.tryAcquire key now stamp).2.queue k =
      if k = key then
        if (l.tryAcquire key now stamp).1 then l.cleaned key now ++ [stamp]
        else l.cleaned key now
      else l.queue k := by
  rcases l.tryAcquire_cases key now stamp with ⟨_, heq⟩ | ⟨_, heq⟩
  · simp [heq, withQueue_queue]
  · simp [heq, withQueue_queue]

theorem getInfo_queue (l : SlidingWindowLimiter) (key k : String) (now : Int) :
    (l.getInfo key now).2.queue k =
      if k = key then l.cleaned key now else l.queue k := by
  unfold getInfo cleaned cleanExpired queue
  cases h : l.windows.lookup key with
  | none =>
      by_cases hk : k = key
      · subst hk; simp [h]
      · simp [hk]
  | some state =>
      by_cases hk : k = key
      · subst hk; simp [AList.lookup_insert]
      · simp [AList.lookup_insert_ne hk, hk]

@[simp] theorem tryAcquire_maxRequests (l : SlidingWindowLimiter) (key : String)
    (now stamp : Int) : (l.tryAcquire key now stamp).2.maxRequests = l.maxRequests := by
  rcases l.tryAcquire_cases key now stamp with ⟨_, heq⟩ | ⟨_, heq⟩ <;>
    simp [heq, withQueue]

@[simp] theorem tryAcquire_windowSize (l : SlidingWindowLimiter) (key : String)
    (now stamp : Int) : (l.tryAcquire key now stamp).2.windowSize = l.windowSize := by
  rcases l.tryAcquire_cases key now stamp with ⟨_, heq⟩ | ⟨_, heq⟩ <;>
    simp [heq, withQueue]

@[simp] theorem getInfo_maxRequests (l : SlidingWindowLimiter) (key : String)
    (now : Int) : (l.getInfo key now).2.maxRequests = l.maxRequests := by
  unfold getInfo
  split <;> rfl

@[simp] theorem getInfo_windowSize (l : SlidingWindowLimiter) (key : String)
    (now : Int) : (l.getInfo key now).2.windowSize = l.windowSize := by
  unfold getInfo
  split <;> rfl

/-! ## The deque against the full history -/

/-- What a run leaves, seen from a time `t` no reading is past: each queue is its
key's stamps from some cutoff on, and no later `CleanExpired` needs an older one. -/
structure Inv (maxRequests windowSeconds t : Int) (r : Recorded) : Prop where
  maxRequests : r.limiter.maxRequests = maxRequests
  windowSize : r.limiter.windowSize = windowSeconds
  sorted : ∀ k, (stamps k r.grants).Pairwise (· ≤ ·)
  past : ∀ k, ∀ s ∈ stamps k r.grants, s ≤ t
  pruned : ∀ k, ∃ c, c ≤ t - windowSeconds * ticksPerSecond ∧
    Pruned c (stamps k r.grants) (r.limiter.queue k)

theorem Inv.mono {maxRequests windowSeconds t t' : Int} {r : Recorded}
    (h : Inv maxRequests windowSeconds t r) (ht : t ≤ t') :
    Inv maxRequests windowSeconds t' r where
  maxRequests := h.maxRequests
  windowSize := h.windowSize
  sorted := h.sorted
  past k s hs := le_trans (h.past k s hs) ht
  pruned k := by
    obtain ⟨c, hc, hp⟩ := h.pruned k
    exact ⟨c, by omega, hp⟩

/-- Cleaning at `t` leaves the key's stamps that a window ending at `t` counts. -/
theorem Inv.cleaned {maxRequests windowSeconds t : Int} {r : Recorded}
    (h : Inv maxRequests windowSeconds t r) (k : String) :
    Pruned (t - windowSeconds * ticksPerSecond) (stamps k r.grants)
      (r.limiter.cleaned k t) := by
  obtain ⟨c, hc, hp⟩ := h.pruned k
  have hclean := hp.dropWhile (h.sorted k) hc
  unfold SlidingWindowLimiter.cleaned windowTicks
  rw [h.windowSize]
  exact hclean

/-- The limiter decides on its queue as the full history does. -/
theorem Inv.decides {maxRequests windowSeconds t : Int} {r : Recorded}
    (h : Inv maxRequests windowSeconds t r) (k : String) (stamp : Int) :
    (r.limiter.tryAcquire k t stamp).1 = true ↔
      Admits (toSizeT maxRequests) (windowSeconds * ticksPerSecond) r.grants k t := by
  rw [tryAcquire_fst, h.cleaned k, h.maxRequests]
  rfl

/-- A grant puts its stamp at the end of its key's history and queue. -/
theorem Inv.granted {maxRequests windowSeconds t s : Int} {r : Recorded}
    (h : Inv maxRequests windowSeconds t r) (key : String) (hts : t ≤ s)
    (hw : 0 ≤ windowSeconds) (hok : (r.limiter.tryAcquire key t s).1 = true) :
    Inv maxRequests windowSeconds s (r.apply (.tryAcquire key t s)) := by
  have hcut : t - windowSeconds * ticksPerSecond ≤ s := by
    have hwindow : 0 ≤ windowSeconds * ticksPerSecond := Int.mul_nonneg hw (by decide)
    omega
  have heq : (r.apply (.tryAcquire key t s)).grants = r.grants ++ [(key, s)] := by
    simp [Recorded.apply, hok]
  refine ⟨?_, ?_, ?_, ?_, ?_⟩
  · simpa [Recorded.apply] using h.maxRequests
  · simpa [Recorded.apply] using h.windowSize
  · intro k
    rw [heq]
    by_cases hk : key = k
    · subst hk
      rw [stamps_snoc_self, List.pairwise_append]
      refine ⟨h.sorted key, by simp, ?_⟩
      intro a ha b hb
      rw [List.mem_singleton.mp hb]
      exact le_trans (h.past key a ha) hts
    · rw [stamps_snoc_ne hk]
      exact h.sorted k
  · intro k a ha
    rw [heq] at ha
    by_cases hk : key = k
    · subst hk
      rw [stamps_snoc_self] at ha
      rcases List.mem_append.mp ha with hm | hm
      · exact le_trans (h.past key a hm) hts
      · rw [List.mem_singleton.mp hm]
    · rw [stamps_snoc_ne hk] at ha
      exact le_trans (h.past k a ha) hts
  · intro k
    rw [heq]
    show ∃ c, _ ∧ Pruned c _ ((r.limiter.tryAcquire key t s).2.queue k)
    rw [tryAcquire_queue]
    by_cases hk : k = key
    · subst hk
      rw [if_pos rfl, if_pos hok, stamps_snoc_self]
      exact ⟨_, by omega, (h.cleaned k).snoc hcut⟩
    · rw [if_neg hk, stamps_snoc_ne (Ne.symm hk)]
      obtain ⟨c, hc, hp⟩ := h.pruned k
      exact ⟨c, by omega, hp⟩

/-- A denied call only cleans. -/
theorem Inv.denied {maxRequests windowSeconds t s : Int} {r : Recorded}
    (h : Inv maxRequests windowSeconds t r) (key : String) (hts : t ≤ s)
    (hok : ¬(r.limiter.tryAcquire key t s).1 = true) :
    Inv maxRequests windowSeconds s (r.apply (.tryAcquire key t s)) := by
  have heq : (r.apply (.tryAcquire key t s)).grants = r.grants := by
    simp [Recorded.apply, hok]
  refine ⟨?_, ?_, ?_, ?_, ?_⟩
  · simpa [Recorded.apply] using h.maxRequests
  · simpa [Recorded.apply] using h.windowSize
  · intro k
    rw [heq]
    exact h.sorted k
  · intro k a ha
    rw [heq] at ha
    exact le_trans (h.past k a ha) hts
  · intro k
    rw [heq]
    show ∃ c, _ ∧ Pruned c _ ((r.limiter.tryAcquire key t s).2.queue k)
    rw [tryAcquire_queue]
    by_cases hk : k = key
    · subst hk
      rw [if_pos rfl, if_neg hok]
      exact ⟨_, by omega, h.cleaned k⟩
    · rw [if_neg hk]
      obtain ⟨c, hc, hp⟩ := h.pruned k
      exact ⟨c, by omega, hp⟩

theorem Inv.tryAcquire {maxRequests windowSeconds t s : Int} {r : Recorded}
    (h : Inv maxRequests windowSeconds t r) (key : String) (hts : t ≤ s)
    (hw : 0 ≤ windowSeconds) :
    Inv maxRequests windowSeconds s (r.apply (.tryAcquire key t s)) := by
  by_cases hok : (r.limiter.tryAcquire key t s).1 = true
  · exact h.granted key hts hw hok
  · exact h.denied key hts hok

theorem Inv.getInfo {maxRequests windowSeconds t : Int} {r : Recorded}
    (h : Inv maxRequests windowSeconds t r) (key : String) :
    Inv maxRequests windowSeconds t (r.apply (.getInfo key t)) := by
  refine ⟨?_, ?_, h.sorted, h.past, ?_⟩
  · simpa [Recorded.apply] using h.maxRequests
  · simpa [Recorded.apply] using h.windowSize
  · intro k
    show ∃ c, _ ∧ Pruned c _ ((r.limiter.getInfo key t).2.queue k)
    rw [getInfo_queue]
    by_cases hk : k = key
    · subst hk
      rw [if_pos rfl]
      exact ⟨_, le_refl _, h.cleaned k⟩
    · rw [if_neg hk]
      exact h.pruned k

theorem NonDecreasing.snoc {calls : List Call} {c : Call}
    (h : NonDecreasing (calls ++ [c])) :
    NonDecreasing calls ∧ c.readings.Pairwise (· ≤ ·) ∧
      ∀ a ∈ calls.flatMap Call.readings, ∀ b ∈ c.readings, a ≤ b := by
  simpa [NonDecreasing, List.flatMap_append, List.pairwise_append] using h

/-- **Run invariant.** -/
theorem run_inv {maxRequests windowSeconds : Int} (hw : 0 ≤ windowSeconds)
    {calls : List Call} (hmono : NonDecreasing calls) {t : Int}
    (ht : ∀ a ∈ calls.flatMap Call.readings, a ≤ t) :
    Inv maxRequests windowSeconds t (run maxRequests windowSeconds calls) := by
  induction calls using List.reverseRecOn generalizing t with
  | nil =>
      refine ⟨rfl, rfl, fun k => List.Pairwise.nil, fun k s hs => ?_, fun k => ?_⟩
      · exact absurd hs (by simp [run])
      · exact ⟨_, le_refl _, rfl⟩
  | append_singleton calls c ih =>
      obtain ⟨hcalls, hc, hle⟩ := hmono.snoc
      rw [run_snoc]
      rw [List.flatMap_append] at ht
      cases c with
      | tryAcquire key now stamp =>
          -- the state before the call is seen from its expiry reading, the one after
          -- from its stamp
          have hprev := ih hcalls (t := now) fun a ha => hle a ha now (by simp [Call.readings])
          have hstep := hprev.tryAcquire key (by simpa [Call.readings] using hc) hw
          exact hstep.mono (ht stamp (by simp [Call.readings]))
      | getInfo key now =>
          have hprev := ih hcalls (t := now) fun a ha => hle a ha now (by simp [Call.readings])
          exact (hprev.getInfo key).mono (ht now (by simp [Call.readings]))

/-- The state a call meets, seen from the call's own reading. -/
theorem inv_at {maxRequests windowSeconds : Int} (hw : 0 ≤ windowSeconds)
    {calls : List Call} {c : Call} {now : Int} (hmono : NonDecreasing (calls ++ [c]))
    (hnow : now ∈ c.readings) :
    Inv maxRequests windowSeconds now (run maxRequests windowSeconds calls) := by
  obtain ⟨hcalls, _, hle⟩ := hmono.snoc
  exact run_inv hw hcalls fun a ha => hle a ha now hnow

/-! ## Decisions -/

theorem toSizeT_lt {n : Int} (h0 : 0 ≤ n) (h : n < 2 ^ 31) (m : ℕ) :
    m < toSizeT n ↔ (m : Int) < n := by
  have hmod : n % 2 ^ 64 = n := Int.emod_eq_of_lt h0 (by omega)
  rw [toSizeT, hmod]
  omega

/-- No `TryAcquire` of `k`, or a denied one, after `calls`. -/
def NoGrant (maxRequests windowSeconds : Int) (calls : List Call) (k : String)
    (c : Call) : Prop :=
  ∀ t s, c = .tryAcquire k t s →
    ((run maxRequests windowSeconds calls).limiter.tryAcquire k t s).1 = false

theorem stamps_apply_noGrant {maxRequests windowSeconds : Int} {calls : List Call}
    {k : String} {c : Call} (h : NoGrant maxRequests windowSeconds calls k c) :
    stamps k ((run maxRequests windowSeconds calls).apply c).grants =
      stamps k (run maxRequests windowSeconds calls).grants := by
  cases c with
  | getInfo key now => rfl
  | tryAcquire key now stamp =>
      simp only [Recorded.apply]
      split
      · rename_i hok
        have hne : key ≠ k := by
          rintro rfl
          rw [h now stamp rfl] at hok
          exact absurd hok (by simp)
        exact stamps_snoc_ne hne _ _
      · rfl

/-- Two limiters whose histories agree on `k` make the same call's history on `k`. -/
theorem stamps_apply_congr {maxRequests windowSeconds : Int} {r r' : Recorded}
    {k : String} {c : Call}
    (h : ∀ t ∈ c.readings, Inv maxRequests windowSeconds t r)
    (h' : ∀ t ∈ c.readings, Inv maxRequests windowSeconds t r')
    (heq : stamps k r.grants = stamps k r'.grants) :
    stamps k (r.apply c).grants = stamps k (r'.apply c).grants := by
  cases c with
  | getInfo key now => exact heq
  | tryAcquire key now stamp =>
      by_cases hk : key = k
      · subst hk
        have hnow : now ∈ (Call.tryAcquire key now stamp).readings := by
          simp [Call.readings]
        have hdec : (r.limiter.tryAcquire key now stamp).1 =
            (r'.limiter.tryAcquire key now stamp).1 := by
          rw [Bool.eq_iff_iff, (h now hnow).decides, (h' now hnow).decides, Admits, Admits,
            heq]
        simp only [Recorded.apply, hdec]
        split
        · rw [stamps_snoc_self, stamps_snoc_self, heq]
        · exact heq
      · -- a call on another key leaves both histories of `k`
        have hskip : ∀ r'' : Recorded,
            stamps k (r''.apply (.tryAcquire key now stamp)).grants = stamps k r''.grants := by
          intro r''
          simp only [Recorded.apply]
          split
          · exact stamps_snoc_ne hk _ _
          · rfl
        rw [hskip, hskip, heq]

/-- Leaving a call out keeps the readings in order. -/
theorem NonDecreasing.drop {pre post : List Call} {c : Call}
    (h : NonDecreasing (pre ++ c :: post)) : NonDecreasing (pre ++ post) := by
  refine List.Pairwise.sublist ?_ h
  simp only [List.flatMap_append, List.flatMap_cons]
  exact (List.Sublist.refl _).append (List.sublist_append_right _ _)

/-- A call that grants nothing to `k` can be left out of the history of `k`. -/
theorem stamps_run_dropped {maxRequests windowSeconds : Int} (hw : 0 ≤ windowSeconds)
    {pre post : List Call} {c : Call} {k : String}
    (hc : NoGrant maxRequests windowSeconds pre k c)
    (hmono : NonDecreasing (pre ++ c :: post)) :
    stamps k (run maxRequests windowSeconds (pre ++ c :: post)).grants =
      stamps k (run maxRequests windowSeconds (pre ++ post)).grants := by
  induction post using List.reverseRecOn with
  | nil =>
      rw [List.append_nil, run_snoc]
      exact stamps_apply_noGrant hc
  | append_singleton post d ih =>
      rw [← List.cons_append, ← List.append_assoc] at hmono
      have hmono' : NonDecreasing (pre ++ post ++ [d]) := by
        rw [List.append_assoc] at hmono ⊢
        exact hmono.drop
      rw [← List.cons_append, ← List.append_assoc, ← List.append_assoc, run_snoc, run_snoc]
      exact stamps_apply_congr (fun t ht => inv_at hw hmono ht)
        (fun t ht => inv_at hw hmono' ht) (ih hmono.snoc.1)

/-- **The limiter refines its full-history specification.** `TryAcquire(k)` with
expiry reading `t` succeeds exactly when fewer than `max_requests` earlier grants
of `k` carry a stamp of at least `t - W`; a call that grants nothing to `k` could
have been left out. -/
theorem tryAcquire_refines_history {maxRequests windowSeconds : Int}
    (hmax : 0 ≤ maxRequests) (hint : maxRequests < 2 ^ 31) (hw : 0 ≤ windowSeconds)
    {calls : List Call} {k : String} {t s : Int}
    (hmono : NonDecreasing (calls ++ [.tryAcquire k t s])) :
    (((run maxRequests windowSeconds calls).limiter.tryAcquire k t s).1 = true ↔
      (((stamps k (run maxRequests windowSeconds calls).grants).filter
        fun a => t - windowSeconds * ticksPerSecond ≤ a).length : Int) < maxRequests) ∧
    ∀ pre c post, calls = pre ++ c :: post →
      NoGrant maxRequests windowSeconds pre k c →
      ((run maxRequests windowSeconds (pre ++ post)).limiter.tryAcquire k t s).1 =
        ((run maxRequests windowSeconds calls).limiter.tryAcquire k t s).1 := by
  have hreading : t ∈ (Call.tryAcquire k t s).readings := by simp [Call.readings]
  have hinv : Inv maxRequests windowSeconds t (run maxRequests windowSeconds calls) :=
    inv_at hw hmono hreading
  constructor
  · rw [hinv.decides, Admits, toSizeT_lt hmax hint]
  · rintro pre c post rfl hc
    have hmono' : NonDecreasing (pre ++ post ++ [.tryAcquire k t s]) := by
      rw [List.append_assoc, List.cons_append] at hmono
      rw [List.append_assoc]
      exact hmono.drop
    rw [Bool.eq_iff_iff, (inv_at hw hmono' hreading).decides, hinv.decides, Admits, Admits,
      stamps_run_dropped hw hc hmono.snoc.1]

/-- A stamp exactly one window old still counts; one tick later it does not. -/
theorem tryAcquire_refines_history_at_cutoff :
    ((run 1 1 [.tryAcquire "a" 0 0, .getInfo "a" 5]).limiter.tryAcquire "a"
        1000000000 1000000000).1 = false ∧
      ((run 1 1 [.tryAcquire "a" 0 0, .getInfo "a" 5]).limiter.tryAcquire "a"
        1000000001 1000000001).1 = true := by
  constructor
  · rw [← Bool.not_eq_true, (@tryAcquire_refines_history 1 1 (by decide) (by decide)
      (by decide) [.tryAcquire "a" 0 0, .getInfo "a" 5] "a" 1000000000 1000000000
      (by simp [NonDecreasing, Call.readings])).1]
    decide
  · rw [(@tryAcquire_refines_history 1 1 (by decide) (by decide) (by decide)
      [.tryAcquire "a" 0 0, .getInfo "a" 5] "a" 1000000001 1000000001
      (by simp [NonDecreasing, Call.readings])).1]
    decide

/-! ## Windows -/

/-- Every grant was admitted by the full history, at a reading before its stamp. -/
theorem run_admitted {maxRequests windowSeconds : Int} (hw : 0 ≤ windowSeconds)
    {calls : List Call} (hmono : NonDecreasing calls) :
    Admitted (toSizeT maxRequests) (windowSeconds * ticksPerSecond)
      (run maxRequests windowSeconds calls).grants := by
  induction calls using List.reverseRecOn with
  | nil => exact Admitted.nil
  | append_singleton calls c ih =>
      have hprev := ih hmono.snoc.1
      rw [run_snoc]
      cases c with
      | getInfo key now => exact hprev
      | tryAcquire key now stamp =>
          simp only [Recorded.apply]
          split
          · rename_i hok
            have hinv : Inv maxRequests windowSeconds now
                (run maxRequests windowSeconds calls) :=
              inv_at hw hmono (by simp [Call.readings])
            exact hprev.snoc ((hinv.decides key stamp).mp hok)
              (by simpa [Call.readings] using hmono.snoc.2.1)
          · exact hprev

/-- **Grants per window.** No closed interval of the window's length holds more
than `max_requests` grants of one key. -/
theorem grants_in_window_le {maxRequests windowSeconds : Int} (hmax : 0 ≤ maxRequests)
    (hint : maxRequests < 2 ^ 31) (hw : 0 ≤ windowSeconds) {calls : List Call}
    (hmono : NonDecreasing calls) (k : String) (a : Int) :
    (((stamps k (run maxRequests windowSeconds calls).grants).filter
      fun s => a ≤ s ∧ s ≤ a + windowSeconds * ticksPerSecond).length : Int) ≤
      maxRequests := by
  have hadmitted : Admitted (toSizeT maxRequests) (windowSeconds * ticksPerSecond)
      (run maxRequests windowSeconds calls).grants := run_admitted hw hmono
  have hbound := window_bound hadmitted k a
  have hsize : ((toSizeT maxRequests : ℕ) : Int) = maxRequests := by
    simp only [toSizeT]
    omega
  omega

end SlidingWindowLimiter

end MyService.RateLimit
