import MyService.Handlers.Calls

/-!
# The login rate bound

Whatever the interleaving, the limiter's part of a run is a run of the limiter, so
`grants_in_window_le` bounds the login requests of one address in every window.
-/

namespace MyService.RateLimit

open Framework Framework.GrantLog Chrono Handlers Userver Storage Event

/-! ## The limiter's part of a run -/

def limiterCalls (tr : List ServiceEvent) : List SlidingWindowLimiter.Call :=
  tr.filterMap fun e => limiterCall e.call e.choice

/-- The key and the stamp of a granted `TryAcquire`. -/
def granted (e : ServiceEvent) : Option (String × Int) :=
  match e.call with
  | .tryAcquire key =>
      if (e.before.limiter.tryAcquire key e.choice.steady e.choice.stamp).1 then
        some (key, e.choice.stamp)
      else none
  | _ => none

/-- The limiter and the history of its grants after a trace. -/
theorem run_limiterCalls {w : World} (hw : w.limiter = SlidingWindowLimiter.new 5 60)
    {tr : List ServiceEvent} (h : Config.Chained perform w tr) :
    SlidingWindowLimiter.run 5 60 (limiterCalls tr) =
      { limiter := (Config.worldAfter perform w tr).limiter
        grants := tr.filterMap granted } := by
  induction tr using List.reverseRecOn with
  | nil => rw [show Config.worldAfter perform w [] = w from rfl, hw]; rfl
  | append_singleton tr e ih =>
      obtain ⟨hprev, hbefore, _⟩ := (Config.chained_append perform).mp h
      have hafter : (Config.worldAfter perform w (tr ++ [e])).limiter =
          (perform e.call e.choice e.before).1.limiter := by
        rw [Config.worldAfter_append]
        rfl
      have hsplit : limiterCalls (tr ++ [e]) =
          limiterCalls tr ++ (limiterCall e.call e.choice).toList := by
        unfold limiterCalls
        rw [List.filterMap_append]
        cases h : limiterCall e.call e.choice <;> simp [h]
      rw [hafter, perform_limiter, hsplit, List.filterMap_append]
      obtain ⟨tid, c, ch, before⟩ := e
      simp only at hbefore
      subst hbefore
      cases c with
      | tryAcquire key =>
          simp only [limiterCall, Option.toList_some, SlidingWindowLimiter.run_snoc,
            ih hprev, SlidingWindowLimiter.Recorded.apply, granted, List.filterMap_cons,
            List.filterMap_nil]
          split <;> simp_all
      | getInfo key =>
          simp [limiterCall, SlidingWindowLimiter.run_snoc, ih hprev,
            SlidingWindowLimiter.Recorded.apply, granted]
      | _ => simp [limiterCall, ih hprev, granted]

/-! ## Requests let past -/

/-- A login request asks the limiter about its own client's address. -/
theorem address_of_makes {u : Userver} {request : HttpRequest} {key : String}
    {h : Prog.History Call Call.Answer}
    (hmakes : Calls.Makes u (.login request) h (.tryAcquire key)) :
    key = request.remoteAddress := by
  cases hmakes
  rfl

/-- The thread was granted a `TryAcquire` that recorded stamp `s`. -/
def LetPast (tr : List ServiceEvent) (tid : ℕ) (s : Int) : Prop :=
  ∃ e ∈ tr, e.tid = tid ∧ ∃ key, granted e = some (key, s)

/-- What a login thread was granted, it was granted for its client's address. -/
theorem letPast_address {u : Userver} {w : World} {requests : ℕ → Request}
    {sched : List (ℕ × Choice)} {tid : ℕ} {request : HttpRequest} {s : Int}
    (hlogin : requests tid = .login request)
    (h : LetPast (runService u w requests sched).trace tid s) :
    ∃ e ∈ (runService u w requests sched).trace, e.tid = tid ∧
      granted e = some (request.remoteAddress, s) := by
  obtain ⟨e, he, htid, key, hgrant⟩ := h
  refine ⟨e, he, htid, ?_⟩
  obtain ⟨i, hi⟩ := List.mem_iff_getElem?.mp he
  have hmakes := (Calls.conducts_run u w requests sched).calls i e hi
  rw [htid, hlogin] at hmakes
  unfold granted at hgrant ⊢
  split at hgrant
  · rename_i key' hcall
    rw [hcall] at hmakes
    obtain rfl := address_of_makes hmakes
    split at hgrant
    · rename_i hok
      obtain ⟨_, rfl⟩ := Prod.mk.inj (Option.some.inj hgrant)
      exact if_pos hok
    · exact absurd hgrant (by simp)
  · exact absurd hgrant (by simp)

/-- A grant of `ip` with a stamp in the closed window of 60 s from `a`. -/
def inWindow (ip : String) (a : Int) (e : ServiceEvent) : Bool :=
  match granted e with
  | some (key, s) => key = ip ∧ a ≤ s ∧ s ≤ a + 60 * ticksPerSecond
  | none => false

theorem length_inWindow (ip : String) (a : Int) (tr : List ServiceEvent) :
    (tr.filter (inWindow ip a)).length =
      ((stamps ip (tr.filterMap granted)).filter
        fun s => a ≤ s ∧ s ≤ a + 60 * ticksPerSecond).length := by
  induction tr using List.reverseRecOn with
  | nil => rfl
  | append_singleton tr e ih =>
      rw [List.filter_append, List.filterMap_append, List.length_append, ih]
      cases hg : granted e with
      | none => simp [hg, inWindow]
      | some g =>
          obtain ⟨key, s⟩ := g
          by_cases hk : key = ip
          · subst hk
            by_cases hs : a ≤ s ∧ s ≤ a + 60 * ticksPerSecond
            · simp [hg, inWindow, stamps_snoc_self, hs]
            · simp [hg, inWindow, stamps_snoc_self, hs]
          · simp [hg, inWindow, stamps_snoc_ne hk, hk]

/-- **Login rate bound.** In every interleaving, at most five login requests of one
address are let past the limiter with a stamp in one closed window of 60 s; and a
limiter of any size keeps its bound over every closed window. -/
theorem login_rate_bound {u : Userver} {db : Postgres.Database} {comments : Collection}
    {topics : List KafkaRecord} {requests : ℕ → Request} {sched : List (ℕ × Choice)}
    (hclock : SlidingWindowLimiter.NonDecreasing
      (limiterCalls (runService u (World.boot db comments topics) requests sched).trace)) :
    (∀ (ip : String) (a : Int) (tids : List ℕ), tids.Nodup →
      (∀ tid ∈ tids, ∃ request s, requests tid = .login request ∧
        request.remoteAddress = ip ∧
        LetPast (runService u (World.boot db comments topics) requests sched).trace tid s ∧
        a ≤ s ∧ s ≤ a + 60 * ticksPerSecond) →
      tids.length ≤ 5) ∧
    ∀ (maxRequests windowSeconds : Int), 0 ≤ maxRequests → maxRequests < 2 ^ 31 →
      0 ≤ windowSeconds → ∀ calls, SlidingWindowLimiter.NonDecreasing calls →
        ∀ (k : String) (a : Int),
          (((stamps k (SlidingWindowLimiter.run maxRequests windowSeconds calls).grants).filter
            fun s => a ≤ s ∧ s ≤ a + windowSeconds * ticksPerSecond).length : Int) ≤
            maxRequests := by
  refine ⟨fun ip a tids hnodup htids => ?_, fun maxRequests windowSeconds h0 hint hw calls
    hmono k a => SlidingWindowLimiter.grants_in_window_le h0 hint hw hmono k a⟩
  set tr := (runService u (World.boot db comments topics) requests sched).trace with htr
  have hbound := @SlidingWindowLimiter.grants_in_window_le 5 60 (by decide) (by decide)
    (by decide) _ hclock ip a
  rw [run_limiterCalls rfl (htr ▸ runService_chained)] at hbound
  simp only at hbound
  rw [← length_inWindow] at hbound
  have hsub : tids ⊆ (tr.filter (inWindow ip a)).map Event.tid := by
    intro tid htid
    obtain ⟨request, s, hlogin, rfl, hpast, hwindow⟩ := htids tid htid
    obtain ⟨e, he, rfl, hgrant⟩ := letPast_address hlogin hpast
    refine List.mem_map_of_mem (List.mem_filter.mpr ⟨he, ?_⟩)
    simp [inWindow, hgrant, hwindow]
  have hle := (List.subperm_of_subset hnodup hsub).length_le
  rw [List.length_map] at hle
  omega

/-- A burst of seven logins from one address, all at the same instant. -/
def burst (u : Userver) : ServiceConfig :=
  runService u (World.boot Postgres.Database.empty Collection.empty [])
    (fun _ => .login { body := "", pathArgs := [], headers := [], remoteAddress := "10.0.0.1" })
    ((List.range 7).map fun tid => (tid, {}))

theorem login_rate_bound_burst :
    (∃ e ∈ (burst Sample.userver).trace, e.tid = 4 ∧ granted e = some ("10.0.0.1", 0)) ∧
      [0, 1, 2, 3, 4].length ≤ 5 := by
  have hpast : ∀ tid ∈ [0, 1, 2, 3, 4], ∃ e ∈ (burst Sample.userver).trace,
      e.tid = tid ∧ granted e = some ("10.0.0.1", 0) := by
    decide
  have hclock : SlidingWindowLimiter.NonDecreasing
      (limiterCalls (burst Sample.userver).trace) := by
    unfold SlidingWindowLimiter.NonDecreasing
    decide
  refine ⟨hpast 4 (by decide), (login_rate_bound hclock).1 "10.0.0.1" 0 _ (by decide) ?_⟩
  intro tid htid
  obtain ⟨e, he, hthread, hgranted⟩ := hpast tid htid
  exact ⟨_, 0, rfl, rfl, ⟨e, he, hthread, _, hgranted⟩, by decide, by decide⟩

end MyService.RateLimit
