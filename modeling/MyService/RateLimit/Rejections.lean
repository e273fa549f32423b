import MyService.RateLimit.LoginRate
import MyService.RateLimit.Quota

/-!
# What a rejected login reports

The decision and the numbers of a 429 answer come from two calls of the limiter, each
with its own clock reading. Between them stamps expire and other requests take slots, so
the reported `remaining` is what has come free and was not taken again
(`reported_remaining`).
-/

namespace MyService.RateLimit

open Framework Framework.GrantLog Chrono Handlers Handlers.Calls Userver Storage Event

/-! ## The calls of a denied login -/

/-- The limiter denied a call. -/
def Denied (h : Prog.History Call Call.Answer) : Prop :=
  ∃ key, (⟨.tryAcquire key, false⟩ : Σ c, Call.Answer c) ∈ h

@[simp] theorem denied_nil : ¬Denied [] := by simp [Denied]

@[simp] theorem denied_cons (o : Σ c, Call.Answer c) (h : Prog.History Call Call.Answer) :
    Denied (o :: h) ↔ (∃ key, (⟨.tryAcquire key, false⟩ : Σ c, Call.Answer c) = o) ∨ Denied h := by
  simp [Denied, exists_or]

section Contract

variable {u : Userver} {http : HttpRequest} {h q : Prog.History Call Call.Answer}
  {outcome : Outcome}

theorem not_denied_of_completes (hcompletes : Completes u (.login http) h outcome)
    (hquiet : EventProducer.Quiet q) : ¬Denied (h ++ q) := by
  rintro ⟨key, hmem⟩
  rcases List.mem_append.mp hmem with hm | hm
  · cases hcompletes
    exact absurd hm (by simp [callsToToken])
  · exact absurd (hquiet _ hm) (by simp)

theorem not_denied_of_sent (hsent : Sent u (.login http) outcome h) : ¬Denied h := by
  cases hsent with
  | intro answer hcompletes hquiet =>
      rintro ⟨key, hmem⟩
      rcases List.mem_append.mp hmem with hm | hm
      · exact not_denied_of_completes hcompletes hquiet ⟨key, hm⟩
      · exact absurd hm (by simp)

/-- A denied login asks for the numbers and does nothing else. -/
theorem asks_of_makes {c : Call} (hmakes : Makes u (.login http) h c) (hdenied : Denied h) :
    h = [⟨.tryAcquire http.remoteAddress, false⟩] ∧ c = .getInfo http.remoteAddress := by
  cases hmakes with
  | loginAcquire => exact absurd hdenied denied_nil
  | loginRefused => exact ⟨rfl, rfl⟩
  | loginLookup | loginIssue | loginExpire => exact absurd hdenied (by simp)
  | loginInfo hsent => exact absurd hdenied (not_denied_of_sent hsent)
  | eventDraws hcompletes hquiet | eventNow hcompletes hquiet | eventSend hcompletes hquiet =>
      exact absurd hdenied (not_denied_of_completes hcompletes hquiet)

/-- It answers 429 with the numbers, and no other login does. -/
theorem rejected_of_returns {response : HttpResponse}
    (hreturns : Returns u (.login http) h response)
    (hrejected : response.status = 429 ∨ Denied h) :
    ∃ info, h = [⟨.tryAcquire http.remoteAddress, false⟩, ⟨.getInfo http.remoteAddress, info⟩] ∧
      response = tooManyRequests info := by
  cases hreturns with
  | loginRefused info => exact ⟨info, rfl, rfl⟩
  | loginMissing | loginUnknown | loginWrong => exact absurd hrejected (by simp)
  | loggedIn info hsent =>
      rcases hrejected with hstatus | ⟨key, hmem⟩
      · exact absurd hstatus (by simp)
      · rcases List.mem_append.mp hmem with hm | hm
        · exact absurd ⟨key, hm⟩ (not_denied_of_sent hsent)
        · exact absurd hm (by simp)

theorem not_denied_of_throws (hthrows : Throws u (.login http) h) : ¬Denied h := by
  cases hthrows <;> simp

end Contract

/-! ## The numbers of a rejection -/

/-- The grants of `ip` that counted when a call read `t₁` at position `i`, and had left the
window at `t₂`. -/
def expired (tr : List ServiceEvent) (ip : String) (i : ℕ) (t₁ t₂ : Int) : ℕ :=
  ((stamps ip ((tr.take i).filterMap granted)).filter fun s =>
    t₁ - 60 * ticksPerSecond ≤ s ∧ s < t₂ - 60 * ticksPerSecond).length

/-- The grants of `ip` made from position `i` on and before position `j` that count at `t₂`. -/
def retaken (tr : List ServiceEvent) (ip : String) (i j : ℕ) (t₂ : Int) : ℕ :=
  ((stamps ip (((tr.take j).drop i).filterMap granted)).filter fun s =>
    t₂ - 60 * ticksPerSecond ≤ s).length

/-- Thread `tid` was denied at position `i` and asked for the numbers at position `j`. -/
structure Rejection (tr : List ServiceEvent) (tid : ℕ) (ip : String) (i j : ℕ)
    (denial report : ServiceEvent) : Prop where
  denial_at : tr[i]? = some denial
  denial_tid : denial.tid = tid
  denial_seen : denial.seen perform = ⟨.tryAcquire ip, false⟩
  report_at : tr[j]? = some report
  report_tid : report.tid = tid
  report_call : report.call = .getInfo ip
  before : i < j

section Trace

variable {w : World} {tr : List ServiceEvent} {tid : ℕ} {ip : String} {i j : ℕ}
  {denial report : ServiceEvent}

/-- The limiter at a position, with the grants before it, as seen by the call made there. -/
theorem inv_take (hw : w.limiter = SlidingWindowLimiter.new 5 60)
    (hchain : Config.Chained perform w tr)
    (hclock : SlidingWindowLimiter.NonDecreasing (limiterCalls tr)) {n : ℕ} {e : ServiceEvent}
    (he : tr[n]? = some e) {c : SlidingWindowLimiter.Call}
    (hc : limiterCall e.call e.choice = some c) {t : Int} (ht : t ∈ c.readings) :
    SlidingWindowLimiter.NonDecreasing (limiterCalls (tr.take n)) ∧
      (∀ a ∈ (limiterCalls (tr.take n)).flatMap SlidingWindowLimiter.Call.readings, a ≤ t) ∧
      SlidingWindowLimiter.run 5 60 (limiterCalls (tr.take n)) =
        { limiter := e.before.limiter, grants := (tr.take n).filterMap granted } := by
  have hsplit : limiterCalls tr =
      limiterCalls (tr.take n) ++ [c] ++ limiterCalls (tr.drop (n + 1)) := by
    obtain ⟨hlt, rfl⟩ := List.getElem?_eq_some_iff.mp he
    conv_lhs => rw [← List.take_append_drop n tr, List.drop_eq_getElem_cons hlt]
    unfold limiterCalls
    rw [List.filterMap_append, List.filterMap_cons, hc, List.append_assoc]
    rfl
  have hfirst : SlidingWindowLimiter.NonDecreasing (limiterCalls (tr.take n) ++ [c]) := by
    rw [hsplit] at hclock
    unfold SlidingWindowLimiter.NonDecreasing at hclock ⊢
    rw [List.flatMap_append, List.pairwise_append] at hclock
    exact hclock.1
  have hchained : Config.Chained perform w (tr.take n) := by
    rw [← List.take_append_drop n tr] at hchain
    exact ((Config.chained_append perform).mp hchain).1
  refine ⟨hfirst.snoc.1, fun a ha => hfirst.snoc.2.2 a ha t ht, ?_⟩
  rw [run_limiterCalls hw hchained, Config.before_eq perform hchain he]

theorem seen_tryAcquire {e : ServiceEvent} {key : String} {granted : Bool}
    (h : e.seen perform = ⟨.tryAcquire key, granted⟩) :
    e.call = .tryAcquire key ∧
      (e.before.limiter.tryAcquire key e.choice.steady e.choice.stamp).1 = granted := by
  obtain ⟨tid, c, ch, w⟩ := e
  obtain ⟨rfl, hanswer⟩ := Sigma.mk.inj h
  exact ⟨rfl, eq_of_heq hanswer⟩

theorem seen_getInfo {e : ServiceEvent} {key : String} {info : RateLimitInfo}
    (h : e.seen perform = ⟨.getInfo key, info⟩) :
    e.call = .getInfo key ∧ (e.before.limiter.getInfo key e.choice.steady).1 = info := by
  obtain ⟨tid, c, ch, w⟩ := e
  obtain ⟨rfl, hanswer⟩ := Sigma.mk.inj h
  exact ⟨rfl, eq_of_heq hanswer⟩

/-- **The reported remainder.** What expired between the two calls and was not taken
again. -/
theorem reported_remaining (hw : w.limiter = SlidingWindowLimiter.new 5 60)
    (hchain : Config.Chained perform w tr)
    (hclock : SlidingWindowLimiter.NonDecreasing (limiterCalls tr))
    (h : Rejection tr tid ip i j denial report) :
    ((report.before.limiter.getInfo ip report.choice.steady).1.remaining) =
      max 0 ((expired tr ip i denial.choice.steady report.choice.steady : Int) -
        retaken tr ip i j report.choice.steady) := by
  obtain ⟨hdenial, hdenied⟩ := seen_tryAcquire h.denial_seen
  set t₁ := denial.choice.steady with ht₁
  set t₂ := report.choice.steady with ht₂
  obtain ⟨hmono₁, hpast₁, hrun₁⟩ := inv_take hw hchain hclock h.denial_at
    (c := .tryAcquire ip t₁ denial.choice.stamp) (by rw [hdenial]; rfl)
    (t := t₁) (by simp [SlidingWindowLimiter.Call.readings])
  obtain ⟨hmono₂, hpast₂, hrun₂⟩ := inv_take hw hchain hclock h.report_at
    (c := .getInfo ip t₂) (by rw [h.report_call]; rfl)
    (t := t₂) (by simp [SlidingWindowLimiter.Call.readings])
  -- the denial found five grants counting
  have hfull : SlidingWindowLimiter.counted 60 (SlidingWindowLimiter.run 5 60
      (limiterCalls (tr.take i))) ip t₁ = 5 := by
    have hcounted := @SlidingWindowLimiter.counted_of_denied 5 60 t₁ _ (by decide) (by decide)
      (by decide) hmono₁ hpast₁ ip denial.choice.stamp (by rw [hrun₁]; exact hdenied)
    exact_mod_cast hcounted
  have hreport := (@SlidingWindowLimiter.run_inv 5 60 (by decide) _ hmono₂ t₂
    hpast₂).remaining (by decide) ip
  rw [hrun₂] at hreport
  have horder : t₁ ≤ t₂ := by
    refine hpast₂ t₁ (List.mem_flatMap.mpr ⟨.tryAcquire ip t₁ denial.choice.stamp, ?_, ?_⟩)
    · refine List.mem_filterMap.mpr ⟨denial, ?_, by rw [hdenial]; rfl⟩
      refine List.mem_iff_getElem?.mpr ⟨i, ?_⟩
      rw [List.getElem?_take_of_lt h.before, h.denial_at]
    · simp [SlidingWindowLimiter.Call.readings]
  have hcutoff : t₁ - 60 * ticksPerSecond ≤ t₂ - 60 * ticksPerSecond := by omega
  have hmoved := length_filter_moved hcutoff (stamps ip ((tr.take i).filterMap granted))
    (stamps ip (((tr.take j).drop i).filterMap granted))
  rw [← stamps_append, ← List.filterMap_append] at hmoved
  have hsplit : tr.take i ++ (tr.take j).drop i = tr.take j := by
    conv_rhs => rw [← List.take_append_drop i (tr.take j)]
    rw [List.take_take, Nat.min_eq_left (Nat.le_of_lt h.before)]
  rw [hsplit] at hmoved
  rw [hrun₁] at hfull
  simp only [SlidingWindowLimiter.counted] at hfull hreport
  rw [hreport, expired, retaken]
  omega

end Trace

/-! ## Rejections of a run -/

/-- Every 429 answer to a login reports an exhausted quota. -/
def RejectionsExhausted (cfg : ServiceConfig) (requests : ℕ → Request) : Prop :=
  ∀ tid request response, requests tid = .login request → Answered cfg tid response →
    response.status = 429 → response.headers.lookup "X-RateLimit-Remaining" = some "0"

/-- At each rejection, the slots that expired between the two calls were taken again. -/
def SlotsRetaken (tr : List ServiceEvent) (requests : ℕ → Request) : Prop :=
  ∀ tid request i j denial report, requests tid = .login request →
    Rejection tr tid request.remoteAddress i j denial report →
      expired tr request.remoteAddress i denial.choice.steady report.choice.steady ≤
        retaken tr request.remoteAddress i j report.choice.steady

section Run

variable {u : Userver} {w : World} {requests : ℕ → Request} {sched : List (ℕ × Choice)}
  {tid : ℕ} {request : HttpRequest}

/-- A 429 answer to a login comes from a rejection. -/
theorem rejection_of_answered (hlogin : requests tid = .login request) {response : HttpResponse}
    (hanswered : Answered (runService u w requests sched) tid response)
    (hstatus : response.status = 429) :
    ∃ i j denial report, Rejection (runService u w requests sched).trace tid
        request.remoteAddress i j denial report ∧
      response = tooManyRequests
        (report.before.limiter.getInfo request.remoteAddress report.choice.steady).1 := by
  have hreturns := (conducts_run u w requests sched).pool tid
  rw [hlogin, hanswered] at hreturns
  obtain ⟨info, hown, rfl⟩ := rejected_of_returns hreturns (Or.inl hstatus)
  have hfirst := hown
  rw [← List.take_length (l := (runService u w requests sched).trace)] at hfirst
  obtain ⟨i, denial, _, hi, htid, hdenial, hnone⟩ := own_take_cons perform hfirst
  have hreport : (⟨.getInfo request.remoteAddress, info⟩ : Σ c, Call.Answer c) ∈
      own perform tid (runService u w requests sched).trace := by simp [hown]
  obtain ⟨j, report, hj, htid', hseen⟩ := (mem_own perform).mp hreport
  have hij : i < j := by
    rcases Nat.lt_trichotomy i j with hlt | rfl | hgt
    · exact hlt
    · obtain rfl : denial = report := Option.some.inj (hi.symm.trans hj)
      rw [hdenial] at hseen
      exact absurd hseen (by simp)
    · have hmem := (mem_own_take perform).mpr ⟨j, report, hgt, hj, htid', hseen⟩
      rw [hnone] at hmem
      exact absurd hmem List.not_mem_nil
  obtain ⟨hcall, hinfo⟩ := seen_getInfo hseen
  exact ⟨i, j, denial, report, ⟨hi, htid, hdenial, hj, htid', hcall, hij⟩, by rw [hinfo]⟩

/-- A rejection is answered with 429. -/
theorem answered_of_rejection (hlogin : requests tid = .login request) {i j : ℕ}
    {denial report : ServiceEvent}
    (h : Rejection (runService u w requests sched).trace tid request.remoteAddress i j denial
      report) :
    Answered (runService u w requests sched) tid (tooManyRequests
      (report.before.limiter.getInfo request.remoteAddress report.choice.steady).1) := by
  have hdenied : Denied (own perform tid (runService u w requests sched).trace) :=
    ⟨_, (mem_own perform).mpr ⟨i, denial, h.denial_at, h.denial_tid, h.denial_seen⟩⟩
  have hreport : report.seen perform ∈ own perform tid (runService u w requests sched).trace :=
    (mem_own perform).mpr ⟨j, report, h.report_at, h.report_tid, rfl⟩
  have hconducts := (conducts_run u w requests sched).pool tid
  rw [hlogin] at hconducts
  unfold Answered
  cases hpool : (runService u w requests sched).pool tid with
  | throw e =>
      rw [hpool] at hconducts
      exact absurd hdenied (not_denied_of_throws hconducts)
  | call c k =>
      -- the thread has already made the one call it may still make
      rw [hpool] at hconducts
      rw [(asks_of_makes hconducts.1 hdenied).1, List.mem_singleton] at hreport
      have hcall := (seen_tryAcquire hreport).1
      rw [h.report_call] at hcall
      exact absurd hcall (by simp)
  | pure response =>
      rw [hpool] at hconducts
      obtain ⟨info, hown, rfl⟩ := rejected_of_returns hconducts (Or.inr hdenied)
      rw [hown] at hreport
      rcases List.mem_pair.mp hreport with hseen | hseen
      · have hcall := (seen_tryAcquire hseen).1
        rw [h.report_call] at hcall
        exact absurd hcall (by simp)
      · rw [(seen_getInfo hseen).2]

end Run

/-- **When every rejected login reports an exhausted quota.** In every interleaving: where
at each rejection as many slots were taken again as had come free. -/
theorem rejections_exhausted_iff {u : Userver} {db : Postgres.Database} {comments : Collection}
    {topics : List KafkaRecord} {requests : ℕ → Request} {sched : List (ℕ × Choice)}
    (hclock : SlidingWindowLimiter.NonDecreasing
      (limiterCalls (runService u (World.boot db comments topics) requests sched).trace)) :
    RejectionsExhausted (runService u (World.boot db comments topics) requests sched) requests ↔
      SlotsRetaken (runService u (World.boot db comments topics) requests sched).trace
        requests := by
  constructor
  · intro hexhausted tid request i j denial report hlogin h
    have hzero := hexhausted tid request _ hlogin (answered_of_rejection hlogin h) rfl
    have hremaining := reported_remaining rfl runService_chained hclock h
    rw [toString_injective (Option.some.inj hzero : _ = toString (0 : Int))] at hremaining
    omega
  · intro hretaken tid request response hlogin hanswered hstatus
    obtain ⟨i, j, denial, report, h, rfl⟩ := rejection_of_answered hlogin hanswered hstatus
    have hremaining := reported_remaining rfl runService_chained hclock h
    have hle := hretaken tid request i j denial report hlogin h
    have hzero : (report.before.limiter.getInfo request.remoteAddress
        report.choice.steady).1.remaining = 0 := by omega
    show some (toString _) = _
    rw [hzero]
    rfl

/-- A call that comes no later finds nothing expired. -/
theorem expired_self (tr : List ServiceEvent) (ip : String) (i : ℕ) (t : Int) :
    expired tr ip i t t = 0 := by
  rw [expired, List.length_eq_zero_iff, List.filter_eq_nil_iff]
  intro s _
  rw [decide_eq_true_eq]
  omega

/-- Five logins of one address at the start; a sixth is denied at one instant and reported
at another. -/
def rush (denied reported : Int) : ServiceConfig :=
  runService Sample.userver Sample.empty
    (fun _ => .login { body := "", pathArgs := [], headers := [], remoteAddress := "10.0.0.1" })
    ((List.range 5).map (fun tid => (tid, Sample.plain)) ++
      [(5, { steady := denied, stamp := denied }), (5, { steady := reported })])

/-- With the clock held, the quota is reported exhausted. -/
theorem rejections_exhausted_iff_rush :
    RejectionsExhausted (rush 0 0)
      (fun _ => .login
        { body := "", pathArgs := [], headers := [], remoteAddress := "10.0.0.1" }) := by
  have hclock : SlidingWindowLimiter.NonDecreasing (limiterCalls (rush 0 0).trace) := by
    unfold SlidingWindowLimiter.NonDecreasing
    decide
  have hsteady : ∀ e ∈ (rush 0 0).trace, e.choice.steady = 0 := by decide
  refine (rejections_exhausted_iff hclock).mpr ?_
  rintro tid request i j denial report - h
  rw [hsteady denial (List.mem_of_getElem? h.denial_at),
    hsteady report (List.mem_of_getElem? h.report_at), expired_self]
  exact Nat.zero_le _

/-- Denied a minute after the five, and reported one tick later: all five slots are
reported free. -/
theorem rejections_exhausted_fails :
    SlidingWindowLimiter.NonDecreasing (limiterCalls (rush 60000000000 60000000001).trace) ∧
      ¬RejectionsExhausted (rush 60000000000 60000000001)
        (fun _ => .login
          { body := "", pathArgs := [], headers := [], remoteAddress := "10.0.0.1" }) := by
  constructor
  · unfold SlidingWindowLimiter.NonDecreasing
    decide
  · intro hexhausted
    have hzero := hexhausted 5 _ (tooManyRequests ⟨5, 5, 60⟩) rfl rfl rfl
    exact absurd hzero (by decide)

end MyService.RateLimit
