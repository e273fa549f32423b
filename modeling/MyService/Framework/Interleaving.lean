import MyService.Framework.Prog
import Mathlib.Logic.Function.Basic
import Mathlib.Data.List.Basic
import Mathlib.Data.List.Induction
import Mathlib.Data.List.TakeDrop

/-!
# Interleavings of atomic programs

Any number of threads, one program each, over one shared world. A schedule is
any list of thread numbers with environment choices; each entry lets that
thread make its next call, atomically. The trace records every call with the
world it met, so a property of whole runs is a property of traces.

Two rules carry the proofs. `Config.run_obeys` lifts a local contract of each
program to every schedule: at each call of the trace, and at each return, the
contract holds of the thread's own history. `Config.foldl_trace` says that a
component of the world on which each call acts by itself is the fold of the
calls' parts in trace order.
-/

namespace Framework

open Prog

variable {C : Type} {R : C → Type} {E α W Ch X : Type}

/-- One executed call: who made it, what the environment chose, and the world
it was made in. -/
structure Event (C W Ch : Type) where
  tid : ℕ
  call : C
  choice : Ch
  before : W

/-- A running system. A thread that has not been scheduled yet is still its
initial program. -/
structure Config (C : Type) (R : C → Type) (E α W Ch : Type) where
  world : W
  pool : ℕ → Prog C R E α
  trace : List (Event C W Ch)

section Machine

variable (m : (c : C) → Ch → W → W × R c)

namespace Event

/-- The answer the call got. -/
def resp (e : Event C W Ch) : R e.call := (m e.call e.choice e.before).2

/-- The world the call left. -/
def after (e : Event C W Ch) : W := (m e.call e.choice e.before).1

/-- The call as its thread saw it. -/
def seen (e : Event C W Ch) : Σ c, R c := ⟨e.call, e.resp m⟩

end Event

/-- The calls of one thread with their answers, oldest first. -/
def own (tid : ℕ) (tr : List (Event C W Ch)) : History C R :=
  (tr.filter (fun e => e.tid = tid)).map (Event.seen m)

theorem own_snoc_self (tr : List (Event C W Ch)) (e : Event C W Ch) :
    own m e.tid (tr ++ [e]) = own m e.tid tr ++ [e.seen m] := by
  simp [own]

theorem own_snoc_ne {tid : ℕ} {e : Event C W Ch} (h : e.tid ≠ tid)
    (tr : List (Event C W Ch)) : own m tid (tr ++ [e]) = own m tid tr := by
  simp [own, h]

/-- A call in a thread's own history was made at some position of the trace. -/
theorem mem_own {tid : ℕ} {tr : List (Event C W Ch)} {o : Σ c, R c} :
    o ∈ own m tid tr ↔ ∃ (i : ℕ) (e : Event C W Ch),
      tr[i]? = some e ∧ e.tid = tid ∧ e.seen m = o := by
  simp only [own, List.mem_map, List.mem_filter, decide_eq_true_eq]
  constructor
  · rintro ⟨e, ⟨he, htid⟩, ho⟩
    obtain ⟨i, hi⟩ := List.mem_iff_getElem?.mp he
    exact ⟨i, e, hi, htid, ho⟩
  · rintro ⟨i, e, hi, htid, ho⟩
    exact ⟨e, ⟨List.mem_iff_getElem?.mpr ⟨i, hi⟩, htid⟩, ho⟩

/-- The same for the calls a thread made before position `n`. -/
theorem mem_own_take {tid n : ℕ} {tr : List (Event C W Ch)} {o : Σ c, R c} :
    o ∈ own m tid (tr.take n) ↔ ∃ (i : ℕ) (e : Event C W Ch),
      i < n ∧ tr[i]? = some e ∧ e.tid = tid ∧ e.seen m = o := by
  rw [mem_own]
  constructor
  · rintro ⟨i, e, hi, hrest⟩
    obtain ⟨hlt, hi'⟩ : i < n ∧ tr[i]? = some e := by
      by_cases hlt : i < n
      · exact ⟨hlt, by rwa [List.getElem?_take_of_lt hlt] at hi⟩
      · rw [List.getElem?_take_eq_none (by omega)] at hi
        exact absurd hi (by simp)
    exact ⟨i, e, hlt, hi', hrest⟩
  · rintro ⟨i, e, hlt, hi, hrest⟩
    exact ⟨i, e, by rwa [List.getElem?_take_of_lt hlt], hrest⟩

/-- The first call a thread has seen was made when it had seen nothing. -/
theorem own_take_cons {tid n : ℕ} {tr : List (Event C W Ch)} {o : Σ c, R c} {h : History C R}
    (ho : own m tid (tr.take n) = o :: h) : ∃ (i : ℕ) (e : Event C W Ch),
      i < n ∧ tr[i]? = some e ∧ e.tid = tid ∧ e.seen m = o ∧ own m tid (tr.take i) = [] := by
  obtain ⟨e, rest, hfilter, hseen, _⟩ := List.map_eq_cons_iff.mp ho
  obtain ⟨pre, post, hsplit, hpre, htid, _⟩ := List.filter_eq_cons_iff.mp hfilter
  have hlt : pre.length < (tr.take n).length := by
    rw [hsplit, List.length_append, List.length_cons]
    omega
  have hn : pre.length < n := Nat.lt_of_lt_of_le hlt (List.length_take_le n tr)
  have htake : tr.take pre.length = pre := by
    have hpre' : (tr.take n).take pre.length = pre := by
      rw [hsplit]
      exact List.take_left
    rwa [List.take_take, Nat.min_eq_left (Nat.le_of_lt hn)] at hpre'
  refine ⟨pre.length, e, hn, ?_, of_decide_eq_true htid, hseen, ?_⟩
  · rw [← List.getElem?_take_of_lt hn, hsplit]
    simp
  · rw [htake, own, List.filter_eq_nil_iff.mpr hpre]
    rfl

/-- What a thread had seen earlier is the beginning of what it has seen later. -/
theorem own_take_isPrefix (tid : ℕ) (tr : List (Event C W Ch)) {i j : ℕ} (h : i ≤ j) :
    own m tid (tr.take i) <+: own m tid (tr.take j) :=
  ((List.take_prefix_take_left h).filter _).map _

/-- A thread has seen more after a call of its own. -/
theorem own_length_lt {tid : ℕ} {tr : List (Event C W Ch)} {i j : ℕ} {e : Event C W Ch}
    (hi : tr[i]? = some e) (htid : e.tid = tid) (hij : i < j) :
    (own m tid (tr.take i)).length < (own m tid (tr.take j)).length := by
  have hnext : tr.take (i + 1) = tr.take i ++ [e] := by
    rw [List.take_add_one, hi]
    rfl
  have hle : (own m tid (tr.take (i + 1))).length ≤ (own m tid (tr.take j)).length :=
    (own_take_isPrefix m tid tr hij).length_le
  rw [hnext, ← htid, own_snoc_self, List.length_append, List.length_singleton] at hle
  rw [← htid]
  omega

/-- What a thread has seen at one of its calls tells which call it is. -/
theorem eq_of_own_length {tid : ℕ} {tr : List (Event C W Ch)} {i j : ℕ}
    {e e' : Event C W Ch} (hi : tr[i]? = some e) (hj : tr[j]? = some e') (htid : e.tid = tid)
    (htid' : e'.tid = tid)
    (h : (own m tid (tr.take i)).length = (own m tid (tr.take j)).length) : i = j := by
  rcases Nat.lt_trichotomy i j with hlt | heq | hlt
  · have hlen := own_length_lt m hi htid hlt
    omega
  · exact heq
  · have hlen := own_length_lt m hj htid' hlt
    omega

/-! ## Runs -/

namespace Config

/-- Let thread `a.1` make its next call; a thread that has returned or thrown
stays as it is. -/
def step (cfg : Config C R E α W Ch) (a : ℕ × Ch) : Config C R E α W Ch :=
  match cfg.pool a.1 with
  | .call c k =>
      { world := (m c a.2 cfg.world).1
        pool := Function.update cfg.pool a.1 (k (m c a.2 cfg.world).2)
        trace := cfg.trace ++ [⟨a.1, c, a.2, cfg.world⟩] }
  | _ => cfg

def run (cfg : Config C R E α W Ch) (sched : List (ℕ × Ch)) : Config C R E α W Ch :=
  sched.foldl (step m) cfg

/-- No thread has made a call yet. -/
def start (w : W) (progs : ℕ → Prog C R E α) : Config C R E α W Ch :=
  { world := w, pool := progs, trace := [] }

theorem run_cons (cfg : Config C R E α W Ch) (a : ℕ × Ch) (sched : List (ℕ × Ch)) :
    run m cfg (a :: sched) = run m (step m cfg a) sched := rfl

theorem run_append (cfg : Config C R E α W Ch) (s₁ s₂ : List (ℕ × Ch)) :
    run m cfg (s₁ ++ s₂) = run m (run m cfg s₁) s₂ := by
  simp [run]

/-- What a step can do: nothing, or one call of one thread. -/
theorem step_cases (cfg : Config C R E α W Ch) (a : ℕ × Ch) :
    step m cfg a = cfg ∨
      ∃ c k, cfg.pool a.1 = .call c k ∧
        (step m cfg a).world = (m c a.2 cfg.world).1 ∧
        (step m cfg a).pool =
          Function.update cfg.pool a.1 (k (m c a.2 cfg.world).2) ∧
        (step m cfg a).trace = cfg.trace ++ [⟨a.1, c, a.2, cfg.world⟩] := by
  cases hp : cfg.pool a.1 with
  | pure b => exact Or.inl (by simp [step, hp])
  | throw e => exact Or.inl (by simp [step, hp])
  | call c k => exact Or.inr ⟨c, k, rfl, by simp [step, hp]⟩

/-- **Invariant rule.** What holds at the start and is preserved by every call
holds after every schedule. -/
theorem run_invariant {I : Config C R E α W Ch → Prop}
    (hstep : ∀ cfg a, I cfg → I (step m cfg a)) (cfg : Config C R E α W Ch)
    (h : I cfg) (sched : List (ℕ × Ch)) : I (run m cfg sched) := by
  induction sched generalizing cfg with
  | nil => exact h
  | cons a sched ih =>
      rw [run_cons]
      exact ih _ (hstep cfg a h)

/-- Later steps only append to the trace. -/
theorem trace_prefix (cfg : Config C R E α W Ch) (sched : List (ℕ × Ch)) :
    ∃ tr, (run m cfg sched).trace = cfg.trace ++ tr := by
  refine run_invariant m (I := fun c => ∃ tr, c.trace = cfg.trace ++ tr) ?_ cfg
    ⟨[], by simp⟩ sched
  rintro c a ⟨tr, htr⟩
  rcases step_cases m c a with h | ⟨cl, k, _, _, _, h⟩
  · exact ⟨tr, by rw [h, htr]⟩
  · exact ⟨tr ++ [⟨a.1, cl, a.2, c.world⟩], by rw [h, htr, List.append_assoc]⟩

/-- Every call was scheduled, with its choice. -/
theorem mem_sched {w : W} {progs : ℕ → Prog C R E α} {sched : List (ℕ × Ch)}
    {e : Event C W Ch} (he : e ∈ (run m (start w progs) sched).trace) :
    (e.tid, e.choice) ∈ sched := by
  induction sched using List.reverseRecOn with
  | nil => exact absurd he (by simp [run, start])
  | append_singleton sched a ih =>
      rw [run_append] at he
      rcases step_cases m (run m (start w progs) sched) a with h | ⟨c, k, _, _, _, h⟩
      · rw [show run m (run m (start w progs) sched) [a] = _ from h] at he
        exact List.mem_append_left _ (ih he)
      · rw [show run m (run m (start w progs) sched) [a] =
          step m (run m (start w progs) sched) a from rfl, h] at he
        rcases List.mem_append.mp he with hold | hnew
        · exact List.mem_append_left _ (ih hold)
        · rw [List.mem_singleton.mp hnew]
          simp

/-! ### Local contracts along a run -/

section Obeys

variable {onCall : ℕ → History C R → C → Prop} {onThrow : ℕ → History C R → E → Prop}
  {onReturn : ℕ → History C R → α → Prop}

/-- Every thread's residual program obeys its contract after its own history,
and every call of the trace was allowed by the history before it. -/
structure Contracts (onCall : ℕ → History C R → C → Prop)
    (onReturn : ℕ → History C R → α → Prop) (onThrow : ℕ → History C R → E → Prop)
    (cfg : Config C R E α W Ch) : Prop where
  pool : ∀ tid, Obeys (onCall tid) (onReturn tid) (onThrow tid)
    (own m tid cfg.trace) (cfg.pool tid)
  calls : ∀ i e, cfg.trace[i]? = some e →
    onCall e.tid (own m e.tid (cfg.trace.take i)) e.call

theorem Contracts.step {cfg : Config C R E α W Ch}
    (h : Contracts m onCall onReturn onThrow cfg) (a : ℕ × Ch) :
    Contracts m onCall onReturn onThrow (step m cfg a) := by
  rcases step_cases m cfg a with heq | ⟨c, k, hpool, _, hpool', htrace⟩
  · rwa [heq]
  · have hcall := h.pool a.1
    rw [hpool] at hcall
    set e : Event C W Ch := ⟨a.1, c, a.2, cfg.world⟩ with he
    refine ⟨fun tid => ?_, fun i e' hi => ?_⟩
    · rw [hpool', htrace]
      -- only the thread that made the call has a new history
      by_cases ht : tid = a.1
      · subst ht
        rw [Function.update_self, show a.1 = e.tid from rfl, own_snoc_self]
        exact hcall.2 _
      · rw [Function.update_of_ne ht, own_snoc_ne m (Ne.symm ht)]
        exact h.pool tid
    · rw [htrace] at hi ⊢
      by_cases hlt : i < cfg.trace.length
      · rw [List.getElem?_append_left hlt] at hi
        rw [List.take_append_of_le_length (by omega)]
        exact h.calls i e' hi
      · obtain ⟨hile, rfl⟩ : i = cfg.trace.length ∧ e = e' := by
          rw [List.getElem?_append_right (by omega)] at hi
          rcases Nat.eq_zero_or_pos (i - cfg.trace.length) with h0 | h0
          · rw [h0] at hi
            exact ⟨by omega, by simpa using hi⟩
          · rw [List.getElem?_eq_none (by simp; omega)] at hi
            exact absurd hi (by simp)
        rw [hile, List.take_append_of_le_length (Nat.le_refl _), List.take_length]
        exact hcall.1

/-- **Contract rule.** If every initial program obeys its contract, then so
does every run, whatever the schedule. -/
theorem run_obeys {w : W} {progs : ℕ → Prog C R E α}
    (h : ∀ tid, Obeys (onCall tid) (onReturn tid) (onThrow tid) [] (progs tid))
    (sched : List (ℕ × Ch)) :
    Contracts m onCall onReturn onThrow (run m (start w progs) sched) :=
  run_invariant m (I := Contracts m onCall onReturn onThrow)
    (fun _ a hc => Contracts.step m hc a) (start w progs) ⟨h, by simp [start]⟩ sched

end Obeys

/-- A thread that can still make a call has made one each time it was scheduled. -/
theorem own_length_of_running {w : W} {progs : ℕ → Prog C R E α} {tid : ℕ} {c : C}
    {k : R c → Prog C R E α} {sched : List (ℕ × Ch)}
    (h : (run m (start w progs) sched).pool tid = .call c k) :
    (own m tid (run m (start w progs) sched).trace).length =
      sched.countP fun a => a.1 = tid := by
  induction sched using List.reverseRecOn generalizing c k with
  | nil => rfl
  | append_singleton sched a ih =>
      set cfg := run m (start w progs) sched
      have hnext : run m (start w progs) (sched ++ [a]) = step m cfg a := run_append m _ sched [a]
      rw [hnext] at h ⊢
      rw [List.countP_append, List.countP_singleton]
      by_cases ht : a.1 = tid
      · subst ht
        cases hpool : cfg.pool a.1 with
        | call c₀ k₀ =>
            have htrace : (step m cfg a).trace = cfg.trace ++ [⟨a.1, c₀, a.2, cfg.world⟩] := by
              simp [step, hpool]
            rw [htrace, ← ih hpool]
            simp [own]
        | pure b => simp [step, hpool] at h
        | throw e => simp [step, hpool] at h
      · rw [if_neg (by simpa using ht), Nat.add_zero]
        rcases step_cases m cfg a with heq | ⟨c₀, k₀, _, _, hpool', htrace⟩
        · rw [heq] at h ⊢
          exact ih h
        · rw [hpool', Function.update_of_ne (Ne.symm ht)] at h
          rw [htrace, own_snoc_ne m (by exact ht), ih h]

/-! ### The world along a run -/

/-- Each event met the world its predecessor left. -/
def Chained (w : W) : List (Event C W Ch) → Prop
  | [] => True
  | e :: tr => e.before = w ∧ Chained (e.after m) tr

/-- The world after a trace. -/
def worldAfter (w : W) (tr : List (Event C W Ch)) : W :=
  tr.foldl (fun _ e => e.after m) w

theorem worldAfter_append (w : W) (tr tr' : List (Event C W Ch)) :
    worldAfter m w (tr ++ tr') = worldAfter m (worldAfter m w tr) tr' := by
  simp [worldAfter]

theorem chained_append {w : W} {tr tr' : List (Event C W Ch)} :
    Chained m w (tr ++ tr') ↔ Chained m w tr ∧ Chained m (worldAfter m w tr) tr' := by
  induction tr generalizing w with
  | nil => simp [Chained, worldAfter]
  | cons e tr ih => simp [Chained, ih, worldAfter, and_assoc]

theorem run_chained {w : W} {progs : ℕ → Prog C R E α} (sched : List (ℕ × Ch)) :
    Chained m w (run m (start w progs) sched).trace ∧
      (run m (start w progs) sched).world =
        worldAfter m w (run m (start w progs) sched).trace := by
  refine run_invariant m
    (I := fun c => Chained m w c.trace ∧ c.world = worldAfter m w c.trace)
    ?_ (start w progs) ⟨trivial, rfl⟩ sched
  rintro c a ⟨hch, hw⟩
  rcases step_cases m c a with h | ⟨cl, k, _, hworld, _, htr⟩
  · rw [h]; exact ⟨hch, hw⟩
  · rw [htr, hworld]
    refine ⟨(chained_append m).mpr ⟨hch, hw, trivial⟩, ?_⟩
    rw [worldAfter_append]
    rfl

/-- The world an event met is the world the events before it left. -/
theorem before_eq {w : W} {tr : List (Event C W Ch)} (h : Chained m w tr) {i : ℕ}
    {e : Event C W Ch} (hi : tr[i]? = some e) :
    e.before = worldAfter m w (tr.take i) := by
  obtain ⟨hlt, rfl⟩ := List.getElem?_eq_some_iff.mp hi
  have hsplit : tr = tr.take i ++ tr[i] :: tr.drop (i + 1) := by
    rw [← List.drop_eq_getElem_cons hlt, List.take_append_drop]
  rw [hsplit, chained_append] at h
  exact h.2.1

/-- **Component rule.** If each call does to the component `π` what its part for the
component does, the component after a trace is what the parts make of it. -/
theorem foldl_trace {A : Type} (π : W → X) (part : C → Ch → Option A) (f : X → A → X)
    (hf : ∀ c ch w, π (m c ch w).1 =
      match part c ch with
      | some a => f (π w) a
      | none => π w)
    {w : W} {tr : List (Event C W Ch)} (h : Chained m w tr) :
    π (worldAfter m w tr) = (tr.filterMap fun e => part e.call e.choice).foldl f (π w) := by
  induction tr generalizing w with
  | nil => rfl
  | cons e tr ih =>
      obtain ⟨hbefore, htail⟩ := h
      have hafter : π (worldAfter m w (e :: tr)) = π (worldAfter m (e.after m) tr) := rfl
      have hstep : π (e.after m) =
          match part e.call e.choice with
          | some a => f (π w) a
          | none => π w := by
        rw [← hbefore]
        exact hf _ _ _
      rw [hafter, ih htail, hstep]
      cases hpart : part e.call e.choice with
      | none => simp only [List.filterMap_cons, hpart]
      | some a => simp only [List.filterMap_cons, hpart, List.foldl_cons]

/-- A property no event of the trace destroys holds to its end. -/
theorem stable_world {w : W} {tr : List (Event C W Ch)} (h : Chained m w tr) {P : W → Prop}
    (hP : ∀ e ∈ tr, P e.before → P (e.after m)) (hw : P w) : P (worldAfter m w tr) := by
  induction tr generalizing w with
  | nil => exact hw
  | cons e tr ih =>
      obtain ⟨hbefore, htail⟩ := h
      exact ih htail (fun e' he' => hP e' (List.mem_cons_of_mem _ he'))
        (hP e List.mem_cons_self (hbefore ▸ hw))

/-- And before each of its events. -/
theorem stable_before {w : W} {tr : List (Event C W Ch)} (h : Chained m w tr) {P : W → Prop}
    (hP : ∀ e ∈ tr, P e.before → P (e.after m)) (hw : P w) {i : ℕ} {e : Event C W Ch}
    (hi : tr[i]? = some e) : P e.before := by
  have hfirst : Chained m w (tr.take i) := by
    rw [← List.take_append_drop i tr, chained_append] at h
    exact h.1
  rw [before_eq m h hi]
  exact stable_world m hfirst (fun e' he' => hP e' (List.mem_of_mem_take he')) hw

/-- **Stability rule.** A property no event of the trace destroys holds, once
an event left it, for every later event. -/
theorem stable_later {w : W} {tr : List (Event C W Ch)} (h : Chained m w tr)
    {P : W → Prop} (hP : ∀ e ∈ tr, P e.before → P (e.after m)) {i j : ℕ}
    {e e' : Event C W Ch} (hi : tr[i]? = some e) (hj : tr[j]? = some e') (hij : i < j)
    (he : P (e.after m)) : P e'.before := by
  induction j generalizing e' with
  | zero => omega
  | succ j ih =>
      obtain ⟨hlt, rfl⟩ := List.getElem?_eq_some_iff.mp hj
      have hj' : tr[j]? = some tr[j] := List.getElem?_eq_getElem (by omega)
      have hnext : tr[j + 1].before = tr[j].after m := by
        rw [before_eq m h hj, List.take_add_one, hj', worldAfter_append]
        rfl
      rw [hnext]
      rcases Nat.lt_or_ge i j with hlt' | hge
      · exact hP _ (List.getElem_mem _) (ih hj' hlt')
      · have : i = j := by omega
        subst this
        rw [hi] at hj'
        rwa [← Option.some.inj hj']

/-- The same up to the world at the end of the trace. -/
theorem stable_end {w : W} {tr : List (Event C W Ch)} (h : Chained m w tr)
    {P : W → Prop} (hP : ∀ e ∈ tr, P e.before → P (e.after m)) {i : ℕ}
    {e : Event C W Ch} (hi : tr[i]? = some e) (he : P (e.after m)) :
    P (worldAfter m w tr) := by
  obtain ⟨hlt, rfl⟩ := List.getElem?_eq_some_iff.mp hi
  have hlast : tr[tr.length - 1]? = some tr[tr.length - 1] :=
    List.getElem?_eq_getElem (by omega)
  have hend : worldAfter m w tr = tr[tr.length - 1].after m := by
    conv_lhs => rw [← List.take_append_drop (tr.length - 1) tr]
    rw [worldAfter_append, List.drop_eq_getElem_cons (by omega : tr.length - 1 < tr.length)]
    rw [List.drop_of_length_le (by omega)]
    rfl
  rw [hend]
  rcases Nat.lt_or_ge i (tr.length - 1) with hlt' | hge
  · exact hP _ (List.getElem_mem _) (stable_later m h hP hi hlast hlt' he)
  · have : i = tr.length - 1 := by omega
    subst this
    exact he

/-- **Latch rule.** What some events turn on and others turn off is on at the end of the
trace when an event turned it on that none after it turned off. -/
theorem latched_world {w : W} {tr : List (Event C W Ch)} (h : Chained m w tr) {P : W → Prop}
    {On Off : Event C W Ch → Prop} (hstep : ∀ e ∈ tr, P (e.after m) ↔ On e ∨ P e.before ∧ ¬Off e)
    (hw : ¬P w) :
    P (worldAfter m w tr) ↔ ∃ (i : ℕ) (e : Event C W Ch), tr[i]? = some e ∧ On e ∧
      ∀ (j : ℕ) (e' : Event C W Ch), tr[j]? = some e' → i < j → ¬Off e' := by
  induction tr using List.reverseRecOn with
  | nil => exact iff_of_false hw fun ⟨i, e, hi, _⟩ => absurd hi (by simp)
  | append_singleton tr last ih =>
      obtain ⟨hprev, hbefore, _⟩ := (chained_append m).mp h
      have hlast : (tr ++ [last])[tr.length]? = some last := by simp
      have hold : ∀ {i : ℕ} {e : Event C W Ch}, (tr ++ [last])[i]? = some e → i ≠ tr.length →
          tr[i]? = some e := by
        intro i e hi hne
        have hlt : i < (tr ++ [last]).length := (List.getElem?_eq_some_iff.mp hi).1
        rw [List.length_append, List.length_singleton] at hlt
        rwa [List.getElem?_append_left (by omega)] at hi
      rw [worldAfter_append, show worldAfter m (worldAfter m w tr) [last] = last.after m from rfl,
        hstep last (by simp), hbefore, ih hprev fun e he => hstep e (List.mem_append_left _ he)]
      constructor
      · rintro (hon | ⟨⟨i, e, hi, hon, hoff⟩, hlastOff⟩)
        · refine ⟨tr.length, last, hlast, hon, fun j e' hj hlt => ?_⟩
          have hbound : j < (tr ++ [last]).length := (List.getElem?_eq_some_iff.mp hj).1
          rw [List.length_append, List.length_singleton] at hbound
          omega
        · have hlt : i < tr.length := (List.getElem?_eq_some_iff.mp hi).1
          refine ⟨i, e, by rwa [List.getElem?_append_left hlt], hon, fun j e' hj hij => ?_⟩
          by_cases hjlast : j = tr.length
          · rw [hjlast, hlast] at hj
            rwa [← Option.some.inj hj]
          · exact hoff j e' (hold hj hjlast) hij
      · rintro ⟨i, e, hi, hon, hoff⟩
        by_cases hilast : i = tr.length
        · rw [hilast, hlast] at hi
          exact Or.inl (Option.some.inj hi ▸ hon)
        · have hi' := hold hi hilast
          have hlt : i < tr.length := (List.getElem?_eq_some_iff.mp hi').1
          refine Or.inr ⟨⟨i, e, hi', hon, fun j e' hj hij => ?_⟩, hoff _ _ hlast hlt⟩
          have hjlt : j < tr.length := (List.getElem?_eq_some_iff.mp hj).1
          exact hoff j e' (by rwa [List.getElem?_append_left hjlt]) hij

end Config

end Machine

end Framework
