import MyService.Framework.Interleaving
import MyService.Framework.Sequential
import Mathlib.Data.List.Nodup

/-!
# Serial orders

When an interleaving of programs is as good as running them one at a time. A program is
observed through a component `π` of the world and a part `obs` of its outcome. Its commit
point is the first call after which it neither looks at the component nor changes it. Up to
there it only reads, and `Pending` says what this takes: at every call before the commit,
starting over in any world that the others may have left meanwhile would come to the same.

`run_serializable` is the rule: the programs in the order of their commits, each run alone
with the choices that it met, leave the same component and end alike, and that order keeps
real time.
-/

namespace Framework

variable {C : Type} {R : C → Type} {E α β W Ch X O : Type}

namespace Prog

/-- The outcome of a program that has ended. -/
def result? : Prog C R E α → Option (Except E α)
  | .pure a => some (.ok a)
  | .throw e => some (.error e)
  | .call _ _ => none

theorem uses_of_result? {A : C → Prop} {p : Prog C R E α} {x : Except E α}
    (h : p.result? = some x) : Uses A p := by
  cases p with
  | pure a => trivial
  | throw e => trivial
  | call c k => exact absurd h (by simp [result?])

theorem exec_of_result? {p : Prog C R E α} {x : Except E α} (h : p.result? = some x)
    (m : (c : C) → Ch → W → W × R c) (cs : ℕ → Ch) (w : W) : p.exec m cs w = (x, w) := by
  cases p with
  | pure a => rw [← Option.some.inj h]; rfl
  | throw e => rw [← Option.some.inj h]; rfl
  | call c k => exact absurd h (by simp [result?])

/-! ## What a call has to do with the component -/

section Component

variable (m : (c : C) → Ch → W → W × R c) (π : W → X)

/-- The call is answered from the component and changes it by itself. -/
def Local (c : C) : Prop :=
  ∀ ch w w', π w = π w' →
    (m c ch w').2 = (m c ch w).2 ∧ π (m c ch w).1 = π (m c ch w').1

/-- The answer is the environment's alone, and the component stays. -/
def Blind (c : C) : Prop :=
  ∀ ch w w', (m c ch w').2 = (m c ch w).2 ∧ π (m c ch w).1 = π w

/-- The component stays. -/
def Silent (c : C) : Prop := ∀ ch w, π (m c ch w).1 = π w

variable {m π}

theorem Blind.silent {c : C} (h : Blind m π c) : Silent m π c := fun ch w => (h ch w w).2

theorem Blind.toLocal {c : C} (h : Blind m π c) : Local m π c := by
  intro ch w w' hw
  refine ⟨(h ch w w').1, ?_⟩
  rw [(h ch w w').2, (h ch w' w).2, hw]

/-- A program of local calls sees the component only. -/
theorem exec_local {p : Prog C R E α} (hp : Uses (Local m π) p) (cs : ℕ → Ch) {w w' : W}
    (hw : π w = π w') :
    (p.exec m cs w').1 = (p.exec m cs w).1 ∧ π (p.exec m cs w).2 = π (p.exec m cs w').2 := by
  have hstep : ∀ c ch v v', Local m π c → π v = π v' →
      (m c ch v').2 = (m c ch v).2 ∧ π (m c ch v).1 = π (m c ch v').1 :=
    fun _ ch v v' hc hrel => hc ch v v' hrel
  exact exec_agree hstep hp cs w w' hw

/-- A program of blind calls ends alike everywhere and leaves the component. -/
theorem exec_blind {p : Prog C R E α} (hp : Uses (Blind m π) p) (cs : ℕ → Ch) (w w' : W) :
    (p.exec m cs w').1 = (p.exec m cs w).1 ∧ π (p.exec m cs w).2 = π w := by
  have hstep : ∀ c ch v v', Blind m π c → π v = π w ∧ π v' = π w' →
      (m c ch v').2 = (m c ch v).2 ∧ π (m c ch v).1 = π w ∧ π (m c ch v').1 = π w' :=
    fun _ ch v v' hc hrel =>
      ⟨(hc ch v v').1, (hc ch v v').2.trans hrel.1, (hc ch v' v).2.trans hrel.2⟩
  obtain ⟨hanswer, hkeep, _⟩ := exec_agree hstep hp cs w w' ⟨rfl, rfl⟩
  exact ⟨hanswer, hkeep⟩

end Component

/-! ## Starting over -/

/-- The choices begin with these. -/
def StartsWith (made : List Ch) (cs : ℕ → Ch) : Prop := ∀ i ch, made[i]? = some ch → cs i = ch

theorem StartsWith.snoc {made : List Ch} {ch : Ch} {cs : ℕ → Ch}
    (h : StartsWith (made ++ [ch]) cs) : StartsWith made cs ∧ cs made.length = ch := by
  refine ⟨fun i ch' hi => h i ch' ?_, h made.length ch (by simp)⟩
  rw [List.getElem?_append_left (List.getElem?_eq_some_iff.mp hi).1]
  exact hi

section Pending

variable (m : (c : C) → Ch → W → W × R c) (π : W → X) (rely : X → X → Prop)
  (obs : Except E α → O)

/-- Two outcomes are observed alike. -/
def Same (r r' : Except E α × W) : Prop := obs r.1 = obs r'.1 ∧ π r.2 = π r'.2

/-- After these choices, what is left of the program comes to the same as the whole of it. -/
def Agrees (full p : Prog C R E α) (made : List Ch) (w : W) : Prop :=
  ∀ cs, StartsWith made cs →
    Same π obs (full.exec m cs w) (p.exec m (fun i => cs (i + made.length)) w)

/-- And so it does whatever the others do. -/
def Stays (full p : Prog C R E α) (made : List Ch) (w : W) : Prop :=
  ∀ w', rely (π w) (π w') → Agrees m π obs full p made w'

/-- Before its commit the program only reads, and what it has read stays as good. -/
def Pending (full : Prog C R E α) : List Ch → Prog C R E α → Prop
  | _, .pure _ => True
  | _, .throw _ => True
  | made, .call c k => ∀ ch w, Stays m π rely obs full (.call c k) made w →
      Uses (Blind m π) (k (m c ch w).2) ∨
        π (m c ch w).1 = π w ∧ Stays m π rely obs full (k (m c ch w).2) (made ++ [ch]) w ∧
          Pending full (made ++ [ch]) (k (m c ch w).2)

variable {m π rely obs} {full : Prog C R E α} {made : List Ch}

theorem Same.trans {r r' r'' : Except E α × W} (h : Same π obs r r') (h' : Same π obs r' r'') :
    Same π obs r r'' :=
  ⟨h.1.trans h'.1, h.2.trans h'.2⟩

/-- One call further. -/
theorem Agrees.snoc {c : C} {k : R c → Prog C R E α} {p : Prog C R E α} {ch : Ch} {w w' : W}
    (h : Agrees m π obs full (.call c k) made w)
    (hsame : ∀ cs, Same π obs ((k (m c ch w).2).exec m cs (m c ch w).1) (p.exec m cs w')) :
    ∀ cs, StartsWith (made ++ [ch]) cs →
      Same π obs (full.exec m cs w) (p.exec m (fun i => cs (i + (made ++ [ch]).length)) w') := by
  intro cs hcs
  obtain ⟨hmade, hch⟩ := hcs.snoc
  have hcall := h cs hmade
  rw [exec_call, Nat.zero_add, hch] at hcall
  have hrest : (fun i => cs (i + 1 + made.length)) = fun i => cs (i + (made ++ [ch]).length) := by
    funext i
    rw [List.length_append, List.length_singleton, Nat.add_assoc, Nat.add_comm 1]
  rw [hrest] at hcall
  exact hcall.trans (hsame _)

/-- The program sees the component only, and is pending. -/
structure Serializes (m : (c : C) → Ch → W → W × R c) (π : W → X) (rely : X → X → Prop)
    (obs : Except E α → O) (full : Prog C R E α) (made : List Ch) (p : Prog C R E α) : Prop where
  isLocal : Uses (Local m π) p
  pending : Pending m π rely obs full made p

/-- **Committed rule.** -/
theorem serializes_of_blind {p : Prog C R E α} (h : Uses (Blind m π) p) :
    Serializes m π rely obs full made p := by
  refine ⟨h.mono fun _ => Blind.toLocal, ?_⟩
  cases p with
  | pure a => trivial
  | throw e => trivial
  | call c k => exact fun ch w _ => Or.inl ((uses_call.mp h).2 _)

/-- **Commit rule.** The call may do anything, and nothing after it looks. -/
theorem serializes_commit {c : C} {k : R c → Prog C R E α} (hc : Local m π c)
    (h : ∀ r, Uses (Blind m π) (k r)) : Serializes m π rely obs full made (.call c k) :=
  ⟨uses_call.mpr ⟨hc, fun r => (h r).mono fun _ => Blind.toLocal⟩, fun _ _ _ => Or.inl (h _)⟩

/-- **Read rule.** Where the program goes on, it would go on alike from a later answer. -/
theorem serializes_read {c : C} {k : R c → Prog C R E α} (hc : Local m π c)
    (hsilent : Silent m π c)
    (hrest : ∀ made r, Serializes m π rely obs full made (k r))
    (hsame : ∀ ch w, Uses (Blind m π) (k (m c ch w).2) ∨
      ∀ w', rely (π w) (π w') → ∀ cs,
        Same π obs ((k (m c ch w').2).exec m cs w') ((k (m c ch w).2).exec m cs w')) :
    Serializes m π rely obs full made (.call c k) := by
  have hlocal : ∀ r, Uses (Local m π) (k r) := fun r => (hrest [] r).isLocal
  refine ⟨uses_call.mpr ⟨hc, hlocal⟩, fun ch w hstays => ?_⟩
  rcases hsame ch w with hblind | hagree
  · exact Or.inl hblind
  · refine Or.inr ⟨hsilent ch w, fun w' hw' => (hstays w' hw').snoc fun cs => ?_,
      (hrest _ _).pending⟩
    obtain ⟨hresult, hcomponent⟩ := exec_local (hlocal (m c ch w').2) cs (hsilent ch w')
    exact Same.trans ⟨congrArg obs hresult.symm, hcomponent⟩ (hagree w' hw' cs)

/-- **Blind rule.** -/
theorem serializes_blind {c : C} {k : R c → Prog C R E α} (hc : Blind m π c)
    (hrest : ∀ made r, Serializes m π rely obs full made (k r)) :
    Serializes m π rely obs full made (.call c k) := by
  refine serializes_read hc.toLocal hc.silent hrest fun ch w => Or.inr fun w' _ cs => ?_
  rw [(hc ch w w').1]
  exact ⟨rfl, rfl⟩

theorem serializes_ofExcept_bind {x : Except E β} {f : β → Prog C R E α}
    (h : ∀ b, x = .ok b → Serializes m π rely obs full made (f b)) :
    Serializes m π rely obs full made (ofExcept x >>= f) := by
  cases x with
  | error e => exact ⟨trivial, trivial⟩
  | ok b => exact h b rfl

theorem serializes_ite {b : Prop} [Decidable b] {p q : Prog C R E α}
    (ht : b → Serializes m π rely obs full made p)
    (hf : ¬b → Serializes m π rely obs full made q) :
    Serializes m π rely obs full made (if b then p else q) := by
  by_cases hb : b
  · rw [if_pos hb]
    exact ht hb
  · rw [if_neg hb]
    exact hf hb

end Pending

end Prog

/-! ## Along a run -/

section Run

open Prog

/-- The choices that a thread's calls met, oldest first. -/
def choicesOf (tid : ℕ) (tr : List (Event C W Ch)) : List Ch :=
  (tr.filter fun e => e.tid = tid).map Event.choice

theorem choicesOf_snoc_self (tr : List (Event C W Ch)) (e : Event C W Ch) :
    choicesOf e.tid (tr ++ [e]) = choicesOf e.tid tr ++ [e.choice] := by
  simp [choicesOf]

theorem choicesOf_snoc_ne {tid : ℕ} {e : Event C W Ch} (h : e.tid ≠ tid)
    (tr : List (Event C W Ch)) : choicesOf tid (tr ++ [e]) = choicesOf tid tr := by
  simp [choicesOf, h]

/-- The choices of every thread begin with those of the trace. -/
def Fits (cs : ℕ → ℕ → Ch) (tr : List (Event C W Ch)) : Prop :=
  ∀ tid, StartsWith (choicesOf tid tr) (cs tid)

theorem Fits.of_snoc {cs : ℕ → ℕ → Ch} {tr : List (Event C W Ch)} {e : Event C W Ch}
    (h : Fits cs (tr ++ [e])) : Fits cs tr := by
  intro tid
  by_cases ht : e.tid = tid
  · subst ht
    have hself := h e.tid
    rw [choicesOf_snoc_self] at hself
    exact hself.snoc.1
  · have hother := h tid
    rwa [choicesOf_snoc_ne ht] at hother

/-- The thread has made a call. -/
def Started (tr : List (Event C W Ch)) (tid : ℕ) : Prop := ∃ e ∈ tr, e.tid = tid

theorem started_snoc {tr : List (Event C W Ch)} {e : Event C W Ch} {tid : ℕ} :
    Started (tr ++ [e]) tid ↔ Started tr tid ∨ e.tid = tid := by
  simp [Started, or_and_right, exists_or]

/-- The threads of a list one after another. -/
def serially (m : (c : C) → Ch → W → W × R c) (progs : ℕ → Prog C R E α) (cs : ℕ → ℕ → Ch)
    (order : List ℕ) (w : W) : W :=
  (execAll m (order.map fun tid => (progs tid, cs tid)) w).2

theorem serially_snoc (m : (c : C) → Ch → W → W × R c) (progs : ℕ → Prog C R E α)
    (cs : ℕ → ℕ → Ch) (order : List ℕ) (tid : ℕ) (w : W) :
    serially m progs cs (order ++ [tid]) w =
      ((progs tid).exec m (cs tid) (serially m progs cs order w)).2 := by
  rw [serially, List.map_append, List.map_singleton, execAll_snoc]
  rfl

variable (m : (c : C) → Ch → W → W × R c) (π : W → X) (rely : X → X → Prop)
  (obs : ℕ → Except E α → O) (serial : ℕ → Prop) (w : W) (progs : ℕ → Prog C R E α)

/-- What is known of a run and the order of its commits so far. -/
structure Committed (cfg : Config C R E α W Ch) (order : List ℕ) : Prop where
  nodup : order.Nodup
  started : ∀ tid ∈ order, serial tid ∧ Started cfg.trace tid
  silent : ∀ tid, ¬serial tid → Uses (Silent m π) (cfg.pool tid)
  /-- a thread that has committed looks no more -/
  blind : ∀ tid ∈ order, Uses (Blind m π) (cfg.pool tid)
  /-- one that has not would lose nothing by starting over -/
  pending : ∀ tid, serial tid → tid ∉ order →
    Pending m π rely (obs tid) (progs tid) (choicesOf tid cfg.trace) (cfg.pool tid) ∧
      Stays m π rely (obs tid) (progs tid) (cfg.pool tid) (choicesOf tid cfg.trace) cfg.world ∧
      (Started cfg.trace tid → ¬Uses (Blind m π) (cfg.pool tid))
  world : ∀ cs, Fits cs cfg.trace → π (serially m progs cs order w) = π cfg.world
  outcome : ∀ cs, Fits cs cfg.trace → ∀ pre tid post, order = pre ++ tid :: post → ∀ w',
    obs tid ((progs tid).exec m (cs tid) (serially m progs cs pre w)).1 =
      obs tid ((cfg.pool tid).exec m
        (fun i => cs tid (i + (choicesOf tid cfg.trace).length)) w').1

variable {m π rely obs serial w progs}

theorem committed_start (hsilent : ∀ tid, ¬serial tid → Uses (Silent m π) (progs tid))
    (hpending : ∀ tid, serial tid →
      Pending m π rely (obs tid) (progs tid) [] (progs tid)) :
    Committed m π rely obs serial w progs (Config.start w progs) [] := by
  refine ⟨List.nodup_nil, by simp, hsilent, by simp, ?_, fun _ _ => rfl, ?_⟩
  · intro tid htid _
    refine ⟨hpending tid htid, fun w' _ cs _ => ⟨rfl, rfl⟩, ?_⟩
    rintro ⟨e, he, _⟩
    exact absurd he (by simp [Config.start])
  · intro _ _ pre tid post h
    exact absurd h (by simp)

section Step

variable {cfg : Config C R E α W Ch} {order : List ℕ} {a : ℕ × Ch} {c : C}
  {k : R c → Prog C R E α}

/-- The step lets thread `a.1` make the call `c`. -/
structure Makes (m : (c : C) → Ch → W → W × R c) (cfg : Config C R E α W Ch) (a : ℕ × Ch) (c : C)
    (k : R c → Prog C R E α) : Prop where
  pool : cfg.pool a.1 = .call c k
  world : (Config.step m cfg a).world = (m c a.2 cfg.world).1
  after : (Config.step m cfg a).pool = Function.update cfg.pool a.1 (k (m c a.2 cfg.world).2)
  trace : (Config.step m cfg a).trace = cfg.trace ++ [⟨a.1, c, a.2, cfg.world⟩]

/-- Another thread than the one that made the call. -/
theorem Makes.other (hmakes : Makes m cfg a c k) {tid : ℕ} (h : a.1 ≠ tid) :
    choicesOf tid (Config.step m cfg a).trace = choicesOf tid cfg.trace ∧
      (Config.step m cfg a).pool tid = cfg.pool tid := by
  rw [hmakes.trace, hmakes.after, choicesOf_snoc_ne h, Function.update_of_ne (Ne.symm h)]
  exact ⟨rfl, rfl⟩

/-- The thread that made it. -/
theorem Makes.self (hmakes : Makes m cfg a c k) :
    choicesOf a.1 (Config.step m cfg a).trace = choicesOf a.1 cfg.trace ++ [a.2] ∧
      (Config.step m cfg a).pool a.1 = k (m c a.2 cfg.world).2 := by
  rw [hmakes.trace, hmakes.after, Function.update_self]
  exact ⟨choicesOf_snoc_self cfg.trace ⟨a.1, c, a.2, cfg.world⟩, rfl⟩

theorem Makes.fits (hmakes : Makes m cfg a c k) {cs : ℕ → ℕ → Ch}
    (h : Fits cs (Config.step m cfg a).trace) : Fits cs cfg.trace := by
  rw [hmakes.trace] at h
  exact h.of_snoc

theorem Makes.started_iff (hmakes : Makes m cfg a c k) {tid : ℕ} :
    Started (Config.step m cfg a).trace tid ↔ Started cfg.trace tid ∨ a.1 = tid := by
  rw [hmakes.trace, started_snoc]

/-- A call that commits nothing: of a thread that takes no part, that has committed, or that
goes on reading. -/
theorem Committed.step_same (h : Committed m π rely obs serial w progs cfg order)
    (hmakes : Makes m cfg a c k) (hsame : π (m c a.2 cfg.world).1 = π cfg.world)
    (hlook : serial a.1 → a.1 ∉ order →
      Pending m π rely (obs a.1) (progs a.1) (choicesOf a.1 cfg.trace ++ [a.2])
          (k (m c a.2 cfg.world).2) ∧
        Stays m π rely (obs a.1) (progs a.1) (k (m c a.2 cfg.world).2)
          (choicesOf a.1 cfg.trace ++ [a.2]) cfg.world ∧
        ¬Uses (Blind m π) (k (m c a.2 cfg.world).2)) :
    Committed m π rely obs serial w progs (Config.step m cfg a) order := by
  obtain ⟨hself, hself'⟩ := hmakes.self
  refine ⟨h.nodup, ?_, ?_, ?_, ?_, ?_, ?_⟩
  · intro tid htid
    rw [hmakes.started_iff]
    exact ⟨(h.started tid htid).1, Or.inl (h.started tid htid).2⟩
  · intro tid htid
    by_cases ht : a.1 = tid
    · subst ht
      have huses := h.silent a.1 htid
      rw [hmakes.pool, uses_call] at huses
      rw [hself']
      exact huses.2 _
    · rw [(hmakes.other ht).2]
      exact h.silent tid htid
  · intro tid htid
    by_cases ht : a.1 = tid
    · subst ht
      have huses := h.blind a.1 htid
      rw [hmakes.pool, uses_call] at huses
      rw [hself']
      exact huses.2 _
    · rw [(hmakes.other ht).2]
      exact h.blind tid htid
  · intro tid htid hnot
    rw [hmakes.started_iff]
    by_cases ht : a.1 = tid
    · subst ht
      obtain ⟨hpending, hstays, hblind⟩ := hlook htid hnot
      rw [hself, hself', hmakes.world]
      exact ⟨hpending, fun w' hw' => hstays w' (hsame ▸ hw'), fun _ => hblind⟩
    · obtain ⟨hpending, hstays, hblind⟩ := h.pending tid htid hnot
      rw [(hmakes.other ht).1, (hmakes.other ht).2, hmakes.world]
      exact ⟨hpending, fun w' hw' => hstays w' (hsame ▸ hw'),
        fun hs => hblind (hs.resolve_right ht)⟩
  · intro cs hcs
    rw [hmakes.world, hsame]
    exact h.world cs (hmakes.fits hcs)
  · intro cs hcs pre tid post horder w'
    have hbefore := h.outcome cs (hmakes.fits hcs) pre tid post horder
    by_cases ht : a.1 = tid
    · subst ht
      -- a blind call, made with its own choice
      have huses := h.blind a.1 (by rw [horder]; simp)
      rw [hmakes.pool, uses_call] at huses
      have hmade := hcs a.1
      rw [hself] at hmade
      have hcall := hbefore w'
      rw [hmakes.pool, exec_call, Nat.zero_add, hmade.snoc.2, (huses.1 a.2 cfg.world w').1] at hcall
      rw [hcall, hself, hself', List.length_append, List.length_singleton]
      have hrest : (fun i => cs a.1 (i + 1 + (choicesOf a.1 cfg.trace).length)) =
          fun i => cs a.1 (i + ((choicesOf a.1 cfg.trace).length + 1)) := by
        funext i
        rw [Nat.add_assoc, Nat.add_comm 1]
      rw [hrest]
      exact congrArg _ (exec_blind (huses.2 _) _ _ _).1
    · rw [(hmakes.other ht).1, (hmakes.other ht).2]
      exact hbefore w'

/-- The call that commits its thread. -/
theorem Committed.step_commit (h : Committed m π rely obs serial w progs cfg order)
    (hmakes : Makes m cfg a c k) (hrefl : ∀ x, rely x x)
    (htrans : ∀ x y z, rely x y → rely y z → rely x z)
    (hrely : rely (π cfg.world) (π (m c a.2 cfg.world).1)) (hserial : serial a.1)
    (hnot : a.1 ∉ order) (hlocal : Uses (Local m π) (progs a.1))
    (hblind : Uses (Blind m π) (k (m c a.2 cfg.world).2)) :
    Committed m π rely obs serial w progs (Config.step m cfg a) (order ++ [a.1]) := by
  obtain ⟨hself, hself'⟩ := hmakes.self
  -- run alone from the serial state, the thread does what it has done here
  have halone : ∀ cs, Fits cs (Config.step m cfg a).trace →
      Same π (obs a.1) ((progs a.1).exec m (cs a.1) (serially m progs cs order w))
        ((k (m c a.2 cfg.world).2).exec m
          (fun i => cs a.1 (i + (choicesOf a.1 cfg.trace ++ [a.2]).length))
          (m c a.2 cfg.world).1) := by
    intro cs hcs
    have hstate := h.world cs (hmakes.fits hcs)
    obtain ⟨hresult, hcomponent⟩ := exec_local hlocal (cs a.1) hstate
    have hagrees := (h.pending a.1 hserial hnot).2.1 cfg.world (hrefl _)
    rw [hmakes.pool] at hagrees
    have hmade := hcs a.1
    rw [hself] at hmade
    have hhere := hagrees.snoc (fun _ => ⟨rfl, rfl⟩) (cs a.1) hmade
    exact Same.trans ⟨congrArg _ hresult.symm, hcomponent⟩ hhere
  refine ⟨?_, ?_, ?_, ?_, ?_, ?_, ?_⟩
  · exact List.Nodup.append h.nodup (List.nodup_singleton _) (by simpa using hnot)
  · intro tid htid
    rw [hmakes.started_iff]
    rcases List.mem_append.mp htid with hold | hnew
    · exact ⟨(h.started tid hold).1, Or.inl (h.started tid hold).2⟩
    · rw [List.mem_singleton.mp hnew]
      exact ⟨hserial, Or.inr rfl⟩
  · intro tid htid
    have ht : a.1 ≠ tid := fun heq => htid (heq ▸ hserial)
    rw [(hmakes.other ht).2]
    exact h.silent tid htid
  · intro tid htid
    by_cases ht : a.1 = tid
    · subst ht
      rw [hself']
      exact hblind
    · rw [(hmakes.other ht).2]
      refine h.blind tid ((List.mem_append.mp htid).resolve_right ?_)
      exact fun hlast => ht (List.mem_singleton.mp hlast).symm
  · intro tid htid hnot'
    rw [List.mem_append, List.mem_singleton, not_or] at hnot'
    have ht : a.1 ≠ tid := fun heq => hnot'.2 heq.symm
    obtain ⟨hpending, hstays, hlooks⟩ := h.pending tid htid hnot'.1
    rw [(hmakes.other ht).1, (hmakes.other ht).2, hmakes.world, hmakes.started_iff]
    exact ⟨hpending, fun w' hw' => hstays w' (htrans _ _ _ hrely hw'),
      fun hs => hlooks (hs.resolve_right ht)⟩
  · intro cs hcs
    rw [serially_snoc, hmakes.world, (halone cs hcs).2]
    exact (exec_blind hblind _ _ (m c a.2 cfg.world).1).2
  · intro cs hcs pre tid post horder w'
    rcases List.eq_nil_or_concat post with rfl | ⟨post', last, rfl⟩
    · obtain ⟨rfl, hlast⟩ := List.append_inj' horder rfl
      obtain rfl := (List.cons.inj hlast).1
      rw [(halone cs hcs).1, hself, hself']
      exact congrArg _ (exec_blind hblind _ _ _).1.symm
    · rw [List.concat_eq_append, ← List.cons_append, ← List.append_assoc] at horder
      obtain ⟨horder', _⟩ := List.append_inj' horder rfl
      have ht : a.1 ≠ tid := fun heq => hnot (by rw [horder', heq]; simp)
      rw [(hmakes.other ht).1, (hmakes.other ht).2]
      exact h.outcome cs (hmakes.fits hcs) pre tid post' horder' w'

end Step

/-- **Step rule.** A call commits its thread or nothing. -/
theorem Committed.step {cfg : Config C R E α W Ch} {order : List ℕ}
    (h : Committed m π rely obs serial w progs cfg order) (hrefl : ∀ x, rely x x)
    (htrans : ∀ x y z, rely x y → rely y z → rely x z)
    (hrely : ∀ c ch w, rely (π w) (π (m c ch w).1))
    (hlocal : ∀ tid, serial tid → Uses (Local m π) (progs tid)) (a : ℕ × Ch) :
    Committed m π rely obs serial w progs (Config.step m cfg a) order ∨
      a.1 ∉ order ∧
        Committed m π rely obs serial w progs (Config.step m cfg a) (order ++ [a.1]) := by
  rcases Config.step_cases m cfg a with heq | ⟨c, k, hpool, hworld, hafter, htrace⟩
  · rw [heq]
    exact Or.inl h
  · have hmakes : Makes m cfg a c k := ⟨hpool, hworld, hafter, htrace⟩
    by_cases hserial : serial a.1
    · by_cases hmem : a.1 ∈ order
      · have huses := h.blind a.1 hmem
        rw [hpool, uses_call] at huses
        exact Or.inl (h.step_same hmakes (huses.1 a.2 _ cfg.world).2
          fun _ hnot => absurd hmem hnot)
      · obtain ⟨hpending, hstays, _⟩ := h.pending a.1 hserial hmem
        rw [hpool] at hpending hstays
        by_cases hblind : Uses (Blind m π) (k (m c a.2 cfg.world).2)
        · exact Or.inr ⟨hmem, h.step_commit hmakes hrefl htrans
            (hrely c a.2 cfg.world) hserial hmem (hlocal a.1 hserial) hblind⟩
        · rcases hpending a.2 cfg.world hstays with hcommit | ⟨hsame, hstays', hpending'⟩
          · exact absurd hcommit hblind
          · exact Or.inl (h.step_same hmakes hsame
              fun _ _ => ⟨hpending', hstays', hblind⟩)
    · have huses := h.silent a.1 hserial
      rw [hpool, uses_call] at huses
      exact Or.inl (h.step_same hmakes (huses.1 a.2 cfg.world)
        fun hs => absurd hs hserial)

variable (m π obs serial w progs)

/-- The threads of `order`, run one at a time, are as good as the run of `sched`. -/
structure SerialOrder (sched : List (ℕ × Ch)) (order : List ℕ) : Prop where
  /-- each thread once, and only threads that have made a call -/
  nodup : order.Nodup
  started : ∀ tid ∈ order,
    serial tid ∧ Started (Config.run m (Config.start w progs) sched).trace tid
  /-- every thread that has ended, but for those that end without a call -/
  ended : ∀ tid, serial tid →
    Started (Config.run m (Config.start w progs) sched).trace tid →
    ((Config.run m (Config.start w progs) sched).pool tid).result?.isSome → tid ∈ order
  /-- one after another they leave the same component -/
  world : ∀ cs, Fits cs (Config.run m (Config.start w progs) sched).trace →
    π (serially m progs cs order w) = π (Config.run m (Config.start w progs) sched).world
  /-- and those that have ended end alike -/
  outcome : ∀ cs, Fits cs (Config.run m (Config.start w progs) sched).trace →
    ∀ pre tid post, order = pre ++ tid :: post → ∀ x,
      ((Config.run m (Config.start w progs) sched).pool tid).result? = some x →
      obs tid ((progs tid).exec m (cs tid) (serially m progs cs pre w)).1 = obs tid x
  /-- a thread that had ended before another began comes first -/
  realTime : ∀ sched₁ sched₂, sched = sched₁ ++ sched₂ → ∀ a b, serial a →
    Started (Config.run m (Config.start w progs) sched₁).trace a →
    ((Config.run m (Config.start w progs) sched₁).pool a).result?.isSome → b ∈ order →
    ¬Started (Config.run m (Config.start w progs) sched₁).trace b →
    ∃ pre post, order = pre ++ post ∧ a ∈ pre ∧ b ∈ post

variable {m π obs serial w progs}

theorem Committed.ended {cfg : Config C R E α W Ch} {order : List ℕ}
    (h : Committed m π rely obs serial w progs cfg order) {tid : ℕ} (hserial : serial tid)
    (hstarted : Started cfg.trace tid) (hended : (cfg.pool tid).result?.isSome) :
    tid ∈ order := by
  by_contra hnot
  obtain ⟨x, hx⟩ := Option.isSome_iff_exists.mp hended
  exact (h.pending tid hserial hnot).2.2 hstarted (uses_of_result? hx)

/-- A thread that has ended stays as it is. -/
theorem result?_step {cfg : Config C R E α W Ch} {a : ℕ × Ch} {tid : ℕ} {x : Except E α}
    (h : (cfg.pool tid).result? = some x) : ((Config.step m cfg a).pool tid).result? = some x := by
  rcases Config.step_cases m cfg a with heq | ⟨c, k, hpool, _, hpool', _⟩
  · rw [heq]
    exact h
  · have ht : tid ≠ a.1 := by
      rintro rfl
      rw [hpool] at h
      exact absurd h (by simp [result?])
    rw [hpool', Function.update_of_ne ht]
    exact h

theorem started_step_of {cfg : Config C R E α W Ch} {a : ℕ × Ch} {tid : ℕ}
    (h : Started cfg.trace tid) : Started (Config.step m cfg a).trace tid := by
  rcases Config.step_cases m cfg a with heq | ⟨c, k, _, _, _, htrace⟩
  · rw [heq]
    exact h
  · rw [htrace, started_snoc]
    exact Or.inl h

theorem result?_run {cfg : Config C R E α W Ch} {tid : ℕ}
    (hstarted : Started cfg.trace tid) (hended : (cfg.pool tid).result?.isSome)
    (sched : List (ℕ × Ch)) :
    Started (Config.run m cfg sched).trace tid ∧
      ((Config.run m cfg sched).pool tid).result?.isSome := by
  refine Config.run_invariant m
    (I := fun cfg => Started cfg.trace tid ∧ (cfg.pool tid).result?.isSome) ?_ cfg
    ⟨hstarted, hended⟩ sched
  rintro cfg a ⟨hs, he⟩
  obtain ⟨x, hx⟩ := Option.isSome_iff_exists.mp he
  exact ⟨started_step_of hs, by rw [result?_step hx]; rfl⟩

/-- **Serialization rule.** Threads that are pending until they commit, beside any that leave
the component alone, have a serial order at every moment of every schedule. -/
theorem run_serializable (hrefl : ∀ x, rely x x)
    (htrans : ∀ x y z, rely x y → rely y z → rely x z)
    (hrely : ∀ c ch w, rely (π w) (π (m c ch w).1))
    (hserial : ∀ tid, serial tid →
      Serializes m π rely (obs tid) (progs tid) [] (progs tid))
    (hsilent : ∀ tid, ¬serial tid → Uses (Silent m π) (progs tid)) (sched : List (ℕ × Ch)) :
    ∃ order, SerialOrder m π obs serial w progs sched order := by
  suffices h : ∃ order, SerialOrder m π obs serial w progs sched order ∧
      Committed m π rely obs serial w progs (Config.run m (Config.start w progs) sched) order from
    ⟨h.choose, h.choose_spec.1⟩
  -- all but real time is read off the invariant
  have hread : ∀ {sched order},
      Committed m π rely obs serial w progs (Config.run m (Config.start w progs) sched) order →
      (∀ sched₁ sched₂, sched = sched₁ ++ sched₂ → ∀ a b, serial a →
        Started (Config.run m (Config.start w progs) sched₁).trace a →
        ((Config.run m (Config.start w progs) sched₁).pool a).result?.isSome → b ∈ order →
        ¬Started (Config.run m (Config.start w progs) sched₁).trace b →
        ∃ pre post, order = pre ++ post ∧ a ∈ pre ∧ b ∈ post) →
      SerialOrder m π obs serial w progs sched order := by
    intro sched order hcommitted hreal
    refine ⟨hcommitted.nodup, hcommitted.started, fun tid => hcommitted.ended,
      hcommitted.world, ?_, hreal⟩
    intro cs hcs pre tid post horder x hx
    rw [hcommitted.outcome cs hcs pre tid post horder w, exec_of_result? hx]
  induction sched using List.reverseRecOn with
  | nil =>
      have hstart := committed_start (w := w) hsilent fun tid ht => (hserial tid ht).pending
      exact ⟨[], hread hstart (by simp), hstart⟩
  | append_singleton sched a ih =>
      obtain ⟨order, horder, hcommitted⟩ := ih
      have hnext : Config.run m (Config.start w progs) (sched ++ [a]) =
          Config.step m (Config.run m (Config.start w progs) sched) a :=
        Config.run_append m _ sched [a]
      -- a thread that was there before the last call is in the order before it
      have hbefore : ∀ sched₁ sched₂, sched ++ [a] = sched₁ ++ sched₂ → ∀ b,
          ¬Started (Config.run m (Config.start w progs) sched₁).trace b →
          Started (Config.run m (Config.start w progs) (sched ++ [a])).trace b →
          ∃ sched₂', sched = sched₁ ++ sched₂' := by
        intro sched₁ sched₂ hsplit b hnot hb
        rcases List.eq_nil_or_concat sched₂ with rfl | ⟨sched₂', last, rfl⟩
        · rw [List.append_nil] at hsplit
          rw [hsplit] at hb
          exact absurd hb hnot
        · rw [List.concat_eq_append, ← List.append_assoc] at hsplit
          exact ⟨sched₂', (List.append_inj' hsplit rfl).1⟩
      have hlocal : ∀ tid, serial tid → Uses (Local m π) (progs tid) :=
        fun tid ht => (hserial tid ht).isLocal
      rcases hcommitted.step hrefl htrans hrely hlocal a with hsame | ⟨hnot, hcommit⟩
      · rw [← hnext] at hsame
        refine ⟨order, hread hsame ?_, hsame⟩
        intro sched₁ sched₂ hsplit x y hx hstarted hended hy hynot
        obtain ⟨sched₂', hsched⟩ := hbefore sched₁ sched₂ hsplit y hynot (hsame.started y hy).2
        exact horder.realTime sched₁ sched₂' hsched x y hx hstarted hended hy hynot
      · rw [← hnext] at hcommit
        refine ⟨order ++ [a.1], hread hcommit ?_, hcommit⟩
        intro sched₁ sched₂ hsplit x y hx hstarted hended hy hynot
        obtain ⟨sched₂', hsched⟩ := hbefore sched₁ sched₂ hsplit y hynot (hcommit.started y hy).2
        rcases List.mem_append.mp hy with hold | hlast
        · obtain ⟨pre, post, hsplit', hpre, hpost⟩ :=
            horder.realTime sched₁ sched₂' hsched x y hx hstarted hended hold hynot
          exact ⟨pre, post ++ [a.1], by rw [hsplit', List.append_assoc], hpre,
            List.mem_append_left _ hpost⟩
        · refine ⟨order, [a.1], rfl, ?_, hlast⟩
          obtain ⟨hstarted', hended'⟩ := result?_run (m := m) hstarted hended sched₂'
          rw [← Config.run_append, ← hsched] at hstarted' hended'
          exact hcommitted.ended hx hstarted' hended'

end Run

end Framework
