import MyService.Framework.Prog
import Mathlib.Data.List.Basic
import Mathlib.Data.List.Induction

/-!
# Programs run one after another

Two tools for a program that runs without interference. `Triple` is what holds of the
result and the world when it ends, from a precondition on the world it starts in; its
rules follow the program. `exec_agree` compares two machines: where every call they are
asked for gets the same answer and keeps their worlds related, a program has the same
result on both. `execAll` runs any number of programs in turn.
-/

namespace Framework

namespace Prog

variable {C : Type} {R : C → Type} {E α β W W' Ch : Type}

/-! ## Pre- and postconditions -/

/-- Started in a world with `P`, the program ends with `Q`, whatever the environment
chooses: after a call the rest starts in a world that the call can leave. -/
def Triple (m : (c : C) → Ch → W → W × R c) :
    (W → Prop) → Prog C R E α → (Except E α → W → Prop) → Prop
  | P, .pure a, Q => ∀ w, P w → Q (.ok a) w
  | P, .throw e, Q => ∀ w, P w → Q (.error e) w
  | P, .call c k, Q => ∀ r, Triple m (fun w' => ∃ ch w, P w ∧ m c ch w = (w', r)) (k r) Q

section Triple

variable {m : (c : C) → Ch → W → W × R c} {P : W → Prop} {Q : Except E α → W → Prop}

/-- What a triple says of a run. -/
theorem Triple.exec {p : Prog C R E α} (h : Triple m P p Q) (cs : ℕ → Ch) {w : W}
    (hw : P w) : Q (p.exec m cs w).1 (p.exec m cs w).2 := by
  induction p generalizing P cs w with
  | pure a => exact h w hw
  | throw e => exact h w hw
  | call c k ih => exact ih _ (h _) _ ⟨cs 0, w, hw, rfl⟩

@[simp] theorem triple_pure {a : α} :
    Triple m P (.pure a) Q ↔ ∀ w, P w → Q (.ok a) w := Iff.rfl

@[simp] theorem triple_throw {e : E} :
    Triple m P (.throw e) Q ↔ ∀ w, P w → Q (.error e) w := Iff.rfl

@[simp] theorem triple_ofExcept_bind {x : Except E β} {f : β → Prog C R E α} :
    Triple m P (ofExcept x >>= f) Q ↔
      (∀ e, x = .error e → ∀ w, P w → Q (.error e) w) ∧
        ∀ b, x = .ok b → Triple m P (f b) Q := by
  cases x with
  | error e => simp
  | ok b => simp

@[simp] theorem triple_ite {c : Prop} [Decidable c] {p q : Prog C R E α} :
    Triple m P (if c then p else q) Q ↔
      (c → Triple m P p Q) ∧ (¬c → Triple m P q Q) := by
  by_cases hc : c <;> simp [hc]

theorem Triple.mono {P' : W → Prop} {Q' : Except E α → W → Prop} {p : Prog C R E α}
    (h : Triple m P p Q) (hP : ∀ w, P' w → P w) (hQ : ∀ r w, Q r w → Q' r w) :
    Triple m P' p Q' := by
  induction p generalizing P P' with
  | pure a => exact fun w hw => hQ _ w (h w (hP w hw))
  | throw e => exact fun w hw => hQ _ w (h w (hP w hw))
  | call c k ih =>
      intro r
      refine ih r (h r) ?_
      rintro w' ⟨ch, w, hw, heq⟩
      exact ⟨ch, w, hP w hw, heq⟩

/-- **Call rule.** The rest starts from what the call leaves. -/
theorem triple_call {c : C} {k : R c → Prog C R E α} (M : R c → W → Prop)
    (hcall : ∀ ch w, P w → M (m c ch w).2 (m c ch w).1)
    (hrest : ∀ r, Triple m (M r) (k r) Q) : Triple m P (.call c k) Q := by
  intro r
  refine (hrest r).mono ?_ fun _ _ hq => hq
  rintro w' ⟨ch, w, hw, heq⟩
  have hM := hcall ch w hw
  rwa [heq] at hM

/-- A call that keeps the precondition. -/
theorem triple_call_keep {c : C} {k : R c → Prog C R E α}
    (hcall : ∀ ch w, P w → P (m c ch w).1) (hrest : ∀ r, Triple m P (k r) Q) :
    Triple m P (.call c k) Q :=
  triple_call (fun _ => P) hcall hrest

theorem triple_absurd {p : Prog C R E α} (h : ∀ w, ¬P w) : Triple m P p Q := by
  induction p generalizing P with
  | pure a => exact fun w hw => absurd hw (h w)
  | throw e => exact fun w hw => absurd hw (h w)
  | call c k ih =>
      intro r
      refine ih r ?_
      rintro _ ⟨_, w, hw, _⟩
      exact h w hw

/-- A part of the precondition that does not depend on the world. -/
theorem triple_pre {φ : Prop} {p : Prog C R E α} (h : φ → Triple m P p Q) :
    Triple m (fun w => φ ∧ P w) p Q := by
  by_cases hφ : φ
  · exact (h hφ).mono (fun _ hw => hw.2) fun _ _ hq => hq
  · exact triple_absurd fun _ hw => hφ hw.1

/-- **Sequencing rule.** -/
theorem Triple.bind {p : Prog C R E β} {f : β → Prog C R E α} {M : Except E β → W → Prop}
    (hp : Triple m P p M) (hf : ∀ b, Triple m (M (.ok b)) (f b) Q)
    (herror : ∀ e w, M (.error e) w → Q (.error e) w) : Triple m P (p >>= f) Q := by
  induction p generalizing P with
  | pure b => exact (hf b).mono hp fun _ _ hq => hq
  | throw e => exact fun w hw => herror e w (hp w hw)
  | call c k ih => exact fun r => ih r (hp r)

/-- **Invariant rule.** What every call that the program may make preserves. -/
theorem triple_invariant {I : W → Prop} {A : C → Prop} {B : Except E α → Prop}
    (hstep : ∀ c ch w, A c → I w → I (m c ch w).1) :
    ∀ {h : History C R} {p : Prog C R E α},
      Obeys (fun _ c => A c) (fun _ a => B (.ok a)) (fun _ e => B (.error e)) h p →
      Triple m I p fun r w => B r ∧ I w
  | _, .pure _, hp => fun _ hw => ⟨hp, hw⟩
  | _, .throw _, hp => fun _ hw => ⟨hp, hw⟩
  | _, .call c _, hp =>
      triple_call_keep (fun ch w hw => hstep c ch w hp.1 hw) fun r =>
        triple_invariant hstep (hp.2 r)

end Triple

/-! ## Two machines -/

/-- **Agreement rule.** Two machines that answer the same and stay related, at every call
the program may make, give it the same result. -/
theorem exec_agree {m : (c : C) → Ch → W → W × R c} {m' : (c : C) → Ch → W' → W' × R c}
    {Rel : W → W' → Prop} {A : C → Prop}
    (hstep : ∀ c ch w w', A c → Rel w w' →
      (m' c ch w').2 = (m c ch w).2 ∧ Rel (m c ch w).1 (m' c ch w').1) :
    ∀ {h : History C R} {p : Prog C R E α},
      Obeys (fun _ c => A c) (fun _ _ => True) (fun _ _ => True) h p →
      ∀ cs w w', Rel w w' →
        (p.exec m' cs w').1 = (p.exec m cs w).1 ∧ Rel (p.exec m cs w).2 (p.exec m' cs w').2
  | _, .pure _, _, _, _, _, hrel => ⟨rfl, hrel⟩
  | _, .throw _, _, _, _, _, hrel => ⟨rfl, hrel⟩
  | _, .call c k, hp, cs, w, w', hrel => by
      obtain ⟨hanswer, hrel'⟩ := hstep c (cs 0) w w' hp.1 hrel
      rw [exec_call, exec_call, hanswer]
      exact exec_agree hstep (hp.2 _) _ _ _ hrel'

/-! ## Many programs -/

/-- Run programs in turn, each with its own choices of the environment: the results, and
the world at the end. -/
def execAll (m : (c : C) → Ch → W → W × R c) :
    List (Prog C R E α × (ℕ → Ch)) → W → List (Except E α) × W
  | [], w => ([], w)
  | (p, cs) :: jobs, w =>
      ((p.exec m cs w).1 :: (execAll m jobs (p.exec m cs w).2).1,
        (execAll m jobs (p.exec m cs w).2).2)

section ExecAll

variable {m : (c : C) → Ch → W → W × R c}

theorem execAll_snoc (jobs : List (Prog C R E α × (ℕ → Ch))) (p : Prog C R E α)
    (cs : ℕ → Ch) (w : W) :
    (execAll m (jobs ++ [(p, cs)]) w).2 = (p.exec m cs (execAll m jobs w).2).2 := by
  induction jobs generalizing w with
  | nil => rfl
  | cons job jobs ih => exact ih _

/-- The `i`-th result is that of the `i`-th program, run in the world the programs before
it left. -/
theorem execAll_getElem? (jobs : List (Prog C R E α × (ℕ → Ch))) (i : ℕ) (w : W) :
    (execAll m jobs w).1[i]? =
      jobs[i]?.map fun job => (job.1.exec m job.2 (execAll m (jobs.take i) w).2).1 := by
  induction jobs generalizing i w with
  | nil => simp [execAll]
  | cons job jobs ih =>
      cases i with
      | zero => rfl
      | succ i => exact ih i _

/-- A relation between the worlds of two machines that every program keeps. -/
theorem execAll_related {m' : (c : C) → Ch → W' → W' × R c} (Rel : W → W' → Prop)
    {jobs : List (Prog C R E α × (ℕ → Ch))}
    (hjobs : ∀ job ∈ jobs, ∀ w w', Rel w w' →
      Rel (job.1.exec m job.2 w).2 (job.1.exec m' job.2 w').2) {w : W} {w' : W'}
    (hw : Rel w w') : Rel (execAll m jobs w).2 (execAll m' jobs w').2 := by
  induction jobs generalizing w w' with
  | nil => exact hw
  | cons job jobs ih =>
      exact ih (fun j hj => hjobs j (List.mem_cons_of_mem _ hj))
        (hjobs job List.mem_cons_self w w' hw)

end ExecAll

end Prog

end Framework
