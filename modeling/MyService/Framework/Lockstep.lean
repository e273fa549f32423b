import MyService.Framework.Interleaving

/-!
# Runs in lockstep

A property of two runs. `Prog.Lockstep` says that two programs make related calls as long
as their answers are related, and end alike; what is related to what is a parameter.
`Config.run_lockstep` is the unwinding rule: where related calls keep two worlds related
and are answered alike, two systems of such programs stay in lockstep under every
schedule.
-/

namespace Framework

/-- Both computations fail with one error, or give related values. -/
inductive ExceptRel {E α β : Type} (RR : α → β → Prop) : Except E α → Except E β → Prop
  | ok {a : α} {b : β} (h : RR a b) : ExceptRel RR (.ok a) (.ok b)
  | error (e : E) : ExceptRel RR (.error e) (.error e)

theorem ExceptRel.refl {E α : Type} (x : Except E α) : ExceptRel Eq x x := by
  cases x with
  | ok a => exact .ok rfl
  | error e => exact .error e

theorem ExceptRel.eq {E α : Type} {x y : Except E α} (h : ExceptRel Eq x y) : x = y := by
  cases h with
  | ok hab => rw [hab]
  | error e => rfl

theorem ExceptRel.bind {E α β γ δ : Type} {RR : α → β → Prop} {RS : γ → δ → Prop}
    {x : Except E α} {y : Except E β} {f : α → Except E γ} {g : β → Except E δ}
    (h : ExceptRel RR x y) (hfg : ∀ a b, RR a b → ExceptRel RS (f a) (g b)) :
    ExceptRel RS (x >>= f) (y >>= g) := by
  cases h with
  | ok hab => exact hfg _ _ hab
  | error e => exact .error e

namespace Prog

variable {C : Type} {R : C → Type} {E α β γ δ : Type}

/-- An interface of two programs: which calls go together, and how their answers are then
related. -/
abbrev Interface (C : Type) (R : C → Type) : Type :=
  (c c' : C) → (R c → R c' → Prop) → Prop

/-- The two programs make calls that go together and end alike. -/
inductive Lockstep (RC : Interface C R) (RR : α → β → Prop) : Prog C R E α → Prog C R E β → Prop
  | pure {a : α} {b : β} (h : RR a b) : Lockstep RC RR (.pure a) (.pure b)
  | throw (e : E) : Lockstep RC RR (.throw e) (.throw e)
  | call {c c' : C} {RA : R c → R c' → Prop} {k : R c → Prog C R E α} {k' : R c' → Prog C R E β}
      (hc : RC c c' RA) (hk : ∀ r r', RA r r' → Lockstep RC RR (k r) (k' r')) :
      Lockstep RC RR (.call c k) (.call c' k')

section Lockstep

variable {RC : Interface C R} {RR : α → β → Prop} {RS : γ → δ → Prop}

/-- **Sequencing rule.** -/
theorem Lockstep.bind {p : Prog C R E α} {p' : Prog C R E β} {f : α → Prog C R E γ}
    {f' : β → Prog C R E δ} (h : Lockstep RC RR p p')
    (hf : ∀ a b, RR a b → Lockstep RC RS (f a) (f' b)) :
    Lockstep RC RS (p >>= f) (p' >>= f') := by
  induction h with
  | pure hab => exact hf _ _ hab
  | throw e => exact .throw e
  | call hc _ ih => exact .call hc ih

theorem Lockstep.ofExcept {x : Except E α} {y : Except E β} (h : ExceptRel RR x y) :
    Lockstep RC RR (ofExcept x) (ofExcept y) := by
  cases h with
  | ok hab => exact .pure hab
  | error e => exact .throw e

theorem Lockstep.ofExcept_bind {x : Except E α} {y : Except E β} {f : α → Prog C R E γ}
    {f' : β → Prog C R E δ} (h : ExceptRel RR x y)
    (hf : ∀ a b, RR a b → Lockstep RC RS (f a) (f' b)) :
    Lockstep RC RS (Prog.ofExcept x >>= f) (Prog.ofExcept y >>= f') :=
  (Lockstep.ofExcept h).bind hf

/-- The same computation on both sides. -/
theorem Lockstep.same_bind {x : Except E α} {f : α → Prog C R E γ} {f' : α → Prog C R E δ}
    (hf : ∀ a, x = .ok a → Lockstep RC RS (f a) (f' a)) :
    Lockstep RC RS (Prog.ofExcept x >>= f) (Prog.ofExcept x >>= f') := by
  cases x with
  | ok a => exact hf a rfl
  | error e => exact .throw e

theorem Lockstep.ite {b : Prop} [Decidable b] {p q : Prog C R E α} {p' q' : Prog C R E β}
    (ht : b → Lockstep RC RR p p') (hf : ¬b → Lockstep RC RR q q') :
    Lockstep RC RR (if b then p else q) (if b then p' else q') := by
  by_cases hb : b
  · rw [if_pos hb, if_pos hb]
    exact ht hb
  · rw [if_neg hb, if_neg hb]
    exact hf hb

/-- A program is in lockstep with itself when its calls are answered the same. -/
theorem Lockstep.refl {V : C → Prop} (hV : ∀ c, V c → RC c c Eq) {onReturn : History C R → α → Prop}
    {onThrow : History C R → E → Prop} {h : History C R} {p : Prog C R E α}
    (hp : Obeys (fun _ c => V c) onReturn onThrow h p) : Lockstep RC Eq p p := by
  induction p generalizing h with
  | pure a => exact .pure rfl
  | throw e => exact .throw e
  | call c k ih =>
      refine .call (hV c hp.1) ?_
      rintro r _ rfl
      exact ih r (hp.2 r)

end Lockstep

end Prog

namespace Config

variable {C : Type} {R : C → Type} {E α β W Ch : Type} (m : (c : C) → Ch → W → W × R c)
  {RC : Prog.Interface C R} {RR : α → β → Prop} {RW : W → W → Prop}

/-- **Unwinding rule.** Related calls keep related worlds related and are answered alike;
then two systems in lockstep stay so under every schedule. -/
theorem run_lockstep
    (hm : ∀ c c' RA, RC c c' RA → ∀ ch w w', RW w w' →
      RW (m c ch w).1 (m c' ch w').1 ∧ RA (m c ch w).2 (m c' ch w').2)
    {cfg : Config C R E α W Ch} {cfg' : Config C R E β W Ch} (hw : RW cfg.world cfg'.world)
    (hpool : ∀ tid, Prog.Lockstep RC RR (cfg.pool tid) (cfg'.pool tid))
    (sched : List (ℕ × Ch)) :
    RW (run m cfg sched).world (run m cfg' sched).world ∧
      ∀ tid, Prog.Lockstep RC RR ((run m cfg sched).pool tid) ((run m cfg' sched).pool tid) := by
  induction sched generalizing cfg cfg' with
  | nil => exact ⟨hw, hpool⟩
  | cons a sched ih =>
      rw [run_cons, run_cons]
      have hthread := hpool a.1
      revert hthread
      unfold step
      generalize hp : cfg.pool a.1 = p
      generalize hp' : cfg'.pool a.1 = p'
      rintro (hab | e | ⟨hc, hk⟩)
      · exact ih hw hpool
      · exact ih hw hpool
      · obtain ⟨hworld, hanswer⟩ := hm _ _ _ hc a.2 _ _ hw
        refine ih hworld fun tid => ?_
        by_cases ht : tid = a.1
        · subst ht
          dsimp only
          rw [Function.update_self, Function.update_self]
          exact hk _ _ hanswer
        · dsimp only
          rw [Function.update_of_ne ht, Function.update_of_ne ht]
          exact hpool tid

end Config

end Framework
