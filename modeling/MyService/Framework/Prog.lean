import Mathlib.Order.Basic

/-!
# Programs of atomic calls

A request handler shares state with the other handlers only through calls that
each run under one lock, or as one statement of one store. Between two calls it
computes on its own data. `Prog` is that shape: a tree whose inner nodes are
calls, whose branches are the answers, and whose leaves are a result or a
thrown exception.

`exec` runs a program alone, each call taking the next environment choice
(a clock reading, a fault, a fresh identifier). `Obeys` is the local contract
of a program: what it may call after the calls it has made so far, and what
holds when it returns or throws. `Interleaving` lifts contracts to arbitrary
schedules.
-/

namespace Framework

/-- A sequence of two computations succeeds when both do. -/
theorem except_bind_ok {E α β : Type} {x : Except E α} {f : α → Except E β} {b : β} :
    (x >>= f) = .ok b ↔ ∃ a, x = .ok a ∧ f a = .ok b := by
  cases x with
  | error e => simp [bind, Except.bind]
  | ok a => simp [bind, Except.bind]

/-- A program over calls `c : C` answered in `R c`, throwing exceptions in `E`. -/
inductive Prog (C : Type) (R : C → Type) (E α : Type) : Type
  | pure (a : α)
  | throw (e : E)
  | call (c : C) (k : R c → Prog C R E α)

namespace Prog

variable {C : Type} {R : C → Type} {E α β W Ch : Type}

def bind : Prog C R E α → (α → Prog C R E β) → Prog C R E β
  | .pure a, f => f a
  | .throw e, _ => .throw e
  | .call c k, f => .call c fun r => (k r).bind f

/-- `try p catch h`. -/
def handle : Prog C R E α → (E → Prog C R E α) → Prog C R E α
  | .pure a, _ => .pure a
  | .throw e, h => h e
  | .call c k, h => .call c fun r => (k r).handle h

instance : Monad (Prog C R E) where
  pure := .pure
  bind := bind

instance : MonadExceptOf E (Prog C R E) where
  throw := .throw
  tryCatch := handle

/-- The program that makes one call and returns its answer. -/
def ask (c : C) : Prog C R E (R c) := .call c .pure

/-- A computation that touches no shared state. -/
def ofExcept : Except E α → Prog C R E α
  | .ok a => .pure a
  | .error e => .throw e

instance : MonadLift (Except E) (Prog C R E) := ⟨ofExcept⟩

@[simp] theorem pure_eq (a : α) : (Pure.pure a : Prog C R E α) = .pure a := rfl

@[simp] theorem throw_eq (e : E) :
    (MonadExceptOf.throw e : Prog C R E α) = .throw e := rfl

@[simp] theorem throwThe_eq (e : E) :
    (throwThe E e : Prog C R E α) = .throw e := rfl

@[simp] theorem throw_eq' (e : E) :
    (MonadExcept.throw e : Prog C R E α) = .throw e := rfl

@[simp] theorem tryCatch_eq (p : Prog C R E α) (h : E → Prog C R E α) :
    tryCatch p h = p.handle h := rfl

@[simp] theorem tryCatchThe_eq (p : Prog C R E α) (h : E → Prog C R E α) :
    tryCatchThe E p h = p.handle h := rfl

@[simp] theorem liftM_eq (x : Except E α) :
    (liftM x : Prog C R E α) = ofExcept x := rfl

@[simp] theorem monadLift_eq (x : Except E α) :
    (MonadLift.monadLift x : Prog C R E α) = ofExcept x := rfl

@[simp] theorem ofExcept_ok (a : α) :
    (ofExcept (.ok a) : Prog C R E α) = .pure a := rfl

@[simp] theorem ofExcept_error (e : E) :
    (ofExcept (.error e) : Prog C R E α) = .throw e := rfl

@[simp] theorem pure_bind_eq (a : α) (f : α → Prog C R E β) :
    (Prog.pure a >>= f) = f a := rfl

@[simp] theorem throw_bind_eq (e : E) (f : α → Prog C R E β) :
    ((Prog.throw e : Prog C R E α) >>= f) = .throw e := rfl

@[simp] theorem call_bind_eq (c : C) (k : R c → Prog C R E α)
    (f : α → Prog C R E β) :
    (Prog.call c k >>= f) = .call c fun r => k r >>= f := rfl

@[simp] theorem ask_bind_eq (c : C) (f : R c → Prog C R E β) :
    ((ask c : Prog C R E (R c)) >>= f) = .call c f := rfl

@[simp] theorem handle_pure (a : α) (h : E → Prog C R E α) :
    (Prog.pure a : Prog C R E α).handle h = .pure a := rfl

@[simp] theorem handle_throw (e : E) (h : E → Prog C R E α) :
    (Prog.throw e : Prog C R E α).handle h = h e := rfl

@[simp] theorem handle_call (c : C) (k : R c → Prog C R E α)
    (h : E → Prog C R E α) :
    (Prog.call c k).handle h = .call c fun r => (k r).handle h := rfl

@[simp] theorem handle_ofExcept_bind (x : Except E β) (f : β → Prog C R E α)
    (h : E → Prog C R E α) :
    (ofExcept x >>= f : Prog C R E α).handle h =
      match x with
      | .ok b => (f b).handle h
      | .error e => h e := by
  cases x <;> rfl

/-- A failure that is caught and ignored. -/
@[simp] theorem handle_ofExcept_ignore (x : Except E Unit) :
    (ofExcept x : Prog C R E Unit).handle (fun _ => .pure ()) = .pure () := by
  cases x <;> rfl

theorem bind_assoc {γ : Type} (p : Prog C R E α) (f : α → Prog C R E β)
    (g : β → Prog C R E γ) :
    p >>= f >>= g = p >>= fun a => f a >>= g := by
  induction p with
  | pure a => rfl
  | throw e => rfl
  | call c k ih =>
      simp only [call_bind_eq]
      congr 1
      ext r
      exact ih r

theorem ofExcept_bind (x : Except E α) (f : α → Except E β) :
    (ofExcept (x >>= f) : Prog C R E β) = ofExcept x >>= fun a => ofExcept (f a) := by
  cases x <;> rfl

theorem bind_pure_eq (p : Prog C R E α) : (p >>= fun a => .pure a) = p := by
  induction p with
  | pure a => rfl
  | throw e => rfl
  | call c k ih =>
      simp only [call_bind_eq]
      congr 1
      ext r
      exact ih r

theorem ite_bind {c : Prop} [Decidable c] (p q : Prog C R E α) (f : α → Prog C R E β) :
    (if c then p else q) >>= f = if c then p >>= f else q >>= f := by
  by_cases h : c <;> simp [h]

/-! ## Running a program alone -/

/-- Run `p` with no interference. `m c ch w` performs call `c` on `w` when the
environment chooses `ch`; the `i`-th call of the run gets choice `cs i`. -/
def exec (m : (c : C) → Ch → W → W × R c) :
    Prog C R E α → (ℕ → Ch) → W → Except E α × W
  | .pure a, _, w => (.ok a, w)
  | .throw e, _, w => (.error e, w)
  | .call c k, cs, w =>
      let (w', r) := m c (cs 0) w
      (k r).exec m (fun i => cs (i + 1)) w'

section Exec

variable (m : (c : C) → Ch → W → W × R c)

@[simp] theorem exec_pure (a : α) (cs : ℕ → Ch) (w : W) :
    (Prog.pure a : Prog C R E α).exec m cs w = (.ok a, w) := rfl

@[simp] theorem exec_throw (e : E) (cs : ℕ → Ch) (w : W) :
    (Prog.throw e : Prog C R E α).exec m cs w = (.error e, w) := rfl

@[simp] theorem exec_call (c : C) (k : R c → Prog C R E α) (cs : ℕ → Ch) (w : W) :
    (Prog.call c k).exec m cs w =
      (k (m c (cs 0) w).2).exec m (fun i => cs (i + 1)) (m c (cs 0) w).1 := rfl

theorem exec_ask_bind (c : C) (f : R c → Prog C R E α) (cs : ℕ → Ch) (w : W) :
    ((ask c : Prog C R E (R c)) >>= f).exec m cs w =
      (f (m c (cs 0) w).2).exec m (fun i => cs (i + 1)) (m c (cs 0) w).1 := rfl

end Exec

/-! ## Local contracts -/

/-- What a program has seen of the shared state: its calls with their answers,
oldest first. -/
abbrev History (C : Type) (R : C → Type) : Type := List (Σ c, R c)

/-- The contract of `p` after history `h`: it makes call `c` only where `onCall`
allows it, returns only where `onReturn` allows it and throws only where
`onThrow` allows it, whatever its calls are answered. -/
def Obeys (onCall : History C R → C → Prop) (onReturn : History C R → α → Prop)
    (onThrow : History C R → E → Prop) : History C R → Prog C R E α → Prop
  | h, .pure a => onReturn h a
  | h, .throw e => onThrow h e
  | h, .call c k =>
      onCall h c ∧ ∀ r, Obeys onCall onReturn onThrow (h ++ [⟨c, r⟩]) (k r)

section Obeys

variable {onCall : History C R → C → Prop} {onThrow : History C R → E → Prop}
  {onReturn : History C R → α → Prop} {h : History C R}

@[simp] theorem obeys_pure {a : α} :
    Obeys onCall onReturn onThrow h (.pure a) ↔ onReturn h a := Iff.rfl

@[simp] theorem obeys_throw {e : E} :
    Obeys onCall onReturn onThrow h (.throw e) ↔ onThrow h e := Iff.rfl

@[simp] theorem obeys_call {c : C} {k : R c → Prog C R E α} :
    Obeys onCall onReturn onThrow h (.call c k) ↔
      onCall h c ∧ ∀ r, Obeys onCall onReturn onThrow (h ++ [⟨c, r⟩]) (k r) := Iff.rfl

@[simp] theorem obeys_ask {c : C} {onReturn : History C R → R c → Prop} :
    Obeys onCall onReturn onThrow h (ask c : Prog C R E (R c)) ↔
      onCall h c ∧ ∀ r, onReturn (h ++ [⟨c, r⟩]) r := Iff.rfl

@[simp] theorem obeys_ofExcept {x : Except E α} :
    Obeys onCall onReturn onThrow h (ofExcept x) ↔
      (∀ e, x = .error e → onThrow h e) ∧ ∀ a, x = .ok a → onReturn h a := by
  cases x with
  | error e => simp
  | ok a => simp

/-- A pure computation may throw, or gives the rest its value. -/
@[simp] theorem obeys_ofExcept_bind {x : Except E β} {f : β → Prog C R E α} :
    Obeys onCall onReturn onThrow h (ofExcept x >>= f) ↔
      (∀ e, x = .error e → onThrow h e) ∧
        ∀ b, x = .ok b → Obeys onCall onReturn onThrow h (f b) := by
  cases x with
  | error e => simp
  | ok b => simp

@[simp] theorem obeys_ite {c : Prop} [Decidable c] {p q : Prog C R E α} :
    Obeys onCall onReturn onThrow h (if c then p else q) ↔
      (c → Obeys onCall onReturn onThrow h p) ∧ (¬c → Obeys onCall onReturn onThrow h q) := by
  by_cases hc : c <;> simp [hc]

/-- The contract that allows everything. -/
theorem obeys_trivial (p : Prog C R E α) :
    Obeys (fun _ _ => True) (fun _ _ => True) (fun _ _ => True) h p := by
  induction p generalizing h with
  | pure a => trivial
  | throw e => trivial
  | call c k ih => exact ⟨trivial, fun r => ih r⟩

theorem Obeys.mono {onCall' : History C R → C → Prop}
    {onReturn' : History C R → α → Prop} {onThrow' : History C R → E → Prop}
    (hc : ∀ h c, onCall h c → onCall' h c)
    (hr : ∀ h a, onReturn h a → onReturn' h a)
    (ht : ∀ h e, onThrow h e → onThrow' h e) :
    ∀ {h : History C R} {p : Prog C R E α}, Obeys onCall onReturn onThrow h p →
      Obeys onCall' onReturn' onThrow' h p
  | h, .pure a, hp => hr h a hp
  | h, .throw e, hp => ht h e hp
  | h, .call c _, hp => ⟨hc h c hp.1, fun r => Obeys.mono hc hr ht (hp.2 r)⟩

/-- A program does the same when there are calls before its own. -/
theorem Obeys.append (h₀ : History C R) :
    ∀ {h : History C R} {p : Prog C R E α}, Obeys onCall onReturn onThrow h p →
      Obeys (fun h' c => ∃ h, h' = h₀ ++ h ∧ onCall h c)
        (fun h' a => ∃ h, h' = h₀ ++ h ∧ onReturn h a)
        (fun h' e => ∃ h, h' = h₀ ++ h ∧ onThrow h e) (h₀ ++ h) p
  | h, .pure _, hp => ⟨h, rfl, hp⟩
  | h, .throw _, hp => ⟨h, rfl, hp⟩
  | h, .call c _, hp => by
      refine ⟨⟨h, rfl, hp.1⟩, fun r => ?_⟩
      rw [List.append_assoc]
      exact Obeys.append h₀ (hp.2 r)

end Obeys

/-! ## The calls of a program -/

/-- Every call of the program is in `A`. -/
def Uses (A : C → Prop) (p : Prog C R E α) : Prop :=
  Obeys (fun _ c => A c) (fun _ _ => True) (fun _ _ => True) [] p

section Uses

variable {A B : C → Prop}

/-- Whatever the program has seen before. -/
theorem uses_of_obeys {h : History C R} {p : Prog C R E α}
    (hp : Obeys (fun _ c => A c) (fun _ _ => True) (fun _ _ => True) h p) (h' : History C R) :
    Obeys (fun _ c => A c) (fun _ _ => True) (fun _ _ => True) h' p := by
  induction p generalizing h h' with
  | pure a => trivial
  | throw e => trivial
  | call c k ih => exact ⟨hp.1, fun r => ih r (hp.2 r) _⟩

@[simp] theorem uses_pure {a : α} : Uses A (.pure a : Prog C R E α) ↔ True := Iff.rfl

@[simp] theorem uses_throw {e : E} : Uses A (.throw e : Prog C R E α) ↔ True := Iff.rfl

@[simp] theorem uses_call {c : C} {k : R c → Prog C R E α} :
    Uses A (.call c k) ↔ A c ∧ ∀ r, Uses A (k r) :=
  and_congr_right fun _ => forall_congr' fun _ =>
    ⟨fun h => uses_of_obeys h [], fun h => uses_of_obeys h _⟩

@[simp] theorem uses_ofExcept {x : Except E α} : Uses A (ofExcept x : Prog C R E α) ↔ True := by
  cases x <;> simp

theorem uses_ofExcept_bind {x : Except E β} {f : β → Prog C R E α}
    (h : ∀ b, x = .ok b → Uses A (f b)) : Uses A (ofExcept x >>= f) :=
  obeys_ofExcept_bind.mpr ⟨fun _ _ => trivial, h⟩

theorem Uses.mono {p : Prog C R E α} (h : Uses A p) (hAB : ∀ c, A c → B c) : Uses B p :=
  Obeys.mono (fun _ c hc => hAB c hc) (fun _ _ _ => trivial) (fun _ _ _ => trivial) h

end Uses

end Prog

end Framework
