import MyService.Framework.Interleaving
import Mathlib.Data.Set.Basic

/-!
# Leaving threads out

A group of threads whose calls touch one part of the world runs as if it were alone, when
the calls of all the others leave that part as it is. The run of a schedule and the run of
the same schedule with the others left out then agree on everything the group sees: each
of its threads makes the same calls, gets the same answers and ends alike.

The part is given by a relation `Rel` between the worlds of the two runs. `run_erase` asks
for two things: a call of the group keeps the relation and is answered alike on both sides,
and a call of the others, made on the left alone, keeps it.

`run_disjoint` gets both from footprints. The world is made of resources; a call is answered
from those it reads, and leaves alone those that it does not write. Then the others can be
left out as soon as they write nothing that the group reads.
-/

namespace Framework

open Prog

variable {C : Type} {R : C → Type} {E α W Ch : Type}

/-- The schedule of the threads in `G`. -/
def scheduleOf (G : ℕ → Bool) (sched : List (ℕ × Ch)) : List (ℕ × Ch) :=
  sched.filter fun a => G a.1

namespace Config

variable (m : (c : C) → Ch → W → W × R c)

/-- The second system is the first one seen by the group. -/
structure SeenBy (G : ℕ → Bool) (Rel : W → W → Prop) (cfg cfg' : Config C R E α W Ch) :
    Prop where
  world : Rel cfg.world cfg'.world
  pool : ∀ tid, G tid → cfg.pool tid = cfg'.pool tid
  seen : ∀ tid, G tid → own m tid cfg.trace = own m tid cfg'.trace

section Erase

variable {m} {G : ℕ → Bool} {Rel : W → W → Prop} {A B : C → Prop}
  {cfg cfg' : Config C R E α W Ch}

/-- The next call of a thread is one of those it may make, and so are the later ones. -/
theorem uses_step (h : ∀ tid, G tid → Uses A (cfg.pool tid)) (a : ℕ × Ch) :
    ∀ tid, G tid → Uses A ((step m cfg a).pool tid) := by
  intro tid hG
  rcases step_cases m cfg a with heq | ⟨c, k, hpool, _, hpool', _⟩
  · rw [heq]
    exact h tid hG
  · rw [hpool']
    by_cases ht : tid = a.1
    · subst ht
      rw [Function.update_self]
      have hcall := h a.1 hG
      rw [hpool] at hcall
      exact (uses_call.mp hcall).2 _
    · rw [Function.update_of_ne ht]
      exact h tid hG

/-- A thread outside the group moves on the left alone. -/
theorem SeenBy.step_other (h : SeenBy m G Rel cfg cfg') {a : ℕ × Ch} (ha : ¬G a.1)
    (hB : Uses B (cfg.pool a.1))
    (hout : ∀ c ch w w', B c → Rel w w' → Rel (m c ch w).1 w') :
    SeenBy m G Rel (step m cfg a) cfg' := by
  have hne : ∀ tid, G tid → tid ≠ a.1 := fun tid hG ht => ha (ht ▸ hG)
  rcases step_cases m cfg a with heq | ⟨c, k, hpool, hworld, hpool', htrace⟩
  · rwa [heq]
  · rw [hpool] at hB
    refine ⟨?_, fun tid hG => ?_, fun tid hG => ?_⟩
    · rw [hworld]
      exact hout c a.2 _ _ (uses_call.mp hB).1 h.world
    · rw [hpool', Function.update_of_ne (hne tid hG)]
      exact h.pool tid hG
    · rw [htrace, own_snoc_ne m (Ne.symm (hne tid hG))]
      exact h.seen tid hG

/-- A thread of the group moves on both sides. -/
theorem SeenBy.step_member (h : SeenBy m G Rel cfg cfg') {a : ℕ × Ch} (ha : G a.1)
    (hA : Uses A (cfg.pool a.1))
    (hin : ∀ c ch w w', A c → Rel w w' →
      (m c ch w').2 = (m c ch w).2 ∧ Rel (m c ch w).1 (m c ch w').1) :
    SeenBy m G Rel (step m cfg a) (step m cfg' a) := by
  have hsame := h.pool a.1 ha
  cases hpool : cfg.pool a.1 with
  | pure b =>
      rw [hpool] at hsame
      simpa [step, hpool, ← hsame] using h
  | throw e =>
      rw [hpool] at hsame
      simpa [step, hpool, ← hsame] using h
  | call c k =>
      rw [hpool] at hsame hA
      obtain ⟨hanswer, hrel⟩ := hin c a.2 _ _ (uses_call.mp hA).1 h.world
      have hseen : Event.seen m ⟨a.1, c, a.2, cfg.world⟩ =
          Event.seen m ⟨a.1, c, a.2, cfg'.world⟩ := by
        simp [Event.seen, Event.resp, hanswer]
      simp only [step, hpool, ← hsame]
      refine ⟨hrel, fun tid hG => ?_, fun tid hG => ?_⟩
      · dsimp only
        by_cases ht : tid = a.1
        · subst ht
          rw [Function.update_self, Function.update_self, hanswer]
        · rw [Function.update_of_ne ht, Function.update_of_ne ht]
          exact h.pool tid hG
      · dsimp only
        by_cases ht : tid = a.1
        · subst ht
          have hleft := own_snoc_self m cfg.trace ⟨a.1, c, a.2, cfg.world⟩
          have hright := own_snoc_self m cfg'.trace ⟨a.1, c, a.2, cfg'.world⟩
          rw [show own m a.1 _ = _ from hleft, show own m a.1 _ = _ from hright, hseen]
          exact congrArg (· ++ _) (h.seen a.1 ha)
        · rw [own_snoc_ne m (Ne.symm ht), own_snoc_ne m (Ne.symm ht)]
          exact h.seen tid hG

/-- **Erasure rule.** The group is answered alike in related worlds, and the others keep
the relation by themselves; then the others can be left out. What they are in the second
system does not matter. -/
theorem run_erase
    (hin : ∀ c ch w w', A c → Rel w w' →
      (m c ch w').2 = (m c ch w).2 ∧ Rel (m c ch w).1 (m c ch w').1)
    (hout : ∀ c ch w w', B c → Rel w w' → Rel (m c ch w).1 w')
    (h : SeenBy m G Rel cfg cfg') (hA : ∀ tid, G tid → Uses A (cfg.pool tid))
    (hB : ∀ tid, !G tid → Uses B (cfg.pool tid)) (sched : List (ℕ × Ch)) :
    SeenBy m G Rel (run m cfg sched) (run m cfg' (scheduleOf G sched)) := by
  induction sched generalizing cfg cfg' with
  | nil => exact h
  | cons a sched ih =>
      have hA' := uses_step (m := m) hA a
      have hB' := uses_step (m := m) (G := fun tid => !G tid) hB a
      rw [run_cons]
      by_cases ha : G a.1
      · rw [scheduleOf, List.filter_cons_of_pos (by simpa using ha), run_cons]
        exact ih (h.step_member ha (hA a.1 ha) hin) hA' hB'
      · rw [scheduleOf, List.filter_cons_of_neg (by simpa using ha)]
        exact ih (h.step_other ha (hB a.1 (by simpa using ha)) hout) hA' hB'

end Erase

/-! ## Footprints -/

/-- What the calls read and write, resource by resource. `SameAt r` relates two worlds that
have the resource `r` alike. -/
structure Footprints {Res : Type} (SameAt : Res → W → W → Prop) (reads writes : C → Set Res) :
    Prop where
  answer : ∀ c ch w w', (∀ r ∈ reads c, SameAt r w w') → (m c ch w').2 = (m c ch w).2
  keep : ∀ c ch w w', (∀ r ∈ reads c, SameAt r w w') →
    ∀ r, SameAt r w w' → SameAt r (m c ch w).1 (m c ch w').1
  frame : ∀ c ch w w' r, r ∉ writes c → SameAt r w w' → SameAt r (m c ch w).1 w'

section Disjoint

variable {m} {Res : Type} {SameAt : Res → W → W → Prop} {reads writes : C → Set Res}
  {threadWrites : ℕ → Set Res} {G : ℕ → Bool}

/-- The resources that nobody outside the group writes. -/
def Untouched (threadWrites : ℕ → Set Res) (G : ℕ → Bool) (r : Res) : Prop :=
  ∀ tid, !G tid → r ∉ threadWrites tid

/-- Both worlds have all these resources alike. -/
def SameOn (SameAt : Res → W → W → Prop) (P : Res → Prop) (w w' : W) : Prop :=
  ∀ r, P r → SameAt r w w'

/-- **Disjointness rule.** The others write nothing that the group reads; then the group
runs as it would without them, and so does every resource they do not write. -/
theorem run_disjoint (hm : Footprints m SameAt reads writes) (threadReads : ℕ → Set Res)
    {cfg cfg' : Config C R E α W Ch}
    (hreads : ∀ tid, Uses (fun c => reads c ⊆ threadReads tid) (cfg.pool tid))
    (hwrites : ∀ tid, Uses (fun c => writes c ⊆ threadWrites tid) (cfg.pool tid))
    (hdisjoint : ∀ i j, !G i → G j → ∀ r ∈ threadWrites i, r ∉ threadReads j)
    (h : SeenBy m G (SameOn SameAt (Untouched threadWrites G)) cfg cfg')
    (sched : List (ℕ × Ch)) :
    SeenBy m G (SameOn SameAt (Untouched threadWrites G)) (run m cfg sched)
      (run m cfg' (scheduleOf G sched)) := by
  refine run_erase (A := fun c => ∀ r ∈ reads c, Untouched threadWrites G r)
    (B := fun c => ∃ tid, !G tid ∧ writes c ⊆ threadWrites tid) ?_ ?_ h ?_ ?_ sched
  · intro c ch w w' hc hsame
    have hseen : ∀ r ∈ reads c, SameAt r w w' := fun r hr => hsame r (hc r hr)
    exact ⟨hm.answer c ch w w' hseen, fun r hr => hm.keep c ch w w' hseen r (hsame r hr)⟩
  · rintro c ch w w' ⟨tid, hG, hc⟩ hsame r hr
    exact hm.frame c ch w w' r (fun hw => hr tid hG (hc hw)) (hsame r hr)
  · intro j hj
    refine (hreads j).mono fun c hc r hr i hi hw => ?_
    exact hdisjoint i j hi hj r hw (hc hr)
  · intro tid hG
    exact (hwrites tid).mono fun c hc => ⟨tid, hG, hc⟩

end Disjoint

end Config

end Framework
