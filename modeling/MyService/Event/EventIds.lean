import MyService.Event.EventProducer

/-!
# Event ids

`GenerateEventId` walks its template once and rewrites the letters in place; a character
of the result depends on the template's character and on how many letters stand before it
(`fillTemplate_getElem?`). Read off at each position, the ids are version-4 UUIDs but for
the variant: the four digits from `hex[4]` on stand where RFC 4122 has those from `hex[8]`
on.
-/

namespace MyService.Event.EventProducer

open Framework Userver

/-- A letter that a draw replaces. -/
def IsLetter (c : Char) : Prop := c = 'x' ∨ c = 'y'

instance (c : Char) : Decidable (IsLetter c) := inferInstanceAs (Decidable (_ ∨ _))

/-- What a character of the template becomes with the next draw. -/
def fillChar (d : Fin 16) (c : Char) : Char :=
  if c = 'x' then hexDigit d
  else if c = 'y' then hexDigit ⟨4 + d.val % 4, by omega⟩
  else c

/-- One more draw is taken if the head is a letter. -/
theorem fillTemplate_cons (draws : ℕ → Fin 16) (i : ℕ) (c : Char) (template : List Char) :
    fillTemplate draws i (c :: template) = fillChar (draws i) c ::
      fillTemplate draws (if IsLetter c then i + 1 else i) template := by
  have hdigit : Fin.ofNat 16 (4 + (draws i).val % 4) = ⟨4 + (draws i).val % 4, by omega⟩ :=
    Fin.ext (Nat.mod_eq_of_lt (by omega))
  have hunfold : fillTemplate draws i (c :: template) =
      if c = 'x' then hexDigit (draws i) :: fillTemplate draws (i + 1) template
      else if c = 'y' then
        hexDigit (Fin.ofNat 16 (4 + (draws i).val % 4)) :: fillTemplate draws (i + 1) template
      else c :: fillTemplate draws i template := rfl
  rw [hunfold, hdigit]
  by_cases hx : c = 'x'
  · simp [fillChar, IsLetter, hx]
  · by_cases hy : c = 'y'
    · simp [fillChar, IsLetter, hy]
    · simp [fillChar, IsLetter, hx, hy]

/-- The letters before a position are the draws already taken. -/
theorem fillTemplate_getElem? (draws : ℕ → Fin 16) (template : List Char) (i j : ℕ) :
    (fillTemplate draws i template)[j]? =
      template[j]?.map (fillChar (draws (i + (template.take j).countP (IsLetter ·)))) := by
  induction template generalizing i j with
  | nil => rfl
  | cons c template ih =>
      rw [fillTemplate_cons]
      cases j with
      | zero => rfl
      | succ j =>
          have htaken : (if IsLetter c then i + 1 else i) +
              (template.take j).countP (IsLetter ·) =
                i + ((c :: template).take (j + 1)).countP (IsLetter ·) := by
            rw [List.take_succ_cons, List.countP_cons]
            by_cases hc : IsLetter c
            · simp [hc]
              omega
            · simp [hc]
          rw [List.getElem?_cons_succ, ih, List.getElem?_cons_succ, htaken]

/-- The template of `GenerateEventId`. -/
def template : List Char := "xxxxxxxx-xxxx-4xxx-yxxx-xxxxxxxxxxxx".toList

theorem eventIdOf_getElem? (draws : ℕ → Fin 16) (j : ℕ) :
    (eventIdOf draws).toList[j]? =
      template[j]?.map (fillChar (draws ((template.take j).countP (IsLetter ·)))) := by
  have hfill := fillTemplate_getElem? draws template 0 j
  rw [Nat.zero_add] at hfill
  rw [eventIdOf, String.toList_ofList]
  exact hfill

/-- The positions of the hyphens. -/
def hyphens : List ℕ := [8, 13, 18, 23]

/-- The positions of the digits that are free. -/
def freePositions : List ℕ := (List.range 36).filter fun j => j ∉ hyphens ∧ j ≠ 14 ∧ j ≠ 19

/-- The draws of the free digits: all but the one for the variant. -/
def freeDraws : List ℕ := (List.range 31).filter (· ≠ 15)

/-- The form of an id, whatever its variant, with each free digit its own draw. -/
structure IsUuid (draws : ℕ → Fin 16) (id : List Char) : Prop where
  length : id.length = 36
  hyphens : ∀ j ∈ hyphens, id[j]? = some '-'
  digits : ∀ j < 36, j ∉ EventProducer.hyphens → ∃ d, id[j]? = some (hexDigit d)
  version : id[14]? = some '4'
  free : freePositions.map (id[·]?) = freeDraws.map fun n => some (hexDigit (draws n))

/-- A version-4 UUID of RFC 4122 made of these draws. -/
structure IsVersion4 (draws : ℕ → Fin 16) (id : List Char) : Prop extends IsUuid draws id where
  variant : ∃ c ∈ ['8', '9', 'a', 'b'], id[19]? = some c

theorem length_fillTemplate (draws : ℕ → Fin 16) (i : ℕ) (template : List Char) :
    (fillTemplate draws i template).length = template.length := by
  induction template generalizing i with
  | nil => rfl
  | cons c template ih => rw [fillTemplate_cons, List.length_cons, List.length_cons, ih]

/-- **What is generated.** A UUID of version 4 in all but the variant, whose digit is one of
the four from `hex[4]` on. -/
theorem isUuid_eventIdOf (draws : ℕ → Fin 16) :
    IsUuid draws (eventIdOf draws).toList ∧
      ∃ c ∈ ['4', '5', '6', '7'], (eventIdOf draws).toList[19]? = some c := by
  have hat : ∀ j c, template[j]? = some c → (eventIdOf draws).toList[j]? =
      some (fillChar (draws ((template.take j).countP (IsLetter ·))) c) := by
    intro j c hc
    rw [eventIdOf_getElem?, hc]
    rfl
  refine ⟨⟨?_, ?_, ?_, hat 14 '4' rfl, ?_⟩, ?_⟩
  · rw [eventIdOf, String.toList_ofList, length_fillTemplate]
    rfl
  · intro j hj
    have hhyphen : ∀ j ∈ hyphens, template[j]? = some '-' := by decide
    exact hat j '-' (hhyphen j hj)
  · intro j hj hhyphen
    have hdigit : ∀ j < 36, j ∉ hyphens →
        template[j]? = some 'x' ∨ template[j]? = some 'y' ∨ template[j]? = some '4' := by decide
    rcases hdigit j hj hhyphen with hx | hy | hfour
    · exact ⟨_, hat j 'x' hx⟩
    · exact ⟨_, hat j 'y' hy⟩
    · exact ⟨4, hat j '4' hfour⟩
  · -- the free positions are the `x`s, and the draws before them are all but the sixteenth
    have hx : ∀ j ∈ freePositions, template[j]? = some 'x' := by decide
    have hdraws : freePositions.map (fun j => (template.take j).countP (IsLetter ·)) =
        freeDraws := by decide
    rw [← hdraws, List.map_map]
    refine List.map_congr_left ?_
    intro j hj
    exact hat j 'x' (hx j hj)
  · have hvariant : ∀ d, fillChar d 'y' ∈ ['4', '5', '6', '7'] := by decide
    exact ⟨_, hvariant _, hat 19 'y' rfl⟩

/-- **No event id is a version-4 UUID.** Whatever is drawn, it is one in all but the
variant. -/
theorem eventIds_never_version4 (cs : ℕ → Choice) (w : World) :
    ∃ id, (generateEventId.exec perform cs w).1 = .ok id ∧
      IsUuid (cs 0).draws id.toList ∧ ¬IsVersion4 (cs 0).draws id.toList := by
  obtain ⟨huuid, c', hc', hat'⟩ := isUuid_eventIdOf (cs 0).draws
  refine ⟨eventIdOf (cs 0).draws, rfl, huuid, ?_⟩
  intro h
  obtain ⟨c, hc, hat⟩ := h.variant
  obtain rfl : c = c' := Option.some.inj (hat.symm.trans hat')
  have hdisjoint : ∀ c ∈ ['8', '9', 'a', 'b'], c ∉ ['4', '5', '6', '7'] := by simp
  exact hdisjoint c hc hc'

/-- Nothing but zeros drawn: `00000000-0000-4000-4000-000000000000`. -/
theorem eventId_fails :
    (eventIdOf fun _ => digitZero) = "00000000-0000-4000-4000-000000000000" ∧
      ¬IsVersion4 (fun _ => digitZero) (eventIdOf fun _ => digitZero).toList := by
  refine ⟨by decide, ?_⟩
  rintro ⟨-, c, hc, hat⟩
  have hfour : (eventIdOf fun _ => digitZero).toList[19]? = some '4' := by decide
  obtain rfl : '4' = c := Option.some.inj (hfour.symm.trans hat)
  exact absurd hc (by decide)

end MyService.Event.EventProducer
