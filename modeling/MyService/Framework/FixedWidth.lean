import Mathlib.Algebra.Group.Nat.Defs
import Mathlib.Data.List.Forall2
import Mathlib.Data.List.Lex
import Mathlib.Data.Char
import Mathlib.Order.Nat

/-!
# Records of fixed width

A record is a list of numbers, each written with a fixed number of decimal digits and
closed by a mark. Numbers that fit their widths can be read back (`parse_render`), and
records sort as their numbers do: leading zeros make the order of the texts that of the
numbers (`digits_lt_digits`), and equal widths make the first difference decide
(`render_lt_render`).
-/

namespace Framework.FixedWidth

/-- The last `width` decimal digits of a number. -/
def digits : ℕ → ℕ → List Char
  | 0, _ => []
  | width + 1, n => digits width (n / 10) ++ [Nat.digitChar (n % 10)]

/-- The width of each number and the mark after it. -/
abbrev Layout := List (ℕ × Char)

def render : Layout → List ℕ → List Char
  | (width, mark) :: layout, n :: ns => digits width n ++ mark :: render layout ns
  | _, _ => []

/-- There is a number for each place, and it has at most as many digits. -/
def Fits : Layout → List ℕ → Prop :=
  List.Forall₂ fun place n => n < 10 ^ place.1

def readNumber (width : ℕ) (text : List Char) : Option (ℕ × List Char) :=
  let word := text.take width
  if word.length = width ∧ word.all Char.isDigit then
    some (Nat.ofDigitChars 10 word 0, text.drop width)
  else none

def parse : Layout → List Char → Option (List ℕ)
  | [], text => if text = [] then some [] else none
  | (width, mark) :: layout, text =>
      match readNumber width text with
      | some (n, c :: rest) => if c = mark then (parse layout rest).map (n :: ·) else none
      | _ => none

/-- A layout as a pattern: `d` stands for a digit, any other character for itself. -/
def pattern : Layout → List Char
  | [] => []
  | (width, mark) :: layout => List.replicate width 'd' ++ mark :: pattern layout

def Follows : List Char → List Char → Prop :=
  List.Forall₂ fun p c => if p = 'd' then c.isDigit = true else c = p

/-! ## Digits -/

theorem div_ten_lt {width n : ℕ} (h : n < 10 ^ (width + 1)) : n / 10 < 10 ^ width := by
  rw [Nat.div_lt_iff_lt_mul (by decide), ← Nat.pow_succ]
  exact h

@[simp] theorem length_digits (width n : ℕ) : (digits width n).length = width := by
  induction width generalizing n with
  | zero => rfl
  | succ width ih => rw [digits, List.length_append, ih, List.length_singleton]

theorem isDigit_digits (width n : ℕ) : ∀ c ∈ digits width n, c.isDigit = true := by
  induction width generalizing n with
  | zero => simp [digits]
  | succ width ih =>
      intro c hc
      rcases List.mem_append.mp hc with hm | hm
      · exact ih (n / 10) c hm
      · rw [List.mem_singleton.mp hm]
        rw [Nat.isDigit_digitChar]
        exact decide_eq_true (Nat.mod_lt n (by decide))

theorem ofDigitChars_digits {width n : ℕ} (h : n < 10 ^ width) :
    Nat.ofDigitChars 10 (digits width n) 0 = n := by
  induction width generalizing n with
  | zero => simpa [digits, eq_comm] using h
  | succ width ih =>
      rw [digits, Nat.ofDigitChars_append, ih (div_ten_lt h),
        Nat.ofDigitChars_cons_digitChar_of_lt_ten (Nat.mod_lt n (by decide)),
        Nat.ofDigitChars_nil]
      exact Nat.div_add_mod n 10

theorem digits_zero (width : ℕ) : digits width 0 = List.replicate width '0' := by
  induction width with
  | zero => rfl
  | succ width ih =>
      rw [digits, Nat.zero_div, ih, List.replicate_succ']
      rfl

/-- The digits of a number, filled up with zeros on the left. -/
theorem digits_eq_padded {width n : ℕ} (hpos : 0 < width) (h : n < 10 ^ width) :
    digits width n =
      List.replicate (width - (Nat.toDigits 10 n).length) '0' ++ Nat.toDigits 10 n := by
  induction width generalizing n with
  | zero => exact absurd hpos (lt_irrefl 0)
  | succ width ih =>
      by_cases hten : n < 10
      · rw [digits, Nat.div_eq_of_lt hten, digits_zero, Nat.mod_eq_of_lt hten,
          Nat.toDigits_of_lt_base hten]
        rfl
      · have hwidth : 0 < width := by
          rcases Nat.eq_zero_or_pos width with rfl | hwidth
          · exact absurd h hten
          · exact hwidth
        have hlast : Nat.toDigits 10 n = Nat.toDigits 10 (n / 10) ++ [Nat.digitChar (n % 10)] :=
          Nat.toDigits_of_base_le (by decide) (by omega)
        rw [digits, ih hwidth (div_ten_lt h), hlast, List.length_append, List.length_singleton,
          Nat.add_sub_add_right, List.append_assoc]

/-- A number that fills its width needs no zeros. -/
theorem digits_eq_toDigits {width n : ℕ} (hlow : 10 ^ width ≤ n) (h : n < 10 ^ (width + 1)) :
    digits (width + 1) n = Nat.toDigits 10 n := by
  have hlength : width + 1 ≤ (Nat.toDigits 10 n).length := by
    rcases Nat.eq_zero_or_pos width with rfl | hwidth
    · exact Nat.length_toDigits_pos
    · by_contra hshort
      have hlt : n < 10 ^ width :=
        (Nat.length_toDigits_le_iff (by decide) hwidth).mp (by omega)
      omega
  rw [digits_eq_padded (Nat.succ_pos width) h, Nat.sub_eq_zero_of_le hlength]
  rfl

/-! ## Order -/

/-- Between texts of one length the first difference decides, whatever follows. -/
theorem append_lt_append {xs ys : List Char} (hlength : xs.length = ys.length) (h : xs < ys)
    (as bs : List Char) : xs ++ as < ys ++ bs := by
  induction xs generalizing ys with
  | nil =>
      obtain rfl := List.eq_nil_of_length_eq_zero hlength.symm
      exact absurd h (lt_irrefl _)
  | cons x xs ih =>
      cases ys with
      | nil => exact absurd hlength (Nat.succ_ne_zero _)
      | cons y ys =>
          rcases List.cons_lt_cons_iff.mp h with hlt | ⟨rfl, hlt⟩
          · exact List.cons_lt_cons_iff.mpr (Or.inl hlt)
          · exact List.cons_lt_cons_iff.mpr (Or.inr ⟨rfl, ih (Nat.succ.inj hlength) hlt⟩)

theorem digitChar_lt : ∀ b < 10, ∀ a < b, Nat.digitChar a < Nat.digitChar b := by
  decide

theorem digits_lt_digits {width a b : ℕ} (h : a < b) (hb : b < 10 ^ width) :
    digits width a < digits width b := by
  induction width generalizing a b with
  | zero => omega
  | succ width ih =>
      rcases Nat.lt_or_ge (a / 10) (b / 10) with hlt | hge
      · exact append_lt_append (by simp) (ih hlt (div_ten_lt hb)) _ _
      · -- the same number of tens
        have htens : a / 10 = b / 10 :=
          le_antisymm (Nat.div_le_div_right (Nat.le_of_lt h)) hge
        rw [digits, digits, htens]
        refine List.append_left_lt (List.cons_lt_cons_iff.mpr (Or.inl ?_))
        exact digitChar_lt _ (Nat.mod_lt b (by decide)) _ (by omega)

/-! ## Records -/

theorem readNumber_digits {width n : ℕ} (h : n < 10 ^ width) (rest : List Char) :
    readNumber width (digits width n ++ rest) = some (n, rest) := by
  have hword : (digits width n ++ rest).take width = digits width n :=
    List.take_left' (length_digits width n)
  have hrest : (digits width n ++ rest).drop width = rest :=
    List.drop_left' (length_digits width n)
  have hall : (digits width n).all Char.isDigit = true :=
    List.all_eq_true.mpr (isDigit_digits width n)
  simp only [readNumber, hword, hrest, hall, length_digits, and_self, if_true,
    ofDigitChars_digits h]

/-- **A record can be read back.** -/
theorem parse_render {layout : Layout} {ns : List ℕ} (h : Fits layout ns) :
    parse layout (render layout ns) = some ns := by
  induction h with
  | nil => rfl
  | @cons place n layout ns hn _ ih =>
      obtain ⟨width, mark⟩ := place
      simp [render, parse, readNumber_digits hn, ih]

theorem follows_append {ps qs cs ds : List Char} (h : Follows ps cs) (h' : Follows qs ds) :
    Follows (ps ++ qs) (cs ++ ds) :=
  List.rel_append h h'

/-- A record has the shape that its layout says. -/
theorem follows_render {layout : Layout} {ns : List ℕ} (h : Fits layout ns)
    (hmark : ∀ place ∈ layout, place.2 ≠ 'd') :
    Follows (pattern layout) (render layout ns) := by
  induction h with
  | nil => exact List.Forall₂.nil
  | @cons place n layout ns hn _ ih =>
      obtain ⟨width, mark⟩ := place
      have hdigits : Follows (List.replicate width 'd') (digits width n) := by
        refine List.forall₂_iff_get.mpr ⟨by simp, fun i _ hi => ?_⟩
        simpa using isDigit_digits width n _ (List.get_mem _ ⟨i, hi⟩)
      have hhead : mark ≠ 'd' := hmark _ List.mem_cons_self
      refine follows_append hdigits (List.Forall₂.cons ?_ ?_)
      · rw [if_neg hhead]
      · exact ih fun place hplace => hmark place (List.mem_cons_of_mem _ hplace)

/-- **Records sort as their numbers do.** -/
theorem render_lt_render {layout : Layout} {ns ms : List ℕ} (h : Fits layout ns)
    (h' : Fits layout ms) (hlt : ns < ms) : render layout ns < render layout ms := by
  induction h generalizing ms with
  | nil =>
      cases h'
      exact absurd hlt (lt_irrefl _)
  | @cons place n layout ns _ _ ih =>
      obtain ⟨width, mark⟩ := place
      obtain _ | ⟨hm, htail⟩ := h'
      rcases List.cons_lt_cons_iff.mp hlt with hhead | ⟨rfl, hrest⟩
      · exact append_lt_append (by simp) (digits_lt_digits hhead hm) _ _
      · exact List.append_left_lt (List.cons_lt_cons_iff.mpr (Or.inr ⟨rfl, ih htail hrest⟩))

end Framework.FixedWidth
