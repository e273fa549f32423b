import Mathlib.Algebra.Order.Group.Int
import Mathlib.Data.Int.Order.Basic
import Mathlib.Tactic.IntervalCases

/-!
# The proleptic Gregorian calendar

Dates as year, month and day, and the number of a day counted from 1 January 1970. The
calendar itself is the leap rule and the lengths of the months (`daysBeforeYear_succ`,
`daysBeforeMonth`); `Date.number` counts by it, and `ofNumber` is the usual computation in
the other direction, over 400-year eras of years that begin in March. `number_ofNumber`
says that the two agree, `number_lt_number` that later dates have greater numbers.
-/

namespace Framework.Gregorian

def IsLeap (year : Int) : Prop := year % 4 = 0 ∧ (year % 100 ≠ 0 ∨ year % 400 = 0)

instance (year : Int) : Decidable (IsLeap year) := inferInstanceAs (Decidable (_ ∧ _))

def yearLength (year : Int) : Int := if IsLeap year then 366 else 365

def monthLength (year month : Int) : Int :=
  if month = 2 then if IsLeap year then 29 else 28
  else if month = 4 ∨ month = 6 ∨ month = 9 ∨ month = 11 then 30
  else 31

/-- The days of the first `months` months of a year. -/
def daysOfMonths (year : Int) : ℕ → Int
  | 0 => 0
  | months + 1 => daysOfMonths year months + monthLength year (months + 1)

def daysBeforeMonth (year month : Int) : Int := daysOfMonths year (month - 1).toNat

/-- The days from 1 January 1970 to 1 January of a year. -/
def daysBeforeYear (year : Int) : Int :=
  365 * (year - 1970) + (year - 1) / 4 - (year - 1) / 100 + (year - 1) / 400 - 477

/-- Every fourth year is leap, but of the centuries only every fourth. -/
theorem daysBeforeYear_succ (year : Int) :
    daysBeforeYear (year + 1) = daysBeforeYear year + yearLength year := by
  unfold daysBeforeYear yearLength
  split <;> rename_i hleap <;> unfold IsLeap at hleap
  · omega
  · omega

@[simp] theorem daysBeforeYear_epoch : daysBeforeYear 1970 = 0 := by decide

/-- The months fill the year. -/
theorem daysOfMonths_twelve (year : Int) : daysOfMonths year 12 = yearLength year := by
  by_cases hleap : IsLeap year
  · simp [daysOfMonths, monthLength, yearLength, hleap]
  · simp [daysOfMonths, monthLength, yearLength, hleap]

theorem monthLength_pos (year month : Int) : 0 < monthLength year month := by
  unfold monthLength
  split
  · split <;> omega
  · split <;> omega

theorem monthLength_le (year month : Int) : monthLength year month ≤ 31 := by
  unfold monthLength
  split
  · split <;> omega
  · split <;> omega

theorem monthLength_february (year : Int) : monthLength year 2 = yearLength year - 337 := by
  by_cases hleap : IsLeap year
  · simp [monthLength, yearLength, hleap]
  · simp [monthLength, yearLength, hleap]

/-- Of two months of a year, the later one begins after the earlier one's end. -/
theorem daysOfMonths_lt (year : Int) {m n : ℕ} (h : m < n) :
    daysOfMonths year m + monthLength year (m + 1) ≤ daysOfMonths year n := by
  induction n with
  | zero => omega
  | succ n ih =>
      rcases Nat.lt_succ_iff_lt_or_eq.mp h with hlt | rfl
      · have hpos := monthLength_pos year (n + 1)
        have hstep : daysOfMonths year (n + 1) = daysOfMonths year n + monthLength year (n + 1) :=
          rfl
        have hprev := ih hlt
        omega
      · exact le_refl _

theorem daysOfMonths_nonneg (year : Int) (m : ℕ) : 0 ≤ daysOfMonths year m := by
  cases m with
  | zero => exact le_refl _
  | succ m =>
      have hgap := daysOfMonths_lt year (Nat.succ_pos m)
      have hpos := monthLength_pos year ((0 : ℕ) + 1)
      simp only [daysOfMonths] at hgap ⊢
      omega

theorem daysBeforeMonth_lt (year : Int) {month month' : Int} (hpos : 1 ≤ month)
    (h : month < month') :
    daysBeforeMonth year month + monthLength year month ≤ daysBeforeMonth year month' := by
  have hgap := daysOfMonths_lt year (show (month - 1).toNat < (month' - 1).toNat by omega)
  have hmonth : (((month - 1).toNat : ℕ) : Int) + 1 = month := by omega
  rwa [hmonth] at hgap

/-- Of two years, the later one begins after the earlier one's end. -/
theorem daysBeforeYear_lt {year year' : Int} (h : year < year') :
    daysBeforeYear year + yearLength year ≤ daysBeforeYear year' := by
  rw [← daysBeforeYear_succ]
  unfold daysBeforeYear
  omega

@[ext]
structure Date where
  year : Int
  month : Int
  day : Int
deriving DecidableEq

namespace Date

structure Valid (d : Date) : Prop where
  month_pos : 1 ≤ d.month
  month_le : d.month ≤ 12
  day_pos : 1 ≤ d.day
  day_le : d.day ≤ monthLength d.year d.month

instance (d : Date) : Decidable d.Valid :=
  decidable_of_iff (1 ≤ d.month ∧ d.month ≤ 12 ∧ 1 ≤ d.day ∧ d.day ≤ monthLength d.year d.month)
    ⟨fun ⟨hmonth, hmonth', hday, hday'⟩ => ⟨hmonth, hmonth', hday, hday'⟩,
      fun ⟨hmonth, hmonth', hday, hday'⟩ => ⟨hmonth, hmonth', hday, hday'⟩⟩

/-- The days from 1 January 1970 to a date. -/
def number (d : Date) : Int :=
  daysBeforeYear d.year + daysBeforeMonth d.year d.month + (d.day - 1)

/-- A date comes after the beginning of its year and before its end. -/
theorem Valid.number_bounds {d : Date} (h : d.Valid) :
    daysBeforeYear d.year ≤ d.number ∧ d.number < daysBeforeYear d.year + yearLength d.year := by
  obtain ⟨hpos, hle, hday, hlast⟩ := h
  obtain ⟨m, hm⟩ : ∃ m : ℕ, d.month = (m : Int) + 1 := ⟨(d.month - 1).toNat, by omega⟩
  have hbefore : daysBeforeMonth d.year d.month = daysOfMonths d.year m := by
    rw [daysBeforeMonth, hm]
    simp
  have hstart := daysOfMonths_nonneg d.year m
  have hend := daysOfMonths_lt d.year (show m < 12 by omega)
  rw [daysOfMonths_twelve] at hend
  rw [hm] at hlast
  rw [number, hbefore]
  omega

/-- The years that a range of days touches. -/
theorem Valid.year_bounds {d : Date} (h : d.Valid) {first last : Int}
    (hfirst : daysBeforeYear first ≤ d.number) (hlast : d.number < daysBeforeYear last) :
    first ≤ d.year ∧ d.year < last := by
  obtain ⟨hstart, hend⟩ := h.number_bounds
  constructor
  · by_contra hbefore
    have hgap := daysBeforeYear_lt (not_le.mp hbefore)
    omega
  · by_contra hafter
    rcases (not_lt.mp hafter).lt_or_eq with hlt | rfl
    · have hgap := daysBeforeYear_lt hlt
      have hpos : 0 ≤ yearLength last := by
        unfold yearLength
        split <;> omega
      omega
    · omega

/-- **Later dates have greater numbers.** -/
theorem number_lt_number {d d' : Date} (h : d.Valid) (h' : d'.Valid)
    (hlt : d.year < d'.year ∨ d.year = d'.year ∧
      (d.month < d'.month ∨ d.month = d'.month ∧ d.day < d'.day)) : d.number < d'.number := by
  rcases hlt with hyear | ⟨hyear, hmonth | ⟨hmonth, hday⟩⟩
  · have hgap := daysBeforeYear_lt hyear
    have hbefore := h.number_bounds.2
    have hafter := h'.number_bounds.1
    omega
  · have hgap := daysBeforeMonth_lt d.year h.month_pos hmonth
    have hend := h.day_le
    have hstart := h'.day_pos
    rw [number, number, ← hyear]
    omega
  · rw [number, number, ← hyear, ← hmonth]
    omega

end Date

/-! ## From numbers to dates -/

/-- The days of an era before its `year`-th year; these years begin on 1 March. -/
def eraDays (year : Int) : Int := 365 * year + year / 4 - year / 100 + year / 400

/-- The year of an era that a day of it falls in. -/
def yearOfEra (doe : Int) : Int :=
  (doe - doe / 1460 + doe / 36524 - doe / 146096) / 365

/-- The date of a day of a year that begins on 1 March. -/
def marchDate (year doy : Int) : Date :=
  let mp := (5 * doy + 2) / 153
  let month := if mp < 10 then mp + 3 else mp - 9
  { year := year + (if month ≤ 2 then 1 else 0)
    month := month
    day := doy - (153 * mp + 2) / 5 + 1 }

/-- The date of a day counted from 1 January 1970. -/
def ofNumber (number : Int) : Date :=
  let shifted := number + 719468
  let era := shifted / 146097
  let doe := shifted % 146097
  let yoe := yearOfEra doe
  marchDate (yoe + era * 400) (doe - (365 * yoe + yoe / 4 - yoe / 100))

theorem yearOfEra_mono {a b : Int} (h : a ≤ b) : yearOfEra a ≤ yearOfEra b := by
  have hfour : ∀ x : Int, x / 146096 = x / 36524 / 4 := fun x => by omega
  have hleft : a - a / 1460 ≤ b - b / 1460 := by omega
  have hright : a / 36524 - a / 146096 ≤ b / 36524 - b / 146096 := by
    rw [hfour a, hfour b]
    omega
  unfold yearOfEra
  exact Int.ediv_le_ediv (by decide) (by omega)

/-- The computation is right on the first and the last day of each year. -/
theorem yearOfEra_ends : ∀ year < 400, yearOfEra (eraDays (year : ℕ)) = (year : ℕ) ∧
    yearOfEra (eraDays ((year : ℕ) + 1) - 1) = (year : ℕ) := by
  decide +kernel

/-- And so on every day. -/
theorem yearOfEra_spec {doe : Int} (h0 : 0 ≤ doe) (h : doe < 146097) :
    0 ≤ yearOfEra doe ∧ yearOfEra doe < 400 ∧ eraDays (yearOfEra doe) ≤ doe ∧
      doe < eraDays (yearOfEra doe + 1) := by
  have hfirst : 0 ≤ yearOfEra doe := yearOfEra_mono h0
  have hlast : yearOfEra doe ≤ 399 := yearOfEra_mono (show doe ≤ 146096 by omega)
  obtain ⟨year, hyear⟩ : ∃ year : ℕ, yearOfEra doe = year := ⟨_, (Int.toNat_of_nonneg hfirst).symm⟩
  rw [hyear] at hfirst hlast ⊢
  refine ⟨hfirst, by omega, ?_, ?_⟩
  · -- a day before the year would be in the year before at the latest
    by_contra hbefore
    cases year with
    | zero => exact hbefore h0
    | succ year =>
        have hmono : yearOfEra doe ≤ yearOfEra (eraDays ((year : ℕ) + 1) - 1) := by
          refine yearOfEra_mono ?_
          push_cast at hbefore
          omega
        rw [(yearOfEra_ends year (by omega)).2, hyear] at hmono
        push_cast at hmono
        omega
  · by_contra hafter
    rcases Nat.lt_or_ge (year + 1) 400 with hlt | hge
    · have hmono : yearOfEra (eraDays ((year + 1 : ℕ) : Int)) ≤ yearOfEra doe := by
        refine yearOfEra_mono ?_
        push_cast
        omega
      rw [(yearOfEra_ends (year + 1) hlt).1, hyear] at hmono
      push_cast at hmono
      omega
    · obtain rfl : year = 399 := by omega
      exact hafter h

/-- The two counts of years: an era begins on 1 March of its year 0. -/
theorem eraDays_eq (year : Int) : eraDays year = daysBeforeYear (year + 1) + 719162 := by
  unfold eraDays daysBeforeYear
  rw [Int.add_sub_cancel]
  omega

theorem eraDays_succ (year : Int) : eraDays (year + 1) = eraDays year + yearLength (year + 1) := by
  rw [eraDays_eq, eraDays_eq, daysBeforeYear_succ]
  omega

/-- The leap years come again after each era. -/
theorem yearLength_add_eras (year era : Int) :
    yearLength (year + era * 400) = yearLength year := by
  have hleap : IsLeap (year + era * 400) ↔ IsLeap year := by
    unfold IsLeap
    omega
  simp only [yearLength, hleap]

theorem eraDays_add_eras (year era : Int) :
    eraDays (year + era * 400) = eraDays year + era * 146097 := by
  unfold eraDays
  omega

/-- From March on, the lengths of the months alternate so that a linear formula counts
the days before them. -/
theorem monthLength_fromMarch (year : Int) {mp : ℕ} (h : mp ≤ 9) :
    monthLength year ((mp : Int) + 3) = (153 * ((mp : Int) + 1) + 2) / 5 - (153 * mp + 2) / 5 := by
  interval_cases mp <;> simp [monthLength]

theorem daysOfMonths_fromMarch (year : Int) {mp : ℕ} (h : mp ≤ 9) :
    daysOfMonths year (mp + 2) = yearLength year - 306 + (153 * mp + 2) / 5 := by
  induction mp with
  | zero =>
      have hfebruary := monthLength_february year
      simp only [daysOfMonths, Nat.cast_zero, Nat.cast_one, zero_add]
      rw [show (1 : Int) + 1 = 2 by rfl, hfebruary]
      simp [monthLength]
      omega
  | succ mp ih =>
      have hlength := monthLength_fromMarch year (show mp ≤ 9 by omega)
      have hstep : daysOfMonths year (mp + 1 + 2) =
          daysOfMonths year (mp + 2) + monthLength year (((mp + 2 : ℕ) : Int) + 1) := rfl
      have hmonth : ((mp + 2 : ℕ) : Int) + 1 = (mp : Int) + 3 := by omega
      rw [hstep, hmonth, ih (by omega), hlength]
      push_cast
      omega

/-- The last two months of a year that begins on 1 March belong to the next calendar year. -/
theorem marchDate_eq {year doy : Int} {mp : ℕ} (hmp : (mp : Int) = (5 * doy + 2) / 153)
    (hlast : mp ≤ 11) :
    marchDate year doy =
      if mp ≤ 9 then ⟨year, (mp : Int) + 3, doy - (153 * mp + 2) / 5 + 1⟩
      else ⟨year + 1, (mp : Int) - 9, doy - (153 * mp + 2) / 5 + 1⟩ := by
  have hdate : marchDate year doy = ⟨year + (if (if (mp : Int) < 10 then (mp : Int) + 3 else
      mp - 9) ≤ 2 then 1 else 0), if (mp : Int) < 10 then (mp : Int) + 3 else mp - 9,
      doy - (153 * mp + 2) / 5 + 1⟩ := by
    rw [hmp]
    rfl
  rw [hdate]
  by_cases hmarch : mp ≤ 9
  · rw [if_pos hmarch, if_pos (show (mp : Int) < 10 by omega), if_neg (by omega), add_zero]
  · rw [if_neg hmarch, if_neg (show ¬(mp : Int) < 10 by omega), if_pos (by omega)]

/-- A day of such a year, whose last day is a leap day or is not. -/
theorem marchDate_spec {year doy : Int} (h0 : 0 ≤ doy) (h : doy < yearLength (year + 1)) :
    (marchDate year doy).Valid ∧
      (marchDate year doy).number = daysBeforeYear (year + 1) + doy - 306 := by
  have hlength : yearLength (year + 1) ≤ 366 := by
    unfold yearLength
    split <;> omega
  obtain ⟨mp, hmp⟩ : ∃ mp : ℕ, (mp : Int) = (5 * doy + 2) / 153 :=
    ⟨((5 * doy + 2) / 153).toNat, by omega⟩
  rw [marchDate_eq hmp (by omega)]
  by_cases hmarch : mp ≤ 9
  · have hbefore : daysBeforeMonth year ((mp : Int) + 3) = daysOfMonths year (mp + 2) := by
      rw [daysBeforeMonth]
      congr 1
      omega
    rw [if_pos hmarch]
    refine ⟨⟨by simp only; omega, by simp only; omega, by simp only; omega, ?_⟩, ?_⟩
    · simp only [monthLength_fromMarch year hmarch]
      omega
    · simp only [Date.number, hbefore, daysOfMonths_fromMarch year hmarch, daysBeforeYear_succ]
      omega
  · rw [if_neg hmarch]
    obtain rfl | rfl : mp = 10 ∨ mp = 11 := by omega
    · refine ⟨⟨by simp, by simp, ?_, ?_⟩, ?_⟩
      · simp only
        omega
      · simp only [monthLength]
        norm_num
        omega
      · simp [Date.number, daysBeforeMonth, daysOfMonths]
        omega
    · refine ⟨⟨by simp, by simp, ?_, ?_⟩, ?_⟩
      · simp only
        omega
      · simp only
        rw [show ((11 : ℕ) : Int) - 9 = 2 by rfl, monthLength_february]
        omega
      · simp [Date.number, daysBeforeMonth, daysOfMonths, monthLength]
        omega

/-- **The computation agrees with the calendar.** -/
theorem number_ofNumber (n : Int) : (ofNumber n).Valid ∧ (ofNumber n).number = n := by
  set shifted := n + 719468 with hshifted
  set era := shifted / 146097 with hera
  set doe := shifted % 146097 with hdoe
  obtain ⟨hfirst, hlast, hstart, hend⟩ := @yearOfEra_spec doe (by omega) (by omega)
  set yoe := yearOfEra doe with hyoe
  have hdoy : doe - (365 * yoe + yoe / 4 - yoe / 100) = doe - eraDays yoe := by
    unfold eraDays
    omega
  have hdate : ofNumber n = marchDate (yoe + era * 400) (doe - eraDays yoe) := by
    rw [← hdoy]
    rfl
  rw [eraDays_succ] at hend
  have hspec := @marchDate_spec (yoe + era * 400) (doe - eraDays yoe) (by omega) (by
    rw [show yoe + era * 400 + 1 = yoe + 1 + era * 400 by omega, yearLength_add_eras]
    omega)
  rw [hdate]
  refine ⟨hspec.1, hspec.2.trans ?_⟩
  have hera := eraDays_add_eras yoe era
  rw [eraDays_eq] at hera
  omega

end Framework.Gregorian
