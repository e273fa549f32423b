import Mathlib.Data.String.Basic
import MyService.Event.EventProducer
import MyService.Framework.FixedWidth
import MyService.Framework.Gregorian

/-!
# Event timestamps

`GetCurrentTimestampISO` prints the seconds and the milliseconds of one clock reading
separately. Both are read off one civil time, whose fields fit the widths of the format
(`timestampISO_eq`), so the text can be parsed back, and it sorts as the fields do. The
fields sort as the milliseconds they stand for (`CivilTime.millis_lt_millis`).
-/

namespace MyService.Event.EventProducer

open Framework Framework.Gregorian Userver Chrono

/-! ## Civil times -/

structure CivilTime where
  date : Date
  hour : Int
  minute : Int
  second : Int
  milli : Int
deriving DecidableEq

namespace CivilTime

structure Valid (c : CivilTime) : Prop where
  date : c.date.Valid
  hour : 0 ≤ c.hour ∧ c.hour < 24
  minute : 0 ≤ c.minute ∧ c.minute < 60
  second : 0 ≤ c.second ∧ c.second < 60
  milli : 0 ≤ c.milli ∧ c.milli < 1000

instance (c : CivilTime) : Decidable c.Valid :=
  decidable_of_iff (c.date.Valid ∧ (0 ≤ c.hour ∧ c.hour < 24) ∧ (0 ≤ c.minute ∧ c.minute < 60) ∧
      (0 ≤ c.second ∧ c.second < 60) ∧ 0 ≤ c.milli ∧ c.milli < 1000)
    ⟨fun ⟨hdate, hhour, hminute, hsecond, hmilli⟩ => ⟨hdate, hhour, hminute, hsecond, hmilli⟩,
      fun ⟨hdate, hhour, hminute, hsecond, hmilli⟩ => ⟨hdate, hhour, hminute, hsecond, hmilli⟩⟩

/-- The milliseconds from the epoch to a civil time, by the calendar. -/
def millis (c : CivilTime) : Int :=
  (c.date.number * 86400 + c.hour * 3600 + c.minute * 60 + c.second) * 1000 + c.milli

/-- The fields in the order of the format. -/
def fields (c : CivilTime) : List ℕ :=
  [c.date.year.toNat, c.date.month.toNat, c.date.day.toNat, c.hour.toNat, c.minute.toNat,
    c.second.toNat, c.milli.toNat]

/-- **Later fields mean a later time**, whatever carries lie between. -/
theorem millis_lt_millis {c c' : CivilTime} (h : c.Valid) (h' : c'.Valid)
    (hyear : 0 ≤ c.date.year) (hyear' : 0 ≤ c'.date.year) (hlt : c.fields < c'.fields) :
    c.millis < c'.millis := by
  obtain ⟨hdate, hhour, hminute, hsecond, hmilli⟩ := h
  obtain ⟨hdate', hhour', hminute', hsecond', hmilli'⟩ := h'
  have hmonth := hdate.month_pos
  have hmonth' := hdate'.month_pos
  have hday := hdate.day_pos
  have hday' := hdate'.day_pos
  simp only [fields, List.cons_lt_cons_iff, List.not_lt_nil, and_false, or_false] at hlt
  have hsame : c.date.year = c'.date.year → c.date.month = c'.date.month →
      c.date.day = c'.date.day → c.date.number = c'.date.number :=
    fun hy hm hd => congrArg Date.number (Date.ext hy hm hd)
  have hnumber := @Date.number_lt_number c.date c'.date hdate hdate'
  unfold millis
  -- a first difference in the date is left to the calendar, a later one is arithmetic
  rcases hlt with hlt | ⟨hy, hlt | ⟨hm, hlt | ⟨hd, hlt | ⟨hh, hlt | ⟨hmin, hlt | ⟨hs, hlt⟩⟩⟩⟩⟩⟩
  · have hlater := hnumber (Or.inl (by omega))
    omega
  · have hlater := hnumber (Or.inr ⟨by omega, Or.inl (by omega)⟩)
    omega
  · have hlater := hnumber (Or.inr ⟨by omega, Or.inr ⟨by omega, by omega⟩⟩)
    omega
  all_goals
    rw [hsame (by omega) (by omega) (by omega)]
    omega

end CivilTime

/-- The fields that `put_time` and the milliseconds print. -/
def civilTime (now : Int) : CivilTime :=
  let tm := gmtime (toTimeT now)
  { date := ⟨tm.year, tm.month, tm.day⟩
    hour := tm.hour
    minute := tm.minute
    second := tm.second
    milli := Int.tmod (toMillis now) 1000 }

theorem civilTime_date (now : Int) :
    (civilTime now).date = ofNumber (toTimeT now / 86400) := rfl

theorem civilTime_spec {now : Int} (h : 0 ≤ now) :
    (civilTime now).Valid ∧ (civilTime now).millis = now / 1000000 := by
  obtain ⟨hvalid, hnumber⟩ := number_ofNumber (toTimeT now / 86400)
  have htime : toTimeT now = now / 1000000000 := Int.tdiv_eq_ediv_of_nonneg h
  have hmillis : toMillis now = now / 1000000 := Int.tdiv_eq_ediv_of_nonneg h
  have hmilli : Int.tmod (toMillis now) 1000 = now / 1000000 % 1000 := by
    rw [hmillis]
    exact Int.tmod_eq_emod_of_nonneg (Int.ediv_nonneg h (by decide))
  have hdef : civilTime now = ⟨ofNumber (toTimeT now / 86400), toTimeT now % 86400 / 3600,
      toTimeT now % 86400 % 3600 / 60, toTimeT now % 86400 % 60,
      Int.tmod (toMillis now) 1000⟩ := rfl
  rw [hdef, hmilli, htime]
  rw [htime] at hvalid hnumber
  refine ⟨⟨hvalid, ?_, ?_, ?_, ?_⟩, ?_⟩
  · simp only
    omega
  · simp only
    omega
  · simp only
    omega
  · simp only
    omega
  · simp only [CivilTime.millis, hnumber]
    omega

/-- The instants from 1970-01-01 to the end of year 9999. -/
def InRange (now : Int) : Prop := 0 ≤ now ∧ now < daysBeforeYear 10000 * 86400 * ticksPerSecond

theorem InRange.year_bounds {now : Int} (h : InRange now) :
    1970 ≤ (civilTime now).date.year ∧ (civilTime now).date.year < 10000 := by
  obtain ⟨hvalid, hnumber⟩ := number_ofNumber (toTimeT now / 86400)
  have htime : toTimeT now = now / 1000000000 := Int.tdiv_eq_ediv_of_nonneg h.1
  have hend : now < daysBeforeYear 10000 * 86400 * 1000000000 := h.2
  have hstart := h.1
  rw [civilTime_date]
  refine hvalid.year_bounds ?_ ?_
  · rw [hnumber, daysBeforeYear_epoch]
    omega
  · rw [hnumber]
    omega

theorem InRange.year_nonneg {now : Int} (h : InRange now) : 0 ≤ (civilTime now).date.year := by
  have hfirst := h.year_bounds.1
  omega

/-! ## The text -/

/-- `YYYY-MM-DDTHH:MM:SS.mmmZ`. -/
def layout : FixedWidth.Layout :=
  [(4, '-'), (2, '-'), (2, 'T'), (2, ':'), (2, ':'), (2, '.'), (3, 'Z')]

theorem InRange.fits {now : Int} (h : InRange now) :
    FixedWidth.Fits layout (civilTime now).fields := by
  obtain ⟨hlow, hhigh⟩ := h.year_bounds
  obtain ⟨hdate, hhour, hminute, hsecond, hmilli⟩ := (civilTime_spec h.1).1
  have hmonth := hdate.month_le
  have hday := hdate.day_le.trans (monthLength_le _ _)
  simp only [FixedWidth.Fits, layout, CivilTime.fields, List.forall₂_cons, List.Forall₂.nil,
    and_true]
  omega

theorem toString_of_nonneg {n : Int} (h : 0 ≤ n) :
    toString n = String.ofList (Nat.toDigits 10 n.toNat) := by
  rw [Int.toString_eq_repr, Int.repr_eq_if, if_pos h, Nat.repr_eq_ofList_toDigits]

theorem padded_eq {width : ℕ} {n : Int} (hwidth : 0 < width) (h0 : 0 ≤ n) (h : n < 10 ^ width) :
    padded width n = String.ofList (FixedWidth.digits width n.toNat) := by
  have hn : n.toNat < 10 ^ width := by
    zify
    rwa [Int.toNat_of_nonneg h0]
  rw [padded, toString_of_nonneg h0, FixedWidth.digits_eq_padded hwidth hn, ← String.toList_inj]
  simp

/-- Four digits need no padding. -/
theorem toString_eq {n : Int} (hlow : 1000 ≤ n) (h : n < 10000) :
    toString n = String.ofList (FixedWidth.digits 4 n.toNat) := by
  rw [@FixedWidth.digits_eq_toDigits 3 n.toNat (by omega) (by omega),
    toString_of_nonneg (by omega)]

theorem timestampISO_eq {now : Int} (h : InRange now) :
    timestampISO now = String.ofList (FixedWidth.render layout (civilTime now).fields) := by
  obtain ⟨hlow, hhigh⟩ := h.year_bounds
  obtain ⟨hdate, hhour, hminute, hsecond, hmilli⟩ := (civilTime_spec h.1).1
  have hmonth := hdate.month_le
  have hmonth' := hdate.month_pos
  have hday := hdate.day_le.trans (monthLength_le _ _)
  have hday' := hdate.day_pos
  have htext : timestampISO now = toString (civilTime now).date.year ++ "-" ++
      padded 2 (civilTime now).date.month ++ "-" ++ padded 2 (civilTime now).date.day ++ "T" ++
      padded 2 (civilTime now).hour ++ ":" ++ padded 2 (civilTime now).minute ++ ":" ++
      padded 2 (civilTime now).second ++ "." ++ padded 3 (civilTime now).milli ++ "Z" := rfl
  rw [htext, toString_eq (by omega) hhigh, padded_eq (by decide) (by omega) (by omega),
    padded_eq (by decide) (by omega) (by omega), padded_eq (by decide) hhour.1 (by omega),
    padded_eq (by decide) hminute.1 (by omega), padded_eq (by decide) hsecond.1 (by omega),
    padded_eq (by decide) hmilli.1 (by omega), ← String.toList_inj]
  simp [FixedWidth.render, layout, CivilTime.fields]

/-! ## Reading and sorting -/

def CivilTime.ofFields : List ℕ → Option CivilTime
  | [year, month, day, hour, minute, second, milli] =>
      some ⟨⟨year, month, day⟩, hour, minute, second, milli⟩
  | _ => none

/-- The instant that a text of this layout denotes, if its fields are those of a civil
time. -/
def parseISO (text : String) : Option Int :=
  match (FixedWidth.parse layout text.toList).bind CivilTime.ofFields with
  | some c => if c.Valid then some (c.millis * 1000000) else none
  | none => none

/-- The form of a timestamp, with `d` for any digit. -/
structure IsTimestamp (text : String) : Prop where
  length : text.length = 24
  follows : FixedWidth.Follows "dddd-dd-ddTdd:dd:dd.dddZ".toList text.toList

/-- The text has the form and says when it was made, up to the millisecond. -/
structure Faithful (now : Int) (text : String) : Prop where
  form : IsTimestamp text
  parse : parseISO text = some (now / 1000000 * 1000000)

theorem CivilTime.ofFields_fields {c : CivilTime} (h : c.Valid) (hyear : 0 ≤ c.date.year) :
    CivilTime.ofFields c.fields = some c := by
  obtain ⟨hdate, hhour, hminute, hsecond, hmilli⟩ := h
  have hmonth := hdate.month_pos
  have hday := hdate.day_pos
  obtain ⟨⟨year, month, day⟩, hour, minute, second, milli⟩ := c
  simp only [ofFields, fields, Option.some.injEq, CivilTime.mk.injEq, Date.mk.injEq] at *
  omega

theorem faithful_timestampISO {now : Int} (h : InRange now) : Faithful now (timestampISO now) := by
  obtain ⟨hvalid, hmillis⟩ := civilTime_spec h.1
  have hlist : (timestampISO now).toList =
      FixedWidth.render layout (civilTime now).fields := by
    rw [timestampISO_eq h, String.toList_ofList]
  have hfollows := FixedWidth.follows_render h.fits (by decide)
  rw [← hlist] at hfollows
  refine ⟨⟨?_, hfollows⟩, ?_⟩
  · rw [← String.length_toList]
    exact hfollows.length_eq.symm
  · rw [parseISO, hlist, FixedWidth.parse_render h.fits, Option.bind_some,
      CivilTime.ofFields_fields hvalid h.year_nonneg]
    simp only [if_pos hvalid, hmillis]

theorem lt_of_fields_lt {a b : Int} (ha : InRange a) (hb : InRange b)
    (h : (civilTime a).fields < (civilTime b).fields) :
    timestampISO a < timestampISO b ∧ a / 1000000 < b / 1000000 := by
  obtain ⟨hvalid, hmillis⟩ := civilTime_spec ha.1
  obtain ⟨hvalid', hmillis'⟩ := civilTime_spec hb.1
  constructor
  · rw [timestampISO_eq ha, timestampISO_eq hb, String.lt_iff_toList_lt, String.toList_ofList,
      String.toList_ofList]
    exact FixedWidth.render_lt_render ha.fits hb.fits h
  · rw [← hmillis, ← hmillis']
    exact CivilTime.millis_lt_millis hvalid hvalid' ha.year_nonneg hb.year_nonneg h

/-- **Texts sort as milliseconds do.** -/
theorem timestampISO_lt_iff {a b : Int} (ha : InRange a) (hb : InRange b) :
    timestampISO a < timestampISO b ↔ a / 1000000 < b / 1000000 := by
  rcases lt_trichotomy (civilTime a).fields (civilTime b).fields with hlt | heq | hgt
  · obtain ⟨htext, hmillis⟩ := lt_of_fields_lt ha hb hlt
    exact iff_of_true htext hmillis
  · have htext : timestampISO a = timestampISO b := by
      rw [timestampISO_eq ha, timestampISO_eq hb, heq]
    have hparse := (faithful_timestampISO ha).parse
    rw [htext, (faithful_timestampISO hb).parse, Option.some.injEq] at hparse
    rw [htext]
    exact iff_of_false (lt_irrefl _) (by omega)
  · obtain ⟨htext, hmillis⟩ := lt_of_fields_lt hb ha hgt
    exact iff_of_false htext.asymm hmillis.asymm

/-- **Event timestamps are faithful and sort by time.** Two calls anywhere in the service,
each at its own reading of the clock. -/
theorem timestamps_faithful_sortable {cs cs' : ℕ → Choice} (w w' : World)
    (h : InRange (cs 0).system) (h' : InRange (cs' 0).system) :
    ∃ text text', (getCurrentTimestampISO.exec perform cs w).1 = .ok text ∧
      (getCurrentTimestampISO.exec perform cs' w').1 = .ok text' ∧
      Faithful (cs 0).system text ∧ Faithful (cs' 0).system text' ∧
      ((cs 0).system ≤ (cs' 0).system → text ≤ text') ∧
      (text ≤ text' → (cs 0).system / 1000000 ≤ (cs' 0).system / 1000000) := by
  refine ⟨timestampISO (cs 0).system, timestampISO (cs' 0).system, rfl, rfl,
    faithful_timestampISO h, faithful_timestampISO h', ?_, ?_⟩
  · intro hle
    rw [← not_lt, timestampISO_lt_iff h' h, not_lt]
    exact Int.ediv_le_ediv (by decide) hle
  · intro hle
    rwa [← not_lt, ← timestampISO_lt_iff h' h, not_lt]

/-- The last millisecond of a leap day and the first of the day after it. -/
theorem timestamps_faithful_sortable_leap :
    Faithful 1709251199999999999 "2024-02-29T23:59:59.999Z" ∧
      Faithful 1709251200000000000 "2024-03-01T00:00:00.000Z" ∧
      "2024-02-29T23:59:59.999Z" ≤ "2024-03-01T00:00:00.000Z" := by
  have hrange : InRange 1709251199999999999 := ⟨by decide, by decide⟩
  have hrange' : InRange 1709251200000000000 := ⟨by decide, by decide⟩
  have hlast : timestampISO 1709251199999999999 = "2024-02-29T23:59:59.999Z" := by decide +kernel
  have hfirst : timestampISO 1709251200000000000 = "2024-03-01T00:00:00.000Z" := by decide +kernel
  let w := World.boot Postgres.Database.empty Collection.empty []
  obtain ⟨text, text', htext, htext', hfaithful, hfaithful', hsorted, -⟩ :=
    @timestamps_faithful_sortable (fun _ => { system := 1709251199999999999 })
      (fun _ => { system := 1709251200000000000 }) w w hrange hrange'
  obtain rfl : text = _ := (Except.ok.inj htext).symm.trans hlast
  obtain rfl : text' = _ := (Except.ok.inj htext').symm.trans hfirst
  exact ⟨hfaithful, hfaithful', hsorted (by decide)⟩

end MyService.Event.EventProducer
