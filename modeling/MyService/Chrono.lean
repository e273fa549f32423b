import Mathlib.Order.Basic

/-!
# std::chrono

Time points are integers: nanoseconds since the clock's epoch, the tick of
`steady_clock` and `system_clock`. `duration_cast` truncates toward zero.
-/

namespace MyService.Chrono

/-- Clock ticks in one second. -/
def ticksPerSecond : Int := 1000000000

/-- `duration_cast<seconds>`, as `system_clock::to_time_t` applies it. -/
def toTimeT (t : Int) : Int := Int.tdiv t ticksPerSecond

/-- `duration_cast<milliseconds>`. -/
def toMillis (t : Int) : Int := Int.tdiv t 1000000

/-- `duration_cast<microseconds>`. -/
def toMicros (t : Int) : Int := Int.tdiv t 1000

/-- The calendar fields of `std::tm` that `std::put_time` prints. -/
structure Tm where
  year : Int
  month : Int
  day : Int
  hour : Int
  minute : Int
  second : Int
deriving DecidableEq

/-- `std::gmtime`: proleptic Gregorian UTC. Years are counted from 1 March, so
that the leap day is the last of its year. -/
def gmtime (time : Int) : Tm :=
  let days := time / 86400
  let rest := time % 86400
  let shifted := days + 719468
  let era := shifted / 146097
  let doe := shifted % 146097
  let yoe := (doe - doe / 1460 + doe / 36524 - doe / 146096) / 365
  let doy := doe - (365 * yoe + yoe / 4 - yoe / 100)
  let mp := (5 * doy + 2) / 153
  let month := if mp < 10 then mp + 3 else mp - 9
  { year := yoe + era * 400 + (if month ≤ 2 then 1 else 0)
    month := month
    day := doy - (153 * mp + 2) / 5 + 1
    hour := rest / 3600
    minute := rest % 3600 / 60
    second := rest % 60 }

/-- A decimal field padded with zeros to `width`. -/
def padded (width : ℕ) (n : Int) : String :=
  let digits := toString n
  String.ofList (List.replicate (width - digits.length) '0') ++ digits

/-- The whole seconds of a time point in UTC, as `YYYY-MM-DDTHH:MM:SSZ`. -/
def isoSeconds (now : Int) : String :=
  let tm := gmtime (now / ticksPerSecond)
  padded 4 tm.year ++ "-" ++ padded 2 tm.month ++ "-" ++ padded 2 tm.day ++ "T" ++
    padded 2 tm.hour ++ ":" ++ padded 2 tm.minute ++ ":" ++ padded 2 tm.second ++ "Z"

end MyService.Chrono
