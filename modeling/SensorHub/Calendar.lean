import SensorHub.Quantities

/-!
# Composing time values

`compose_time_value` builds a Unix time from calendar fields.  The calendar is
that of the date library: its date constructor throws for a year, month or day
outside the calendar, otherwise it determines the day.
-/

namespace SensorHub

/-- The date constructor: the number of days since the Unix epoch, or nothing
when it throws. -/
structure Calendar where
  unixDay : (year month day : ℕ) → Option ℤ
  month_outside : ∀ year month day,
    month = 0 ∨ 12 < month → unixDay year month day = none
  day_outside : ∀ year month day,
    day = 0 ∨ 31 < day → unixDay year month day = none

def daysInMonth (year month : ℕ) : ℕ :=
  match month with
  | 2 => if year % 4 = 0 ∧ (year % 100 ≠ 0 ∨ year % 400 = 0) then 29 else 28
  | 4 | 6 | 9 | 11 => 30
  | _ => 31

/-- The Gregorian calendar from the year 1400 on, by its day number. -/
def Calendar.gregorian : Calendar where
  unixDay := fun year month day =>
    if 1400 ≤ year ∧ year ≤ 9999 ∧ 1 ≤ month ∧ month ≤ 12 ∧
        1 ≤ day ∧ day ≤ daysInMonth year month then
      let a := (14 - month) / 12
      let y := year + 4800 - a
      let m := month + 12 * a - 3
      some (day + (153 * m + 2) / 5 + 365 * y + y / 4 - y / 100 + y / 400 -
        32045 - 2440588)
    else
      none
  month_outside := by
    intro year month day houtside
    rw [if_neg (by omega)]
  day_outside := by
    intro year month day houtside
    have hle : daysInMonth year month ≤ 31 := by
      unfold daysInMonth
      split <;> (try split) <;> omega
    rw [if_neg (by omega)]

example : Calendar.gregorian.unixDay 2020 4 22 = some 18374 := by decide

/-- Unix time of a point in the calendar, in seconds; `none` when the date
constructor throws. -/
def composeTimeValue {K : Type*} [ExactDouble K] (calendar : Calendar)
    (year month day hour minute second : ℕ) (nanosecond : ℤ) : Option K :=
  (calendar.unixDay year month day).map fun days =>
    let seconds : ℤ := days * 86400 + hour * 3600 + minute * 60 + second
    1 / 1000000 * ((seconds * 1000000 + nanosecond.tdiv 1000 : ℤ) : K)

end SensorHub
