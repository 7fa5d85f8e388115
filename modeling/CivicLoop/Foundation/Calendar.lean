import Mathlib

/-!
# Instants and calendar months

An aware datetime is an instant, counted in microseconds from 1970-01-01 00:00 UTC. The calendar
enters only through the month in which an instant falls, in the proleptic Gregorian calendar.

## Main definitions

* `Time`, `Time.posix` : an instant, and its whole seconds.
* `Month` : a calendar month, standing for the date of its first day.
* `Month.ofTime` : the UTC month of an instant.
-/

namespace CivicLoop

/-- An instant, in microseconds from the epoch. -/
abbrev Time := ℤ

/-- A span of whole seconds, in microseconds. -/
def seconds (n : ℤ) : ℤ := n * 1000000

/-- A span of whole minutes, in microseconds. -/
def minutes (n : ℤ) : ℤ := seconds (60 * n)

/-- `int(t.timestamp())`, the whole seconds of an instant. -/
def Time.posix (t : Time) : ℤ := t.tdiv 1000000

theorem Time.posix_seconds (n : ℤ) : Time.posix (seconds n) = n :=
  Int.mul_tdiv_cancel n (by decide)

/-- Time does not run backwards. -/
theorem Time.le_wait (t : Time) (wait : Nat) : t ≤ t + wait :=
  Int.le_add_of_nonneg_right (Int.natCast_nonneg wait)

/-- A calendar month. -/
structure Month where
  year : ℤ
  month : ℤ
deriving DecidableEq, Repr

/-- The month of a day counted from the epoch.

Years are counted from March, in eras of 400 years, so that the leap day is the last of its year:
`doe` is the day of the era, `yoe` the year of the era, `doy` the day of the year and `mp` the month
counted from March. -/
def Month.ofDays (days : ℤ) : Month :=
  let z := days + 719468
  let era := z / 146097
  let doe := z - era * 146097
  let yoe := (doe - doe / 1460 + doe / 36524 - doe / 146096) / 365
  let doy := doe - (365 * yoe + yoe / 4 - yoe / 100)
  let mp := (5 * doy + 2) / 153
  let m := if mp < 10 then mp + 3 else mp - 9
  { year := yoe + era * 400 + if m ≤ 2 then 1 else 0, month := m }

/-- The UTC month of an instant. -/
def Month.ofTime (t : Time) : Month := Month.ofDays (t / seconds 86400)

-- 2024-02-29T23:59:59.999999Z is in February, the next microsecond in March.
example : Month.ofTime 1709251199999999 = ⟨2024, 2⟩ ∧ Month.ofTime 1709251200000000 = ⟨2024, 3⟩ := by
  decide

end CivicLoop
