import CivicLoop.Foundation.Calendar
import CivicLoop.Foundation.PyText

/-!
# The text of an instant

An aware datetime is written in UTC and read with any offset of whole minutes, as `isoformat` and
`fromisoformat` do. Only the form that a time stamp of a message has is read; fractions of a second
are cut to microseconds, and hour 24 is midnight of the next day.

## Main definitions

* `isoformat` : the text of an instant.
* `parseDateTime` : the instant of a text.
-/

namespace CivicLoop

/-- The days from the epoch to a date of the proleptic Gregorian calendar. -/
def daysFromCivil (year month day : ℤ) : ℤ :=
  let y := if month ≤ 2 then year - 1 else year
  let era := y / 400
  let yoe := y - era * 400
  let mp := (month + 9) % 12
  let doy := (153 * mp + 2) / 5 + day - 1
  era * 146097 + (yoe * 365 + yoe / 4 - yoe / 100 + doy) - 719468

/-- The decimal digits of a number, `width` of them. -/
def paddedDigits : ℕ → ℕ → List Char
  | 0, _ => []
  | width + 1, n => paddedDigits width (n / 10) ++ [Nat.digitChar (n % 10)]

/-- `datetime.isoformat`, of an instant in UTC. -/
def isoformat (t : Time) : String :=
  let days := t / seconds 86400
  let month := Month.ofDays days
  let day := days - daysFromCivil month.year month.month 1 + 1
  let ofDay := (t - seconds 86400 * days).toNat
  let second := ofDay / 1000000
  let two n := paddedDigits 2 n
  let fraction := ofDay % 1000000
  String.ofList (paddedDigits 4 month.year.toNat ++ '-' :: two month.month.toNat ++
    '-' :: two day.toNat ++ 'T' :: two (second / 3600) ++ ':' :: two (second / 60 % 60) ++
    ':' :: two (second % 60) ++ (if fraction = 0 then [] else '.' :: paddedDigits 6 fraction) ++
    "+00:00".toList)

/-- The number that ASCII digits stand for. -/
def digitsValue (cs : List Char) : ℕ := cs.foldl (fun n c => 10 * n + (c.toNat - 48)) 0

/-- The offset of a text, in seconds. -/
def parseOffset : List Char → Option ℤ
  | ['Z'] => some 0
  | [sign, h₁, h₂, ':', m₁, m₂] => do
    let hours ← twoDigits (fun _ => true) h₁ h₂
    let minutes ← twoDigits (fun _ => true) m₁ m₂
    if hours ≤ 23 ∧ minutes ≤ 59 then
      if sign = '+' then some (hours * 3600 + minutes * 60)
      else if sign = '-' then some (-(hours * 3600 + minutes * 60))
      else none
    else none
  | _ => none

/-- The fraction of a second in microseconds, and what follows it. -/
def parseFraction : List Char → Option (ℕ × List Char)
  | '.' :: cs =>
    let digits := cs.takeWhile Char.isDigit
    if digits = [] then none
    else some (digitsValue ((digits ++ "000000".toList).take 6), cs.dropWhile Char.isDigit)
  | cs => some (0, cs)

/-- `datetime.fromisoformat`, of a text of the form `YYYY-MM-DDTHH:MM:SS[.f]` with an offset. -/
def parseDateTime (s : String) : Option Time :=
  match s.toList with
  | y₁ :: y₂ :: y₃ :: y₄ :: '-' :: m₁ :: m₂ :: '-' :: d₁ :: d₂ :: 'T' :: h₁ :: h₂ :: ':' :: n₁ ::
      n₂ :: ':' :: s₁ :: s₂ :: rest => do
    let century ← twoDigits (fun _ => true) y₁ y₂
    let year ← twoDigits (fun _ => true) y₃ y₄
    let year := 100 * century + year
    let month ← twoDigits (fun _ => true) m₁ m₂
    let day ← twoDigits (fun _ => true) d₁ d₂
    let hour ← twoDigits (fun _ => true) h₁ h₂
    let minute ← twoDigits (fun _ => true) n₁ n₂
    let second ← twoDigits (fun _ => true) s₁ s₂
    let (fraction, rest) ← parseFraction rest
    let offset ← parseOffset rest
    if 1 ≤ year ∧ 1 ≤ month ∧ month ≤ 12 ∧ 1 ≤ day ∧ day ≤ daysInMonth year month ∧
        (hour ≤ 23 ∨ hour = 24 ∧ minute = 0 ∧ second = 0 ∧ fraction = 0) ∧ minute ≤ 59 ∧
        second ≤ 59 then
      some (seconds (daysFromCivil year month day * 86400 + hour * 3600 + minute * 60 + second -
        offset) + fraction)
    else none
  | _ => none

-- 2026-10-09T12:30:00.250000Z, written in UTC and read with an offset.
example : isoformat 1791549000250000 = "2026-10-09T12:30:00.250000+00:00" ∧
    parseDateTime "2026-10-09T14:30:00.25+02:00" = some 1791549000250000 := by
  decide +kernel

end CivicLoop
