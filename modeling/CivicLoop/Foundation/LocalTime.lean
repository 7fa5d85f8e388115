import CivicLoop.Foundation.DateTime
import Mathlib

/-!
# Local times and time zones

A date is the number of its day, and a wall time the microseconds a clock would have counted since the
epoch if it had always shown what it shows now. A time zone gives the offset in force at an instant, and
the offset of a wall time, which a wall time that a clock shows twice has two of.

## Main definitions

* `dateText`, `timeText` : the texts of a date and of the minute of a day.
* `parseDate`, `parseTime` : the date and the minute of a text in this form.
* `Zone`, `Zone.localInstant` : a time zone, and the instant of a wall time.

## Main results

* `parseDate_dateText`, `parseTime_timeText` : the texts are read back.
* `Zone.localInstant_wall` : the wall time of an instant is read as this instant.
* `Zone.localInstant_eq_some_iff` : the instants that a wall time is read as.
-/

namespace CivicLoop

/-! ### The calendar -/

/-- The days of an era of 400 years before its year `y`. -/
def yearStart (y : ℤ) : ℤ := 365 * y + y / 4 - y / 100

/-- The year of a day of an era. -/
def yearOfEra (doe : ℤ) : ℤ := (doe - doe / 1460 + doe / 36524 - doe / 146096) / 365

theorem yearOfEra_mono {a b : ℤ} (h : a ≤ b) : yearOfEra a ≤ yearOfEra b := by
  have hfourth : b / 1460 - a / 1460 ≤ b - a := by omega
  have hcentury : a / 36524 - a / 36524 / 4 ≤ b / 36524 - b / 36524 / 4 := by omega
  have ha : a / 146096 = a / 36524 / 4 := by omega
  have hb : b / 146096 = b / 36524 / 4 := by omega
  unfold yearOfEra
  omega

theorem yearOfEra_yearStart :
    ∀ y : Fin 400, yearOfEra (yearStart y) = y ∧ yearOfEra (yearStart (y + 1) - 1) = y := by
  decide +kernel

/-- A day of an era is one of the 366 days at most of its year. -/
theorem yearStart_yearOfEra {doe : ℤ} (h₀ : 0 ≤ doe) (h₁ : doe < 146097) :
    0 ≤ doe - yearStart (yearOfEra doe) ∧ doe - yearStart (yearOfEra doe) ≤ 365 := by
  have hrange : 0 ≤ yearOfEra doe ∧ yearOfEra doe ≤ 399 := by
    unfold yearOfEra
    omega
  constructor
  · by_contra hlt
    -- the day would lie in an earlier year
    have hpos : 1 ≤ yearOfEra doe := by
      by_contra hzero
      have hyear : yearOfEra doe = 0 := by omega
      simp only [hyear, yearStart] at hlt
      omega
    obtain ⟨y, hy⟩ : ∃ y : Fin 400, (y : ℤ) + 1 = yearOfEra doe :=
      ⟨⟨(yearOfEra doe - 1).toNat, by omega⟩, by simp only; omega⟩
    have hmono := yearOfEra_mono (a := doe) (b := yearStart (y + 1) - 1) (by rw [hy]; omega)
    rw [(yearOfEra_yearStart y).2] at hmono
    omega
  · by_cases hlast : yearOfEra doe = 399
    · rw [hlast, yearStart]
      omega
    · by_contra hge
      -- the day would lie in a later year
      obtain ⟨y, hy⟩ : ∃ y : Fin 400, (y : ℤ) = yearOfEra doe + 1 :=
        ⟨⟨(yearOfEra doe + 1).toNat, by omega⟩, by simp only; omega⟩
      have hstart : yearStart y ≤ doe := by
        rw [hy]
        unfold yearStart at hge ⊢
        omega
      have hmono := yearOfEra_mono hstart
      rw [(yearOfEra_yearStart y).1] at hmono
      omega

/-- The day of the era of a date. -/
def dayOfEra (days : ℤ) : ℤ := days + 719468 - (days + 719468) / 146097 * 146097

/-- The day of the year of a date, counted from March. -/
def dayOfYear (days : ℤ) : ℤ := dayOfEra days - yearStart (yearOfEra (dayOfEra days))

theorem yearOfEra_bounds (days : ℤ) :
    0 ≤ yearOfEra (dayOfEra days) ∧ yearOfEra (dayOfEra days) ≤ 399 := by
  unfold yearOfEra dayOfEra
  omega

theorem dayOfYear_bounds (days : ℤ) : 0 ≤ dayOfYear days ∧ dayOfYear days ≤ 365 :=
  yearStart_yearOfEra (by unfold dayOfEra; omega) (by unfold dayOfEra; omega)

theorem month_ofDays (days : ℤ) :
    (Month.ofDays days).month =
      if (5 * dayOfYear days + 2) / 153 < 10 then (5 * dayOfYear days + 2) / 153 + 3
      else (5 * dayOfYear days + 2) / 153 - 9 := rfl

theorem year_ofDays (days : ℤ) :
    (Month.ofDays days).year = yearOfEra (dayOfEra days) + (days + 719468) / 146097 * 400 +
      if (Month.ofDays days).month ≤ 2 then 1 else 0 := rfl

theorem month_bounds (days : ℤ) : 1 ≤ (Month.ofDays days).month ∧ (Month.ofDays days).month ≤ 12 := by
  have hday := dayOfYear_bounds days
  rw [month_ofDays]
  split_ifs <;> omega

/-- The day of the month of a date. -/
def dayOfMonth (days : ℤ) : ℤ :=
  days - daysFromCivil (Month.ofDays days).year (Month.ofDays days).month 1 + 1

theorem dayOfMonth_eq (days : ℤ) :
    dayOfMonth days = dayOfYear days - (153 * ((5 * dayOfYear days + 2) / 153) + 2) / 5 + 1 := by
  have hday := dayOfYear_bounds days
  have hyear := yearOfEra_bounds days
  have hera : days + 719468 = (days + 719468) / 146097 * 146097 + dayOfEra days := by
    unfold dayOfEra
    omega
  have hsum : dayOfEra days = yearStart (yearOfEra (dayOfEra days)) + dayOfYear days := by
    unfold dayOfYear
    omega
  have hmonth := month_ofDays days
  simp only [dayOfMonth, daysFromCivil, year_ofDays]
  have hy : (if (Month.ofDays days).month ≤ 2 then
      yearOfEra (dayOfEra days) + (days + 719468) / 146097 * 400 +
        (if (Month.ofDays days).month ≤ 2 then 1 else 0) - 1
      else yearOfEra (dayOfEra days) + (days + 719468) / 146097 * 400 +
        if (Month.ofDays days).month ≤ 2 then 1 else 0) =
      yearOfEra (dayOfEra days) + (days + 719468) / 146097 * 400 := by
    split_ifs <;> omega
  have hmp : ((Month.ofDays days).month + 9) % 12 = (5 * dayOfYear days + 2) / 153 := by
    rw [hmonth]
    split_ifs <;> omega
  rw [hy, hmp]
  generalize yearOfEra (dayOfEra days) = yoe at *
  generalize (days + 719468) / 146097 = era at *
  have hquot : (yoe + era * 400) / 400 = era := by omega
  rw [hquot]
  unfold yearStart at hsum
  rw [show yoe + era * 400 - era * 400 = yoe by omega]
  omega

theorem dayOfMonth_bounds (days : ℤ) : 1 ≤ dayOfMonth days ∧ dayOfMonth days ≤ 31 := by
  have hday := dayOfYear_bounds days
  rw [dayOfMonth_eq]
  omega

/-! ### Texts -/

@[simp] theorem length_paddedDigits (width n : ℕ) : (paddedDigits width n).length = width := by
  induction width generalizing n with
  | zero => rfl
  | succ width ih => rw [paddedDigits, List.length_append, ih, List.length_singleton]

theorem digitsValue_append (cs : List Char) (c : Char) :
    digitsValue (cs ++ [c]) = 10 * digitsValue cs + (c.toNat - 48) := by
  rw [digitsValue, List.foldl_append]
  rfl

theorem toNat_digitChar : ∀ n : Fin 10, (Nat.digitChar n).toNat - 48 = n := by decide

/-- The digits of a number are read back. -/
theorem digitsValue_paddedDigits {width n : ℕ} (h : n < 10 ^ width) :
    digitsValue (paddedDigits width n) = n := by
  induction width generalizing n with
  | zero =>
    obtain rfl : n = 0 := by simpa using h
    rfl
  | succ width ih =>
    have hdigit := toNat_digitChar ⟨n % 10, Nat.mod_lt n (by decide)⟩
    simp only at hdigit
    rw [paddedDigits, digitsValue_append, ih (by rw [Nat.pow_succ] at h; omega), hdigit]
    omega

/-- `date.isoformat`. -/
def dateText (days : ℤ) : String :=
  String.ofList (paddedDigits 4 (Month.ofDays days).year.toNat ++
    '-' :: (paddedDigits 2 (Month.ofDays days).month.toNat ++
      '-' :: paddedDigits 2 (dayOfMonth days).toNat))

/-- The days that a date can have: the years 1 to 9999. -/
def IsDate (days : ℤ) : Prop := 1 ≤ (Month.ofDays days).year ∧ (Month.ofDays days).year ≤ 9999

instance (days : ℤ) : Decidable (IsDate days) := inferInstanceAs (Decidable (_ ∧ _))

/-- `date.fromisoformat`, of a text that `date.isoformat` writes. -/
def parseDate (s : String) : Option ℤ :=
  let cs := s.toList
  let days := daysFromCivil (digitsValue (cs.take 4)) (digitsValue ((cs.drop 5).take 2))
    (digitsValue (cs.drop 8))
  if IsDate days ∧ dateText days = s then some days else none

/-- `time.isoformat(timespec="minutes")`, of the minute of a day. -/
def timeText (minute : ℕ) : String :=
  String.ofList (paddedDigits 2 (minute / 60) ++ ':' :: paddedDigits 2 (minute % 60))

/-- `time.fromisoformat`, of a text of hours and minutes. -/
def parseTime (s : String) : Option ℕ :=
  let minute := 60 * digitsValue (s.toList.take 2) + digitsValue (s.toList.drop 3)
  if minute < 1440 ∧ timeText minute = s then some minute else none

theorem daysFromCivil_dayOfMonth (days : ℤ) :
    daysFromCivil (Month.ofDays days).year (Month.ofDays days).month (dayOfMonth days) = days := by
  have h : daysFromCivil (Month.ofDays days).year (Month.ofDays days).month (dayOfMonth days) =
      daysFromCivil (Month.ofDays days).year (Month.ofDays days).month 1 + dayOfMonth days - 1 := by
    simp only [daysFromCivil]
    omega
  rw [h]
  unfold dayOfMonth
  omega

theorem parseDate_dateText {days : ℤ} (h : IsDate days) : parseDate (dateText days) = some days := by
  have hmonth := month_bounds days
  have hday := dayOfMonth_bounds days
  have hyearText : digitsValue ((dateText days).toList.take 4) = (Month.ofDays days).year.toNat := by
    rw [dateText, String.toList_ofList, List.take_left' (length_paddedDigits 4 _)]
    exact digitsValue_paddedDigits (by have := h.2; omega)
  have hrest : (dateText days).toList.drop 5 = paddedDigits 2 (Month.ofDays days).month.toNat ++
      '-' :: paddedDigits 2 (dayOfMonth days).toNat := by
    rw [dateText, String.toList_ofList, List.append_cons]
    exact List.drop_left' (by simp)
  have hmonthText : digitsValue (((dateText days).toList.drop 5).take 2) =
      (Month.ofDays days).month.toNat := by
    rw [hrest, List.take_left' (length_paddedDigits 2 _)]
    exact digitsValue_paddedDigits (by omega)
  have hdayText : digitsValue ((dateText days).toList.drop 8) = (dayOfMonth days).toNat := by
    rw [show 8 = 5 + 3 from rfl, ← List.drop_drop, hrest, List.append_cons,
      List.drop_left' (by simp)]
    exact digitsValue_paddedDigits (by omega)
  have hdays : daysFromCivil (digitsValue ((dateText days).toList.take 4))
      (digitsValue (((dateText days).toList.drop 5).take 2)) (digitsValue ((dateText days).toList.drop 8)) =
        days := by
    rw [hyearText, hmonthText, hdayText, Int.toNat_of_nonneg (by have := h.1; omega),
      Int.toNat_of_nonneg (by omega), Int.toNat_of_nonneg (by omega), daysFromCivil_dayOfMonth]
  rw [parseDate]
  simp only [hdays, h, true_and, if_true]

theorem parseTime_timeText {minute : ℕ} (h : minute < 1440) : parseTime (timeText minute) = some minute := by
  have hhour : digitsValue ((timeText minute).toList.take 2) = minute / 60 := by
    rw [timeText, String.toList_ofList, List.take_left' (length_paddedDigits 2 _)]
    exact digitsValue_paddedDigits (by omega)
  have hminute : digitsValue ((timeText minute).toList.drop 3) = minute % 60 := by
    rw [timeText, String.toList_ofList, List.append_cons, List.drop_left' (by simp)]
    exact digitsValue_paddedDigits (by omega)
  have hsum : 60 * digitsValue ((timeText minute).toList.take 2) +
      digitsValue ((timeText minute).toList.drop 3) = minute := by
    rw [hhour, hminute]
    omega
  rw [parseTime]
  simp only [hsum, h, true_and, if_true]

/-! ### Time zones -/

/-- A time zone: the offset in force at an instant, and the offset of a wall time, with its `fold`. A
wall time that a clock shows has one of its two offsets in force. -/
structure Zone where
  offsetAt : Time → ℤ
  utcoffset : ℤ → Bool → ℤ
  shown : ∀ t, utcoffset (t + offsetAt t) false = offsetAt t ∨ utcoffset (t + offsetAt t) true = offsetAt t
  bounded : ∀ t, -seconds 86400 < offsetAt t ∧ offsetAt t < seconds 86400

namespace Zone

variable (z : Zone)

/-- The wall time of an instant. -/
def wall (t : Time) : ℤ := t + z.offsetAt t

/-- The wall time has one offset. -/
def Unambiguous (w : ℤ) : Prop := z.utcoffset w false = z.utcoffset w true

instance (w : ℤ) : Decidable (z.Unambiguous w) := inferInstanceAs (Decidable (_ = _))

/-- The instant of a wall time, unless the clock shows it twice or never. -/
def localInstant (w : ℤ) : Option Time :=
  if z.Unambiguous w ∧ z.wall (w - z.utcoffset w false) = w then some (w - z.utcoffset w false) else none

variable {z}

theorem utcoffset_wall {t : Time} (h : z.Unambiguous (z.wall t)) :
    z.utcoffset (z.wall t) false = z.offsetAt t := by
  rcases z.shown t with hshown | hshown
  · exact hshown
  · exact h.trans hshown

/-- A wall time is read as the instant at which the clock shows it, if it shows it once. -/
theorem localInstant_eq_some_iff {w : ℤ} {t : Time} :
    z.localInstant w = some t ↔ z.wall t = w ∧ z.Unambiguous w := by
  constructor
  · intro h
    unfold localInstant at h
    split_ifs at h with hw
    obtain rfl := Option.some.inj h
    exact ⟨hw.2, hw.1⟩
  · rintro ⟨rfl, hw⟩
    have ht : z.wall t - z.utcoffset (z.wall t) false = t := by
      rw [utcoffset_wall hw]
      unfold wall
      omega
    rw [localInstant, ht, if_pos ⟨hw, rfl⟩]

/-- The wall time of an instant is read as this instant. -/
theorem localInstant_wall {t : Time} (h : z.Unambiguous (z.wall t)) : z.localInstant (z.wall t) = some t :=
  localInstant_eq_some_iff.2 ⟨rfl, h⟩

end Zone

/-- A zone with one offset. -/
def fixedZone (offset : ℤ) (h : -seconds 86400 < offset ∧ offset < seconds 86400) : Zone where
  offsetAt _ := offset
  utcoffset _ _ := offset
  shown _ := .inl rfl
  bounded _ := h

/-! ### Instants in UTC -/

/-- The date of an instant in UTC. -/
def utcDate (t : Time) : ℤ := t / seconds 86400

/-- The minute of the day of an instant in UTC. -/
def utcMinute (t : Time) : ℕ := (t % seconds 86400 / minutes 1).toNat

/-- The wall time of a date and a minute of the day. -/
def wallTime (days : ℤ) (minute : ℕ) : ℤ := seconds 86400 * days + minutes minute

theorem utcMinute_lt (t : Time) : utcMinute t < 1440 := by
  simp only [utcMinute, minutes, seconds]
  omega

/-- An instant of whole minutes is its date and its minute. -/
theorem wallTime_utc {t : ℤ} (h : t % minutes 1 = 0) : wallTime (utcDate t) (utcMinute t) = t := by
  have hday : seconds 86400 = 86400000000 := rfl
  have hminute (n : ℤ) : minutes n = n * 60000000 := by
    simp only [minutes, seconds]
    omega
  have hnonneg : 0 ≤ t % 86400000000 / 60000000 := by omega
  rw [hminute, Int.one_mul] at h
  rw [wallTime, utcDate, utcMinute, hminute, hminute, hday, Int.one_mul, Int.toNat_of_nonneg hnonneg]
  omega

end CivicLoop
