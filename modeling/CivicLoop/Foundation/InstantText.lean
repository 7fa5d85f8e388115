import CivicLoop.Foundation.JsonText
import CivicLoop.Foundation.LocalTime

/-!
# An instant is read back from its text

`isoformat` writes two digits for each field but the year and the fraction, and the fraction only if there
is one. A date has a day that its month has, so `fromisoformat` accepts what was written.

## Main definitions

* `Instant` : an instant of the years that a datetime can have.

## Main results

* `dayOfMonth_le` : the day of a date is one of its month.
* `parseDateTime_isoformat` : the text of an instant is read as this instant.
-/

namespace CivicLoop

/-! ### The length of a month -/

/-- A day of the year 366 days long is in a leap year, counted from March. -/
theorem dayOfYear_le (days : ℤ) :
    dayOfYear days ≤ 364 ∨
      (yearOfEra (dayOfEra days) + 1) % 4 = 0 ∧
        ((yearOfEra (dayOfEra days) + 1) % 100 ≠ 0 ∨ (yearOfEra (dayOfEra days) + 1) % 400 = 0) := by
  have hyear := yearOfEra_bounds days
  by_cases hlast : yearOfEra (dayOfEra days) = 399
  · rw [hlast]
    exact .inr ⟨rfl, .inr rfl⟩
  · obtain ⟨y, hy⟩ : ∃ y : Fin 400, (y : ℤ) = yearOfEra (dayOfEra days) + 1 :=
      ⟨⟨(yearOfEra (dayOfEra days) + 1).toNat, by omega⟩, by simp only; omega⟩
    have hnext : dayOfEra days < yearStart (yearOfEra (dayOfEra days) + 1) := by
      by_contra hge
      -- the day would lie in the next year
      have hmono := yearOfEra_mono (not_lt.1 hge)
      rw [← hy, (yearOfEra_yearStart y).1] at hmono
      omega
    have hsum : dayOfEra days = yearStart (yearOfEra (dayOfEra days)) + dayOfYear days := by
      unfold dayOfYear
      omega
    generalize yearOfEra (dayOfEra days) = yoe at *
    unfold yearStart at hnext hsum
    omega

/-- The day of a date is one of its month. -/
theorem dayOfMonth_le {days : ℤ} (h : 0 ≤ (Month.ofDays days).year) :
    (dayOfMonth days).toNat ≤
      daysInMonth (Month.ofDays days).year.toNat (Month.ofDays days).month.toNat := by
  have hday := dayOfYear_bounds days
  have hleap := dayOfYear_le days
  have hyear := yearOfEra_bounds days
  have hmonth := month_ofDays days
  have hof := year_ofDays days
  have heq := dayOfMonth_eq days
  generalize hm : (Month.ofDays days).month = month at *
  generalize hy : (Month.ofDays days).year = year at *
  have hnonneg : 0 ≤ year := h
  generalize dayOfMonth days = day at *
  generalize dayOfYear days = doy at *
  generalize yearOfEra (dayOfEra days) = yoe at *
  generalize (days + 719468) / 146097 = era at *
  unfold daysInMonth
  split_ifs with hfebruary hleapYear hshort
  · -- a leap day at most
    split_ifs at hmonth <;> omega
  · -- the year is not a leap year, so the leap day is none of its days
    simp only [isLeapYear, Bool.and_eq_true, Bool.or_eq_true, beq_iff_eq, bne_iff_ne] at hleapYear
    split_ifs at hmonth hof <;> omega
  · have hmonths : month = 4 ∨ month = 6 ∨ month = 9 ∨ month = 11 := by
      simp only [List.contains_eq_mem, List.mem_cons, List.not_mem_nil, or_false, decide_eq_true_eq] at hshort
      omega
    split_ifs at hmonth <;> omega
  · split_ifs at hmonth <;> omega

/-! ### Digits -/

theorem asciiDigit_digitChar : ∀ n : Fin 10, asciiDigit (Nat.digitChar n) = some n.1 := by decide

theorem isDigit_digitChar : ∀ n : Fin 10, (Nat.digitChar n).isDigit = true := by decide

theorem isDigit_paddedDigits (width n : ℕ) : ∀ c ∈ paddedDigits width n, c.isDigit = true := by
  induction width generalizing n with
  | zero => simp [paddedDigits]
  | succ width ih =>
    intro c hc
    rw [paddedDigits, List.mem_append, List.mem_singleton] at hc
    obtain hc | rfl := hc
    · exact ih _ c hc
    · exact isDigit_digitChar ⟨n % 10, Nat.mod_lt n (by decide)⟩

/-- Two digits are read back. -/
theorem exists_twoDigits {n : ℕ} (h : n < 100) :
    ∃ a b, paddedDigits 2 n = [a, b] ∧ twoDigits (fun _ => true) a b = some n := by
  refine ⟨_, _, rfl, ?_⟩
  have htens := asciiDigit_digitChar ⟨n / 10 % 10, Nat.mod_lt _ (by decide)⟩
  have hunits := asciiDigit_digitChar ⟨n % 10, Nat.mod_lt n (by decide)⟩
  simp only at htens hunits
  simp only [twoDigits, htens, hunits, if_true, Option.bind_eq_bind, Option.bind_some, Option.pure_def,
    Option.some.injEq]
  omega

theorem paddedDigits_four (n : ℕ) : paddedDigits 4 n = paddedDigits 2 (n / 100) ++ paddedDigits 2 n := by
  simp [paddedDigits, Nat.div_div_eq_div_mul]

theorem paddedDigits_mod (n : ℕ) : paddedDigits 2 n = paddedDigits 2 (n % 100) := by
  have htens : n % 100 / 10 % 10 = n / 10 % 10 := by omega
  have hunits : n % 100 % 10 = n % 10 := by omega
  simp [paddedDigits, htens, hunits]

/-- The fraction of a second is read back. -/
theorem parseFraction_paddedDigits {n : ℕ} (h : n < 1000000) :
    parseFraction ((if n = 0 then [] else '.' :: paddedDigits 6 n) ++ "+00:00".toList) =
      some (n, "+00:00".toList) := by
  split_ifs with hzero
  · rw [hzero]
    rfl
  · have hzone : ∀ c, "+00:00".toList.head? = some c → c.isDigit = false := by
      rintro c ⟨⟩
      rfl
    obtain ⟨htake, hdrop⟩ := Json.takeWhile_append_of_all (isDigit_paddedDigits 6 n) hzone
    have hne : paddedDigits 6 n ≠ [] := List.ne_nil_of_length_pos (by simp)
    rw [List.cons_append, parseFraction, htake, hdrop, if_neg hne,
      List.take_left' (length_paddedDigits 6 n), digitsValue_paddedDigits h]

/-! ### Instants -/

/-- An aware datetime: an instant of the years 1 to 9999. -/
structure Instant where
  time : Time
  isDate : IsDate (time / seconds 86400)

namespace Instant

theorem ext_iff {a b : Instant} : a = b ↔ a.time = b.time := by
  cases a
  cases b
  simp

instance : DecidableEq Instant := fun _ _ => decidable_of_iff _ ext_iff.symm

instance : LinearOrder Instant :=
  LinearOrder.lift' Instant.time fun _ _ h => ext_iff.2 h

end Instant

/-- The fields of a text in UTC are read back. -/
theorem parseDateTime_fields {year month day hour minute second fraction : ℕ} (hyear : 1 ≤ year ∧ year ≤ 9999)
    (hmonth : 1 ≤ month ∧ month ≤ 12) (hday : 1 ≤ day ∧ day ≤ 31) (hle : day ≤ daysInMonth year month)
    (hhour : hour ≤ 23) (hminute : minute ≤ 59) (hsecond : second ≤ 59) (hfraction : fraction < 1000000) :
    parseDateTime (String.ofList (paddedDigits 4 year ++ '-' :: paddedDigits 2 month ++
      '-' :: paddedDigits 2 day ++ 'T' :: paddedDigits 2 hour ++ ':' :: paddedDigits 2 minute ++
      ':' :: paddedDigits 2 second ++ (if fraction = 0 then [] else '.' :: paddedDigits 6 fraction) ++
      "+00:00".toList)) =
      some (seconds (daysFromCivil year month day * 86400 + hour * 3600 + minute * 60 + second) + fraction) := by
  obtain ⟨y₁, y₂, hy, hy'⟩ := exists_twoDigits (n := year / 100) (by omega)
  obtain ⟨y₃, y₄, hz, hz'⟩ := exists_twoDigits (n := year % 100) (by omega)
  obtain ⟨m₁, m₂, hm, hm'⟩ := exists_twoDigits (n := month) (by omega)
  obtain ⟨d₁, d₂, hd, hd'⟩ := exists_twoDigits (n := day) (by omega)
  obtain ⟨h₁, h₂, hh, hh'⟩ := exists_twoDigits (n := hour) (by omega)
  obtain ⟨n₁, n₂, hn, hn'⟩ := exists_twoDigits (n := minute) (by omega)
  obtain ⟨s₁, s₂, hs, hs'⟩ := exists_twoDigits (n := second) (by omega)
  have hfour : paddedDigits 4 year = [y₁, y₂, y₃, y₄] := by
    rw [paddedDigits_four, hy, paddedDigits_mod, hz]
    rfl
  have hyears : 100 * (year / 100) + year % 100 = year := Nat.div_add_mod year 100
  rw [hfour, hm, hd, hh, hn, hs, List.append_assoc _ _ "+00:00".toList]
  unfold parseDateTime
  simp only [String.toList_ofList, List.cons_append, List.nil_append, hy', hz', hm', hd', hh', hn', hs',
    parseFraction_paddedDigits hfraction, hyears, Option.bind_eq_bind, Option.bind_some]
  rw [show parseOffset "+00:00".toList = some 0 from by decide, Option.bind_some, if_pos ⟨hyear.1, hmonth.1,
    hmonth.2, hday.1, hle, .inl hhour, hminute, hsecond⟩, Int.sub_zero]

/-- An instant is its date and a time of the day. -/
theorem exists_timeOfDay (t : ℤ) : ∃ ofDay : ℕ, ofDay < 86400000000 ∧
    (t - seconds 86400 * (t / seconds 86400)).toNat = ofDay ∧ t = seconds 86400 * (t / seconds 86400) + ofDay := by
  have hday : seconds 86400 = 86400000000 := rfl
  refine ⟨(t - seconds 86400 * (t / seconds 86400)).toNat, ?_, rfl, ?_⟩ <;> rw [hday] <;> omega

/-- The text of an instant is read as this instant. -/
theorem parseDateTime_isoformat {t : Time} (h : IsDate (t / seconds 86400)) :
    parseDateTime (isoformat t) = some t := by
  have hmonth := month_bounds (t / seconds 86400)
  have hday := dayOfMonth_bounds (t / seconds 86400)
  have hle := @dayOfMonth_le (t / seconds 86400) (by have := h.1; omega)
  have hdays := daysFromCivil_dayOfMonth (t / seconds 86400)
  obtain ⟨hyear, hyear'⟩ := h
  obtain ⟨ofDay, hlt, hofDay, hsum⟩ := exists_timeOfDay t
  rw [isoformat]
  simp only
  rw [show t / seconds 86400 - daysFromCivil (Month.ofDays (t / seconds 86400)).year
    (Month.ofDays (t / seconds 86400)).month 1 + 1 = dayOfMonth (t / seconds 86400) from rfl, hofDay]
  generalize t / seconds 86400 = days at *
  rw [parseDateTime_fields (by omega) (by omega) (by omega) hle (by omega) (by omega) (by omega) (by omega),
    Int.toNat_of_nonneg (by omega), Int.toNat_of_nonneg (by omega), Int.toNat_of_nonneg (by omega), hdays,
    Option.some.injEq, hsum]
  simp only [seconds]
  omega

end CivicLoop
