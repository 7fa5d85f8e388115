import CivicLoop.Foundation.Checked
import CivicLoop.Foundation.LocalTime
import Mathlib

/-!
# The rules of a time zone

The offset of a time zone is constant between transitions. A clock that is set back shows some wall times
twice, and one that is set forward leaves some out. The offset of a wall time is looked up by its `fold`:
with `fold=0` the old offset holds until the clock shows neither a wall time again nor one that was left
out, with `fold=1` the new offset holds as soon as it could.

A conversion refuses the wall times with two offsets and those that do not come back. If transitions are
farther apart than the changes of the offset, it accepts exactly the wall times of one instant.

## Main definitions

* `Zone.toUtc` : the checked conversion of a wall time.
* `Zone.IsTransition`, `Zone.turn` : the transitions, and the wall times at which a lookup turns to the new
  offset.
* `Zone.Rules` : how far the transitions are apart, and what a lookup finds.

## Main results

* `Zone.Rules.exists_earliest`, `Zone.Rules.exists_latest` : of a wall time that is shown, the two lookups
  find the offsets of its first and its last instant.
* `Zone.Rules.toUtc_eq_ok_iff` : a wall time is converted if and only if it is that of one instant.
-/

namespace CivicLoop

/-- The instants, and the wall times, that a datetime can have: those of the years 1 to 9999. -/
def InYears (t : ℤ) : Prop := IsDate (t / seconds 86400)

instance (t : ℤ) : Decidable (InYears t) := inferInstanceAs (Decidable (IsDate _))

/-- `ValueError`, and `OverflowError`. -/
inductive ConversionError
  | value
  | overflow
deriving DecidableEq

namespace Zone

variable (z : Zone)

/-- The instant of a wall time: its two offsets must be the same, and the wall time must come back. -/
def toUtc (w : ℤ) : Except ConversionError Time := do
  ensure (z.Unambiguous w) .value
  let utc := w - z.utcoffset w false
  ensure (InYears utc) .overflow
  ensure (InYears (z.wall utc)) .overflow
  ensure (z.wall utc = w) .value
  return utc

/-! ### Transitions -/

/-- The offset changes at an instant. -/
def IsTransition (t : ℤ) : Prop := z.offsetAt (t - 1) ≠ z.offsetAt t

/-- By how much the offset changes. -/
def change (t : ℤ) : ℤ := z.offsetAt t - z.offsetAt (t - 1)

/-- The wall time from which a lookup finds the new offset. -/
def turn (fold : Bool) (t : ℤ) : ℤ :=
  t + if fold then min (z.offsetAt (t - 1)) (z.offsetAt t) else max (z.offsetAt (t - 1)) (z.offsetAt t)

/-- Transitions are farther apart than the offset changes at each of them, and a lookup finds the offset after
the transitions from which it is the new one. -/
structure Rules : Prop where
  spaced : ∀ s t : ℤ, z.IsTransition s → z.IsTransition t → s < t → |z.change s| < t - s ∧ |z.change t| < t - s
  lookup : ∀ w fold, ∃ u : ℤ, (∀ t : ℤ, z.IsTransition t → (t ≤ u ↔ z.turn fold t ≤ w)) ∧
    z.utcoffset w fold = z.offsetAt u

variable {z}

theorem wall_sub (t : ℤ) : z.wall t - z.offsetAt t = t := by
  unfold wall
  omega

/-- The offset is constant where there is no transition. -/
theorem offsetAt_eq {a b : ℤ} (hab : a ≤ b) (h : ∀ t : ℤ, a < t → t ≤ b → ¬ z.IsTransition t) :
    z.offsetAt a = z.offsetAt b := by
  induction b, hab using Int.leInduction with
  | base => rfl
  | succ b hab ih =>
    have hlast := h (b + 1) (by omega) le_rfl
    rw [IsTransition, not_not, Int.add_sub_cancel] at hlast
    rw [ih fun t hat htb => h t hat (by omega), hlast]

/-- The last transition of a span in which there is one. -/
theorem exists_last {a b r : ℤ} (hr : z.IsTransition r) (har : a < r) (hrb : r ≤ b) :
    ∃ s, z.IsTransition s ∧ a < s ∧ s ≤ b ∧ z.offsetAt s = z.offsetAt b := by
  obtain ⟨s, ⟨hs, has, hsb⟩, hmax⟩ := Int.exists_greatest_of_bdd
    (P := fun s => z.IsTransition s ∧ a < s ∧ s ≤ b) ⟨b, fun s hs => hs.2.2⟩ ⟨r, hr, har, hrb⟩
  refine ⟨s, hs, has, hsb, offsetAt_eq hsb fun t hst htb ht => ?_⟩
  have hle := hmax t ⟨ht, by omega, htb⟩
  omega

/-- The first transition of a span in which there is one. -/
theorem exists_first {a b r : ℤ} (hr : z.IsTransition r) (har : a < r) (hrb : r ≤ b) :
    ∃ s, z.IsTransition s ∧ a < s ∧ s ≤ b ∧ z.offsetAt (s - 1) = z.offsetAt a := by
  obtain ⟨s, ⟨hs, has, hsb⟩, hmin⟩ := Int.exists_least_of_bdd
    (P := fun s => z.IsTransition s ∧ a < s ∧ s ≤ b) ⟨a, fun s hs => hs.2.1.le⟩ ⟨r, hr, har, hrb⟩
  refine ⟨s, hs, has, hsb, (offsetAt_eq (by omega) fun t hat hts ht => ?_).symm⟩
  have hle := hmin t ⟨ht, hat, by omega⟩
  omega

namespace Rules

/-- Later transitions turn a lookup at later wall times. -/
theorem turn_lt (h : z.Rules) (fold : Bool) {s r : ℤ} (hs : z.IsTransition s) (hr : z.IsTransition r)
    (hsr : s < r) : z.turn fold s < z.turn fold r := by
  induction hn : (r - s).toNat using Nat.strong_induction_on generalizing s with
  | _ n ih =>
    by_cases hmid : ∃ q, z.IsTransition q ∧ s < q ∧ q ≤ r - 1
    · obtain ⟨q, hq, hsq, hqr⟩ := hmid
      obtain ⟨q, hq, hsq, hqr, hoffset⟩ := exists_first hq hsq hqr
      -- from the transition next to `s` the induction goes on
      have hnext : z.turn fold s < z.turn fold q := by
        obtain ⟨hchange, hchange'⟩ := h.spaced s q hs hq hsq
        rw [abs_lt] at hchange hchange'
        unfold change at hchange hchange'
        unfold turn
        rw [hoffset] at hchange' ⊢
        cases fold <;> simp only [if_true, Bool.false_eq_true, if_false] <;> omega
      exact hnext.trans (ih (r - q).toNat (by omega) hq (by omega) rfl)
    · have hoffset : z.offsetAt s = z.offsetAt (r - 1) :=
        offsetAt_eq (by omega) fun q hsq hqr hq => hmid ⟨q, hq, hsq, hqr⟩
      obtain ⟨hchange, hchange'⟩ := h.spaced s r hs hr hsr
      rw [abs_lt] at hchange hchange'
      unfold change at hchange hchange'
      unfold turn
      rw [← hoffset] at hchange' ⊢
      cases fold <;> simp only [if_true, Bool.false_eq_true, if_false] <;> omega

/-- With `fold=0` no transition after an instant turns the lookup of its wall time. -/
theorem lt_turn (h : z.Rules) {t s : ℤ} (hs : z.IsTransition s) (hts : t < s) :
    z.wall t < z.turn false s := by
  obtain ⟨r, hr, htr, hrs, hoffset⟩ := exists_first hs hts le_rfl
  have hfirst : z.wall t < z.turn false r := by
    unfold wall turn
    rw [hoffset]
    simp only [Bool.false_eq_true, if_false]
    omega
  rcases hrs.eq_or_lt with rfl | hlt
  · exact hfirst
  · exact hfirst.trans (h.turn_lt false hr hs hlt)

/-- With `fold=1` every transition up to an instant turns the lookup of its wall time. -/
theorem turn_le (h : z.Rules) {t s : ℤ} (hs : z.IsTransition s) (hst : s ≤ t) :
    z.turn true s ≤ z.wall t := by
  obtain ⟨r, hr, hsr, hrt, hoffset⟩ := exists_last (a := s - 1) hs (by omega) hst
  have hlast : z.turn true r ≤ z.wall t := by
    unfold wall turn
    rw [hoffset]
    simp only [if_true]
    omega
  rcases (show s ≤ r by omega).eq_or_lt with rfl | hlt
  · exact hlast
  · exact ((h.turn_lt true hs hr hlt).trans_le hlast).le

/-- **The lookup with `fold=0`.** Of a wall time that is shown, it finds the offset of an instant that is not
after the given one. -/
theorem exists_earliest (h : z.Rules) (t : ℤ) :
    ∃ t₀, z.wall t₀ = z.wall t ∧ z.utcoffset (z.wall t) false = z.offsetAt t₀ ∧ z.offsetAt t ≤ z.offsetAt t₀ := by
  obtain ⟨u, hu, hoffset⟩ := h.lookup (z.wall t) false
  rw [hoffset]
  clear hoffset
  induction hn : (t - u).toNat using Nat.strong_induction_on generalizing t with
  | _ n ih =>
    have hafter (s : ℤ) (hs : z.IsTransition s) (hts : t < s) : ¬ s ≤ u := by
      rw [hu s hs, not_le]
      exact h.lt_turn hs hts
    by_cases hmid : ∃ q, z.IsTransition q ∧ u < q ∧ q ≤ t
    · obtain ⟨q, hq, huq, hqt⟩ := hmid
      obtain ⟨r, hr, hur, hrt, hsame⟩ := exists_last hq huq hqt
      -- before the last transition the clock showed the wall time already
      have hturn : z.wall t < z.turn false r := by
        rw [← not_le, ← hu r hr]
        omega
      have hback : z.change r < 0 ∧ t + z.change r < r := by
        unfold turn wall at hturn
        unfold change
        rw [← hsame] at hturn
        simp only [Bool.false_eq_true, if_false] at hturn
        omega
      have hbefore : z.offsetAt (t + z.change r) = z.offsetAt (r - 1) := by
        refine offsetAt_eq (by omega) fun q hlow hhigh hq => ?_
        have hspaced := (h.spaced q r hq hr (by omega)).2
        rw [abs_lt] at hspaced
        omega
      have hwall : z.wall (t + z.change r) = z.wall t := by
        unfold wall
        rw [hbefore, ← hsame, change]
        omega
      obtain ⟨t₀, ht₀, hu₀, hle⟩ := ih (t + z.change r - u).toNat (by omega) (t + z.change r)
        (by rw [hwall]; exact hu) rfl
      refine ⟨t₀, by rw [ht₀, hwall], hu₀, ?_⟩
      rw [hbefore] at hle
      have hchange := hback.1
      unfold change at hchange
      omega
    · refine ⟨t, rfl, ?_, le_rfl⟩
      rcases le_total u t with hut | htu
      · exact offsetAt_eq hut fun q huq hqt hq => hmid ⟨q, hq, huq, hqt⟩
      · exact (offsetAt_eq htu fun q htq hqu hq => hafter q hq htq hqu).symm

/-- **The lookup with `fold=1`.** Of a wall time that is shown, it finds the offset of an instant that is not
before the given one. -/
theorem exists_latest (h : z.Rules) (t : ℤ) :
    ∃ t₁, z.wall t₁ = z.wall t ∧ z.utcoffset (z.wall t) true = z.offsetAt t₁ ∧ z.offsetAt t₁ ≤ z.offsetAt t := by
  obtain ⟨u, hu, hoffset⟩ := h.lookup (z.wall t) true
  rw [hoffset]
  clear hoffset
  induction hn : (u - t).toNat using Nat.strong_induction_on generalizing t with
  | _ n ih =>
    have hbefore (s : ℤ) (hs : z.IsTransition s) (hst : s ≤ t) : s ≤ u := (hu s hs).2 (h.turn_le hs hst)
    by_cases hmid : ∃ q, z.IsTransition q ∧ t < q ∧ q ≤ u
    · obtain ⟨q, hq, htq, hqu⟩ := hmid
      obtain ⟨r, hr, htr, hru, hsame⟩ := exists_first hq htq hqu
      -- after the first transition the clock shows the wall time again
      have hturn : z.turn true r ≤ z.wall t := (hu r hr).1 hru
      have hback : z.change r < 0 ∧ r ≤ t - z.change r := by
        unfold turn wall at hturn
        unfold change
        rw [← hsame] at hturn
        simp only [if_true] at hturn
        omega
      have hafter : z.offsetAt r = z.offsetAt (t - z.change r) := by
        refine offsetAt_eq (by omega) fun q hlow hhigh hq => ?_
        have hspaced := (h.spaced r q hr hq hlow).1
        rw [abs_lt] at hspaced
        omega
      have hwall : z.wall (t - z.change r) = z.wall t := by
        unfold wall
        rw [← hafter, ← hsame, change]
        omega
      obtain ⟨t₁, ht₁, hu₁, hle⟩ := ih (u - (t - z.change r)).toNat (by omega) (t - z.change r)
        (by rw [hwall]; exact hu) rfl
      refine ⟨t₁, by rw [ht₁, hwall], hu₁, ?_⟩
      rw [← hafter] at hle
      have hchange := hback.1
      unfold change at hchange
      omega
    · refine ⟨t, rfl, ?_, le_rfl⟩
      rcases le_total u t with hut | htu
      · exact offsetAt_eq hut fun q huq hqt hq => absurd (hbefore q hq hqt) (by omega)
      · exact (offsetAt_eq htu fun q htq hqu hq => hmid ⟨q, hq, htq, hqu⟩).symm

/-- **When a wall time is unambiguous.** A wall time with one offset comes back if and only if it is that of
exactly one instant. -/
theorem existsUnique_iff (h : z.Rules) (w : ℤ) :
    (∃! t, z.wall t = w) ↔ z.Unambiguous w ∧ z.wall (w - z.utcoffset w false) = w := by
  constructor
  · rintro ⟨t, rfl, hunique⟩
    obtain ⟨t₀, ht₀, hu₀, -⟩ := h.exists_earliest t
    obtain ⟨t₁, ht₁, hu₁, -⟩ := h.exists_latest t
    obtain rfl := hunique t₀ ht₀
    obtain rfl := hunique t₁ ht₁
    refine ⟨hu₀.trans hu₁.symm, ?_⟩
    rw [hu₀, wall_sub]
  · rintro ⟨hone, hback⟩
    refine ⟨w - z.utcoffset w false, hback, fun t ht => ?_⟩
    subst ht
    obtain ⟨t₀, -, hu₀, hle₀⟩ := h.exists_earliest t
    obtain ⟨t₁, -, hu₁, hle₁⟩ := h.exists_latest t
    unfold Unambiguous at hone
    have hoffset : z.utcoffset (z.wall t) false = z.offsetAt t := by omega
    rw [hoffset, wall_sub]

/-- **The conversion.** A wall time whose offsets lead to the years 1 to 9999 is converted to an instant if
and only if this is the only one that reads as it. -/
theorem toUtc_eq_ok_iff (h : z.Rules) {w : ℤ} (hw : InYears w) (hutc : InYears (w - z.utcoffset w false))
    {t : Time} : z.toUtc w = .ok t ↔ z.wall t = w ∧ ∀ t', z.wall t' = w → t' = t := by
  simp only [toUtc, bind_eq_ok, ensure_eq_ok, pure_eq_ok]
  constructor
  · rintro ⟨-, hone, -, -, -, -, -, hback, rfl⟩
    obtain ⟨t, -, hunique⟩ := (h.existsUnique_iff w).2 ⟨hone, hback⟩
    exact ⟨hback, fun t' ht' => (hunique t' ht').trans (hunique _ hback).symm⟩
  · rintro ⟨ht, hunique⟩
    obtain ⟨hone, hback⟩ := (h.existsUnique_iff w).1 ⟨t, ht, hunique⟩
    exact ⟨(), hone, (), hutc, (), by rw [hback]; exact hw, (), hback, hunique _ hback⟩

end Rules

/-! ### Conversions -/

/-- A conversion finds the instant of a wall time that the clock shows once. -/
theorem localInstant_of_toUtc {w : ℤ} {t : Time} (h : z.toUtc w = .ok t) : z.localInstant w = some t := by
  simp only [toUtc, bind_eq_ok, ensure_eq_ok, pure_eq_ok] at h
  obtain ⟨-, hone, -, -, -, -, -, hback, rfl⟩ := h
  exact localInstant_eq_some_iff.2 ⟨hback, hone⟩

/-- The wall time of an instant is converted to it, if the clock shows it once. -/
theorem toUtc_wall {t : ℤ} (h : z.Unambiguous (z.wall t)) (ht : InYears t) (hwall : InYears (z.wall t)) :
    z.toUtc (z.wall t) = .ok t := by
  have hback : z.wall t - z.utcoffset (z.wall t) false = t := by rw [utcoffset_wall h, wall_sub]
  simp only [toUtc, bind_eq_ok, ensure_eq_ok, pure_eq_ok, hback]
  exact ⟨(), h, (), ht, (), hwall, (), trivial, trivial⟩

/-- A zone with one offset has no transitions. -/
theorem rules_fixedZone (offset : ℤ) (h : -seconds 86400 < offset ∧ offset < seconds 86400) :
    (fixedZone offset h).Rules where
  spaced _ _ hs := absurd rfl hs
  lookup _ _ := ⟨0, fun _ ht => absurd rfl ht, rfl⟩

end Zone

end CivicLoop
