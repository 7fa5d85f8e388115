import CivicLoop.LaunchLoop.OwnerFacts
import CivicLoop.LaunchLoop.PackageStatus

/-!
# The readiness of an owner's event

The package of an owner's event checks each fact alone, and then all of them together. Every fact that is
empty or refused is asked for, and the times too when only they do not fit together. A check that refuses a
fact raises `ValueError`, which the package catches. A conversion that leaves the calendar raises
`OverflowError`, which it does not.

## Main definitions

* `Confirmed`, `TimesRefused`, `Ready` : which facts of a snapshot are accepted, alone and together.
* `OwnerReadiness` : what a package reports of a snapshot.
* `InCalendar` : the conversions of the times stay in the calendar.

## Main results

* `validateFacts_single` : one fact is accepted or refused by itself, and never raises.
* `prepareOwnerPackage_iff` : a package is made, and reports the readiness, if and only if the times of the
  snapshot stay in the calendar.
-/

namespace CivicLoop

/-! ### Conversions that leave the calendar -/

namespace Zone

variable {z : Zone} {w : ℤ}

/-- A wall time with one offset that leads out of the calendar, or whose instant does. -/
def Overflows (z : Zone) (w : ℤ) : Prop :=
  z.Unambiguous w ∧ ¬ (InYears (w - z.utcoffset w false) ∧ InYears (z.wall (w - z.utcoffset w false)))

/-- A wall time that is converted. -/
def Accepts (z : Zone) (w : ℤ) : Prop := ∃ t, z.toUtc w = .ok t

theorem toUtc_eq_overflow : z.toUtc w = .error .overflow ↔ z.Overflows w := by
  unfold toUtc Overflows ensure
  by_cases hone : z.Unambiguous w
  · by_cases hutc : InYears (w - z.utcoffset w false)
    · by_cases hwall : InYears (z.wall (w - z.utcoffset w false))
      · simp only [hone, hutc, hwall, if_true, ok_bind]
        split_ifs <;> simp [pure, Except.pure]
      · simp [hone, hutc, hwall]
    · simp [hone, hutc]
  · simp [hone]

/-- A conversion that does not overflow converts or refuses. -/
theorem toUtc_cases (h : ¬ z.Overflows w) : z.Accepts w ∨ z.toUtc w = .error .value := by
  cases hw : z.toUtc w with
  | ok t => exact .inl ⟨t, hw⟩
  | error e =>
    cases e with
    | value => exact .inr rfl
    | overflow => exact absurd (toUtc_eq_overflow.1 hw) h

end Zone

namespace LaunchLoop

variable {zones : String → Option Zone} {isWebUrl : String → Bool}

/-! ### One fact -/

section Single

variable (zones isWebUrl)

/-- The text of a fact passes the check of its field. -/
def FactOk (key text : String) : Prop :=
  text = "" ∨ (key = "date" → (parseDate text).isSome) ∧ (key = "timezone" → (zones text).isSome) ∧
    (key = "start_time" → (parseTime text).isSome) ∧ (key = "end_time" → (parseTime text).isSome) ∧
    (key = "signup_url" → isWebUrl text)

instance (key text : String) : Decidable (FactOk zones isWebUrl key text) := inferInstanceAs (Decidable (_ ∨ _))

/-- The text of a fact that is accepted alone. -/
def factText? (key : String) (raw : Message) : Option String :=
  match raw with
  | .str t =>
    if t.plain.length ≤ factLimit key ∧ FactOk zones isWebUrl key (strip t.plain) then some (strip t.plain)
    else none
  | _ => none

end Single

theorem factOf_single (key text k : String) : factOf [(key, text)] k = if k = key then text else "" := by
  unfold factOf
  rw [List.lookup_cons]
  by_cases h : k = key
  · subst h
    simp
  · rw [if_neg h, beq_false_of_ne h]
    rfl

/-- The checks of the single facts pass if each text passes the check of its field. -/
theorem checkFacts_eq_ok_iff {facts : List (String × String)} {u : Unit} :
    checkFacts zones isWebUrl facts = .ok u ↔ ∀ key, FactOk zones isWebUrl key (factOf facts key) := by
  simp only [checkFacts, bind_eq_ok, ensure_eq_ok]
  constructor
  · rintro ⟨-, hdate, -, hzone, -, hstart, -, hend, hurl⟩ key
    by_cases hempty : factOf facts key = ""
    · exact .inl hempty
    · refine .inr ⟨?_, ?_, ?_, ?_, ?_⟩ <;> rintro rfl
      · exact hdate.resolve_left hempty
      · exact hzone.resolve_left hempty
      · exact hstart.resolve_left hempty
      · exact hend.resolve_left hempty
      · exact hurl.resolve_left hempty
  · intro h
    refine ⟨(), ?_, (), ?_, (), ?_, (), ?_, ?_⟩
    · exact (h "date").imp_right fun hk => hk.1 rfl
    · exact (h "timezone").imp_right fun hk => hk.2.1 rfl
    · exact (h "start_time").imp_right fun hk => hk.2.2.1 rfl
    · exact (h "end_time").imp_right fun hk => hk.2.2.2.1 rfl
    · exact (h "signup_url").imp_right fun hk => hk.2.2.2.2 rfl

theorem checkFacts_error {facts : List (String × String)} {e : ConversionError}
    (h : checkFacts zones isWebUrl facts = .error e) : e = .value := by
  unfold checkFacts ensure at h
  split_ifs at h <;> first | exact (Except.error.inj h).symm | cases h

/-- One fact says nothing of when the event is. -/
theorem not_timed_single (key text : String) : ¬ Timed [(key, text)] := by
  simp only [Timed, factOf_single]
  rintro ⟨hdate, hzone, -, -⟩
  split_ifs at hdate hzone with hd hz
  · exact absurd (hd.trans hz.symm) (by decide)
  · exact hzone rfl
  · exact hdate rfl
  · exact hdate rfl

/-- **One fact.** A fact is accepted or refused by itself, and nothing else is raised. -/
theorem validateFacts_single {key : String} (hkey : key ∈ factFields) (raw : Message) :
    validateFacts zones isWebUrl (.obj [(key, raw)]) =
      match factText? zones isWebUrl key raw with
      | some text => .ok [(key, text)]
      | none => .error .value := by
  have hfield : factFields.contains key = true := List.elem_eq_true_of_mem hkey
  have hall : ([(key, raw)].all fun item => factFields.contains item.1) = true := by
    rw [List.all_cons, hfield]
    rfl
  cases raw with
  | str t =>
    by_cases hlength : t.plain.length ≤ factLimit key
    · have hsingle : singleFacts zones isWebUrl (.obj [(key, .str t)]) =
          checkFacts zones isWebUrl [(key, strip t.plain)] >>= fun _ => .ok [(key, strip t.plain)] := by
        simp only [singleFacts, fetch, ok_bind, ensure_bind hall, List.mapM_cons, List.mapM_nil, strippedFact,
          if_pos hlength, pure_bind]
        rfl
      have htimes : checkTimes zones [(key, strip t.plain)] = .ok () := if_neg (not_timed_single _ _)
      rw [validateFacts, hsingle]
      have hok : (∀ k, FactOk zones isWebUrl k (factOf [(key, strip t.plain)] k)) ↔
          FactOk zones isWebUrl key (strip t.plain) := by
        constructor
        · intro h
          simpa [factOf_single] using h key
        · intro h k
          rw [factOf_single]
          split_ifs with heq
          · rw [heq]
            exact h
          · exact .inl rfl
      cases hcheck : checkFacts zones isWebUrl [(key, strip t.plain)] with
      | ok u =>
        have hfact := hok.1 (checkFacts_eq_ok_iff.1 hcheck)
        simp only [factText?, if_pos (And.intro hlength hfact), ok_bind, htimes]
        rfl
      | error e =>
        obtain rfl := checkFacts_error hcheck
        have hfact : ¬ FactOk zones isWebUrl key (strip t.plain) := fun hfact => by
          have hpass : checkFacts zones isWebUrl [(key, strip t.plain)] = .ok () :=
            checkFacts_eq_ok_iff.2 (hok.2 hfact)
          rw [hpass] at hcheck
          cases hcheck
        have hboth : ¬ (t.plain.length ≤ factLimit key ∧ FactOk zones isWebUrl key (strip t.plain)) :=
          fun h => hfact h.2
        simp only [factText?, if_neg hboth, error_bind]
    · have hboth : ¬ (t.plain.length ≤ factLimit key ∧ FactOk zones isWebUrl key (strip t.plain)) :=
        fun h => hlength h.1
      simp only [factText?, if_neg hboth, validateFacts, singleFacts, fetch, ok_bind, ensure_bind hall,
        List.mapM_cons, strippedFact, if_neg hlength, error_bind]
  | _ =>
    simp only [factText?, validateFacts, singleFacts, fetch, ok_bind, ensure_bind hall, List.mapM_cons,
      strippedFact, error_bind]

/-! ### The facts together -/

section Together

variable (zones isWebUrl)

/-- The text of a fact of a snapshot, when it is accepted alone. -/
def ownerText (snapshot : Message) (key : String) : Option String :=
  factText? zones isWebUrl key ((snapshot.get? key).getD (.lit ""))

/-- The texts of some facts, which are empty where they are refused. -/
def ownerTexts (snapshot : Message) (keys : List String) : List (String × String) :=
  keys.map fun key => (key, (ownerText zones isWebUrl snapshot key).getD "")

end Together

variable {snapshot : Message}

theorem ownerFact_eq {key : String} (hkey : key ∈ factFields) :
    ownerFact zones isWebUrl snapshot key = .ok (ownerText zones isWebUrl snapshot key) := by
  unfold ownerFact ownerText
  rw [validateFacts_single hkey]
  cases factText? zones isWebUrl key ((snapshot.get? key).getD (.lit "")) with
  | none => rfl
  | some text =>
    simp only [factOf_single, if_true]

theorem lookup_map_key {β : Type} (keys : List String) (f : String → β) (key : String) :
    (keys.map fun k => (k, f k)).lookup key = if key ∈ keys then some (f key) else none := by
  induction keys with
  | nil => rfl
  | cons k keys ih =>
    rw [List.map_cons, List.lookup_cons, ih]
    by_cases h : key = k
    · subst h
      simp
    · simp [h, beq_false_of_ne h]

theorem factOf_ownerTexts (keys : List String) (key : String) :
    factOf (ownerTexts zones isWebUrl snapshot keys) key =
      if key ∈ keys then (ownerText zones isWebUrl snapshot key).getD "" else "" := by
  rw [factOf, ownerTexts, lookup_map_key]
  split_ifs <;> rfl

/-- A text that is accepted alone has no blanks around it, is not too long, and passes the check of its
field. -/
theorem ownerText_spec {key text : String} (h : ownerText zones isWebUrl snapshot key = some text) :
    strip text = text ∧ text.length ≤ factLimit key ∧ FactOk zones isWebUrl key text := by
  unfold ownerText factText? at h
  split at h
  · rename_i t _
    split_ifs at h with hboth
    obtain rfl := Option.some.inj h
    exact ⟨strip_strip _, (length_strip_le _).trans hboth.1, hboth.2⟩
  · cases h

variable (zones isWebUrl snapshot) in
theorem ownerText_getD_spec (key : String) :
    strip ((ownerText zones isWebUrl snapshot key).getD "") = (ownerText zones isWebUrl snapshot key).getD "" ∧
      ((ownerText zones isWebUrl snapshot key).getD "").length ≤ factLimit key ∧
        FactOk zones isWebUrl key ((ownerText zones isWebUrl snapshot key).getD "") := by
  cases h : ownerText zones isWebUrl snapshot key with
  | none => exact ⟨rfl, Nat.zero_le _, .inl rfl⟩
  | some text => exact ownerText_spec h

/-- Of facts that are accepted alone, only the times are checked again. -/
theorem validateFacts_ownerTexts {keys : List String} (hkeys : ∀ key ∈ keys, key ∈ factFields) :
    validateFacts zones isWebUrl (factsMessage (ownerTexts zones isWebUrl snapshot keys)) =
      checkTimes zones (ownerTexts zones isWebUrl snapshot keys) >>= fun _ =>
        .ok (ownerTexts zones isWebUrl snapshot keys) := by
  have hall : (((ownerTexts zones isWebUrl snapshot keys).map fun f => (f.1, (Json.lit f.2 : Message))).all
      fun item => factFields.contains item.1) = true := by
    rw [List.all_map, ownerTexts, List.all_map, List.all_eq_true]
    exact fun key hkey => List.elem_eq_true_of_mem (hkeys key hkey)
  have hmap : ((ownerTexts zones isWebUrl snapshot keys).map fun f => (f.1, (Json.lit f.2 : Message))).mapM
      strippedFact = .ok (ownerTexts zones isWebUrl snapshot keys) := by
    rw [mapM_eq_ok_iff, List.forall₂_map_left_iff, List.forall₂_same]
    intro f hf
    obtain ⟨key, -, rfl⟩ := List.mem_map.1 hf
    have hspec := ownerText_getD_spec zones isWebUrl snapshot key
    simp only [strippedFact, Json.lit, Text.plain, if_pos hspec.2.1, hspec.1]
  have hcheck : checkFacts zones isWebUrl (ownerTexts zones isWebUrl snapshot keys) = .ok () := by
    rw [checkFacts_eq_ok_iff]
    intro key
    rw [factOf_ownerTexts]
    split_ifs
    · exact (ownerText_getD_spec zones isWebUrl snapshot key).2.2
    · exact .inl rfl
  simp only [validateFacts, singleFacts, factsMessage, fetch, ok_bind, ensure_bind hall, hmap, hcheck]
  rfl

/-- The check of the times reads the date, the zone and the two times. -/
def timeFields : List String := ["date", "timezone", "start_time", "end_time"]

theorem checkTimes_congr {facts facts' : List (String × String)}
    (h : ∀ key ∈ timeFields, factOf facts key = factOf facts' key) :
    checkTimes zones facts = checkTimes zones facts' := by
  have hdate := h "date" (by decide)
  have hzone := h "timezone" (by decide)
  have hstart := h "start_time" (by decide)
  have hend := h "end_time" (by decide)
  have htimed : Timed facts ↔ Timed facts' := by
    unfold Timed
    rw [hdate, hzone, hstart, hend]
  unfold checkTimes
  rw [hdate, hzone, hstart, hend]
  by_cases ht : Timed facts
  · rw [if_pos ht, if_pos (htimed.1 ht)]
  · rw [if_neg ht, if_neg fun h => ht (htimed.2 h)]

/-- The facts of a snapshot, all of them. -/
abbrev allTexts (zones : String → Option Zone) (isWebUrl : String → Bool) (snapshot : Message) :
    List (String × String) := ownerTexts zones isWebUrl snapshot factFields

theorem checkTimes_timeFields :
    checkTimes zones (ownerTexts zones isWebUrl snapshot timeFields) =
      checkTimes zones (allTexts zones isWebUrl snapshot) := by
  refine checkTimes_congr fun key hkey => ?_
  have hfield : key ∈ factFields := (by decide : ∀ key ∈ timeFields, key ∈ factFields) key hkey
  rw [factOf_ownerTexts, factOf_ownerTexts, if_pos hkey, if_pos hfield]

/-! ### What a package reports -/

section Readiness

variable (zones isWebUrl)

/-- A fact of a snapshot is a string that is accepted alone, and has a text without the blanks around it. -/
def Confirmed (snapshot : Message) (key text : String) : Prop :=
  ∃ t, snapshot.get? key = some (.str t) ∧
    (∃ facts, validateFacts zones isWebUrl (.obj [(key, .str t)]) = .ok facts) ∧ strip t.plain = text ∧ text ≠ ""

/-- The date, the zone and the times are accepted alone, and refused together. -/
def TimesRefused (snapshot : Message) : Prop :=
  ∃ text : String → String, (∀ key ∈ timeFields, Confirmed zones isWebUrl snapshot key (text key)) ∧
    validateFacts zones isWebUrl (factsMessage (timeFields.map fun key => (key, text key))) = .error .value

/-- All facts are accepted, alone and together. -/
def Ready (snapshot : Message) : Prop :=
  ∃ text : String → String, (∀ key ∈ factFields, Confirmed zones isWebUrl snapshot key (text key)) ∧
    ∃ facts, validateFacts zones isWebUrl (factsMessage (factFields.map fun key => (key, text key))) = .ok facts

/-- The package is ready for review if all facts are accepted, and lists, in the order of the fields, those that
are not, and the times if they are refused together. -/
structure OwnerReadiness (snapshot package : Message) : Prop where
  status : package.get? "status" = some (.lit "ready_for_review") ↔ Ready zones isWebUrl snapshot
  missing : ∃ missing : List String, package.get? "missing_fields" = some (.arr (missing.map .lit)) ∧ missing.Sublist factFields ∧
    ∀ key ∈ factFields, key ∈ missing ↔ (¬ ∃ text, Confirmed zones isWebUrl snapshot key text) ∨
      (key = "start_time" ∨ key = "end_time") ∧ TimesRefused zones isWebUrl snapshot

/-- The conversions of the times of a snapshot stay in the calendar: that of the start, and, if the start is
accepted, that of the end. -/
def InCalendar (snapshot : Message) : Prop :=
  ∀ date start end_ timezone zone days minute minute', Confirmed zones isWebUrl snapshot "date" date →
    Confirmed zones isWebUrl snapshot "start_time" start → Confirmed zones isWebUrl snapshot "end_time" end_ →
    Confirmed zones isWebUrl snapshot "timezone" timezone → zones timezone = some zone →
    parseDate date = some days → parseTime start = some minute → parseTime end_ = some minute' →
    ¬ zone.Overflows (wallTime days minute) ∧
      (zone.Accepts (wallTime days minute) → ¬ zone.Overflows (wallTime days minute'))

end Readiness

/-- A fact is confirmed if it is accepted alone, and not empty. -/
theorem confirmed_iff {key text : String} (hkey : key ∈ factFields) :
    Confirmed zones isWebUrl snapshot key text ↔
      ownerText zones isWebUrl snapshot key = some text ∧ text ≠ "" := by
  constructor
  · rintro ⟨t, hget, ⟨facts, hfacts⟩, rfl, hne⟩
    refine ⟨?_, hne⟩
    rw [validateFacts_single hkey] at hfacts
    unfold ownerText
    rw [hget]
    cases htext : factText? zones isWebUrl key (.str t) with
    | none =>
      rw [htext] at hfacts
      cases hfacts
    | some text =>
      simp only [factText?] at htext
      split_ifs at htext with hboth
      rw [Option.getD_some, factText?, if_pos hboth]
  · rintro ⟨htext, hne⟩
    have hraw := htext
    unfold ownerText factText? at hraw
    split at hraw
    · rename_i t ht
      split_ifs at hraw with hboth
      obtain rfl := Option.some.inj hraw
      cases hget : snapshot.get? key with
      | none =>
        rw [hget] at ht
        injection ht with ht
        subst ht
        exact absurd rfl hne
      | some raw =>
        rw [hget, Option.getD_some] at ht
        subst ht
        refine ⟨t, hget, ⟨[(key, strip t.plain)], ?_⟩, rfl, hne⟩
        rw [validateFacts_single hkey, factText?, if_pos hboth]
    · cases hraw

theorem exists_confirmed_iff {key : String} (hkey : key ∈ factFields) :
    (∃ text, Confirmed zones isWebUrl snapshot key text) ↔
      factOf (allTexts zones isWebUrl snapshot) key ≠ "" := by
  rw [factOf_ownerTexts, if_pos hkey]
  constructor
  · rintro ⟨text, h⟩
    obtain ⟨htext, hne⟩ := (confirmed_iff hkey).1 h
    rw [htext]
    exact hne
  · intro h
    cases htext : ownerText zones isWebUrl snapshot key with
    | none =>
      rw [htext] at h
      exact absurd rfl h
    | some text =>
      rw [htext] at h
      exact ⟨text, (confirmed_iff hkey).2 ⟨htext, h⟩⟩

/-- The texts of confirmed facts are those that the package is made of. -/
theorem map_confirmed {keys : List String} (hkeys : ∀ key ∈ keys, key ∈ factFields) {text : String → String}
    (h : ∀ key ∈ keys, Confirmed zones isWebUrl snapshot key (text key)) :
    (keys.map fun key => (key, text key)) = ownerTexts zones isWebUrl snapshot keys := by
  refine List.map_congr_left fun key hkey => ?_
  rw [((confirmed_iff (hkeys key hkey)).1 (h key hkey)).1]
  rfl

theorem timeFields_subset : ∀ key ∈ timeFields, key ∈ factFields := by decide

/-- The times are refused together if the check of the times refuses them. -/
theorem timesRefused_iff : TimesRefused zones isWebUrl snapshot ↔
    checkTimes zones (allTexts zones isWebUrl snapshot) = .error .value := by
  rw [← checkTimes_timeFields]
  constructor
  · rintro ⟨text, hconfirmed, hrefused⟩
    rw [map_confirmed timeFields_subset hconfirmed, validateFacts_ownerTexts timeFields_subset] at hrefused
    cases hcheck : checkTimes zones (ownerTexts zones isWebUrl snapshot timeFields) with
    | ok u =>
      rw [hcheck] at hrefused
      cases hrefused
    | error e =>
      rw [hcheck, error_bind] at hrefused
      rw [Except.error.inj hrefused]
  · intro hrefused
    have htimed : Timed (ownerTexts zones isWebUrl snapshot timeFields) := by
      by_contra hnot
      rw [checkTimes, if_neg hnot] at hrefused
      cases hrefused
    have hne : ∀ key ∈ timeFields, factOf (ownerTexts zones isWebUrl snapshot timeFields) key ≠ "" := by
      intro key hkey
      simp only [timeFields, List.mem_cons, List.not_mem_nil, or_false] at hkey
      obtain ⟨hdate, hzone, hstart, hend⟩ := htimed
      rcases hkey with rfl | rfl | rfl | rfl
      · exact hdate
      · exact hzone
      · exact hstart
      · exact hend
    have hconfirmed : ∀ key ∈ timeFields, Confirmed zones isWebUrl snapshot key
        ((ownerText zones isWebUrl snapshot key).getD "") := by
      intro key hkey
      have h := hne key hkey
      rw [factOf_ownerTexts, if_pos hkey] at h
      cases htext : ownerText zones isWebUrl snapshot key with
      | none =>
        rw [htext] at h
        exact absurd rfl h
      | some text =>
        rw [htext] at h
        exact (confirmed_iff (timeFields_subset key hkey)).2 ⟨htext, h⟩
    refine ⟨_, hconfirmed, ?_⟩
    rw [map_confirmed timeFields_subset hconfirmed, validateFacts_ownerTexts timeFields_subset, hrefused]
    rfl

/-- All facts are accepted if none is missing and the check of the times accepts them. -/
theorem ready_iff : Ready zones isWebUrl snapshot ↔
    (∀ key ∈ factFields, factOf (allTexts zones isWebUrl snapshot) key ≠ "") ∧
      checkTimes zones (allTexts zones isWebUrl snapshot) = .ok () := by
  constructor
  · rintro ⟨text, hconfirmed, facts, haccepted⟩
    refine ⟨fun key hkey => (exists_confirmed_iff hkey).1 ⟨_, hconfirmed key hkey⟩, ?_⟩
    rw [map_confirmed (fun _ => id) hconfirmed, validateFacts_ownerTexts fun _ => id] at haccepted
    obtain ⟨_, hcheck, -⟩ := bind_eq_ok.1 haccepted
    exact hcheck
  · rintro ⟨hne, hcheck⟩
    have hconfirmed : ∀ key ∈ factFields, Confirmed zones isWebUrl snapshot key
        ((ownerText zones isWebUrl snapshot key).getD "") := by
      intro key hkey
      obtain ⟨text, htext⟩ := (exists_confirmed_iff hkey).2 (hne key hkey)
      rw [((confirmed_iff hkey).1 htext).1]
      exact htext
    refine ⟨_, hconfirmed, allTexts zones isWebUrl snapshot, ?_⟩
    rw [map_confirmed (fun _ => id) hconfirmed, validateFacts_ownerTexts fun _ => id, hcheck]
    rfl

/-! ### When the times leave the calendar -/

/-- Two wall times are converted, of which the first must come before the second. -/
def convertBoth (zone : Zone) (w w' : ℤ) : Except ConversionError Unit :=
  zone.toUtc w >>= fun start => zone.toUtc w' >>= fun end_ => ensure (start < end_) .value

/-- The check of the times, of facts that say when the event is. -/
theorem checkTimes_of_timed {facts : List (String × String)} (ht : Timed facts) {zone : Zone} {days : ℤ}
    {minute minute' : ℕ} (hzone : zones (factOf facts "timezone") = some zone)
    (hdays : parseDate (factOf facts "date") = some days)
    (hminute : parseTime (factOf facts "start_time") = some minute)
    (hminute' : parseTime (factOf facts "end_time") = some minute') :
    checkTimes zones facts = convertBoth zone (wallTime days minute) (wallTime days minute') := by
  simp only [checkTimes, if_pos ht, pointOf, hzone, hdays, hminute, hminute', fetch, ok_bind, convertBoth]

/-- Facts that are accepted alone and say when the event is have a zone, a date and times. -/
theorem exists_times (ht : Timed (allTexts zones isWebUrl snapshot)) :
    ∃ zone days minute minute', zones (factOf (allTexts zones isWebUrl snapshot) "timezone") = some zone ∧
      parseDate (factOf (allTexts zones isWebUrl snapshot) "date") = some days ∧
      parseTime (factOf (allTexts zones isWebUrl snapshot) "start_time") = some minute ∧
      parseTime (factOf (allTexts zones isWebUrl snapshot) "end_time") = some minute' := by
  have hfact {key : String} (hkey : key ∈ factFields) (hne : factOf (allTexts zones isWebUrl snapshot) key ≠ "") :
      FactOk zones isWebUrl key (factOf (allTexts zones isWebUrl snapshot) key) := by
    rw [factOf_ownerTexts, if_pos hkey]
    exact (ownerText_getD_spec zones isWebUrl snapshot key).2.2
  obtain ⟨hdate, hzone, hstart, hend⟩ := ht
  obtain ⟨zone, hzone'⟩ := Option.isSome_iff_exists.1 (((hfact (by decide) hzone).resolve_left hzone).2.1 rfl)
  obtain ⟨days, hdays⟩ := Option.isSome_iff_exists.1 (((hfact (by decide) hdate).resolve_left hdate).1 rfl)
  obtain ⟨minute, hminute⟩ :=
    Option.isSome_iff_exists.1 (((hfact (by decide) hstart).resolve_left hstart).2.2.1 rfl)
  obtain ⟨minute', hminute'⟩ :=
    Option.isSome_iff_exists.1 (((hfact (by decide) hend).resolve_left hend).2.2.2.1 rfl)
  exact ⟨zone, days, minute, minute', hzone', hdays, hminute, hminute'⟩

/-- Two conversions overflow if the first does, or the second after the first was accepted. -/
theorem convertBoth_eq_overflow {zone : Zone} {w w' : ℤ} :
    convertBoth zone w w' = .error .overflow ↔ zone.Overflows w ∨ zone.Accepts w ∧ zone.Overflows w' := by
  unfold convertBoth
  by_cases hover : zone.Overflows w
  · rw [Zone.toUtc_eq_overflow.2 hover]
    simp [hover]
  · rcases Zone.toUtc_cases hover with ⟨start, hstart⟩ | hrefused
    · rw [hstart, ok_bind]
      by_cases hover' : zone.Overflows w'
      · rw [Zone.toUtc_eq_overflow.2 hover']
        simp [hover', show zone.Accepts w from ⟨start, hstart⟩]
      · rcases Zone.toUtc_cases hover' with ⟨end_, hend⟩ | hrefused'
        · rw [hend, ok_bind, ensure]
          split_ifs <;> simp [hover, hover']
        · rw [hrefused']
          simp [hover, hover']
    · rw [hrefused]
      have hnot : ¬ zone.Accepts w := by
        rintro ⟨t, ht⟩
        rw [hrefused] at ht
        cases ht
      simp [hover, hnot]

/-- The times of a snapshot stay in the calendar if the check of the times does not overflow. -/
theorem inCalendar_iff : InCalendar zones isWebUrl snapshot ↔
    checkTimes zones (allTexts zones isWebUrl snapshot) ≠ .error .overflow := by
  have hread {key text : String} (hkey : key ∈ factFields) (h : Confirmed zones isWebUrl snapshot key text) :
      factOf (allTexts zones isWebUrl snapshot) key = text ∧ text ≠ "" := by
    obtain ⟨htext, hne⟩ := (confirmed_iff hkey).1 h
    rw [factOf_ownerTexts, if_pos hkey, htext]
    exact ⟨rfl, hne⟩
  constructor
  · intro h hover
    have ht : Timed (allTexts zones isWebUrl snapshot) := by
      by_contra hnot
      rw [checkTimes, if_neg hnot] at hover
      cases hover
    obtain ⟨zone, days, minute, minute', hzone, hdays, hminute, hminute'⟩ := exists_times ht
    rw [checkTimes_of_timed ht hzone hdays hminute hminute', convertBoth_eq_overflow] at hover
    have hconfirmed {key : String} (hkey : key ∈ factFields)
        (hne : factOf (allTexts zones isWebUrl snapshot) key ≠ "") :
        Confirmed zones isWebUrl snapshot key (factOf (allTexts zones isWebUrl snapshot) key) := by
      obtain ⟨text, htext⟩ := (exists_confirmed_iff hkey).2 hne
      rw [(hread hkey htext).1]
      exact htext
    obtain ⟨hdate, hzone', hstart, hend⟩ := ht
    obtain ⟨hno, hno'⟩ := h _ _ _ _ zone days minute minute' (hconfirmed (by decide) hdate)
      (hconfirmed (by decide) hstart) (hconfirmed (by decide) hend) (hconfirmed (by decide) hzone') hzone hdays
      hminute hminute'
    rcases hover with hover | ⟨haccepts, hover⟩
    · exact hno hover
    · exact hno' haccepts hover
  · intro h date start end_ timezone zone days minute minute' hdate hstart hend htimezone hzone hdays hminute hminute'
    obtain ⟨hd, hd'⟩ := hread (by decide) hdate
    obtain ⟨hs, hs'⟩ := hread (by decide) hstart
    obtain ⟨he, he'⟩ := hread (by decide) hend
    obtain ⟨hz, hz'⟩ := hread (by decide) htimezone
    have ht : Timed (allTexts zones isWebUrl snapshot) := by
      unfold Timed
      rw [hd, hs, he, hz]
      exact ⟨hd', hz', hs', he'⟩
    rw [checkTimes_of_timed ht (by rw [hz]; exact hzone) (by rw [hd]; exact hdays) (by rw [hs]; exact hminute)
      (by rw [he]; exact hminute'), ne_eq, convertBoth_eq_overflow, not_or, not_and] at h
    exact h

/-! ### The package -/

section Package

variable {py : Interpreter}

theorem get?_factsMessage (facts : List (String × String)) (key : String) :
    (factsMessage facts).get? key = (facts.lookup key).map Json.lit := by
  change (facts.map fun f => (f.1, (Json.lit f.2 : Message))).lookup key = (facts.lookup key).map Json.lit
  induction facts with
  | nil => rfl
  | cons f facts ih =>
    rw [List.map_cons, List.lookup_cons, List.lookup_cons, ih]
    cases key == f.1 <;> rfl

variable (zones isWebUrl snapshot py) in
/-- The drafts of the facts are written, since all of them are there. -/
theorem exists_draft (kind : String) :
    ∃ d, draft py (factsMessage (allTexts zones isWebUrl snapshot)) kind = some d := by
  have hget (key : String) : (factsMessage (allTexts zones isWebUrl snapshot)).get? key =
      if key ∈ factFields then some (.lit ((ownerText zones isWebUrl snapshot key).getD "")) else none := by
    rw [get?_factsMessage, allTexts, ownerTexts, lookup_map_key]
    split_ifs <;> rfl
  have htyped : WellTyped (factsMessage (allTexts zones isWebUrl snapshot)) := by
    refine ⟨rfl, fun field _ value hvalue => .inr (.inr ?_)⟩
    rw [hget] at hvalue
    split_ifs at hvalue with hfield
    have hprice : field ≠ "general_ticket_price" := by
      rintro rfl
      exact absurd hfield (by decide)
    rw [OfType, if_neg hprice]
    exact ⟨_, (Option.some.inj hvalue).symm⟩
  refine Option.isSome_iff_exists.1 ((htyped.draft_isSome py kind).2 fun field hfield => ?_)
  rw [hget, if_pos ((by decide : ∀ field ∈ draftFields, field ∈ factFields) field hfield)]
  exact Option.some_ne_none _

/-- The facts that are asked for. -/
def askedFacts (zones : String → Option Zone) (isWebUrl : String → Bool) (snapshot : Message)
    (together : Bool) : List String :=
  factFields.filter fun key => factOf (allTexts zones isWebUrl snapshot) key = "" ||
    (((factFields.map fun key => (key, ownerText zones isWebUrl snapshot key)).filter fun f => f.2.isNone).map
      Prod.fst ++ if together then [] else ["start_time", "end_time"]).contains key

theorem mem_askedFacts {together : Bool} {key : String} (hkey : key ∈ factFields) :
    key ∈ askedFacts zones isWebUrl snapshot together ↔
      factOf (allTexts zones isWebUrl snapshot) key = "" ∨
        (key = "start_time" ∨ key = "end_time") ∧ together = false := by
  have hrefused : key ∈ ((factFields.map fun key => (key, ownerText zones isWebUrl snapshot key)).filter
      fun f => f.2.isNone).map Prod.fst → factOf (allTexts zones isWebUrl snapshot) key = "" := by
    intro h
    obtain ⟨f, hf, rfl⟩ := List.mem_map.1 h
    obtain ⟨hf, hnone⟩ := List.mem_filter.1 hf
    obtain ⟨key, -, rfl⟩ := List.mem_map.1 hf
    have hempty : ownerText zones isWebUrl snapshot key = none := Option.isNone_iff_eq_none.1 hnone
    rw [factOf_ownerTexts, if_pos hkey, hempty]
    rfl
  simp only [askedFacts, List.mem_filter, hkey, true_and, Bool.or_eq_true, decide_eq_true_eq,
    List.contains_iff_mem, List.mem_append]
  constructor
  · rintro (hempty | hmem | hmem)
    · exact .inl hempty
    · exact .inl (hrefused hmem)
    · cases together with
      | true => cases hmem
      | false => exact .inr ⟨by simpa using hmem, rfl⟩
  · rintro (hempty | ⟨hmem, rfl⟩)
    · exact .inl hempty
    · exact .inr (.inr (by simpa using hmem))

variable (zones isWebUrl snapshot py) in
/-- What `prepare_owner_package` does: it raises when the check of the times overflows. -/
theorem prepareOwnerPackage_cases : ∃ invitation reminder,
    prepareOwnerPackage zones isWebUrl py snapshot =
      match checkTimes zones (allTexts zones isWebUrl snapshot) with
      | .ok _ => .ok (ownerPackageOf (allTexts zones isWebUrl snapshot)
          (askedFacts zones isWebUrl snapshot true) invitation reminder)
      | .error .value => .ok (ownerPackageOf (allTexts zones isWebUrl snapshot)
          (askedFacts zones isWebUrl snapshot false) invitation reminder)
      | .error .overflow => .error (.conversion .overflow) := by
  obtain ⟨invitation, hinvitation⟩ :=
    exists_draft zones isWebUrl snapshot py "Invitation"
  obtain ⟨reminder, hreminder⟩ :=
    exists_draft zones isWebUrl snapshot py "Reminder"
  refine ⟨invitation, reminder, ?_⟩
  have hchecked : (factFields.mapM fun key => do
      return (key, ← ownerFact zones isWebUrl snapshot key)) =
        .ok (factFields.map fun key => (key, ownerText zones isWebUrl snapshot key)) := by
    rw [mapM_eq_ok_iff, List.forall₂_map_right_iff, List.forall₂_same]
    intro key hkey
    rw [ownerFact_eq hkey]
    rfl
  have hfacts : ((factFields.map fun key => (key, ownerText zones isWebUrl snapshot key)).map fun f =>
      (f.1, f.2.getD "")) = allTexts zones isWebUrl snapshot := by
    rw [List.map_map]
    rfl
  simp only [prepareOwnerPackage, hchecked, Except.mapError, ok_bind, hfacts, acceptedTogether,
    validateFacts_ownerTexts fun _ => id, hinvitation, hreminder, fetch]
  cases checkTimes zones (allTexts zones isWebUrl snapshot) with
  | ok u => rfl
  | error e => cases e <;> rfl

/-- The report of a package, by what the check of the times says. -/
theorem ownerReadiness_of {together : Bool} {invitation reminder : Message}
    (hready : together = true ↔ checkTimes zones (allTexts zones isWebUrl snapshot) = .ok ())
    (hrefused : together = false ↔ checkTimes zones (allTexts zones isWebUrl snapshot) = .error .value) :
    OwnerReadiness zones isWebUrl snapshot (ownerPackageOf (allTexts zones isWebUrl snapshot)
      (askedFacts zones isWebUrl snapshot together) invitation reminder) := by
  constructor
  · have hnil : askedFacts zones isWebUrl snapshot together = [] ↔ Ready zones isWebUrl snapshot := by
      rw [ready_iff, ← hready, List.eq_nil_iff_forall_not_mem]
      constructor
      · intro hnone
        have hkeys (key : String) (hkey : key ∈ factFields) := (mem_askedFacts hkey).not.1 (hnone key)
        refine ⟨fun key hkey hempty => hkeys key hkey (.inl hempty), ?_⟩
        by_contra hfalse
        exact hkeys "start_time" (by decide) (.inr ⟨.inl rfl, by simpa using hfalse⟩)
      · rintro ⟨hne, htogether⟩ key hmem
        have hkey : key ∈ factFields := List.mem_of_mem_filter hmem
        rcases (mem_askedFacts hkey).1 hmem with hempty | ⟨-, hfalse⟩
        · exact hne key hkey hempty
        · rw [htogether] at hfalse
          cases hfalse
    rw [← hnil]
    simp only [ownerPackageOf, Json.get?, List.lookup, beq_self_eq_true]
    by_cases h : askedFacts zones isWebUrl snapshot together = [] <;> simp [h, Json.lit]
  · refine ⟨askedFacts zones isWebUrl snapshot together, rfl, List.filter_sublist, fun key hkey => ?_⟩
    rw [mem_askedFacts hkey, exists_confirmed_iff hkey, not_not, timesRefused_iff, hrefused]

/-- **When a package is made.** Of a snapshot a package is made, and reports its readiness, if and only if its
times stay in the calendar. -/
theorem prepareOwnerPackage_iff (zones : String → Option Zone) (isWebUrl : String → Bool) (py : Interpreter)
    (snapshot : Message) :
    (∃ package, prepareOwnerPackage zones isWebUrl py snapshot = .ok package ∧
      OwnerReadiness zones isWebUrl snapshot package) ↔ InCalendar zones isWebUrl snapshot := by
  rw [inCalendar_iff]
  obtain ⟨invitation, reminder, hpackage⟩ :=
    prepareOwnerPackage_cases zones isWebUrl snapshot py
  rw [hpackage]
  cases hcheck : checkTimes zones (allTexts zones isWebUrl snapshot) with
  | ok u =>
    exact iff_of_true ⟨_, rfl, ownerReadiness_of (by simp [hcheck]) (by simp [hcheck])⟩ (by simp)
  | error e =>
    cases e with
    | value =>
      exact iff_of_true ⟨_, rfl, ownerReadiness_of (by simp [hcheck]) (by simp [hcheck])⟩ (by simp)
    | overflow =>
      refine iff_of_false ?_ (not_not.2 rfl)
      rintro ⟨package, hraised, -⟩
      cases hraised

/-! ### The first day of the calendar -/

/-- An hour before UTC, as `Etc/GMT-1` is at all times. -/
def hourAhead : Zone := fixedZone (seconds 3600) (by decide)

/-- An event at midnight of the first day of the year 1, an hour before UTC. -/
def firstMidnight : Message :=
  .obj [("date", .lit "0001-01-01"), ("start_time", .lit "00:00"), ("end_time", .lit "01:00"),
    ("timezone", .lit "Etc/GMT-1")]

/-- The package of this event is not made: its start would be in the year 0. -/
theorem not_prepareOwnerPackage :
    ¬ ∃ package, prepareOwnerPackage (fun name => if name = "Etc/GMT-1" then some hourAhead else none)
        (fun _ => true) plainInterpreter firstMidnight = .ok package ∧
      OwnerReadiness (fun name => if name = "Etc/GMT-1" then some hourAhead else none) (fun _ => true)
        firstMidnight package := by
  have hraised : prepareOwnerPackage (fun name => if name = "Etc/GMT-1" then some hourAhead else none)
      (fun _ => true) plainInterpreter firstMidnight = .error (.conversion .overflow) := by
    decide +kernel
  rintro ⟨package, hpackage, -⟩
  rw [hraised] at hpackage
  cases hpackage

end Package

end LaunchLoop

end CivicLoop
