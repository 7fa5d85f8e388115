import CivicLoop.Foundation.ZoneRules
import CivicLoop.LaunchLoop.DemoState
import Mathlib

/-!
# The facts of an owner's event

The owner gives the facts of an event as texts. A date, two times and the name of a time zone say when it
is, and are checked together: each time must be that of one instant in its zone, and the start must come
before the end. The review of a request reads such times in the same way. The package of an owner's event
asks for the facts that are missing or were not accepted.

## Main definitions

* `validateFacts` : the check of the facts, one by one and together.
* `utcText` : how the review of a request reads a local time.
* `prepareOwnerPackage` : the package of an owner's event.

## Main results

* `parseLocal_text`, `pointOf_text` : the texts of a date and a time are read back.
* `readOnce` : a local time is accepted if and only if exactly one instant reads as it.
-/

namespace CivicLoop.LaunchLoop

section Read

variable (zones : String → Option Zone)

/-! ### Local times -/

/-- The instant of a date and a wall time in a zone, as `validate_facts` computes it. -/
def pointOf (date time timezone : String) : Except ConversionError Time := do
  let zone ← fetch (zones timezone) .value
  let days ← fetch (parseDate date) .value
  let minute ← fetch (parseTime time) .value
  zone.toUtc (wallTime days minute)

/-- `datetime.fromisoformat`, of a text of a date, hours and minutes; the hour 24 is midnight. -/
def parseLocal (s : String) : Option ℤ := do
  let cs := s.toList
  let days ← parseDate (String.ofList (cs.take 10))
  if cs[10]? = some 'T' then
    let time := String.ofList (cs.drop 11)
    if time = "24:00" then
      if IsDate (days + 1) then some (wallTime (days + 1) 0) else none
    else
      (parseTime time).map fun minute => wallTime days minute
  else none

/-- `strftime("%Y-%m-%dT%H:%M:%SZ")`, of an instant in UTC. -/
def stampText (t : Time) : String :=
  dateText (utcDate t) ++ "T" ++ timeText (utcMinute t) ++ ":" ++
    String.ofList (paddedDigits 2 (t % minutes 1 / seconds 1).toNat) ++ "Z"

/-- `_utc` of the review of a request. -/
def utcText (localValue zoneName : String) : Except ConversionError String := do
  let wall ← fetch (parseLocal localValue) .value
  let zone ← fetch (zones zoneName) .value
  let t ← zone.toUtc wall
  return stampText t

/-! ### The check of the facts -/

/-- The most characters of a fact. -/
def factLimit (key : String) : ℕ :=
  if key = "access_instructions" then 2000
  else if key = "title" then 240
  else if key = "timezone" then 64
  else 500

/-- A fact without the blanks around it: it must be a string, and not too long. -/
def strippedFact (item : String × Message) : Except ConversionError (String × String) :=
  match item.2 with
  | .str t => if t.plain.length ≤ factLimit item.1 then .ok (item.1, strip t.plain) else .error .value
  | _ => .error .value

/-- `facts.get(key)`, which is nothing to check when it is empty. -/
def factOf (facts : List (String × String)) (key : String) : String := (facts.lookup key).getD ""

/-- The checks of the single facts; `isWebUrl` says which texts are addresses of the web without
credentials. -/
def checkFacts (isWebUrl : String → Bool) (facts : List (String × String)) : Except ConversionError Unit := do
  ensure (factOf facts "date" = "" ∨ (parseDate (factOf facts "date")).isSome) .value
  ensure (factOf facts "timezone" = "" ∨ (zones (factOf facts "timezone")).isSome) .value
  ensure (factOf facts "start_time" = "" ∨ (parseTime (factOf facts "start_time")).isSome) .value
  ensure (factOf facts "end_time" = "" ∨ (parseTime (factOf facts "end_time")).isSome) .value
  ensure (factOf facts "signup_url" = "" ∨ isWebUrl (factOf facts "signup_url")) .value

/-- The facts say when the event is. -/
def Timed (facts : List (String × String)) : Prop :=
  factOf facts "date" ≠ "" ∧ factOf facts "timezone" ≠ "" ∧ factOf facts "start_time" ≠ "" ∧
    factOf facts "end_time" ≠ ""

instance (facts : List (String × String)) : Decidable (Timed facts) := inferInstanceAs (Decidable (_ ∧ _))

/-- The check of the date, the zone and the times together. -/
def checkTimes (facts : List (String × String)) : Except ConversionError Unit :=
  if Timed facts then do
    let start ← pointOf zones (factOf facts "date") (factOf facts "start_time") (factOf facts "timezone")
    let end_ ← pointOf zones (factOf facts "date") (factOf facts "end_time") (factOf facts "timezone")
    ensure (start < end_) .value
  else .ok ()

/-- The facts of a dictionary, checked one by one. -/
def singleFacts (isWebUrl : String → Bool) (value : Message) : Except ConversionError (List (String × String)) := do
  let items ← fetch (match value with
    | .obj items => some items
    | _ => none) .value
  ensure (items.all fun item => factFields.contains item.1) .value
  let facts ← items.mapM strippedFact
  checkFacts zones isWebUrl facts
  return facts

/-- `validate_facts`. -/
def validateFacts (isWebUrl : String → Bool) (value : Message) :
    Except ConversionError (List (String × String)) := do
  let facts ← singleFacts zones isWebUrl value
  checkTimes zones facts
  return facts

/-! ### The package -/

section Package

variable (isWebUrl : String → Bool)

/-- The fact of a snapshot, checked alone: its text, or nothing when it is refused. -/
def ownerFact (snapshot : Message) (key : String) : Except ConversionError (Option String) :=
  match validateFacts zones isWebUrl (.obj [(key, (snapshot.get? key).getD (.lit ""))]) with
  | .ok facts => .ok (some (factOf facts key))
  | .error .value => .ok none
  | .error e => .error e

/-- The facts as a dictionary. -/
def factsMessage (facts : List (String × String)) : Message := .obj (facts.map fun f => (f.1, .lit f.2))

/-- The facts are accepted together. -/
def acceptedTogether (facts : List (String × String)) : Except ConversionError Bool :=
  match validateFacts zones isWebUrl (factsMessage facts) with
  | .ok _ => .ok true
  | .error .value => .ok false
  | .error e => .error e

/-- The package of the facts, of which some are missing. -/
def ownerPackageOf (facts : List (String × String)) (missing : List String) (invitation reminder : Message) :
    Message :=
  .obj [
    ("schema_id", .lit "owner_event_draft_v1"),
    ("status", .lit (if missing = [] then "ready_for_review" else "needs_input")),
    ("missing_fields", .arr (missing.map .lit)),
    ("questions", .arr (missing.map fun key => .obj [("field", .lit key), ("prompt", .lit ("Confirm " ++
      String.ofList (key.toList.map fun c => if c = '_' then ' ' else c) ++ "."))])),
    ("assets", .obj [
      ("invitation", invitation),
      ("reminder", reminder),
      ("social", .obj [("body", .lit (factOf facts "title" ++ " on " ++ factOf facts "date" ++ ". " ++
        factOf facts "signup_url"))])]),
    ("audience", .obj [("id", .null), ("name", .lit "Choose in provider review"), ("member_count", .int 0),
      ("language", .lit "Unspecified")]),
    ("sponsor", .obj [("passed", .bool false), ("tier", .lit ""), ("expected_discount_percent", .null),
      ("actual_discount_percent", .null), ("general_ticket_price", .null), ("sponsor_ticket_price", .null)]),
    ("lanes", .obj [
      ("event_readiness", .obj [
        ("label", .lit "Event Readiness"),
        ("status", .lit (if missing = [] then "complete" else "needs_input")),
        ("summary", .lit (if missing = [] then "Public event facts confirmed."
          else "Confirm public event facts."))]),
      ("campaign_composer", .obj [
        ("label", .lit "Content preparation"),
        ("status", .lit (if missing = [] then "complete" else "needs_input")),
        ("summary", .lit "Event copy is for review only.")]),
      ("audience_policy", .obj [
        ("label", .lit "Provider review"),
        ("status", .lit "needs_input"),
        ("summary", .lit "Choose exact audience and suppression in provider request review.")])]),
    ("evidence", .arr [
      .lit "Prepared only public event facts from the current revision.",
      .lit "No audience segmentation or sponsor policy was applied.",
      .lit "Provider operations require a separate exact owner request approval."])]

/-- What `prepare_owner_package` raises: the error of a conversion that is no `ValueError`, or that of a draft
without a fact. -/
inductive PackageError
  | conversion (e : ConversionError)
  | key
deriving DecidableEq

/-- `prepare_owner_package`. -/
def prepareOwnerPackage (py : Interpreter) (snapshot : Message) : Except PackageError Message := do
  let checked ← (factFields.mapM fun key => do
    return (key, ← ownerFact zones isWebUrl snapshot key)).mapError .conversion
  let facts := checked.map fun f => (f.1, f.2.getD "")
  let together ← (acceptedTogether zones isWebUrl facts).mapError .conversion
  let invalid := (checked.filter fun f => f.2.isNone).map Prod.fst ++
    if together then [] else ["start_time", "end_time"]
  let missing := factFields.filter fun key => factOf facts key = "" || invalid.contains key
  let invitation ← fetch (draft py (factsMessage facts) "Invitation") .key
  let reminder ← fetch (draft py (factsMessage facts) "Reminder") .key
  return ownerPackageOf facts missing invitation reminder

end Package

/-! ### Reading texts -/

section Texts

variable {zones}

theorem strip_eq (s : String) :
    strip s = String.ofList ((s.toList.dropWhile isSpace).rdropWhile isSpace) := rfl

theorem strip_strip (s : String) : strip (strip s) = strip s := by
  have hfix (l : List Char) : ((l.dropWhile isSpace).rdropWhile isSpace).dropWhile isSpace =
      (l.dropWhile isSpace).rdropWhile isSpace := by
    rw [List.dropWhile_eq_self_iff]
    intro hpos
    have hbegins := List.rdropWhile_prefix isSpace (l.dropWhile isSpace)
    rw [hbegins.getElem hpos]
    exact List.dropWhile_get_zero_not isSpace l _
  rw [strip_eq, strip_eq, String.toList_ofList, hfix, List.rdropWhile_idempotent]

theorem length_strip_le (s : String) : (strip s).length ≤ s.length := by
  rw [strip, String.length_ofList, List.length_reverse]
  have hinner := (List.dropWhile_sublist isSpace (l := s.toList)).length_le
  have houter := (List.dropWhile_sublist isSpace (l := (s.toList.dropWhile isSpace).reverse)).length_le
  rw [List.length_reverse] at houter
  exact houter.trans (hinner.trans_eq String.length_toList)

theorem pointOf_text {zone : Zone} {timezone : String} (hzone : zones timezone = some zone) {days : ℤ}
    (hdays : IsDate days) {minute : ℕ} (hminute : minute < 1440) :
    pointOf zones (dateText days) (timeText minute) timezone = zone.toUtc (wallTime days minute) := by
  simp only [pointOf, hzone, parseDate_dateText hdays, parseTime_timeText hminute, fetch, ok_bind]

theorem length_dateText (days : ℤ) : (dateText days).toList.length = 10 := by
  simp [dateText]

theorem parseLocal_text {days : ℤ} (hdays : IsDate days) {minute : ℕ} (hminute : minute < 1440) :
    parseLocal (dateText days ++ "T" ++ timeText minute) = some (wallTime days minute) := by
  have hlist : (dateText days ++ "T" ++ timeText minute).toList =
      (dateText days).toList ++ 'T' :: (timeText minute).toList := by
    simp
  have hdate : (dateText days ++ "T" ++ timeText minute).toList.take 10 = (dateText days).toList := by
    rw [hlist, List.take_left' (length_dateText days)]
  have htime : (dateText days ++ "T" ++ timeText minute).toList.drop 11 = (timeText minute).toList := by
    rw [hlist, List.append_cons, List.drop_left' (by simp [length_dateText])]
  have hsep : (dateText days ++ "T" ++ timeText minute).toList[10]? = some 'T' := by
    rw [hlist, List.getElem?_append_right (by rw [length_dateText])]
    simp [length_dateText]
  have hmidnight : timeText minute ≠ "24:00" := by
    intro e
    have hread := parseTime_timeText hminute
    rw [e] at hread
    exact absurd hread (by rw [show parseTime "24:00" = none by decide +kernel]; nofun)
  simp only [parseLocal, hdate, htime, hsep, String.ofList_toList, parseDate_dateText hdays, if_true,
    if_neg hmidnight, parseTime_timeText hminute, Option.bind_eq_bind, Option.bind_some, Option.map_some]

theorem utcText_text {zone : Zone} {timezone : String} (hzone : zones timezone = some zone) {days : ℤ}
    (hdays : IsDate days) {minute : ℕ} (hminute : minute < 1440) :
    utcText zones (dateText days ++ "T" ++ timeText minute) timezone =
      (zone.toUtc (wallTime days minute)).map stampText := by
  simp only [utcText, parseLocal_text hdays hminute, hzone, fetch, ok_bind]
  cases zone.toUtc (wallTime days minute) <;> rfl

/-! ### Times that are read once -/

theorem inYears_wallTime {days : ℤ} (hdays : IsDate days) {minute : ℕ} (hminute : minute < 1440) :
    InYears (wallTime days minute) := by
  have hday : wallTime days minute / seconds 86400 = days := by
    have hspan : seconds 86400 = 86400000000 := rfl
    have hbound : 0 ≤ minutes minute ∧ minutes minute < 86400000000 := by
      simp only [minutes, seconds]
      omega
    rw [wallTime, hspan]
    omega
  rw [InYears, hday]
  exact hdays

theorem isDate_of_parseDate {s : String} {days : ℤ} (h : parseDate s = some days) : IsDate days := by
  simp only [parseDate] at h
  split_ifs at h with hboth
  rw [← Option.some.inj h]
  exact hboth.1

theorem lt_of_parseTime {s : String} {minute : ℕ} (h : parseTime s = some minute) : minute < 1440 := by
  simp only [parseTime] at h
  split_ifs at h with hboth
  rw [← Option.some.inj h]
  exact hboth.1

/-- A local time that is read is one that a datetime can have. -/
theorem inYears_of_parseLocal {s : String} {w : ℤ} (h : parseLocal s = some w) : InYears w := by
  obtain ⟨days, hdays, h⟩ := Option.bind_eq_some_iff.1 h
  dsimp only at h
  split_ifs at h with hsep hmidnight hnext
  · rw [← Option.some.inj h]
    exact inYears_wallTime hnext (by decide)
  · obtain ⟨minute, hminute, rfl⟩ := Option.map_eq_some_iff.1 h
    exact inYears_wallTime (isDate_of_parseDate hdays) (lt_of_parseTime hminute)

/-- The instants of a wall time, by either of its offsets, are in the years 1 to 9999. -/
def InstantsInYears (zone : Zone) (w : ℤ) : Prop := ∀ fold, InYears (w - zone.utcoffset w fold)

/-- The only instant that reads as a wall time. -/
def IsOnlyInstant (zone : Zone) (w : ℤ) (t : Time) : Prop := zone.wall t = w ∧ ∀ t', zone.wall t' = w → t' = t

/-- A local time is accepted if exactly one instant reads as it, and then stands for this instant: in the review
of a request, in the check of one time, and in the check of a start and an end. -/
structure ReadOnce (zones : String → Option Zone) (isWebUrl : String → Bool) (timezone : String) (zone : Zone) :
    Prop where
  review : ∀ localValue w text, parseLocal localValue = some w → InstantsInYears zone w →
    (utcText zones localValue timezone = .ok text ↔ ∃ t, IsOnlyInstant zone w t ∧ text = stampText t)
  point : ∀ date time days minute t, parseDate date = some days → parseTime time = some minute →
    InstantsInYears zone (wallTime days minute) →
    (pointOf zones date time timezone = .ok t ↔ IsOnlyInstant zone (wallTime days minute) t)
  pair : ∀ value facts days minute minute', singleFacts zones isWebUrl value = .ok facts → Timed facts →
    factOf facts "timezone" = timezone → parseDate (factOf facts "date") = some days →
    parseTime (factOf facts "start_time") = some minute → parseTime (factOf facts "end_time") = some minute' →
    InstantsInYears zone (wallTime days minute) → InstantsInYears zone (wallTime days minute') →
    (validateFacts zones isWebUrl value = .ok facts ↔ ∃ start end_, IsOnlyInstant zone (wallTime days minute) start ∧
      IsOnlyInstant zone (wallTime days minute') end_ ∧ start < end_)

/-- **Local times are read once.** In a zone with the rules of its transitions both conversions accept the wall
times of exactly one instant. -/
theorem readOnce {zone : Zone} (isWebUrl : String → Bool) {timezone : String} (hzone : zones timezone = some zone)
    (hrules : zone.Rules) : ReadOnce zones isWebUrl timezone zone := by
  have hpoint : ∀ date time days minute t, parseDate date = some days → parseTime time = some minute →
      InstantsInYears zone (wallTime days minute) →
      (pointOf zones date time timezone = .ok t ↔ IsOnlyInstant zone (wallTime days minute) t) := by
    intro date time days minute t hdays hminute hyears
    have hw := inYears_wallTime (isDate_of_parseDate hdays) (lt_of_parseTime hminute)
    simp only [pointOf, hzone, hdays, hminute, fetch, ok_bind]
    exact hrules.toUtc_eq_ok_iff hw (hyears false)
  refine ⟨?_, hpoint, ?_⟩
  · intro localValue w text hw hyears
    simp only [utcText, hw, hzone, fetch, ok_bind, bind_eq_ok, pure_eq_ok,
      hrules.toUtc_eq_ok_iff (inYears_of_parseLocal hw) (hyears false)]
    exact exists_congr fun t => and_congr_right fun _ => eq_comm
  · intro value facts days minute minute' hsingle htimed htimezone hdays hminute hminute' hyears hyears'
    simp only [validateFacts, hsingle, ok_bind, bind_eq_ok, pure_eq_ok, and_true, checkTimes, if_pos htimed,
      ensure_eq_ok, htimezone, hpoint _ _ _ _ _ hdays hminute hyears, hpoint _ _ _ _ _ hdays hminute' hyears']
    exact ⟨fun ⟨_, start, hstart, end_, hend, hlt⟩ => ⟨start, end_, hstart, hend, hlt⟩,
      fun ⟨start, end_, hstart, hend, hlt⟩ => ⟨(), start, hstart, end_, hend, hlt⟩⟩

end Texts

end Read

/-! ### A zone that is set back -/

/-- One of the two lookups finds the offset of an instant. -/
theorem shown_backZone (change t : ℤ) {offset : ℤ}
    (h : offset = if t < change then seconds (-14400) else seconds (-18000)) :
    (if t + offset < change + seconds (-14400) then seconds (-14400) else seconds (-18000)) = offset ∨
      (if t + offset < change + seconds (-18000) then seconds (-14400) else seconds (-18000)) = offset := by
  by_cases hlt : t < change
  · rw [if_pos hlt] at h
    subst h
    exact .inl (if_pos (Int.add_lt_add_right hlt _))
  · rw [if_neg hlt] at h
    subst h
    exact .inr (if_neg fun hadd => hlt (Int.lt_of_add_lt_add_right hadd))

/-- A zone that is set back at one instant, from four to five hours behind UTC. -/
def backZone (change : ℤ) : Zone where
  offsetAt (t : ℤ) := if t < change then seconds (-14400) else seconds (-18000)
  utcoffset w fold := if w < change + (if fold then seconds (-18000) else seconds (-14400)) then
    seconds (-14400) else seconds (-18000)
  shown (t : ℤ) := shown_backZone change t rfl
  bounded t := by
    simp only [seconds]
    split_ifs <;> decide

theorem isTransition_backZone {change t : ℤ} : (backZone change).IsTransition t ↔ t = change := by
  simp only [Zone.IsTransition, backZone, seconds]
  by_cases h : t < change
  · rw [if_pos h, if_pos (by omega)]
    omega
  · by_cases hprev : t - 1 < change
    · rw [if_neg h, if_pos hprev]
      omega
    · rw [if_neg h, if_neg hprev]
      omega

theorem turn_backZone (change : ℤ) (fold : Bool) :
    (backZone change).turn fold change = change + if fold then seconds (-18000) else seconds (-14400) := by
  simp only [Zone.turn, backZone, seconds, lt_self_iff_false, if_false, if_pos (by omega : change - 1 < change)]
  cases fold <;> rfl

/-- A zone that is set back once has the rules of its transition. -/
theorem rules_backZone (change : ℤ) : (backZone change).Rules where
  spaced s t hs ht hst := by
    rw [isTransition_backZone] at hs ht
    omega
  lookup w fold := by
    by_cases h : w < change + if fold then seconds (-18000) else seconds (-14400)
    · refine ⟨change - 1, fun t ht => ?_, ?_⟩
      · rw [isTransition_backZone] at ht
        subst ht
        rw [turn_backZone]
        omega
      · simp only [backZone, if_pos h, if_pos (by omega : change - 1 < change)]
    · refine ⟨change, fun t ht => ?_, ?_⟩
      · rw [isTransition_backZone] at ht
        subst ht
        rw [turn_backZone]
        omega
      · simp only [backZone, if_neg h, lt_self_iff_false, if_false]

/-- New York in the autumn of 2026: the clock is set back on November 1st at 6:00 in UTC. -/
theorem readOnce_newYork :
    ReadOnce (fun name => if name = "America/New_York" then some (backZone 1793512800000000) else none)
      (fun _ => true) "America/New_York" (backZone 1793512800000000) :=
  readOnce (fun _ => true) (if_pos rfl) (rules_backZone 1793512800000000)

end CivicLoop.LaunchLoop
