import CivicLoop.LaunchLoop.OwnerFacts

/-!
# Events imported from Eventbrite

The owner selects an event that was read from Eventbrite, and its facts become a revision. The provider's
times are instants; the facts are a date, two wall times and the name of a time zone, which the check of
the facts and the review of a request read as local times of this zone.

The facts are written of the times in UTC. So they denote the instants of the provider if and only if the
zone is at UTC at both.

## Main definitions

* `selectEventbriteEvent` : the import.
* `KeepsInstants` : the facts denote the instants of the provider.

## Main results

* `importedFacts_of_select` : the facts that a selection stores.
* `keepsInstants_iff` : when they denote the instants of the provider.
-/

namespace CivicLoop.LaunchLoop

/-! ### The import -/

structure ProviderEvent where
  providerEventId : String
  currentSnapshot : Option Uuid
  localEvent : Option ℕ
  available : Bool

structure ProviderEventSnapshot where
  source : Uuid
  fingerprint : String
  title : String
  status : String
  changedAt : Time
  startAt : Option Time
  endAt : Option Time
  timezone : String

/-- The tables, and those of the events read from Eventbrite. -/
structure PilotDb extends Db where
  providerEvents : Table Uuid ProviderEvent
  snapshots : Table Uuid ProviderEventSnapshot

/-- The facts of a snapshot. -/
def importedFacts (snapshot : ProviderEventSnapshot) : Message :=
  .obj [("title", .lit snapshot.title), ("city", .lit ""), ("region", .lit ""), ("country", .lit ""),
    ("date", .lit (snapshot.startAt.elim "" fun t => dateText (utcDate t))),
    ("start_time", .lit (snapshot.startAt.elim "" fun t => timeText (utcMinute t))),
    ("end_time", .lit (snapshot.endAt.elim "" fun t => timeText (utcMinute t))),
    ("timezone", .lit snapshot.timezone), ("venue_name", .lit ""), ("venue_address", .lit ""),
    ("access_instructions", .lit ""),
    ("description", .lit "Imported from Eventbrite for local review. Provider text is not copied."),
    ("general_ticket_price", .int 0), ("signup_url", .lit ""), ("sponsor_tier", .lit ""),
    ("sponsor_discount_percent", .int 0)]

/-- The event of a source: the one it has, under the title of the snapshot, or a new one. -/
def localEventOf (sourceId : Uuid) (source : ProviderEvent) (snapshot : ProviderEventSnapshot) (eventId : ℕ)
    (db : PilotDb) : Except ServiceError (ℕ × PilotDb) :=
  match source.localEvent with
  | some event =>
    .ok (event, { db with events := db.events.modify event fun e => { e with title := snapshot.title } })
  | none => do
    let slug := "eventbrite-" ++ source.providerEventId
    ensure (db.events.values.all fun e => e.slug ≠ slug) .integrity
    let events ← fetch (db.events.insert? eventId ⟨slug, snapshot.title⟩) .integrity
    return (eventId, { db with
      events
      providerEvents := db.providerEvents.set sourceId { source with localEvent := some eventId } })

/-- The workflow of an event. -/
def workflowOfEvent (event : ℕ) (db : PilotDb) : Option (Uuid × Workflow) :=
  (db.workflows.sortedRows.filter fun row => row.2.event = event).head?

/-- The version of the next revision of an event. -/
def nextVersion (event : ℕ) (db : PilotDb) : ℕ :=
  ((db.revisions.values.filter fun r => r.event = event).map EventRevision.version).foldr max 0 + 1

/-- `select_eventbrite_event`: the workflow of the event, on a revision with the facts of the current
snapshot. -/
def selectEventbriteEvent (sourceId : Uuid) (actorId : String) (ids : NewIds) (now : Time) (db : PilotDb) :
    Except ServiceError (Uuid × PilotDb) := do
  let source ← fetch (db.providerEvents.get? sourceId) (.value "event_not_found")
  let snapshotId ← fetch source.currentSnapshot (.value "event_unavailable")
  let snapshot ← fetch (db.snapshots.get? snapshotId) .notFound
  ensure (source.available ∧ (snapshot.status = "draft" ∨ snapshot.status = "live"))
    (.value "event_unavailable")
  let (event, db) ← localEventOf sourceId source snapshot ids.event db
  let revision : EventRevision :=
    ⟨event, nextVersion event db, importedFacts snapshot, actorId, some snapshotId⟩
  match workflowOfEvent event db with
  | none =>
    let revisions ← fetch (db.revisions.insert? ids.revision revision) .integrity
    let workflows ← fetch (db.workflows.insert? ids.workflow ⟨event, ids.revision, .draft, none, ""⟩) .integrity
    let transitions ← fetch (db.transitions.insert? ids.transition
      ⟨ids.workflow, actorId, none, .draft, "eventbrite_event_selected",
        .obj [("source_snapshot_id", .str (.uuid snapshotId))], now⟩) .integrity
    return (ids.workflow, { db with revisions, workflows, transitions })
  | some (id, w) =>
    let r ← fetch (db.revisions.get? w.revision) .notFound
    if r.sourceSnapshot = some snapshotId then
      return (id, db)
    ensure (w.status = .draft ∨ w.status = .needsInput) (.value "review_in_progress")
    let revisions ← fetch (db.revisions.insert? ids.revision revision) .integrity
    let transitions ← fetch (db.transitions.insert? ids.transition
      ⟨id, actorId, some w.status, .draft, "eventbrite_event_selected",
        .obj [("source_snapshot_id", .str (.uuid snapshotId))], now⟩) .integrity
    let w := { w with revision := ids.revision, status := .draft, package := none, packageHash := "" }
    return (id, { db with revisions, workflows := db.workflows.set id w, transitions })

section Read

variable (zones : String → Option Zone)

/-! ### What the facts denote -/

/-- The text of a fact. -/
def factText (facts : Message) (key : String) : String := ((facts.text? key).map Text.plain).getD ""

/-- The facts, read as local times of their zone, denote the two instants: in the check of the facts, and
in the review of a request. -/
def KeepsInstants (facts : Message) (start end_ : Time) : Prop :=
  let date := factText facts "date"
  let timezone := factText facts "timezone"
  (pointOf zones date (factText facts "start_time") timezone = .ok start ∧
      pointOf zones date (factText facts "end_time") timezone = .ok end_) ∧
    utcText zones (date ++ "T" ++ factText facts "start_time") timezone = .ok (stampText start) ∧
      utcText zones (date ++ "T" ++ factText facts "end_time") timezone = .ok (stampText end_)

/-- A snapshot of an event of whole minutes in a zone that is known, on one local date, whose wall times
the clock shows once. -/
structure Importable (snapshot : ProviderEventSnapshot) (zone : Zone) (start end_ : Time) : Prop where
  startAt : snapshot.startAt = some start
  endAt : snapshot.endAt = some end_
  known : zones snapshot.timezone = some zone
  startMinute : start % minutes 1 = 0
  endMinute : end_ % minutes 1 = 0
  isDate : IsDate (utcDate start)
  oneDate : utcDate (zone.wall start) = utcDate (zone.wall end_)
  startOnce : zone.Unambiguous (zone.wall start)
  endOnce : zone.Unambiguous (zone.wall end_)

variable {zones} {snapshot : ProviderEventSnapshot} {zone : Zone} {start end_ : Time}

theorem keepsInstants_importedFacts (h : Importable zones snapshot zone start end_) :
    KeepsInstants zones (importedFacts snapshot) start end_ ↔
      (zone.toUtc start = .ok start ∧
          zone.toUtc (wallTime (utcDate start) (utcMinute end_)) = .ok end_) ∧
        (zone.toUtc start).map stampText = .ok (stampText start) ∧
          (zone.toUtc (wallTime (utcDate start) (utcMinute end_))).map stampText =
            .ok (stampText end_) := by
  have hdate : factText (importedFacts snapshot) "date" = dateText (utcDate start) := by
    simp only [importedFacts, h.startAt, h.endAt]
    rfl
  have hstart : factText (importedFacts snapshot) "start_time" = timeText (utcMinute start) := by
    simp only [importedFacts, h.startAt, h.endAt]
    rfl
  have hend : factText (importedFacts snapshot) "end_time" = timeText (utcMinute end_) := by
    simp only [importedFacts, h.startAt, h.endAt]
    rfl
  have hzone : factText (importedFacts snapshot) "timezone" = snapshot.timezone := rfl
  simp only [KeepsInstants, hdate, hstart, hend, hzone, pointOf_text h.known h.isDate (utcMinute_lt _),
    utcText_text h.known h.isDate (utcMinute_lt _), wallTime_utc h.startMinute]

/-- A wall time of the date of the start that is read as the end lies on the date of the end. -/
theorem offsetAt_of_wallTime {t : ℤ} (ht : t % minutes 1 = 0) {days : ℤ}
    (h : zone.wall t = wallTime days (utcMinute t)) : zone.offsetAt t = 0 := by
  have hbound := zone.bounded t
  have hself := wallTime_utc ht
  simp only [Zone.wall, wallTime] at h hself
  rw [show seconds 86400 = 86400000000 from rfl] at hbound h hself
  omega

theorem keepsInstants_iff_offset (h : Importable zones snapshot zone start end_) :
    KeepsInstants zones (importedFacts snapshot) start end_ ↔
      zone.offsetAt start = 0 ∧ zone.offsetAt end_ = 0 := by
  rw [keepsInstants_importedFacts h]
  constructor
  · rintro ⟨⟨hstart, hend⟩, -⟩
    have hwall := (Zone.localInstant_eq_some_iff.1 (Zone.localInstant_of_toUtc hstart)).1
    have hwall' := (Zone.localInstant_eq_some_iff.1 (Zone.localInstant_of_toUtc hend)).1
    refine ⟨?_, offsetAt_of_wallTime h.endMinute hwall'⟩
    unfold Zone.wall at hwall
    omega
  · rintro ⟨hstart, hend⟩
    have hwall : zone.wall start = start := by rw [Zone.wall, hstart, Int.add_zero]
    have hwall' : zone.wall end_ = end_ := by rw [Zone.wall, hend, Int.add_zero]
    have hone := h.oneDate
    rw [hwall, hwall'] at hone
    have hyears : InYears start := h.isDate
    have hyears' : InYears end_ := by
      have hdate := h.isDate
      rwa [hone] at hdate
    have hstart' := Zone.toUtc_wall h.startOnce hyears (by rw [hwall]; exact hyears)
    have hend' := Zone.toUtc_wall h.endOnce hyears' (by rw [hwall']; exact hyears')
    rw [hwall] at hstart'
    rw [hwall'] at hend'
    rw [hone, wallTime_utc h.endMinute, hstart', hend']
    exact ⟨⟨rfl, rfl⟩, rfl, rfl⟩

end Read

/-! ### What a selection stores -/

/-- A selection stores the revision `r`, of a snapshot that is accepted. -/
def Stores (db : PilotDb) (sourceId : Uuid) (actorId : String) (ids : NewIds) (now : Time)
    (snapshot : ProviderEventSnapshot) (r : EventRevision) : Prop :=
  (∃ source snapshotId, db.providerEvents.get? sourceId = some source ∧
    source.currentSnapshot = some snapshotId ∧ db.snapshots.get? snapshotId = some snapshot) ∧
  db.revisions.get? ids.revision = none ∧
  ∃ id db', selectEventbriteEvent sourceId actorId ids now db = .ok (id, db') ∧
    db'.revisions.get? ids.revision = some r

theorem localEventOf_revisions {sourceId : Uuid} {source : ProviderEvent} {eventId event : ℕ} {db db' : PilotDb}
    (h : localEventOf sourceId source snapshot eventId db = .ok (event, db')) :
    db'.revisions = db.revisions := by
  unfold localEventOf at h
  cases hevent : source.localEvent with
  | some event' =>
    rw [hevent] at h
    obtain ⟨-, rfl⟩ := Prod.mk.inj (Except.ok.inj h)
    rfl
  | none =>
    rw [hevent] at h
    obtain ⟨-, -, h⟩ := bind_eq_ok.1 h
    obtain ⟨events, -, h⟩ := bind_eq_ok.1 h
    obtain ⟨-, rfl⟩ := Prod.mk.inj (pure_eq_ok.1 h)
    rfl

/-- The facts that a selection stores are those of the snapshot. -/
theorem Stores.importedFacts {db : PilotDb} {sourceId : Uuid} {actorId : String} {ids : NewIds} {now : Time}
    {r : EventRevision} (h : Stores db sourceId actorId ids now snapshot r) :
    r.snapshot = LaunchLoop.importedFacts snapshot := by
  obtain ⟨⟨source, snapshotId, hsource, hcurrent, hsnapshot⟩, hnew, id, db', h, hr⟩ := h
  obtain ⟨source', hsource', h⟩ := bind_eq_ok.1 h
  rw [fetch_eq_ok, hsource, Option.some.injEq] at hsource'
  subst hsource'
  obtain ⟨snapshotId', hcurrent', h⟩ := bind_eq_ok.1 h
  rw [fetch_eq_ok, hcurrent, Option.some.injEq] at hcurrent'
  subst hcurrent'
  obtain ⟨snapshot', hsnapshot', h⟩ := bind_eq_ok.1 h
  rw [fetch_eq_ok, hsnapshot, Option.some.injEq] at hsnapshot'
  subst hsnapshot'
  obtain ⟨-, -, h⟩ := bind_eq_ok.1 h
  obtain ⟨⟨event, db₁⟩, hevent, h⟩ := bind_eq_ok.1 h
  have hrevisions := localEventOf_revisions hevent
  have hread {revision : EventRevision} {revisions : Table ℕ EventRevision}
      (hinsert : db₁.revisions.insert? ids.revision revision = some revisions)
      (hget : revisions.get? ids.revision = some r) : r = revision := by
    rw [Table.get?_of_insert? hinsert, if_pos rfl, Option.some.injEq] at hget
    exact hget.symm
  simp only at h
  split at h
  · obtain ⟨revisions, hinsert, h⟩ := bind_eq_ok.1 h
    obtain ⟨workflows, -, h⟩ := bind_eq_ok.1 h
    obtain ⟨transitions, -, h⟩ := bind_eq_ok.1 h
    obtain ⟨-, rfl⟩ := Prod.mk.inj (pure_eq_ok.1 h)
    rw [hread (fetch_eq_ok.1 hinsert) hr]
  · obtain ⟨r₀, -, h⟩ := bind_eq_ok.1 h
    split_ifs at h
    · obtain ⟨-, rfl⟩ := Prod.mk.inj (pure_eq_ok.1 h)
      rw [hrevisions, hnew] at hr
      cases hr
    · obtain ⟨-, -, h⟩ := bind_eq_ok.1 h
      obtain ⟨revisions, hinsert, h⟩ := bind_eq_ok.1 h
      obtain ⟨transitions, -, h⟩ := bind_eq_ok.1 h
      obtain ⟨-, rfl⟩ := Prod.mk.inj (pure_eq_ok.1 h)
      rw [hread (fetch_eq_ok.1 hinsert) hr]

/-- **When an import keeps the instants.** The facts that a selection stores, read as local times of their
zone, denote the instants of the provider if and only if the zone has the offset zero at both. -/
theorem keepsInstants_iff (zones : String → Option Zone) (db : PilotDb) (sourceId : Uuid) (actorId : String)
    (ids : NewIds) (now : Time) (snapshot : ProviderEventSnapshot) (r : EventRevision) (zone : Zone)
    (start end_ : Time) (hstored : Stores db sourceId actorId ids now snapshot r)
    (h : Importable zones snapshot zone start end_) :
    KeepsInstants zones r.snapshot start end_ ↔ zone.offsetAt start = 0 ∧ zone.offsetAt end_ = 0 := by
  rw [hstored.importedFacts]
  exact keepsInstants_iff_offset h

/-! ### A breakfast in New York -/

/-- Every import of such a snapshot keeps the instants. -/
def ImportKeepsInstants : Prop :=
  ∀ zones db sourceId actorId ids now snapshot r zone start end_,
    Stores db sourceId actorId ids now snapshot r → Importable zones snapshot zone start end_ →
      KeepsInstants zones r.snapshot start end_

/-- Four hours behind UTC, as New York is in August. -/
def newYork : Zone := fixedZone (seconds (-14400)) (by decide)

/-- The time at Greenwich in January. -/
def london : Zone := fixedZone 0 (by decide)

def sampleZones (name : String) : Option Zone :=
  if name = "America/New_York" then some newYork
  else if name = "Europe/London" then some london
  else none

/-- 2026-08-12, from 13:00 to 16:00 in UTC: from 9:00 to 12:00 in New York. -/
def breakfast : ProviderEventSnapshot :=
  ⟨1, "summer", "Breakfast", "draft", 0, some 1786539600000000, some 1786550400000000, "America/New_York"⟩

/-- 2026-01-12, from 9:00 to 12:00 in London. -/
def winterBreakfast : ProviderEventSnapshot :=
  ⟨1, "winter", "Breakfast", "draft", 0, some 1768208400000000, some 1768219200000000, "Europe/London"⟩

/-- A database with one event that was read. -/
def samplePilot (snapshot : ProviderEventSnapshot) : PilotDb :=
  { Db.empty with
    providerEvents := Table.empty.put 1 ⟨"4711", some 2, none, true⟩
    snapshots := Table.empty.put 2 snapshot }

theorem stores_sample (snapshot : ProviderEventSnapshot) (h : snapshot.status = "draft") :
    Stores (samplePilot snapshot) 1 "owner-9" ⟨1, 1, 1, 1⟩ 0 snapshot
      ⟨1, 1, importedFacts snapshot, "owner-9", some 2⟩ := by
  refine ⟨⟨_, 2, rfl, rfl, rfl⟩, rfl, ?_⟩
  obtain ⟨source, fingerprint, title, status, changedAt, startAt, endAt, timezone⟩ := snapshot
  subst h
  exact ⟨1, _, rfl, rfl⟩

theorem importable_breakfast :
    Importable sampleZones breakfast newYork 1786539600000000 1786550400000000 where
  startAt := rfl
  endAt := rfl
  known := rfl
  startMinute := by decide
  endMinute := by decide
  isDate := by decide
  oneDate := by decide
  startOnce := rfl
  endOnce := rfl

theorem importable_winterBreakfast :
    Importable sampleZones winterBreakfast london 1768208400000000 1768219200000000 where
  startAt := rfl
  endAt := rfl
  known := rfl
  startMinute := by decide
  endMinute := by decide
  isDate := by decide
  oneDate := by decide
  startOnce := rfl
  endOnce := rfl

theorem keepsInstants_iff_sample :
    KeepsInstants sampleZones (importedFacts winterBreakfast) 1768208400000000 1768219200000000 ↔
      london.offsetAt 1768208400000000 = 0 ∧ london.offsetAt 1768219200000000 = 0 :=
  keepsInstants_iff sampleZones (samplePilot winterBreakfast) 1 "owner-9" ⟨1, 1, 1, 1⟩ 0 winterBreakfast _ london
    1768208400000000 1768219200000000 (stores_sample winterBreakfast rfl) importable_winterBreakfast

/-- The facts of the breakfast in New York are read as from 13:00 to 16:00 there. -/
theorem not_importKeepsInstants : ¬ImportKeepsInstants := by
  intro h
  have hkeeps := h sampleZones (samplePilot breakfast) 1 "owner-9" ⟨1, 1, 1, 1⟩ 0 breakfast _ newYork
    1786539600000000 1786550400000000 (stores_sample breakfast rfl) importable_breakfast
  exact absurd ((keepsInstants_iff_offset importable_breakfast).1 hkeeps).1 (by decide)

end CivicLoop.LaunchLoop
