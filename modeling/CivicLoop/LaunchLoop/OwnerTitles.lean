import CivicLoop.LaunchLoop.EventbriteImport
import CivicLoop.LaunchLoop.FourEyes

/-!
# The titles of the owner's events

The title of an event stands in its own row and in the facts of the current revision of its workflow.
A selection writes the title of the provider's snapshot, an edit of the facts that of the owner. A selection
of an event whose snapshot has not changed keeps the revision, with whatever title the owner gave it since,
but has written the title of the provider to the event already.

## Main definitions

* `refreshEventbriteEvents`, `updateEventFacts` : the refresh of the provider's events, and the edit.
* `PilotAction`, `pilotStep` : the operations of the owner, and the database after one.
* `TitlesMatch` : what should hold in every state.
* `Reselects` : a selection without a change of the snapshot, after the owner changed the title.

## Main results

* `titled_step` : every other operation keeps the titles.
* `titlesMatch_iff` : the titles match in every state of a run if and only if the run has no such selection.
-/

namespace CivicLoop.LaunchLoop

/-! ### The operations -/

/-- `EventbriteEventMetadata`. -/
structure EventMetadata where
  providerEventId : String
  title : String
  status : String
  changedAt : Time
  startAt : Option Time
  endAt : Option Time
  timezone : String

section Operations

variable (fingerprint : EventMetadata → String)

/-- `ProviderEvent.objects.get_or_create`. -/
def sourceOf (event : EventMetadata) (newId : Uuid) (db : PilotDb) :
    Except ServiceError (Uuid × ProviderEvent × PilotDb) :=
  match db.providerEvents.find? fun _ source => source.providerEventId = event.providerEventId with
  | some (id, source) => .ok (id, source, db)
  | none => do
    let source : ProviderEvent := ⟨event.providerEventId, none, none, true⟩
    let providerEvents ← fetch (db.providerEvents.insert? newId source) .integrity
    return (newId, source, { db with providerEvents })

/-- `ProviderEventSnapshot.objects.get_or_create`. -/
def snapshotOf (event : EventMetadata) (sourceId newId : Uuid) (db : PilotDb) :
    Except ServiceError (Uuid × PilotDb) :=
  match db.snapshots.find? fun _ s => s.source = sourceId ∧ s.fingerprint = fingerprint event with
  | some (id, _) => .ok (id, db)
  | none => do
    let snapshots ← fetch (db.snapshots.insert? newId
      ⟨sourceId, fingerprint event, event.title, event.status, event.changedAt, event.startAt, event.endAt,
        event.timezone⟩) .integrity
    return (newId, { db with snapshots })

/-- One event that was read, with the identifiers of the rows it may make. -/
def refreshEvent (event : EventMetadata) (newIds : Uuid × Uuid) (db : PilotDb) : Except ServiceError PilotDb := do
  let (sourceId, source, db) ← sourceOf event newIds.1 db
  let (snapshotId, db) ← snapshotOf fingerprint event sourceId newIds.2 db
  return { db with
    providerEvents := db.providerEvents.set sourceId
      { source with currentSnapshot := some snapshotId, available := true } }

/-- `refresh_eventbrite_events`. -/
def refreshEventbriteEvents (events : List (EventMetadata × Uuid × Uuid)) (reconcileMissing : Bool)
    (db : PilotDb) : Except ServiceError (Unit × PilotDb) := do
  let db ← events.foldlM (fun db event => refreshEvent fingerprint event.1 event.2 db) db
  let seen := events.map fun event => event.1.providerEventId
  if reconcileMissing then
    return ((), { db with
      providerEvents := db.providerEvents.mapValues fun source =>
        if seen.contains source.providerEventId then source else { source with available := false } })
  else return ((), db)

variable (zones : String → Option Zone) (isWebUrl : String → Bool)

/-- What the check of the facts raises, as an operation raises it. -/
def factsError : ConversionError → ServiceError
  | .value => .value "invalid_event_facts"
  | .overflow => .value "overflow"

/-- The text under a key, of a value that is a string. -/
def plainText? (facts : Message) (key : String) : Option String := (facts.text? key).map Text.plain

/-- `update_event_facts`. -/
def updateEventFacts (workflowId : Uuid) (body : Message) (actorId : String) (actor : DemoActor)
    (revisionId transitionId : ℕ) (now : Time) (db : PilotDb) : Except ServiceError (Unit × PilotDb) := do
  let (w, r) ← db.workflowOf workflowId
  ensure (sourceKind r = .manual ∨ sourceKind r = .eventbrite) (.value "owner_event_required")
  ensure (r.author = actorId ∧ actor.role = .operator) (.value "event_owner_required")
  ensure (db.agentRuns.values.all fun run =>
    run.workflow ≠ workflowId || (run.status ≠ "queued" && run.status ≠ "running")) (.value "review_in_progress")
  ensure (w.status = .draft ∨ w.status = .needsInput ∨ w.status = .readyForReview) (.value "review_in_progress")
  let changes ← (validateFacts zones isWebUrl body).mapError factsError
  ensure (changes ≠ []) (.value "invalid_event_facts")
  let facts := updateSnapshot r.snapshot changes
  ensure (db.revisions.values.all fun r' => r'.event ≠ w.event || r'.version ≠ r.version + 1) .integrity
  let revisions ← fetch (db.revisions.insert? revisionId
    ⟨w.event, r.version + 1, facts, actorId, r.sourceSnapshot⟩) .integrity
  let title ← fetch (plainText? facts "title") .keyError
  let w' := { w with revision := revisionId, status := .draft, package := none, packageHash := "" }
  let transitions ← fetch (db.transitions.insert? transitionId
    ⟨workflowId, actorId, some w.status, .draft, "owner_event_facts_saved",
      .obj [("revision", .int (r.version + 1))], now⟩) .integrity
  return ((), { db with
    revisions
    workflows := db.workflows.set workflowId w'
    events := db.events.modify w.event fun e => { e with title := title }
    transitions })

/-- An operation on the tables that all events share. -/
def onDb {α : Type} (operation : Db → Except ServiceError (α × Db)) (db : PilotDb) :
    Except ServiceError (Unit × PilotDb) := do
  let r ← operation db.toDb
  return ((), { db with toDb := r.2 })

end Operations

/-! ### The system -/

/-- What the owner does. -/
inductive PilotAction
  | refresh (events : List (EventMetadata × Uuid × Uuid)) (reconcileMissing : Bool)
  | select (sourceId : Uuid) (actorId : String) (ids : NewIds)
  | update (workflowId : Uuid) (body : Message) (actorId : String) (revisionId transitionId : ℕ)
  | startManual (body : Message) (suffix actorId : String) (ids : NewIds)
  | runWorkflow (workflowId : Uuid) (actorId : String) (transitionId : ℕ)

/-- The parts of the surroundings that the operations use. -/
structure PilotWorld where
  py : Interpreter
  sha256 : Message → String
  ownerPackage : Message → Option Message
  fingerprint : EventMetadata → String
  zones : String → Option Zone
  isWebUrl : String → Bool

variable (world : PilotWorld)

/-- The transaction of an action. -/
def pilotPerform (now : Time) (db : PilotDb) : PilotAction → Except ServiceError (Unit × PilotDb)
  | .refresh events reconcileMissing => refreshEventbriteEvents world.fingerprint events reconcileMissing db
  | .select sourceId actorId ids => (selectEventbriteEvent sourceId actorId ids now db).map fun r => ((), r.2)
  | .update workflowId body actorId revisionId transitionId => do
    let actor ← fetch (db.actors.get? actorId) .notFound
    updateEventFacts world.zones world.isWebUrl workflowId body actorId actor revisionId transitionId now db
  | .startManual body suffix actorId ids => do
    let facts ← (validateFacts world.zones world.isWebUrl body).mapError factsError
    onDb (startManualEvent facts suffix actorId ids now) db
  | .runWorkflow workflowId actorId transitionId => do
    let actor ← fetch (db.actors.get? actorId) .notFound
    onDb (runWorkflow world.py world.sha256 world.ownerPackage workflowId actorId actor transitionId now) db

/-- The database after an action at a time. -/
def pilotStep (db : PilotDb) (action : PilotAction × Time) : PilotDb :=
  commit db (pilotPerform world action.2 db action.1)

/-! ### What should hold -/

/-- A workflow of the owner, on its current revision. -/
def Db.OwnerWorkflow (db : Db) (id : Uuid) (w : Workflow) (r : EventRevision) : Prop :=
  db.workflows.get? id = some w ∧ db.revisions.get? w.revision = some r ∧
    (sourceKind r = .manual ∨ sourceKind r = .eventbrite)

/-- The event of each workflow of the owner has the title of its current revision, which is the newest of the
event. -/
structure TitlesMatch (db : Db) : Prop where
  title : ∀ id w r, db.OwnerWorkflow id w r →
    ∃ event, db.events.get? w.event = some event ∧ plainText? r.snapshot "title" = some event.title
  latest : ∀ id w r, db.OwnerWorkflow id w r → ∀ id' r', db.revisions.get? id' = some r' → r'.event = w.event →
    r'.version ≤ r.version

/-- A selection is accepted and keeps the revision, whose title is not that of the snapshot. -/
def Reselects (db : PilotDb) (action : PilotAction × Time) : Prop :=
  ∃ sourceId actorId ids source snapshotId snapshot event id w r, action.1 = .select sourceId actorId ids ∧
    db.providerEvents.get? sourceId = some source ∧ source.currentSnapshot = some snapshotId ∧
    db.snapshots.get? snapshotId = some snapshot ∧ source.available = true ∧
    (snapshot.status = "draft" ∨ snapshot.status = "live") ∧ source.localEvent = some event ∧
    workflowOfEvent event db = some (id, w) ∧ db.revisions.get? w.revision = some r ∧
    r.sourceSnapshot = some snapshotId ∧ plainText? r.snapshot "title" ≠ some snapshot.title

/-- A database whose rows fit together, without events of the owner. -/
structure PilotDb.Initial (db : PilotDb) : Prop where
  revisionEvent : ∀ id r, db.revisions.get? id = some r → ∃ event, db.events.get? r.event = some event
  workflowRevision : ∀ id w, db.workflows.get? id = some w →
    ∃ r, db.revisions.get? w.revision = some r ∧ r.event = w.event
  oneWorkflow : ∀ id w id' w', db.workflows.get? id = some w → db.workflows.get? id' = some w' →
    w.event = w'.event → id = id'
  noSource : ∀ id, db.providerEvents.get? id = none
  notImported : ∀ id r, db.revisions.get? id = some r → r.sourceSnapshot = none
  noOwner : ∀ id w r, ¬ db.OwnerWorkflow id w r

/-- The rows fit together and the titles match. -/
structure Titled (db : PilotDb) : Prop where
  revisionEvent : ∀ id r, db.revisions.get? id = some r → ∃ event, db.events.get? r.event = some event
  workflowRevision : ∀ id w, db.workflows.get? id = some w →
    ∃ r, db.revisions.get? w.revision = some r ∧ r.event = w.event
  oneWorkflow : ∀ id w id' w', db.workflows.get? id = some w → db.workflows.get? id' = some w' →
    w.event = w'.event → id = id'
  localEvent : ∀ id source e, db.providerEvents.get? id = some source → source.localEvent = some e →
    ∃ event, db.events.get? e = some event
  notSynthetic : ∀ id r, db.revisions.get? id = some r → r.sourceSnapshot ≠ none →
    r.snapshot.get? "synthetic" ≠ some (.bool true)
  titles : TitlesMatch db.toDb

theorem PilotDb.Initial.titled {db : PilotDb} (h : db.Initial) : Titled db where
  revisionEvent := h.revisionEvent
  workflowRevision := h.workflowRevision
  oneWorkflow := h.oneWorkflow
  localEvent id source e hsource := by
    rw [h.noSource] at hsource
    cases hsource
  notSynthetic id r hr hsnapshot := absurd (h.notImported id r hr) hsnapshot
  titles := ⟨fun id w r hw => absurd hw (h.noOwner id w r), fun id w r hw => absurd hw (h.noOwner id w r)⟩

/-! ### What keeps the titles -/

section Keeps

variable {db db' : PilotDb}

/-- A change that leaves events and revisions, and of the workflows the event and the revision. -/
theorem Titled.frame (h : Titled db) (hevents : ∀ i, db'.events.get? i = db.events.get? i)
    (hrevisions : ∀ i, db'.revisions.get? i = db.revisions.get? i)
    (hworkflows : ∀ i w', db'.workflows.get? i = some w' →
      ∃ w, db.workflows.get? i = some w ∧ w'.event = w.event ∧ w'.revision = w.revision)
    (hlocal : ∀ i source e, db'.providerEvents.get? i = some source → source.localEvent = some e →
      ∃ i source, db.providerEvents.get? i = some source ∧ source.localEvent = some e) : Titled db' := by
  have howner {id : Uuid} {w' : Workflow} {r : EventRevision} (hw : db'.OwnerWorkflow id w' r) :
      ∃ w, db.OwnerWorkflow id w r ∧ w'.event = w.event := by
    obtain ⟨hw', hr, hkind⟩ := hw
    obtain ⟨w, hget, hevent, hrevision⟩ := hworkflows id w' hw'
    rw [hrevisions, hrevision] at hr
    exact ⟨w, ⟨hget, hr, hkind⟩, hevent⟩
  refine ⟨?_, ?_, ?_, ?_, ?_, ⟨?_, ?_⟩⟩
  · intro id r hr
    rw [hrevisions] at hr
    rw [hevents]
    exact h.revisionEvent id r hr
  · intro id w' hw'
    obtain ⟨w, hw, hevent, hrevision⟩ := hworkflows id w' hw'
    rw [hrevisions, hevent, hrevision]
    exact h.workflowRevision id w hw
  · intro id₁ w₁ id₂ w₂ hw₁ hw₂ heq
    obtain ⟨w₁', hw₁', hevent₁, -⟩ := hworkflows id₁ w₁ hw₁
    obtain ⟨w₂', hw₂', hevent₂, -⟩ := hworkflows id₂ w₂ hw₂
    exact h.oneWorkflow id₁ w₁' id₂ w₂' hw₁' hw₂' (by rw [← hevent₁, ← hevent₂, heq])
  · intro id source e hsource he
    obtain ⟨i, source', hsource', he'⟩ := hlocal id source e hsource he
    rw [hevents]
    exact h.localEvent i source' e hsource' he'
  · intro id r hr
    rw [hrevisions] at hr
    exact h.notSynthetic id r hr
  · intro id w' r hw
    obtain ⟨w, howner, hevent⟩ := howner hw
    rw [hevents, hevent]
    exact h.titles.title id w r howner
  · intro id w' r hw id' r' hr' hevent'
    obtain ⟨w, howner, hevent⟩ := howner hw
    rw [hrevisions] at hr'
    exact h.titles.latest id w r howner id' r' hr' (by rw [hevent', hevent])

/-- A new revision of an event, newer than the others, becomes that of the workflow of the event, and gives the
event its title. -/
theorem Titled.write (h : Titled db) {revisionId : ℕ} {r' : EventRevision} {id : Uuid} {w' : Workflow}
    {event' : Event}
    (hrevisions : ∀ i, db'.revisions.get? i = if i = revisionId then some r' else db.revisions.get? i)
    (hworkflows : ∀ i, db'.workflows.get? i = if i = id then some w' else db.workflows.get? i)
    (hevents : ∀ i, db'.events.get? i = if i = w'.event then some event' else db.events.get? i)
    (hnew : db.revisions.get? revisionId = none) (hevent : r'.event = w'.event)
    (hrevision : w'.revision = revisionId)
    (hversion : ∀ i r, db.revisions.get? i = some r → r.event = w'.event → r.version < r'.version)
    (htitle : plainText? r'.snapshot "title" = some event'.title)
    (hown : ∀ i w, db.workflows.get? i = some w → w.event = w'.event → i = id)
    (hlocal : ∀ i source e, db'.providerEvents.get? i = some source → source.localEvent = some e →
      e = w'.event ∨ ∃ i source, db.providerEvents.get? i = some source ∧ source.localEvent = some e)
    (hsynthetic : r'.sourceSnapshot ≠ none → r'.snapshot.get? "synthetic" ≠ some (.bool true)) : Titled db' := by
  have hkept {e : ℕ} {event : Event} (he : db.events.get? e = some event) :
      ∃ event, db'.events.get? e = some event := by
    rw [hevents]
    split_ifs
    · exact ⟨event', rfl⟩
    · exact ⟨event, he⟩
  -- the other workflows are of other events
  have hother {i : Uuid} {w : Workflow} (hw : db'.workflows.get? i = some w) (hi : i ≠ id) :
      db.workflows.get? i = some w ∧ w.event ≠ w'.event := by
    rw [hworkflows, if_neg hi] at hw
    exact ⟨hw, fun heq => hi (hown i w hw heq)⟩
  have hold {i : Uuid} {w : Workflow} (hw : db.workflows.get? i = some w) :
      ∃ r, db'.revisions.get? w.revision = some r ∧ db.revisions.get? w.revision = some r ∧ r.event = w.event := by
    obtain ⟨r, hr, hrevent⟩ := h.workflowRevision i w hw
    refine ⟨r, ?_, hr, hrevent⟩
    rw [hrevisions, if_neg, hr]
    rintro heq
    rw [heq, hnew] at hr
    cases hr
  have hself : db'.revisions.get? w'.revision = some r' := by rw [hrevisions, if_pos hrevision]
  refine ⟨?_, ?_, ?_, ?_, ?_, ⟨?_, ?_⟩⟩
  · intro i r hr
    rw [hrevisions] at hr
    split_ifs at hr
    · obtain rfl := Option.some.inj hr
      rw [hevents, if_pos hevent]
      exact ⟨event', rfl⟩
    · obtain ⟨event, he⟩ := h.revisionEvent i r hr
      exact hkept he
  · intro i w hw
    by_cases hi : i = id
    · rw [hworkflows, if_pos hi] at hw
      obtain rfl := Option.some.inj hw
      exact ⟨r', hself, hevent⟩
    · obtain ⟨r, hr, -, hrevent⟩ := hold (hother hw hi).1
      exact ⟨r, hr, hrevent⟩
  · intro i₁ w₁ i₂ w₂ hw₁ hw₂ heq
    by_cases h₁ : i₁ = id
    · by_cases h₂ : i₂ = id
      · rw [h₁, h₂]
      · rw [hworkflows, if_pos h₁] at hw₁
        obtain rfl := Option.some.inj hw₁
        exact absurd heq.symm (hother hw₂ h₂).2
    · by_cases h₂ : i₂ = id
      · rw [hworkflows, if_pos h₂] at hw₂
        obtain rfl := Option.some.inj hw₂
        exact absurd heq (hother hw₁ h₁).2
      · exact h.oneWorkflow i₁ w₁ i₂ w₂ (hother hw₁ h₁).1 (hother hw₂ h₂).1 heq
  · intro i source e hsource he
    rcases hlocal i source e hsource he with rfl | ⟨i', source', hsource', he'⟩
    · rw [hevents, if_pos rfl]
      exact ⟨event', rfl⟩
    · obtain ⟨event, hevent⟩ := h.localEvent i' source' e hsource' he'
      exact hkept hevent
  · intro i r hr
    rw [hrevisions] at hr
    split_ifs at hr
    · obtain rfl := Option.some.inj hr
      exact hsynthetic
    · exact h.notSynthetic i r hr
  · rintro i w r ⟨hw, hr, hkind⟩
    by_cases hi : i = id
    · rw [hworkflows, if_pos hi] at hw
      obtain rfl := Option.some.inj hw
      obtain rfl := Option.some.inj (hself.symm.trans hr)
      rw [hevents, if_pos rfl]
      exact ⟨event', rfl, htitle⟩
    · obtain ⟨hw', hne⟩ := hother hw hi
      obtain ⟨r₀, hr₀, hget, -⟩ := hold hw'
      obtain rfl := Option.some.inj (hr₀.symm.trans hr)
      rw [hevents, if_neg hne]
      exact h.titles.title i w r₀ ⟨hw', hget, hkind⟩
  · rintro i w r ⟨hw, hr, hkind⟩ i' r'' hr'' hevent''
    by_cases hi : i = id
    · rw [hworkflows, if_pos hi] at hw
      obtain rfl := Option.some.inj hw
      obtain rfl := Option.some.inj (hself.symm.trans hr)
      rw [hrevisions] at hr''
      split_ifs at hr''
      · rw [Option.some.inj hr'']
      · exact (hversion i' r'' hr'' hevent'').le
    · obtain ⟨hw', hne⟩ := hother hw hi
      obtain ⟨r₀, hr₀, hget, -⟩ := hold hw'
      obtain rfl := Option.some.inj (hr₀.symm.trans hr)
      rw [hrevisions] at hr''
      split_ifs at hr''
      · obtain rfl := Option.some.inj hr''
        exact absurd (hevent''.symm.trans hevent) hne
      · exact h.titles.latest i w r₀ ⟨hw', hget, hkind⟩ i' r'' hr'' hevent''

end Keeps

/-! ### A refresh -/

section Refresh

variable {db db' : PilotDb}

/-- A change of the provider's rows alone, which gives no source an event. -/
structure KeepsEvents (db db' : PilotDb) : Prop where
  toDb : db'.toDb = db.toDb
  localEvent : ∀ i source e, db'.providerEvents.get? i = some source → source.localEvent = some e →
    ∃ i source, db.providerEvents.get? i = some source ∧ source.localEvent = some e

theorem KeepsEvents.refl (db : PilotDb) : KeepsEvents db db := ⟨rfl, fun i source _ h he => ⟨i, source, h, he⟩⟩

theorem KeepsEvents.trans {db'' : PilotDb} (h : KeepsEvents db db') (h' : KeepsEvents db' db'') :
    KeepsEvents db db'' where
  toDb := h'.toDb.trans h.toDb
  localEvent i source e hsource he := by
    obtain ⟨i', source', hsource', he'⟩ := h'.localEvent i source e hsource he
    exact h.localEvent i' source' e hsource' he'

theorem Titled.keepsEvents (h : Titled db) (hkeeps : KeepsEvents db db') : Titled db' :=
  h.frame (fun i => by rw [hkeeps.toDb]) (fun i => by rw [hkeeps.toDb])
    (fun i w hw => ⟨w, by rw [← hkeeps.toDb]; exact hw, rfl, rfl⟩) hkeeps.localEvent

/-- A source that is found is one there was; one that is made has no event. -/
theorem sourceOf_keeps {event : EventMetadata} {newId sourceId : Uuid} {source : ProviderEvent}
    (h : sourceOf event newId db = .ok (sourceId, source, db')) :
    KeepsEvents db db' ∧ ∀ e, source.localEvent = some e →
      ∃ i source, db.providerEvents.get? i = some source ∧ source.localEvent = some e := by
  unfold sourceOf at h
  split at h
  · rename_i id found hfound
    simp only [Except.ok.injEq, Prod.mk.injEq] at h
    obtain ⟨-, rfl, rfl⟩ := h
    exact ⟨.refl db, fun e he => ⟨id, found, (Table.find?_eq_some hfound).1, he⟩⟩
  · obtain ⟨providerEvents, hinsert, h⟩ := bind_eq_ok.1 h
    rw [fetch_eq_ok] at hinsert
    simp only [pure_eq_ok, Prod.mk.injEq] at h
    obtain ⟨-, rfl, rfl⟩ := h
    refine ⟨⟨rfl, fun i source e hsource he => ?_⟩, fun e he => by cases he⟩
    rw [Table.get?_of_insert? hinsert] at hsource
    split_ifs at hsource
    · obtain rfl := Option.some.inj hsource
      cases he
    · exact ⟨i, source, hsource, he⟩

theorem snapshotOf_keeps {fingerprint : EventMetadata → String} {event : EventMetadata}
    {sourceId newId snapshotId : Uuid} (h : snapshotOf fingerprint event sourceId newId db = .ok (snapshotId, db')) :
    db'.toDb = db.toDb ∧ db'.providerEvents = db.providerEvents := by
  unfold snapshotOf at h
  split at h
  · simp only [Except.ok.injEq, Prod.mk.injEq] at h
    obtain ⟨-, rfl⟩ := h
    exact ⟨rfl, rfl⟩
  · obtain ⟨snapshots, -, h⟩ := bind_eq_ok.1 h
    simp only [pure_eq_ok, Prod.mk.injEq] at h
    obtain ⟨-, rfl⟩ := h
    exact ⟨rfl, rfl⟩

theorem refreshEvent_keeps {fingerprint : EventMetadata → String} {event : EventMetadata} {newIds : Uuid × Uuid}
    (h : refreshEvent fingerprint event newIds db = .ok db') : KeepsEvents db db' := by
  obtain ⟨⟨sourceId, source, db₁⟩, hsource, h⟩ := bind_eq_ok.1 h
  obtain ⟨⟨snapshotId, db₂⟩, hsnapshot, h⟩ := bind_eq_ok.1 h
  obtain rfl := pure_eq_ok.1 h
  obtain ⟨hkeeps, hlocal⟩ := sourceOf_keeps hsource
  obtain ⟨hdb, hproviders⟩ := snapshotOf_keeps hsnapshot
  refine ⟨hdb.trans hkeeps.toDb, fun i source' e hget he => ?_⟩
  simp only [hproviders] at hget
  rw [Table.get?_set] at hget
  split_ifs at hget with hi
  · obtain ⟨_, -, rfl⟩ := Option.map_eq_some_iff.1 hget
    exact hlocal e he
  · exact hkeeps.localEvent i source' e hget he

theorem foldlM_refreshEvent_keeps {fingerprint : EventMetadata → String}
    {events : List (EventMetadata × Uuid × Uuid)}
    (h : events.foldlM (fun db event => refreshEvent fingerprint event.1 event.2 db) db = .ok db') :
    KeepsEvents db db' := by
  induction events generalizing db with
  | nil =>
    obtain rfl := pure_eq_ok.1 h
    exact .refl _
  | cons event events ih =>
    obtain ⟨db₀, hfirst, hrest⟩ := bind_eq_ok.1 h
    exact (refreshEvent_keeps hfirst).trans (ih hrest)

/-- A refresh gives no source an event. -/
theorem refreshEventbriteEvents_keeps {fingerprint : EventMetadata → String}
    {events : List (EventMetadata × Uuid × Uuid)} {reconcileMissing : Bool} {u : Unit}
    (h : refreshEventbriteEvents fingerprint events reconcileMissing db = .ok (u, db')) : KeepsEvents db db' := by
  obtain ⟨db₁, hfold, h⟩ := bind_eq_ok.1 h
  refine (foldlM_refreshEvent_keeps hfold).trans ?_
  simp only at h
  split_ifs at h
  · simp only [pure_eq_ok, Prod.mk.injEq] at h
    obtain ⟨-, rfl⟩ := h
    refine ⟨rfl, fun i source e hget he => ?_⟩
    rw [Table.get?_mapValues] at hget
    obtain ⟨source₀, hsource₀, rfl⟩ := Option.map_eq_some_iff.1 hget
    refine ⟨i, source₀, hsource₀, ?_⟩
    split_ifs at he <;> exact he
  · simp only [pure_eq_ok, Prod.mk.injEq] at h
    obtain ⟨-, rfl⟩ := h
    exact .refl _

end Refresh

/-! ### A selection -/

section Select

variable {db db' : PilotDb} {sourceId snapshotId : Uuid} {source : ProviderEvent}
  {snapshot : ProviderEventSnapshot} {event : ℕ}

theorem workflowOfEvent_eq_some {id : Uuid} {w : Workflow} (h : workflowOfEvent event db = some (id, w)) :
    db.workflows.get? id = some w ∧ w.event = event := by
  have hmem := List.mem_of_mem_head? h
  rw [List.mem_filter, decide_eq_true_eq] at hmem
  exact ⟨Table.mem_sortedRows.1 hmem.1, hmem.2⟩

theorem workflowOfEvent_eq_none (h : workflowOfEvent event db = none) {id : Uuid} {w : Workflow}
    (hw : db.workflows.get? id = some w) : w.event ≠ event := by
  intro hevent
  have hnil := List.head?_eq_none_iff.1 h
  have hmem : (id, w) ∈ db.workflows.sortedRows.filter fun row => row.2.event = event :=
    List.mem_filter.2 ⟨Table.mem_sortedRows.2 hw, by simpa using hevent⟩
  rw [hnil] at hmem
  cases hmem

/-- The next version of an event is newer than all of its revisions. -/
theorem lt_nextVersion {id : ℕ} {r : EventRevision} (hr : db.revisions.get? id = some r) (hevent : r.event = event) :
    r.version < nextVersion event db := by
  have hle (l : List ℕ) (n : ℕ) (hn : n ∈ l) : n ≤ l.foldr max 0 := by
    induction l with
    | nil => cases hn
    | cons m l ih =>
      rcases List.mem_cons.1 hn with rfl | hn
      · exact le_max_left _ _
      · exact (ih hn).trans (le_max_right _ _)
  refine Nat.lt_succ_of_le (hle _ _ ?_)
  refine List.mem_map.2 ⟨r, List.mem_filter.2 ⟨Table.mem_values.2 ⟨id, hr⟩, ?_⟩, rfl⟩
  simpa using hevent

/-- The event of a source: the one it had, or a new one. -/
theorem localEventOf_cases {eventId : ℕ} (h : localEventOf sourceId source snapshot eventId db = .ok (event, db')) :
    (source.localEvent = some event ∧
      db' = { db with events := db.events.modify event fun e => { e with title := snapshot.title } }) ∨
    ∃ events, source.localEvent = none ∧ event = eventId ∧
      db.events.insert? event ⟨"eventbrite-" ++ source.providerEventId, snapshot.title⟩ = some events ∧
      db' = { db with
        events
        providerEvents := db.providerEvents.set sourceId { source with localEvent := some event } } := by
  unfold localEventOf at h
  split at h
  · rename_i e he
    simp only [Except.ok.injEq, Prod.mk.injEq] at h
    obtain ⟨rfl, rfl⟩ := h
    exact .inl ⟨he, rfl⟩
  · rename_i he
    obtain ⟨-, -, h⟩ := bind_eq_ok.1 h
    obtain ⟨events, hevents, h⟩ := bind_eq_ok.1 h
    simp only [pure_eq_ok, Prod.mk.injEq] at h
    obtain ⟨rfl, rfl⟩ := h
    exact .inr ⟨events, he, rfl, fetch_eq_ok.1 hevents, rfl⟩

theorem plainText?_importedFacts (snapshot : ProviderEventSnapshot) :
    plainText? (importedFacts snapshot) "title" = some snapshot.title := rfl

theorem get?_synthetic_importedFacts (snapshot : ProviderEventSnapshot) :
    (importedFacts snapshot).get? "synthetic" = none := rfl

/-- The database after the event of a source is found or made: only the row of the event is written, with the
title of the snapshot. -/
structure Locates (db db₁ : PilotDb) (source : ProviderEvent) (event : ℕ) (event' : Event) : Prop where
  revisions : db₁.revisions = db.revisions
  workflows : db₁.workflows = db.workflows
  events : ∀ i, db₁.events.get? i = if i = event then some event' else db.events.get? i
  localEvent : ∀ i s e, db₁.providerEvents.get? i = some s → s.localEvent = some e →
    e = event ∨ ∃ i s, db.providerEvents.get? i = some s ∧ s.localEvent = some e
  found : (∃ old, source.localEvent = some event ∧ db.events.get? event = some old ∧
      event' = { old with title := event'.title }) ∨ db.events.get? event = none

theorem Titled.locates (h : Titled db) {eventId : ℕ} {db₁ : PilotDb}
    (hsource : db.providerEvents.get? sourceId = some source)
    (hlocate : localEventOf sourceId source snapshot eventId db = .ok (event, db₁)) :
    ∃ event', Locates db db₁ source event event' ∧ event'.title = snapshot.title := by
  rcases localEventOf_cases hlocate with ⟨hlocal, rfl⟩ | ⟨events, -, -, hinsert, rfl⟩
  · obtain ⟨old, hold⟩ := h.localEvent sourceId source event hsource hlocal
    refine ⟨{ old with title := snapshot.title }, ⟨rfl, rfl, fun i => ?_, ?_, .inl ⟨old, hlocal, hold, rfl⟩⟩, rfl⟩
    · rw [Table.get?_modify]
      split_ifs
      · rw [hold]
        rfl
      · rfl
    · exact fun i s e hs he => .inr ⟨i, s, hs, he⟩
  · refine ⟨⟨_, snapshot.title⟩, ⟨rfl, rfl, fun i => Table.get?_of_insert? hinsert i, ?_,
      .inr (Table.insert?_eq_some hinsert).1⟩, rfl⟩
    intro i s e hs he
    simp only [Table.get?_set] at hs
    split_ifs at hs with hi
    · obtain ⟨_, -, rfl⟩ := Option.map_eq_some_iff.1 hs
      exact .inl (Option.some.inj he).symm
    · exact .inr ⟨i, s, hs, he⟩

/-- A workflow has an event, and a revision is of one. -/
theorem Titled.event_of_workflow (h : Titled db) {id : Uuid} {w : Workflow} (hw : db.workflows.get? id = some w) :
    ∃ event, db.events.get? w.event = some event := by
  obtain ⟨r, hr, hevent⟩ := h.workflowRevision id w hw
  rw [← hevent]
  exact h.revisionEvent w.revision r hr

/-- A revision of a snapshot becomes that of the workflow of the event. -/
theorem Titled.importRevision (h : Titled db) {db₁ : PilotDb} {event' : Event} (hlocates : Locates db db₁ source event event')
    (htitle : event'.title = snapshot.title) {actorId : String} {revisionId : ℕ} {id : Uuid} {w' : Workflow}
    {revisions : Table ℕ EventRevision} {workflows : Table Uuid Workflow} {transitions : Table ℕ WorkflowTransition}
    (hinsert : db₁.revisions.insert? revisionId
      ⟨event, nextVersion event db₁, importedFacts snapshot, actorId, some snapshotId⟩ = some revisions)
    (hworkflows : ∀ i, workflows.get? i = if i = id then some w' else db.workflows.get? i)
    (hevent : w'.event = event) (hrevision : w'.revision = revisionId)
    (hown : ∀ i w, db.workflows.get? i = some w → w.event = event → i = id) :
    Titled { db₁ with revisions, workflows, transitions } := by
  have hnew := (Table.insert?_eq_some hinsert).1
  rw [hlocates.revisions] at hnew
  subst hevent
  have hrevisions (i : ℕ) : revisions.get? i = if i = revisionId then some (⟨w'.event, nextVersion w'.event db₁,
      importedFacts snapshot, actorId, some snapshotId⟩ : EventRevision) else db.revisions.get? i := by
    rw [← hlocates.revisions]
    exact Table.get?_of_insert? hinsert i
  refine h.write hrevisions hworkflows hlocates.events hnew rfl hrevision ?_ ?_ hown hlocates.localEvent ?_
  · intro i r hr hrevent
    rw [← hlocates.revisions] at hr
    exact lt_nextVersion hr hrevent
  · rw [htitle]
    exact plainText?_importedFacts snapshot
  · intro _
    rw [get?_synthetic_importedFacts]
    nofun

/-- A revision of a snapshot is one of the owner. -/
theorem Titled.imported (h : Titled db) {id : ℕ} {r : EventRevision} (hr : db.revisions.get? id = some r)
    (hsnapshot : r.sourceSnapshot = some snapshotId) : sourceKind r = .eventbrite := by
  have hnot := h.notSynthetic id r hr (by rw [hsnapshot]; nofun)
  rw [sourceKind, if_neg hnot, if_pos (by rw [hsnapshot]; rfl)]

/-- A selection keeps the titles, unless it keeps a revision with another title. -/
theorem Titled.select (h : Titled db) {actorId : String} {ids : NewIds} {now : Time} {v : Uuid}
    (hselect : selectEventbriteEvent sourceId actorId ids now db = .ok (v, db'))
    (hclear : ¬ Reselects db (.select sourceId actorId ids, now)) : Titled db' := by
  obtain ⟨source, hsource, hselect⟩ := bind_eq_ok.1 hselect
  obtain ⟨snapshotId, hcurrent, hselect⟩ := bind_eq_ok.1 hselect
  obtain ⟨snapshot, hsnapshot, hselect⟩ := bind_eq_ok.1 hselect
  obtain ⟨_, havailable, hselect⟩ := bind_eq_ok.1 hselect
  obtain ⟨⟨event, db₁⟩, hlocate, hselect⟩ := bind_eq_ok.1 hselect
  rw [fetch_eq_ok] at hsource hcurrent hsnapshot
  rw [ensure_eq_ok] at havailable
  obtain ⟨event', hlocates, htitle⟩ := h.locates hsource hlocate
  have hsame : workflowOfEvent event db₁ = workflowOfEvent event db := by
    unfold workflowOfEvent
    rw [hlocates.workflows]
  simp only [hsame] at hselect
  cases hworkflow : workflowOfEvent event db with
  | none =>
    rw [hworkflow] at hselect
    obtain ⟨revisions, hrevisions, hselect⟩ := bind_eq_ok.1 hselect
    obtain ⟨workflows, hworkflows, hselect⟩ := bind_eq_ok.1 hselect
    obtain ⟨transitions, -, hselect⟩ := bind_eq_ok.1 hselect
    rw [fetch_eq_ok] at hrevisions hworkflows
    simp only [pure_eq_ok, Prod.mk.injEq] at hselect
    obtain ⟨rfl, rfl⟩ := hselect
    rw [hlocates.workflows] at hworkflows
    exact h.importRevision hlocates htitle hrevisions (Table.get?_of_insert? hworkflows) rfl rfl
      fun i w hw hevent => absurd hevent (workflowOfEvent_eq_none hworkflow hw)
  | some row =>
    obtain ⟨id, w⟩ := row
    obtain ⟨hw, hwevent⟩ := workflowOfEvent_eq_some hworkflow
    rw [hworkflow] at hselect
    obtain ⟨r, hr, hselect⟩ := bind_eq_ok.1 hselect
    rw [fetch_eq_ok, hlocates.revisions] at hr
    split_ifs at hselect with hkept
    · -- the revision is kept: its title is that of the snapshot, and of the event
      simp only [pure_eq_ok, Prod.mk.injEq] at hselect
      obtain ⟨rfl, rfl⟩ := hselect
      have howner : db.OwnerWorkflow id w r := ⟨hw, hr, .inr (h.imported hr hkept)⟩
      obtain ⟨old, hold, hrtitle⟩ := h.titles.title id w r howner
      rw [hwevent] at hold
      have hunchanged : event' = old := by
        rcases hlocates.found with ⟨old', hlocal, hold', hmade⟩ | hnone
        · obtain rfl := Option.some.inj (hold.symm.trans hold')
          have hequal : plainText? r.snapshot "title" = some snapshot.title := by
            by_contra hne
            exact hclear ⟨sourceId, actorId, ids, source, snapshotId, snapshot, event, id, w, r, rfl, hsource,
              hcurrent, hsnapshot, havailable.1, havailable.2, hlocal, hworkflow, hr, hkept, hne⟩
          rw [hrtitle, Option.some.injEq] at hequal
          rw [hmade, htitle, ← hequal]
        · rw [hold] at hnone
          cases hnone
      refine h.frame (fun i => ?_) (fun i => by rw [hlocates.revisions])
        (fun i w' hw' => ⟨w', by rw [← hlocates.workflows]; exact hw', rfl, rfl⟩) fun i s e hs he => ?_
      · rw [hlocates.events, hunchanged]
        split_ifs with hi
        · rw [hi, hold]
        · rfl
      · rcases hlocates.localEvent i s e hs he with rfl | hexists
        · rcases hlocates.found with ⟨_, hlocal, -, -⟩ | hnone
          · exact ⟨sourceId, source, hsource, hlocal⟩
          · rw [hold] at hnone
            cases hnone
        · exact hexists
    · obtain ⟨-, -, hselect⟩ := bind_eq_ok.1 hselect
      obtain ⟨revisions, hrevisions, hselect⟩ := bind_eq_ok.1 hselect
      obtain ⟨transitions, -, hselect⟩ := bind_eq_ok.1 hselect
      rw [fetch_eq_ok] at hrevisions
      simp only [pure_eq_ok, Prod.mk.injEq] at hselect
      obtain ⟨rfl, rfl⟩ := hselect
      have hworkflows (i : Uuid) : (db₁.workflows.set id { w with
          revision := ids.revision, status := .draft, package := none, packageHash := "" }).get? i =
          if i = id then some { w with
            revision := ids.revision, status := .draft, package := none, packageHash := "" }
          else db.workflows.get? i := by
        rw [hlocates.workflows, Table.get?_set, hw]
        split_ifs <;> rfl
      exact h.importRevision hlocates htitle hrevisions hworkflows hwevent rfl
        fun i w₀ hw₀ hevent => h.oneWorkflow i w₀ id w hw₀ hw (by rw [hevent, hwevent])

end Select

/-! ### An edit -/

section Update

variable {db db' : PilotDb}

theorem lookup_updateItem (items : List (String × Message)) (key : String) (value : Message) {k : String}
    (hk : k ≠ key) : (updateItem items key value).lookup k = items.lookup k := by
  have hkey : (k == key) = false := by simpa using hk
  unfold updateItem
  split_ifs
  · induction items with
    | nil => rfl
    | cons item items ih =>
      rename_i hany
      rw [List.map_cons, List.lookup_cons, List.lookup_cons]
      have hrest : (items.map fun item => if item.1 = key then (key, value) else item).lookup k =
          items.lookup k := by
        clear ih hany
        induction items with
        | nil => rfl
        | cons item items ih =>
          rw [List.map_cons, List.lookup_cons, List.lookup_cons, ih]
          split_ifs with heq
          · rw [heq, hkey]
          · rfl
      rw [hrest]
      split_ifs with heq
      · rw [heq, hkey]
      · rfl
  · rw [List.lookup_append, List.lookup_cons, hkey]
    simp

/-- An update leaves the other keys. -/
theorem get?_updateSnapshot (snapshot : Message) {answers : List (String × String)} {key : String}
    (h : ∀ a ∈ answers, a.1 ≠ key) : (updateSnapshot snapshot answers).get? key = snapshot.get? key := by
  cases snapshot with
  | obj items =>
    change (answers.foldl (fun items a => updateItem items a.1 (.lit a.2)) items).lookup key = items.lookup key
    induction answers generalizing items with
    | nil => rfl
    | cons a answers ih =>
      rw [List.foldl_cons, ih (fun b hb => h b (List.mem_cons_of_mem _ hb)),
        lookup_updateItem _ _ _ (Ne.symm (h a List.mem_cons_self))]
  | _ => rfl

theorem fst_strippedFact {item : String × Message} {fact : String × String} (h : strippedFact item = .ok fact) :
    fact.1 = item.1 := by
  unfold strippedFact at h
  split at h
  · split_ifs at h
    rw [← Except.ok.inj h]
  · cases h

/-- The facts that are accepted are those of the fields. -/
theorem mem_factFields_of_validateFacts {zones : String → Option Zone} {isWebUrl : String → Bool} {value : Message}
    {facts : List (String × String)} (h : validateFacts zones isWebUrl value = .ok facts) :
    ∀ f ∈ facts, f.1 ∈ factFields := by
  obtain ⟨facts', hsingle, h⟩ := bind_eq_ok.1 h
  obtain ⟨_, -, h⟩ := bind_eq_ok.1 h
  obtain rfl := pure_eq_ok.1 h
  obtain ⟨items, -, hsingle⟩ := bind_eq_ok.1 hsingle
  obtain ⟨_, hkeys, hsingle⟩ := bind_eq_ok.1 hsingle
  obtain ⟨facts'', hmap, hsingle⟩ := bind_eq_ok.1 hsingle
  obtain ⟨_, -, hsingle⟩ := bind_eq_ok.1 hsingle
  obtain rfl := pure_eq_ok.1 hsingle
  rw [ensure_eq_ok, List.all_eq_true] at hkeys
  intro f hf
  obtain ⟨item, hitem, hstripped⟩ := exists_of_forall₂ (mapM_eq_ok_iff.1 hmap) hf
  rw [fst_strippedFact hstripped]
  exact List.contains_iff_mem.1 (hkeys item hitem)

/-- An edit of the facts writes the title of the event with that of the revision. -/
theorem Titled.update (h : Titled db) {zones : String → Option Zone} {isWebUrl : String → Bool} {workflowId : Uuid}
    {body : Message} {actorId : String} {actor : DemoActor} {revisionId transitionId : ℕ} {now : Time} {u : Unit}
    (hupdate : updateEventFacts zones isWebUrl workflowId body actorId actor revisionId transitionId now db =
      .ok (u, db')) : Titled db' := by
  obtain ⟨⟨w, r⟩, hworkflow, hupdate⟩ := bind_eq_ok.1 hupdate
  obtain ⟨hw, hr⟩ := workflowOf_eq_ok hworkflow
  obtain ⟨_, hkind, hupdate⟩ := bind_eq_ok.1 hupdate
  obtain ⟨_, -, hupdate⟩ := bind_eq_ok.1 hupdate
  obtain ⟨_, -, hupdate⟩ := bind_eq_ok.1 hupdate
  obtain ⟨_, -, hupdate⟩ := bind_eq_ok.1 hupdate
  obtain ⟨changes, hchanges, hupdate⟩ := bind_eq_ok.1 hupdate
  obtain ⟨_, -, hupdate⟩ := bind_eq_ok.1 hupdate
  obtain ⟨_, -, hupdate⟩ := bind_eq_ok.1 hupdate
  obtain ⟨revisions, hrevisions, hupdate⟩ := bind_eq_ok.1 hupdate
  obtain ⟨title, htitle, hupdate⟩ := bind_eq_ok.1 hupdate
  obtain ⟨transitions, -, hupdate⟩ := bind_eq_ok.1 hupdate
  rw [ensure_eq_ok] at hkind
  rw [mapError_eq_ok] at hchanges
  rw [fetch_eq_ok] at hrevisions htitle
  simp only [pure_eq_ok, Prod.mk.injEq] at hupdate
  obtain ⟨-, rfl⟩ := hupdate
  obtain ⟨event, hevent⟩ := h.event_of_workflow hw
  have hworkflows (i : Uuid) : (db.workflows.set workflowId { w with
      revision := revisionId, status := .draft, package := none, packageHash := "" }).get? i =
      if i = workflowId then some { w with
        revision := revisionId, status := .draft, package := none, packageHash := "" }
      else db.workflows.get? i := by
    rw [Table.get?_set, hw]
    split_ifs <;> rfl
  have hevents (i : ℕ) : (db.events.modify w.event fun e => { e with title := title }).get? i =
      if i = w.event then some { event with title := title } else db.events.get? i := by
    rw [Table.get?_modify, hevent]
    split_ifs <;> rfl
  refine h.write (Table.get?_of_insert? hrevisions) hworkflows hevents (Table.insert?_eq_some hrevisions).1 rfl rfl
    ?_ htitle (fun i w₀ hw₀ heq => h.oneWorkflow i w₀ workflowId w hw₀ hw heq)
    (fun i s e hs he => .inr ⟨i, s, hs, he⟩) ?_
  · intro i r₀ hr₀ hrevent
    exact Nat.lt_succ_of_le (h.titles.latest workflowId w r ⟨hw, hr, hkind⟩ i r₀ hr₀ hrevent)
  · intro hsnapshot
    have hkept : (updateSnapshot r.snapshot changes).get? "synthetic" = r.snapshot.get? "synthetic" := by
      refine get?_updateSnapshot _ fun a ha heq => ?_
      have hfield := mem_factFields_of_validateFacts hchanges a ha
      rw [heq] at hfield
      exact absurd hfield (by decide)
    rw [hkept]
    exact h.notSynthetic w.revision r hr hsnapshot

/-- A manual event starts with its title. -/
theorem Titled.startManual (h : Titled db) {facts : List (String × String)} {suffix actorId : String} {ids : NewIds}
    {now : Time} {u : Unit} (hstart : onDb (startManualEvent facts suffix actorId ids now) db = .ok (u, db')) :
    Titled db' := by
  obtain ⟨⟨v, db₁⟩, hmanual, hdb⟩ := bind_eq_ok.1 hstart
  simp only [pure_eq_ok, Prod.mk.injEq] at hdb
  obtain ⟨-, rfl⟩ := hdb
  obtain ⟨_, -, hmanual⟩ := bind_eq_ok.1 hmanual
  obtain ⟨_, -, hmanual⟩ := bind_eq_ok.1 hmanual
  obtain ⟨events, hevents, hmanual⟩ := bind_eq_ok.1 hmanual
  obtain ⟨revisions, hrevisions, hmanual⟩ := bind_eq_ok.1 hmanual
  obtain ⟨workflows, hworkflows, hmanual⟩ := bind_eq_ok.1 hmanual
  obtain ⟨transitions, -, hmanual⟩ := bind_eq_ok.1 hmanual
  rw [fetch_eq_ok] at hevents hrevisions hworkflows
  simp only [pure_eq_ok, Prod.mk.injEq] at hmanual
  obtain ⟨-, rfl⟩ := hmanual
  have hfresh := (Table.insert?_eq_some hevents).1
  refine h.write (Table.get?_of_insert? hrevisions) (Table.get?_of_insert? hworkflows)
    (Table.get?_of_insert? hevents) (Table.insert?_eq_some hrevisions).1 rfl rfl ?_ ?_ ?_
    (fun i s e hs he => .inr ⟨i, s, hs, he⟩) fun hsnapshot => absurd rfl hsnapshot
  · -- the event is new, so that no revision and no workflow is of it
    intro i r hr hrevent
    obtain ⟨event, hevent⟩ := h.revisionEvent i r hr
    rw [hrevent, hfresh] at hevent
    cases hevent
  · rfl
  · intro i w hw hwevent
    obtain ⟨event, hevent⟩ := h.event_of_workflow hw
    rw [hwevent, hfresh] at hevent
    cases hevent

/-- The rules write the package and the status alone. -/
theorem Titled.runWorkflow (h : Titled db) {py : Interpreter} {sha256 : Message → String}
    {ownerPackage : Message → Option Message} {workflowId : Uuid} {actorId : String} {actor : DemoActor}
    {transitionId : ℕ} {now : Time} {u : Unit}
    (hrun : onDb (LaunchLoop.runWorkflow py sha256 ownerPackage workflowId actorId actor transitionId now) db =
      .ok (u, db')) : Titled db' := by
  obtain ⟨⟨v, db₁⟩, hrules, hdb⟩ := bind_eq_ok.1 hrun
  simp only [pure_eq_ok, Prod.mk.injEq] at hdb
  obtain ⟨-, rfl⟩ := hdb
  obtain ⟨w, r, package, transitions, hw, -, -, -, rfl⟩ := runWorkflow_eq_ok hrules
  refine h.frame (fun _ => rfl) (fun _ => rfl) (fun i w' hw' => ?_) fun i s e hs he => ⟨i, s, hs, he⟩
  by_cases hi : i = workflowId
  · rw [hi] at hw' ⊢
    rw [Table.get?_set_self hw] at hw'
    obtain rfl := Option.some.inj hw'
    exact ⟨w, hw, rfl, rfl⟩
  · rw [Table.get?_set_of_ne _ _ hi] at hw'
    exact ⟨w', hw', rfl, rfl⟩

end Update

/-! ### Runs -/

section Runs

variable (world : PilotWorld) {db : PilotDb}

/-- **Which operations keep the titles.** An operation that does not keep a revision with another title than the
provider's keeps the titles. -/
theorem titled_step (h : Titled db) (action : PilotAction × Time) (hclear : ¬ Reselects db action) :
    Titled (pilotStep world db action) := by
  obtain ⟨action, now⟩ := action
  refine commit_induction h fun u db' hstep => ?_
  cases action with
  | refresh events reconcileMissing => exact h.keepsEvents (refreshEventbriteEvents_keeps hstep)
  | select sourceId actorId ids =>
    obtain ⟨v, hselect⟩ := ok_of_map (f := fun _ => ()) hstep
    exact h.select hselect hclear
  | update workflowId body actorId revisionId transitionId =>
    obtain ⟨actor, -, hupdate⟩ := bind_eq_ok.1 hstep
    exact h.update hupdate
  | startManual body suffix actorId ids =>
    obtain ⟨facts, -, hstart⟩ := bind_eq_ok.1 hstep
    exact h.startManual hstart
  | runWorkflow workflowId actorId transitionId =>
    obtain ⟨actor, -, hrun⟩ := bind_eq_ok.1 hstep
    exact h.runWorkflow hrun

/-- A selection that keeps a revision with another title writes the provider's title beside it. -/
theorem not_titlesMatch_of_reselects (h : Titled db) {action : PilotAction × Time} (hreselects : Reselects db action) :
    ¬ TitlesMatch (pilotStep world db action).toDb := by
  obtain ⟨sourceId, actorId, ids, source, snapshotId, snapshot, event, id, w, r, haction, hsource, hcurrent, hsnapshot,
    havailable, hstatus, hlocal, hworkflow, hr, hkept, hne⟩ := hreselects
  obtain ⟨action, now⟩ := action
  obtain rfl : action = .select sourceId actorId ids := haction
  obtain ⟨hw, hwevent⟩ := workflowOfEvent_eq_some hworkflow
  have hlocate : localEventOf sourceId source snapshot ids.event db = .ok (event, { db with
      events := db.events.modify event fun e => { e with title := snapshot.title } }) := by
    rw [localEventOf, hlocal]
  have hselect : selectEventbriteEvent sourceId actorId ids now db = .ok (id, { db with
      events := db.events.modify event fun e => { e with title := snapshot.title } }) := by
    have hsame : workflowOfEvent event ({ db with
        events := db.events.modify event fun e => { e with title := snapshot.title } } : PilotDb) = some (id, w) :=
      hworkflow
    simp only [selectEventbriteEvent, fetch_bind hsource, fetch_bind hcurrent, fetch_bind hsnapshot,
      ensure_bind (And.intro havailable hstatus), hlocate, ok_bind, hsame, fetch_bind hr, if_pos hkept]
    rfl
  have hstep : pilotStep world db (.select sourceId actorId ids, now) = { db with
      events := db.events.modify event fun e => { e with title := snapshot.title } } := by
    simp only [pilotStep, pilotPerform, hselect]
    rfl
  rw [hstep]
  intro htitles
  obtain ⟨e, he, htitle⟩ := htitles.title id w r ⟨hw, hr, .inr (h.imported hr hkept)⟩
  obtain ⟨old, hold⟩ := h.localEvent sourceId source event hsource hlocal
  rw [hwevent, Table.get?_modify_self, hold] at he
  obtain rfl := Option.some.inj he
  exact hne htitle

/-- **When the titles match.** In every state that a run reaches the titles match if and only if no selection of
the run keeps a revision with another title than the provider's. -/
theorem titlesMatch_iff (h : db.Initial) (as : List (PilotAction × Time)) :
    (∀ bs, bs <+: as → TitlesMatch (Transition.run (pilotStep world) db bs).toDb) ↔
      Transition.AllSteps (pilotStep world) (fun db action => ¬ Reselects db action) db as := by
  have hgood (db : PilotDb) (action : PilotAction × Time) (h : Titled db) (hclear : ¬ Reselects db action) :
      Titled (pilotStep world db action) := titled_step world h action hclear
  have hbad (db : PilotDb) (action : PilotAction × Time) (h : Titled db) (hnot : ¬ ¬ Reselects db action) :
      ¬ TitlesMatch (pilotStep world db action).toDb := not_titlesMatch_of_reselects world h (not_not.1 hnot)
  have hsharp : Transition.AllSteps (pilotStep world) (fun db action => ¬ Reselects db action) db as ↔
      ∀ bs, bs <+: as → (fun db : PilotDb => TitlesMatch db.toDb) (Transition.run (pilotStep world) db bs) :=
    Transition.allSteps_iff_states (fun db (h : Titled db) => h.titles) hgood hbad h.titled as
  exact hsharp.symm

end Runs

/-! ### A breakfast that became a gala -/

/-- The surroundings of a small run. -/
def plainWorld : PilotWorld where
  py := plainInterpreter
  sha256 _ := "hash"
  ownerPackage _ := none
  fingerprint event := event.title
  zones _ := none
  isWebUrl _ := true

/-- A database with the owner alone. -/
def ownerAlone : PilotDb :=
  { Db.empty with
    actors := Table.empty.put "owner-9" ⟨"Owner", .operator, some 9⟩
    providerEvents := .empty
    snapshots := .empty }

theorem initial_ownerAlone : ownerAlone.Initial where
  revisionEvent _ _ h := by cases h
  workflowRevision _ _ h := by cases h
  oneWorkflow _ _ _ _ h := by cases h
  noSource _ := rfl
  notImported _ _ h := by cases h
  noOwner _ _ _ h := by cases h.1

/-- The owner selects an event, changes its title, and selects it again. -/
def reselection : List (PilotAction × Time) :=
  [(.refresh [(⟨"4711", "Breakfast", "draft", 0, none, none, "UTC"⟩, 1, 2)] true, 0),
    (.select 1 "owner-9" ⟨1, 1, 1, 1⟩, 1),
    (.update 1 (.obj [("title", .lit "Gala")]) "owner-9" 2 2, 2),
    (.select 1 "owner-9" ⟨3, 3, 3, 3⟩, 3)]

theorem titlesMatch_iff_reselection : ownerAlone.Initial ∧
    ((∀ bs, bs <+: reselection → TitlesMatch (Transition.run (pilotStep plainWorld) ownerAlone bs).toDb) ↔
      Transition.AllSteps (pilotStep plainWorld) (fun db action => ¬ Reselects db action) ownerAlone reselection) :=
  ⟨initial_ownerAlone, titlesMatch_iff plainWorld initial_ownerAlone reselection⟩

/-- In the end the event is a breakfast again, and its revision is still that of a gala. -/
theorem not_titlesMatch : ownerAlone.Initial ∧
    ¬ ∀ bs, bs <+: reselection → TitlesMatch (Transition.run (pilotStep plainWorld) ownerAlone bs).toDb := by
  refine ⟨initial_ownerAlone, fun h => ?_⟩
  have htitles := (h reselection List.prefix_rfl).title 1
  have hrun : ∃ r, (Transition.run (pilotStep plainWorld) ownerAlone reselection).toDb.OwnerWorkflow 1
      ⟨1, 2, .draft, none, ""⟩ r ∧ plainText? r.snapshot "title" = some "Gala" :=
    ⟨_, ⟨by decide +kernel, rfl, by decide +kernel⟩, by decide +kernel⟩
  obtain ⟨r, howner, hgala⟩ := hrun
  obtain ⟨event, hevent, htitle⟩ := htitles _ r howner
  have hbreakfast : (Transition.run (pilotStep plainWorld) ownerAlone reselection).events.get? 1 =
      some ⟨"eventbrite-4711", "Breakfast"⟩ := by decide +kernel
  rw [hbreakfast] at hevent
  obtain rfl := Option.some.inj hevent
  rw [hgala] at htitle
  exact absurd htitle (by decide)

end CivicLoop.LaunchLoop
