import CivicLoop.LaunchLoop.JudgeRuns
import CivicLoop.LaunchLoop.OwnerTitles

/-!
# Resets of the demo

A reset deletes the rows of the demo and makes a fresh draft. Runs of an agent protect their workflow, and an
event that was read from Eventbrite protects the event it stands for; so a reset raises when such a row refers to
the demo. An owner's event is never one of the demo, so that only the runs stand in the way.

A run is never deleted. So the first run of a workflow of the demo, of the judge or of Hermes, stops every reset
that comes after it.

## Main definitions

* `resetWorkspace` : the reset, with the rows that protect.
* `WorkspaceAction`, `workspaceStep` : the requests to the demo, the two lanes, and the owners.
* `Apart` : the rows of the demo are apart from those of the owners.
* `ResetSucceeds` : what a reset should do.

## Main results

* `apart_step` : every action keeps the demo apart.
* `resetSucceeds_iff` : a reset succeeds in every state of a run if and only if no step starts a run of a workflow
  of the demo.
-/

namespace CivicLoop.LaunchLoop

/-! ### The system -/

/-- `reset_demo`, with the events that protect the event they stand for. -/
def resetWorkspace (users : ℕ × ℕ) (ids : NewIds) (now : Time) (db : PilotDb) :
    Except ServiceError (Uuid × PilotDb) := do
  ensure (db.providerEvents.values.all fun source =>
    source.localEvent.all fun event => !db.demoEvents.contains event) .protectedRow
  let (id, db') ← resetDemo users ids now db.toDb
  return (id, { db with toDb := db' })

/-- The slug of the actor of an owner. -/
def ownerSlug (profileId : String) : String := "owner-" ++ profileId

/-- `owner_operator`. -/
def ownerOperator (profileId : String) (user : ℕ) (displayName : String) (db : PilotDb) : PilotDb :=
  { db with actors := db.actors.put (ownerSlug profileId) ⟨displayName, .operator, some user⟩ }

/-- The operation, as one of the actor with a slug. -/
def PilotAction.byActor (slug : String) : PilotAction → PilotAction
  | .refresh events reconcileMissing => .refresh events reconcileMissing
  | .select sourceId _ ids => .select sourceId slug ids
  | .update workflowId body _ revisionId transitionId => .update workflowId body slug revisionId transitionId
  | .startManual body suffix _ ids => .startManual body suffix slug ids
  | .runWorkflow workflowId _ transitionId => .runWorkflow workflowId slug transitionId

/-- What happens: an action of the demo or of a lane, or an operation of an owner. -/
inductive WorkspaceAction
  | lane (action : LaneAction)
  | owner (profileId : String) (user : ℕ) (displayName : String) (action : PilotAction)

/-- The tables, and the time of the last change. -/
structure WorkspaceState where
  clock : Time
  db : PilotDb

/-- The time of an action that comes `wait` microseconds after the earliest moment. -/
def WorkspaceState.next (s : WorkspaceState) (wait : ℕ) : Time := s.clock + wait + 1

/-- The database without rows. -/
def PilotDb.empty : PilotDb := { Db.empty with providerEvents := .empty, snapshots := .empty }

section System

variable (world : PilotWorld)

/-- The database in which an action is done: the actor of an owner is written first. -/
def WorkspaceAction.enter (db : PilotDb) : WorkspaceAction → PilotDb
  | .lane _ => db
  | .owner profileId user displayName _ => ownerOperator profileId user displayName db

/-- The transaction of an action. -/
def workspacePerform (now : Time) (db : PilotDb) : WorkspaceAction → Except ServiceError (Unit × PilotDb)
  | .lane (.request (.reset users ids)) => (resetWorkspace users ids now db).map fun r => ((), r.2)
  | .lane action => onDb (fun db => perform world.py world.sha256 world.ownerPackage now db action) db
  | .owner profileId _ _ action => pilotPerform world now db (action.byActor (ownerSlug profileId))

/-- One action. -/
def workspaceStep (s : WorkspaceState) (action : ℕ × WorkspaceAction) : WorkspaceState :=
  ⟨s.next action.1, commit (action.2.enter s.db)
    (workspacePerform world (s.next action.1) (action.2.enter s.db) action.2)⟩

end System

/-! ### What a reset should do -/

/-- The event of a synthetic workflow. -/
def Db.SyntheticEvent (db : Db) (event : ℕ) : Prop :=
  ∃ id w r, db.Synthetic id w r ∧ w.event = event

/-- The identifiers are not in use. -/
structure NewIds.Fresh (ids : NewIds) (db : Db) : Prop where
  event : db.events.get? ids.event = none
  revision : db.revisions.get? ids.revision = none
  workflow : db.workflows.get? ids.workflow = none
  transition : db.transitions.get? ids.transition = none

/-- One synthetic workflow is left, a draft of the first revision, without a request or an execution; and every
row of another event is as it was, and every run. -/
structure Renewed (ids : NewIds) (db db' : Db) : Prop where
  draft : db'.Synthetic ids.workflow ⟨ids.event, ids.revision, .draft, none, ""⟩
    ⟨ids.event, 1, newYorkEvent, "maya", none⟩
  only : ∀ id w r, db'.Synthetic id w r → id = ids.workflow
  noApproval : ∀ id a, db'.approvals.get? id = some a → db'.isDemo a.workflow = false
  noExecution : ∀ id x, db'.executions.get? id = some x →
    ∃ a, db'.approvals.get? x.approval = some a ∧ db'.isDemo a.workflow = false
  events : ∀ id event, db.events.get? id = some event → ¬ db.SyntheticEvent id → db'.events.get? id = some event
  revisions : ∀ id r, db.revisions.get? id = some r → ¬ db.SyntheticEvent r.event → db'.revisions.get? id = some r
  workflows : ∀ id w, db.workflows.get? id = some w → ¬ db.SyntheticEvent w.event → db'.workflows.get? id = some w
  agentRuns : db'.agentRuns = db.agentRuns

/-- A reset with fresh identifiers succeeds, and renews the demo alone. -/
def ResetSucceeds (db : PilotDb) : Prop :=
  ∀ users ids now, ids.Fresh db.toDb → ∃ db', resetWorkspace users ids now db = .ok (ids.workflow, db') ∧
    Renewed ids db.toDb db'.toDb ∧ db'.providerEvents = db.providerEvents ∧ db'.snapshots = db.snapshots

/-- The workflow that a judge or a run of Hermes is called for. -/
def LaneAction.target? : LaneAction → Option Uuid
  | .queueHermes workflowId _ _ _ => some workflowId
  | .judge call => some call.workflowId
  | _ => none

/-- The step is an evaluation or a run of Hermes that is admitted, of a workflow of the demo. -/
def RunsDemo (world : PilotWorld) (s : WorkspaceState) (action : ℕ × WorkspaceAction) : Prop :=
  ∃ lane workflowId u db', action.2 = .lane lane ∧ lane.target? = some workflowId ∧
    s.db.isDemo workflowId = true ∧
    perform world.py world.sha256 world.ownerPackage (s.next action.1) s.db.toDb lane = .ok (u, db')

/-! ### The demo apart -/

/-- The revision makes its event one of the demo. -/
def EventRevision.OfDemo (r : EventRevision) : Prop :=
  (r.author = "maya" ∨ r.author = "jordan") ∧ r.sourceSnapshot = none

theorem mem_demoEvents {db : Db} {event : ℕ} :
    db.demoEvents.contains event = true ↔ ∃ id r, db.revisions.get? id = some r ∧ r.OfDemo ∧ r.event = event := by
  rw [List.contains_iff_mem, Db.demoEvents, List.mem_map]
  constructor
  · rintro ⟨r, hr, hevent⟩
    rw [List.mem_filter] at hr
    obtain ⟨id, hget⟩ := Table.mem_values.1 hr.1
    refine ⟨id, r, hget, ?_, hevent⟩
    simpa [EventRevision.OfDemo] using hr.2
  · rintro ⟨id, r, hget, hdemo, hevent⟩
    refine ⟨r, List.mem_filter.2 ⟨Table.mem_values.2 ⟨id, hget⟩, ?_⟩, hevent⟩
    simpa [EventRevision.OfDemo] using hdemo

/-- The events with a revision of the demo are those of the synthetic workflows, and no owner's event is one. -/
structure Apart (db : PilotDb) : Prop where
  linked : db.Linked
  revisionEvent : ∀ id r, db.revisions.get? id = some r → ∃ event, db.events.get? r.event = some event
  ofDemo : ∀ id r, db.revisions.get? id = some r → r.OfDemo → db.SyntheticEvent r.event
  synthetic : ∀ event, db.SyntheticEvent event →
    ∃ id r, db.revisions.get? id = some r ∧ r.OfDemo ∧ r.event = event
  slug : ∀ id event, db.events.get? id = some event → event.slug = "ny-youth-day" → db.SyntheticEvent id
  localEvent : ∀ id source e, db.providerEvents.get? id = some source → source.localEvent = some e →
    (∃ event, db.events.get? e = some event) ∧ ¬ db.SyntheticEvent e

/-- Every run is of a workflow that is not of the demo. -/
def RunsApart (db : PilotDb) : Prop :=
  ∀ id run, db.agentRuns.get? id = some run →
    ∃ w, db.workflows.get? run.workflow = some w ∧ ¬ db.SyntheticEvent w.event

section Apart

variable {db : PilotDb}

theorem apart_empty : Apart PilotDb.empty where
  linked := ⟨fun _ _ h => (by cases h), fun _ _ h => (by cases h), fun _ _ h => (by cases h)⟩
  revisionEvent _ _ h := by cases h
  ofDemo _ _ h := by cases h
  synthetic _ h := by
    obtain ⟨_, _, _, ⟨hw, -⟩, -⟩ := h
    cases hw
  slug _ _ h := by cases h
  localEvent _ _ _ h := by cases h

theorem Apart.contains_iff (h : Apart db) {event : ℕ} :
    db.demoEvents.contains event = true ↔ db.SyntheticEvent event := by
  rw [mem_demoEvents]
  constructor
  · rintro ⟨id, r, hr, hdemo, rfl⟩
    exact h.ofDemo id r hr hdemo
  · intro hsynthetic
    exact h.synthetic event hsynthetic

theorem Apart.contains_eq_false (h : Apart db) {event : ℕ} :
    db.demoEvents.contains event = false ↔ ¬ db.SyntheticEvent event := by
  rw [← h.contains_iff, Bool.not_eq_true]

theorem Apart.isDemo_iff (h : Apart db) {id : Uuid} :
    db.isDemo id = true ↔ ∃ w, db.workflows.get? id = some w ∧ db.SyntheticEvent w.event := by
  simp only [Db.isDemo, Option.any_eq_true, h.contains_iff]

theorem RunsApart.isDemo_eq_false (h : Apart db) (hruns : RunsApart db) {id : Uuid} {run : AgentRun}
    (hrun : db.agentRuns.get? id = some run) : db.isDemo run.workflow = false := by
  obtain ⟨w, hw, hnot⟩ := hruns id run hrun
  rw [← Bool.not_eq_true, h.isDemo_iff]
  rintro ⟨w', hw', hsynthetic⟩
  obtain rfl := Option.some.inj (hw.symm.trans hw')
  exact hnot hsynthetic

end Apart

/-! ### A reset -/

section Reset

variable {db db' : PilotDb} {users : ℕ × ℕ} {ids : NewIds} {now : Time}

/-- The rows after a reset: those that were not of the demo, and the new ones. -/
structure ResetRows (ids : NewIds) (db db' : Db) : Prop where
  events : ∀ i, db'.events.get? i = if i = ids.event then
    some ⟨"ny-youth-day", "New York International Youth Day Networking Breakfast"⟩ else db.withoutDemo.events.get? i
  revisions : ∀ i, db'.revisions.get? i = if i = ids.revision then
    some ⟨ids.event, 1, newYorkEvent, "maya", none⟩ else db.withoutDemo.revisions.get? i
  workflows : ∀ i, db'.workflows.get? i = if i = ids.workflow then
    some ⟨ids.event, ids.revision, .draft, none, ""⟩ else db.withoutDemo.workflows.get? i
  newEvent : db.withoutDemo.events.get? ids.event = none
  newRevision : db.withoutDemo.revisions.get? ids.revision = none
  newWorkflow : db.withoutDemo.workflows.get? ids.workflow = none
  approvals : db'.approvals = db.withoutDemo.approvals
  executions : db'.executions = db.withoutDemo.executions
  agentRuns : db'.agentRuns = db.agentRuns

theorem resetRows_of_resetDemo {db db' : Db} {v : Uuid} (h : resetDemo users ids now db = .ok (v, db')) :
    v = ids.workflow ∧ ResetRows ids db db' := by
  obtain ⟨-, -, h⟩ := bind_eq_ok.1 h
  obtain ⟨-, -, h⟩ := bind_eq_ok.1 h
  obtain ⟨events, hevents, h⟩ := bind_eq_ok.1 h
  obtain ⟨revisions, hrevisions, h⟩ := bind_eq_ok.1 h
  obtain ⟨workflows, hworkflows, h⟩ := bind_eq_ok.1 h
  obtain ⟨transitions, -, h⟩ := bind_eq_ok.1 h
  rw [fetch_eq_ok] at hevents hrevisions hworkflows
  simp only [pure_eq_ok, Prod.mk.injEq] at h
  obtain ⟨rfl, rfl⟩ := h
  exact ⟨rfl, Table.get?_of_insert? hevents, Table.get?_of_insert? hrevisions, Table.get?_of_insert? hworkflows,
    (Table.insert?_eq_some hevents).1, (Table.insert?_eq_some hrevisions).1, (Table.insert?_eq_some hworkflows).1,
    rfl, rfl, rfl⟩

theorem withoutDemo_event {db : Db} {id : ℕ} {event : Event} :
    db.withoutDemo.events.get? id = some event ↔
      db.events.get? id = some event ∧ db.demoEvents.contains id = false := by
  show (db.events.deleteKeys fun id => db.demoEvents.contains id).get? id = some event ↔ _
  rw [Table.get?_deleteKeys]
  split_ifs with h
  · rw [h]
    exact ⟨fun hnone => (by cases hnone), fun hboth => (by cases hboth.2)⟩
  · exact ⟨fun hget => ⟨hget, Bool.eq_false_iff.2 h⟩, And.left⟩

/-- What is missing stays missing. -/
theorem NewIds.Fresh.withoutDemo {db : Db} (h : ids.Fresh db) : ids.Fresh db.withoutDemo where
  event := by
    rw [Option.eq_none_iff_forall_ne_some]
    intro event hevent
    cases (withoutDemo_event.1 hevent).1.symm.trans h.event
  revision := by
    rw [Option.eq_none_iff_forall_ne_some]
    intro r hr
    cases (Db.withoutDemo_revision.1 hr).1.symm.trans h.revision
  workflow := by
    rw [Option.eq_none_iff_forall_ne_some]
    intro w hw
    cases (Db.withoutDemo_workflow.1 hw).1.symm.trans h.workflow
  transition := by
    rw [Option.eq_none_iff_forall_ne_some]
    intro t ht
    cases (Table.get?_of_deleteWhere ht).1.symm.trans h.transition

/-- A reset succeeds if no run is of the demo, no other event has the slug, and the identifiers are fresh. -/
theorem exists_resetDemo (users : ℕ × ℕ) (now : Time) {db : Db}
    (hruns : ∀ id run, db.agentRuns.get? id = some run → db.isDemo run.workflow = false)
    (hslug : ∀ id event, db.withoutDemo.events.get? id = some event → event.slug ≠ "ny-youth-day")
    (hfresh : ids.Fresh db.withoutDemo) : ∃ db', resetDemo users ids now db = .ok (ids.workflow, db') := by
  have hall : (db.agentRuns.values.all fun run => !db.isDemo run.workflow) = true := by
    rw [List.all_eq_true]
    intro run hrun
    obtain ⟨id, hget⟩ := Table.mem_values.1 hrun
    rw [hruns id run hget]
    rfl
  have hslugs : ((db.withoutDemo.seedActors users).events.values.all fun e => e.slug ≠ "ny-youth-day") = true := by
    rw [List.all_eq_true]
    intro event hevent
    obtain ⟨id, hget⟩ := Table.mem_values.1 hevent
    simpa using hslug id event hget
  -- the users do not matter for the other tables
  let seeded := db.withoutDemo.seedActors users
  obtain ⟨events, hevents⟩ := Table.insert?_isSome (t := seeded.events) hfresh.event
    ⟨"ny-youth-day", "New York International Youth Day Networking Breakfast"⟩
  obtain ⟨revisions, hrevisions⟩ := Table.insert?_isSome (t := seeded.revisions) hfresh.revision ⟨ids.event, 1, newYorkEvent, "maya", none⟩
  obtain ⟨workflows, hworkflows⟩ := Table.insert?_isSome (t := seeded.workflows) hfresh.workflow ⟨ids.event, ids.revision, .draft, none, ""⟩
  obtain ⟨transitions, htransitions⟩ := Table.insert?_isSome (t := seeded.transitions) hfresh.transition
    ⟨ids.workflow, "maya", none, .draft, "demo_reset", .obj [("revision", .int 1)], now⟩
  simp only [resetDemo, ensure_bind hall, ensure_bind hslugs]
  rw [fetch_bind hevents, fetch_bind hrevisions, fetch_bind hworkflows, fetch_bind htransitions]
  exact ⟨_, rfl⟩

/-! #### The rows after a reset -/

section Rows

variable (hrows : ResetRows ids db.toDb db'.toDb)
include hrows

theorem ResetRows.event {id : ℕ} {event : Event} (h : db.withoutDemo.events.get? id = some event) :
    id ≠ ids.event ∧ db'.events.get? id = some event := by
  have hne : id ≠ ids.event := by
    rintro rfl
    rw [hrows.newEvent] at h
    cases h
  exact ⟨hne, by rw [hrows.events, if_neg hne, h]⟩

theorem ResetRows.revision {id : ℕ} {r : EventRevision} (h : db.withoutDemo.revisions.get? id = some r) :
    db'.revisions.get? id = some r := by
  have hne : id ≠ ids.revision := by
    rintro rfl
    rw [hrows.newRevision] at h
    cases h
  rw [hrows.revisions, if_neg hne, h]

theorem ResetRows.workflow {id : Uuid} {w : Workflow} (h : db.withoutDemo.workflows.get? id = some w) :
    id ≠ ids.workflow ∧ db'.workflows.get? id = some w := by
  have hne : id ≠ ids.workflow := by
    rintro rfl
    rw [hrows.newWorkflow] at h
    cases h
  exact ⟨hne, by rw [hrows.workflows, if_neg hne, h]⟩

theorem ResetRows.draft : db'.Synthetic ids.workflow ⟨ids.event, ids.revision, .draft, none, ""⟩
    ⟨ids.event, 1, newYorkEvent, "maya", none⟩ := by
  refine ⟨?_, ?_, rfl⟩
  · rw [hrows.workflows, if_pos rfl]
  · rw [hrows.revisions, if_pos rfl]

/-- The only synthetic workflow is the new one. -/
theorem ResetRows.synthetic_iff (h : Apart db) {id : Uuid} {w : Workflow} {r : EventRevision} :
    db'.Synthetic id w r ↔ id = ids.workflow ∧ w = ⟨ids.event, ids.revision, .draft, none, ""⟩ ∧
      r = ⟨ids.event, 1, newYorkEvent, "maya", none⟩ := by
  constructor
  · rintro ⟨hw, hr, hkind⟩
    rw [hrows.workflows] at hw
    split_ifs at hw with hid
    · obtain rfl := Option.some.inj hw
      rw [hrows.revisions, if_pos rfl] at hr
      exact ⟨hid, rfl, (Option.some.inj hr).symm⟩
    · -- an old workflow that is synthetic is of the demo
      obtain ⟨hold, hevent⟩ := Db.withoutDemo_workflow.1 hw
      obtain ⟨r₀, hr₀, hrevent⟩ := (Db.withoutDemo_linked h.linked).revision id w hw
      rw [hrows.revision hr₀] at hr
      obtain rfl := Option.some.inj hr
      exact absurd ⟨id, w, r₀, ⟨hold, (Db.withoutDemo_revision.1 hr₀).1, hkind⟩, rfl⟩
        (h.contains_eq_false.1 hevent)
  · rintro ⟨rfl, rfl, rfl⟩
    exact hrows.draft

theorem ResetRows.syntheticEvent_iff (h : Apart db) {event : ℕ} : db'.SyntheticEvent event ↔ event = ids.event := by
  constructor
  · rintro ⟨id, w, r, hsynthetic, rfl⟩
    obtain ⟨-, rfl, -⟩ := (hrows.synthetic_iff h).1 hsynthetic
    rfl
  · rintro rfl
    exact ⟨_, _, _, hrows.draft, rfl⟩

theorem ResetRows.linked (h : Apart db) : db'.Linked := by
  have hlinked := Db.withoutDemo_linked h.linked
  refine ⟨fun id w hw => ?_, fun id a ha => ?_, fun id x hx => ?_⟩
  · rw [hrows.workflows] at hw
    split_ifs at hw
    · obtain rfl := Option.some.inj hw
      exact ⟨_, by rw [hrows.revisions, if_pos rfl], rfl⟩
    · obtain ⟨r, hr, hevent⟩ := hlinked.revision id w hw
      exact ⟨r, hrows.revision hr, hevent⟩
  · rw [hrows.approvals] at ha
    obtain ⟨w, hw⟩ := hlinked.approval id a ha
    exact ⟨w, (hrows.workflow hw).2⟩
  · rw [hrows.executions] at hx
    rw [hrows.approvals]
    exact hlinked.execution id x hx

/-- A reset keeps the demo apart. -/
theorem Apart.reset (h : Apart db) (hproviders : db'.providerEvents = db.providerEvents) : Apart db' where
  linked := hrows.linked h
  revisionEvent id r hr := by
    rw [hrows.revisions] at hr
    split_ifs at hr
    · obtain rfl := Option.some.inj hr
      exact ⟨_, by rw [hrows.events, if_pos rfl]⟩
    · obtain ⟨hold, hevent⟩ := Db.withoutDemo_revision.1 hr
      obtain ⟨event, hget⟩ := h.revisionEvent id r hold
      exact ⟨event, (hrows.event (withoutDemo_event.2 ⟨hget, hevent⟩)).2⟩
  ofDemo id r hr hdemo := by
    rw [hrows.revisions] at hr
    split_ifs at hr
    · obtain rfl := Option.some.inj hr
      exact (hrows.syntheticEvent_iff h).2 rfl
    · obtain ⟨hold, hevent⟩ := Db.withoutDemo_revision.1 hr
      exact absurd (h.ofDemo id r hold hdemo) (h.contains_eq_false.1 hevent)
  synthetic event hsynthetic := by
    obtain rfl := (hrows.syntheticEvent_iff h).1 hsynthetic
    exact ⟨ids.revision, _, by rw [hrows.revisions, if_pos rfl], ⟨.inl rfl, rfl⟩, rfl⟩
  slug id event hget hslug := by
    rw [hrows.events] at hget
    split_ifs at hget with hid
    · exact (hrows.syntheticEvent_iff h).2 hid
    · obtain ⟨hold, hevent⟩ := withoutDemo_event.1 hget
      exact absurd (h.slug id event hold hslug) (h.contains_eq_false.1 hevent)
  localEvent id source e hsource he := by
    rw [hproviders] at hsource
    obtain ⟨⟨event, hevent⟩, hnot⟩ := h.localEvent id source e hsource he
    obtain ⟨hne, hkept⟩ := hrows.event (withoutDemo_event.2 ⟨hevent, h.contains_eq_false.2 hnot⟩)
    exact ⟨⟨event, hkept⟩, fun hsynthetic => hne ((hrows.syntheticEvent_iff h).1 hsynthetic)⟩

/-- The workflow of a request that is left is not of the demo. -/
theorem ResetRows.isDemo_eq_false (h : Apart db) (h' : Apart db') {id : Uuid} {a : ApprovalRequest}
    (ha : db'.approvals.get? id = some a) : db'.isDemo a.workflow = false := by
  rw [hrows.approvals] at ha
  obtain ⟨w, hw⟩ := (Db.withoutDemo_linked h.linked).approval id a ha
  obtain ⟨hold, hevent⟩ := Db.withoutDemo_workflow.1 hw
  obtain ⟨r, hr, hrevent⟩ := h.linked.revision a.workflow w hold
  obtain ⟨event, hget⟩ := h.revisionEvent w.revision r hr
  rw [hrevent] at hget
  obtain ⟨hne, -⟩ := hrows.event (withoutDemo_event.2 ⟨hget, hevent⟩)
  rw [← Bool.not_eq_true, h'.isDemo_iff]
  rintro ⟨w', hw', hsynthetic⟩
  obtain rfl := Option.some.inj ((hrows.workflow hw).2.symm.trans hw')
  exact hne ((hrows.syntheticEvent_iff h).1 hsynthetic)

theorem Apart.renewed (h : Apart db) (h' : Apart db') : Renewed ids db.toDb db'.toDb where
  draft := hrows.draft
  only id w r hsynthetic := ((hrows.synthetic_iff h).1 hsynthetic).1
  noApproval id a ha := hrows.isDemo_eq_false h h' ha
  noExecution id x hx := by
    obtain ⟨a, ha⟩ := h'.linked.execution id x hx
    exact ⟨a, ha, hrows.isDemo_eq_false h h' ha⟩
  events id event hget hnot := (hrows.event (withoutDemo_event.2 ⟨hget, h.contains_eq_false.2 hnot⟩)).2
  revisions id r hr hnot := hrows.revision (Db.withoutDemo_revision.2 ⟨hr, h.contains_eq_false.2 hnot⟩)
  workflows id w hw hnot := (hrows.workflow (Db.withoutDemo_workflow.2 ⟨hw, h.contains_eq_false.2 hnot⟩)).2
  agentRuns := hrows.agentRuns

end Rows

theorem resetWorkspace_eq_ok {v : Uuid} (h : resetWorkspace users ids now db = .ok (v, db')) :
    v = ids.workflow ∧ ResetRows ids db.toDb db'.toDb ∧ db'.providerEvents = db.providerEvents ∧
      db'.snapshots = db.snapshots ∧
      ∀ id run, db.agentRuns.get? id = some run → db.isDemo run.workflow = false := by
  obtain ⟨_, -, h⟩ := bind_eq_ok.1 h
  obtain ⟨⟨id, tables⟩, hreset, h⟩ := bind_eq_ok.1 h
  simp only [pure_eq_ok, Prod.mk.injEq] at h
  obtain ⟨rfl, rfl⟩ := h
  obtain ⟨hid, hrows⟩ := resetRows_of_resetDemo hreset
  refine ⟨hid, hrows, rfl, rfl, fun runId run hrun => ?_⟩
  obtain ⟨_, hruns, -⟩ := bind_eq_ok.1 hreset
  rw [ensure_eq_ok, List.all_eq_true] at hruns
  have hnot := hruns run (Table.mem_values.2 ⟨runId, hrun⟩)
  simpa using hnot

/-- **A reset succeeds** if the demo is apart and no run is of one of its workflows. -/
theorem Apart.resetSucceeds (h : Apart db) (hruns : RunsApart db) : ResetSucceeds db := by
  intro users ids now hfresh
  have hlocal : (db.providerEvents.values.all fun source =>
      source.localEvent.all fun event => !db.demoEvents.contains event) = true := by
    rw [List.all_eq_true]
    intro source hsource
    obtain ⟨id, hget⟩ := Table.mem_values.1 hsource
    rw [Option.all_eq_true]
    intro e he
    rw [h.contains_eq_false.2 (h.localEvent id source e hget he).2]
    rfl
  have hslug : ∀ id event, db.withoutDemo.events.get? id = some event → event.slug ≠ "ny-youth-day" := by
    intro id event hget hslug
    obtain ⟨hold, hevent⟩ := withoutDemo_event.1 hget
    exact h.contains_eq_false.1 hevent (h.slug id event hold hslug)
  obtain ⟨tables, htables⟩ := exists_resetDemo users now
    (fun id run hrun => hruns.isDemo_eq_false h hrun) hslug hfresh.withoutDemo
  have hok : resetWorkspace users ids now db = .ok (ids.workflow, { db with toDb := tables }) := by
    simp only [resetWorkspace, ensure_bind hlocal, htables]
    rfl
  obtain ⟨-, hrows, hproviders, hsnapshots, -⟩ := resetWorkspace_eq_ok hok
  exact ⟨_, hok, Apart.renewed hrows h (Apart.reset hrows h hproviders), hproviders, hsnapshots⟩

/-- A run of a workflow of the demo stops every reset. -/
theorem not_resetSucceeds {id : Uuid} {run : AgentRun} (hrun : db.agentRuns.get? id = some run)
    (hdemo : db.isDemo run.workflow = true) : ¬ ResetSucceeds db := by
  intro h
  obtain ⟨event, hevent⟩ := db.events.exists_get?_eq_none
  obtain ⟨revision, hrevision⟩ := db.revisions.exists_get?_eq_none
  obtain ⟨workflow, hworkflow⟩ := db.workflows.exists_get?_eq_none
  obtain ⟨transition, htransition⟩ := db.transitions.exists_get?_eq_none
  obtain ⟨db', hok, -⟩ := h (1, 2) ⟨event, revision, workflow, transition⟩ 0
    ⟨hevent, hrevision, hworkflow, htransition⟩
  obtain ⟨-, -, -, -, hruns⟩ := resetWorkspace_eq_ok hok
  rw [hruns id run hrun] at hdemo
  cases hdemo

end Reset

/-! ### What keeps the demo apart -/

section Keeps

variable {db db' : PilotDb}

/-- The rows fit together as before, and the same events are synthetic. -/
structure Keeps (db db' : PilotDb) : Prop where
  linked : db'.Linked
  synthetic : ∀ e, db'.SyntheticEvent e ↔ db.SyntheticEvent e
  revision : ∀ i r, db.revisions.get? i = some r → db'.revisions.get? i = some r
  origin : ∀ i r, db'.revisions.get? i = some r → db.revisions.get? i = some r ∨
    (r.OfDemo → db.SyntheticEvent r.event) ∧ ∃ event, db'.events.get? r.event = some event
  event : ∀ e event, db.events.get? e = some event → ∃ event', db'.events.get? e = some event'
  slug : ∀ e event', db'.events.get? e = some event' → event'.slug = "ny-youth-day" →
    ∃ event, db.events.get? e = some event ∧ event.slug = "ny-youth-day"
  workflow : ∀ i w, db.workflows.get? i = some w → ∃ w', db'.workflows.get? i = some w' ∧ w'.event = w.event
  localEvent : ∀ i source e, db'.providerEvents.get? i = some source → source.localEvent = some e →
    (∃ event, db'.events.get? e = some event) ∧ ¬ db.SyntheticEvent e
  agentRuns : db'.agentRuns = db.agentRuns

theorem Keeps.apart (hkeeps : Keeps db db') (h : Apart db) : Apart db' where
  linked := hkeeps.linked
  revisionEvent id r hr := by
    rcases hkeeps.origin id r hr with hold | ⟨-, hevent⟩
    · obtain ⟨event, hevent⟩ := h.revisionEvent id r hold
      exact hkeeps.event r.event event hevent
    · exact hevent
  ofDemo id r hr hdemo := by
    rw [hkeeps.synthetic]
    rcases hkeeps.origin id r hr with hold | ⟨hnew, -⟩
    · exact h.ofDemo id r hold hdemo
    · exact hnew hdemo
  synthetic event hsynthetic := by
    obtain ⟨id, r, hr, hdemo, hevent⟩ := h.synthetic event ((hkeeps.synthetic event).1 hsynthetic)
    exact ⟨id, r, hkeeps.revision id r hr, hdemo, hevent⟩
  slug id event hget hslug := by
    obtain ⟨old, hold, holdSlug⟩ := hkeeps.slug id event hget hslug
    rw [hkeeps.synthetic]
    exact h.slug id old hold holdSlug
  localEvent id source e hsource he := by
    rw [hkeeps.synthetic]
    exact hkeeps.localEvent id source e hsource he

theorem Keeps.runsApart (hkeeps : Keeps db db') (h : RunsApart db) : RunsApart db' := by
  intro id run hrun
  rw [hkeeps.agentRuns] at hrun
  obtain ⟨w, hw, hnot⟩ := h id run hrun
  obtain ⟨w', hw', hevent⟩ := hkeeps.workflow run.workflow w hw
  exact ⟨w', hw', by rw [hkeeps.synthetic, hevent]; exact hnot⟩

/-- What an event is called in an address. -/
def slugAt (db : PilotDb) (e : ℕ) : Option String := (db.events.get? e).map Event.slug

/-- What binds a workflow. -/
def bindingAt (db : PilotDb) (id : Uuid) : Option (ℕ × ℕ) := (db.workflows.get? id).map fun w => (w.event, w.revision)

theorem bindingAt_eq_some {id : Uuid} {w : Workflow} (h : db.workflows.get? id = some w) :
    bindingAt db id = some (w.event, w.revision) := by
  rw [bindingAt, h]
  rfl

/-- Of a workflow that is bound as before there was a row. -/
theorem exists_of_bindingAt (hbinding : ∀ i, bindingAt db' i = bindingAt db i) {id : Uuid} {w' : Workflow}
    (hw' : db'.workflows.get? id = some w') :
    ∃ w, db.workflows.get? id = some w ∧ w.event = w'.event ∧ w.revision = w'.revision := by
  have hmap := bindingAt_eq_some hw'
  rw [hbinding] at hmap
  obtain ⟨w, hw, hpair⟩ := Option.map_eq_some_iff.1 hmap
  exact ⟨w, hw, (Prod.mk.inj hpair).1, (Prod.mk.inj hpair).2⟩

theorem exists_of_slugAt (hslug : ∀ i, slugAt db' i = slugAt db i) {e : ℕ} {event' : Event}
    (he : db'.events.get? e = some event') : ∃ event, db.events.get? e = some event ∧ event.slug = event'.slug := by
  have hmap : slugAt db' e = some event'.slug := by
    rw [slugAt, he]
    rfl
  rw [hslug] at hmap
  exact Option.map_eq_some_iff.1 hmap

/-- A change that leaves the slugs, the revisions, and what binds the workflows. -/
theorem Keeps.frame (h : Apart db) (hevents : ∀ i, slugAt db' i = slugAt db i)
    (hrevisions : ∀ i, db'.revisions.get? i = db.revisions.get? i)
    (hworkflows : ∀ i, bindingAt db' i = bindingAt db i)
    (happrovals : ∀ i a, db'.approvals.get? i = some a → ∃ w, db.workflows.get? a.workflow = some w)
    (hexecutions : ∀ i x, db'.executions.get? i = some x → ∃ a, db'.approvals.get? x.approval = some a)
    (hlocal : ∀ i source e, db'.providerEvents.get? i = some source → source.localEvent = some e →
      ∃ i source, db.providerEvents.get? i = some source ∧ source.localEvent = some e)
    (hruns : db'.agentRuns = db.agentRuns) : Keeps db db' := by
  have hback (i : ℕ) : bindingAt db i = bindingAt db' i := (hworkflows i).symm
  have hevent {e : ℕ} {event : Event} (he : db.events.get? e = some event) :
      ∃ event', db'.events.get? e = some event' := by
    obtain ⟨event', hget, -⟩ := exists_of_slugAt (fun i => (hevents i).symm) he
    exact ⟨event', hget⟩
  refine ⟨⟨fun id w' hw' => ?_, fun id a ha => ?_, hexecutions⟩, fun e => ⟨?_, ?_⟩, fun i r hr => ?_,
    fun i r hr => .inl ?_, fun e event he => hevent he, fun e event' he hslug => ?_, fun i w hw => ?_,
    fun i source e hsource he => ?_, hruns⟩
  · obtain ⟨w, hw, hwevent, hwrevision⟩ := exists_of_bindingAt hworkflows hw'
    rw [hrevisions, ← hwrevision, ← hwevent]
    exact h.linked.revision id w hw
  · obtain ⟨w, hw⟩ := happrovals id a ha
    obtain ⟨w', hw', -⟩ := exists_of_bindingAt hback hw
    exact ⟨w', hw'⟩
  · rintro ⟨id, w', r, ⟨hw', hr, hkind⟩, rfl⟩
    obtain ⟨w, hw, hwevent, hwrevision⟩ := exists_of_bindingAt hworkflows hw'
    rw [hrevisions, ← hwrevision] at hr
    exact ⟨id, w, r, ⟨hw, hr, hkind⟩, hwevent⟩
  · rintro ⟨id, w, r, ⟨hw, hr, hkind⟩, rfl⟩
    obtain ⟨w', hw', hwevent, hwrevision⟩ := exists_of_bindingAt hback hw
    rw [← hrevisions, ← hwrevision] at hr
    exact ⟨id, w', r, ⟨hw', hr, hkind⟩, hwevent⟩
  · rw [hrevisions]
    exact hr
  · rw [hrevisions] at hr
    exact hr
  · obtain ⟨event, hget, heq⟩ := exists_of_slugAt hevents he
    exact ⟨event, hget, heq.trans hslug⟩
  · obtain ⟨w', hw', hwevent, -⟩ := exists_of_bindingAt hback hw
    exact ⟨w', hw', hwevent⟩
  · obtain ⟨i', source', hsource', he'⟩ := hlocal i source e hsource he
    obtain ⟨⟨event, hget⟩, hnot⟩ := h.localEvent i' source' e hsource' he'
    exact ⟨hevent hget, hnot⟩

/-- A new revision of an event becomes that of a workflow of the event, which was and stays synthetic, or neither. -/
theorem Keeps.write (h : Apart db) {revisionId : ℕ} {r' : EventRevision} {id : Uuid} {w' : Workflow} {slug : String}
    (hrevisions : ∀ i, db'.revisions.get? i = if i = revisionId then some r' else db.revisions.get? i)
    (hworkflows : ∀ i, db'.workflows.get? i = if i = id then some w' else db.workflows.get? i)
    (hevents : ∀ i, slugAt db' i = if i = w'.event then some slug else slugAt db i)
    (hnew : db.revisions.get? revisionId = none) (hevent : r'.event = w'.event)
    (hrevision : w'.revision = revisionId)
    (hsame : ∀ w, db.workflows.get? id = some w → w.event = w'.event)
    (hslug : slug = "ny-youth-day" → slugAt db w'.event = some slug)
    (hsynthetic : sourceKind r' = .synthetic ↔ ∃ w r, db.Synthetic id w r)
    (hdemo : r'.OfDemo → ∃ w r, db.Synthetic id w r)
    (happrovals : ∀ i a, db'.approvals.get? i = some a → ∃ w, db.workflows.get? a.workflow = some w)
    (hexecutions : ∀ i x, db'.executions.get? i = some x → ∃ a, db'.approvals.get? x.approval = some a)
    (hlocal : ∀ i source e, db'.providerEvents.get? i = some source → source.localEvent = some e →
      e = w'.event ∧ ¬ db.SyntheticEvent e ∨
        ∃ i source, db.providerEvents.get? i = some source ∧ source.localEvent = some e)
    (hruns : db'.agentRuns = db.agentRuns) : Keeps db db' := by
  have hkept {i : ℕ} {r : EventRevision} (hr : db.revisions.get? i = some r) : db'.revisions.get? i = some r := by
    rw [hrevisions, if_neg, hr]
    rintro rfl
    rw [hnew] at hr
    cases hr
  have hself : db'.revisions.get? w'.revision = some r' := by rw [hrevisions, if_pos hrevision]
  have hworkflow {i : Uuid} {w : Workflow} (hw : db.workflows.get? i = some w) :
      ∃ w₁, db'.workflows.get? i = some w₁ ∧ w₁.event = w.event := by
    rw [hworkflows]
    split_ifs with hi
    · subst hi
      exact ⟨w', rfl, (hsame w hw).symm⟩
    · exact ⟨w, hw, rfl⟩
  have hexists {e : ℕ} (he : e = w'.event ∨ ∃ event, db.events.get? e = some event) :
      ∃ event, db'.events.get? e = some event := by
    have hsome : ∃ s, slugAt db' e = some s := by
      rw [hevents]
      split_ifs with heq
      · exact ⟨slug, rfl⟩
      · obtain ⟨event, hget⟩ := he.resolve_left heq
        exact ⟨event.slug, by rw [slugAt, hget]; rfl⟩
    obtain ⟨s, hs⟩ := hsome
    obtain ⟨event, hget, -⟩ := Option.map_eq_some_iff.1 hs
    exact ⟨event, hget⟩
  -- a synthetic workflow elsewhere was and stays one
  have hother {i : Uuid} (hi : i ≠ id) {w : Workflow} {r : EventRevision} :
      db'.Synthetic i w r ↔ db.Synthetic i w r := by
    constructor
    · rintro ⟨hw, hr, hkind⟩
      rw [hworkflows, if_neg hi] at hw
      obtain ⟨r₀, hr₀, -⟩ := h.linked.revision i w hw
      obtain rfl := Option.some.inj ((hkept hr₀).symm.trans hr)
      exact ⟨hw, hr₀, hkind⟩
    · rintro ⟨hw, hr, hkind⟩
      exact ⟨by rw [hworkflows, if_neg hi, hw], hkept hr, hkind⟩
  have hselfSynthetic {w : Workflow} {r : EventRevision} :
      db'.Synthetic id w r ↔ w = w' ∧ r = r' ∧ sourceKind r' = .synthetic := by
    constructor
    · rintro ⟨hw, hr, hkind⟩
      rw [hworkflows, if_pos rfl] at hw
      obtain rfl := Option.some.inj hw
      obtain rfl := Option.some.inj (hself.symm.trans hr)
      exact ⟨rfl, rfl, hkind⟩
    · rintro ⟨rfl, rfl, hkind⟩
      exact ⟨by rw [hworkflows, if_pos rfl], hself, hkind⟩
  refine ⟨⟨fun i w hw => ?_, fun i a ha => ?_, hexecutions⟩, fun e => ⟨?_, ?_⟩, fun i r hr => hkept hr,
    fun i r hr => ?_, fun e event he => hexists (.inr ⟨event, he⟩), fun e event' he heq => ?_,
    fun i w hw => hworkflow hw, fun i source e hsource he => ?_, hruns⟩
  · by_cases hi : i = id
    · rw [hworkflows, if_pos hi] at hw
      obtain rfl := Option.some.inj hw
      exact ⟨r', hself, hevent⟩
    · rw [hworkflows, if_neg hi] at hw
      obtain ⟨r, hr, hrevent⟩ := h.linked.revision i w hw
      exact ⟨r, hkept hr, hrevent⟩
  · obtain ⟨w, hw⟩ := happrovals i a ha
    obtain ⟨w₁, hw₁, -⟩ := hworkflow hw
    exact ⟨w₁, hw₁⟩
  · rintro ⟨i, w, r, hsyn, rfl⟩
    by_cases hi : i = id
    · subst hi
      obtain ⟨rfl, rfl, hkind⟩ := hselfSynthetic.1 hsyn
      obtain ⟨w₀, r₀, hold⟩ := hsynthetic.1 hkind
      exact ⟨i, w₀, r₀, hold, hsame w₀ hold.1⟩
    · exact ⟨i, w, r, (hother hi).1 hsyn, rfl⟩
  · rintro ⟨i, w, r, hsyn, rfl⟩
    by_cases hi : i = id
    · subst hi
      exact ⟨i, w', r', hselfSynthetic.2 ⟨rfl, rfl, hsynthetic.2 ⟨w, r, hsyn⟩⟩, (hsame w hsyn.1).symm⟩
    · exact ⟨i, w, r, (hother hi).2 hsyn, rfl⟩
  · rw [hrevisions] at hr
    split_ifs at hr
    · obtain rfl := Option.some.inj hr
      refine .inr ⟨fun hof => ?_, hexists (.inl hevent)⟩
      obtain ⟨w, r₀, hsyn⟩ := hdemo hof
      exact ⟨id, w, r₀, hsyn, by rw [hsame w hsyn.1, hevent]⟩
    · exact .inl hr
  · have hmap : slugAt db' e = some "ny-youth-day" := by
      rw [slugAt, he, Option.map_some, heq]
    rw [hevents] at hmap
    split_ifs at hmap with hself
    · obtain rfl := Option.some.inj hmap
      rw [hself]
      exact Option.map_eq_some_iff.1 (hslug rfl)
    · exact Option.map_eq_some_iff.1 hmap
  · rcases hlocal i source e hsource he with ⟨rfl, hnot⟩ | ⟨i', source', hsource', he'⟩
    · exact ⟨hexists (.inl rfl), hnot⟩
    · obtain ⟨hget, hnot⟩ := h.localEvent i' source' e hsource' he'
      exact ⟨hexists (.inr hget), hnot⟩

end Keeps

/-! ### The demo and the lanes -/

section Lanes

variable {py : Interpreter} {sha256 : Message → String} {ownerPackage : Message → Option Message}
variable {db : PilotDb} {tables : Db} {now : Time} {u : Unit}

theorem bindingAt_set {db' : PilotDb} {id : Uuid} {w w' : Workflow} (hw : db.workflows.get? id = some w)
    (hworkflows : db'.workflows = db.workflows.set id w') (hevent : w'.event = w.event)
    (hrevision : w'.revision = w.revision) (i : Uuid) : bindingAt db' i = bindingAt db i := by
  unfold bindingAt
  rw [hworkflows, Table.get?_set]
  split_ifs with hi
  · rw [hi, hw]
    simp only [Option.map_some, hevent, hrevision]
  · rfl

theorem Keeps.runWorkflow (h : Apart db) {workflowId : Uuid} {actorId : String} {actor : DemoActor} {transitionId : ℕ}
    (hrun : LaunchLoop.runWorkflow py sha256 ownerPackage workflowId actorId actor transitionId now db.toDb =
      .ok (u, tables)) : Keeps db { db with toDb := tables } := by
  obtain ⟨w, r, package, transitions, hw, -, -, -, rfl⟩ := runWorkflow_eq_ok hrun
  exact .frame h (fun _ => rfl) (fun _ => rfl) (bindingAt_set hw rfl rfl rfl) h.linked.approval h.linked.execution
    (fun i source e hsource he => ⟨i, source, hsource, he⟩) rfl

theorem sourceKind_eq_synthetic {r : EventRevision} :
    sourceKind r = .synthetic ↔ r.snapshot.get? "synthetic" = some (.bool true) := by
  unfold sourceKind
  split_ifs with hmark <;> simp [hmark]

theorem ne_synthetic_of_answered {answers : Message} {a : String × String} (ha : a ∈ answeredFields py answers) :
    a.1 ≠ "synthetic" := by
  have hfields : ∀ field ∈ requiredAnswers, field ≠ "synthetic" := by decide
  obtain ⟨hmap, -⟩ := List.mem_filter.1 ha
  obtain ⟨field, hfield, rfl⟩ := List.mem_map.1 hmap
  exact hfields field hfield

theorem Keeps.answerQuestions (h : Apart db) {workflowId : Uuid} {actorId : String} {actor : DemoActor}
    {answers : Message} {revisionId transitionId : ℕ}
    (hanswer : LaunchLoop.answerQuestions py workflowId actorId actor answers revisionId transitionId now db.toDb =
      .ok (u, tables)) : Keeps db { db with toDb := tables } := by
  obtain ⟨w, r, revisions, missing, transitions, hw, hr, hkind, -, hrevisions, htables⟩ :=
    answerQuestions_eq_ok hanswer
  have hsynthetic : ∃ w r, db.Synthetic workflowId w r := ⟨w, r, hw, hr, hkind⟩
  obtain ⟨r₀, hr₀, hevent⟩ := h.linked.revision workflowId w hw
  obtain ⟨event, hget⟩ := h.revisionEvent w.revision r₀ hr₀
  rw [hevent] at hget
  have hslug : slugAt db w.event = some event.slug := by rw [slugAt, hget]; rfl
  have hevents : tables.events = db.events := by rw [htables]
  have hslugs (i : ℕ) : slugAt { db with toDb := tables } i =
      if i = w.event then some event.slug else slugAt db i := by
    rw [show slugAt { db with toDb := tables } i = slugAt db i by rw [slugAt, slugAt, hevents]]
    split_ifs with hi
    · rw [hi, hslug]
    · rfl
  have hworkflows (i : Uuid) : tables.workflows.get? i = if i = workflowId then
      some { w with
        revision := revisionId, package := none, packageHash := "",
        status := if missing then .needsInput else .draft }
      else db.workflows.get? i := by
    rw [htables, Table.get?_set, hw]
    rfl
  have hget' (i : ℕ) : tables.revisions.get? i = if i = revisionId then
      some ⟨w.event, r.version + 1, updateSnapshot r.snapshot (answeredFields py answers), actorId, none⟩
      else db.revisions.get? i := by
    rw [htables]
    exact Table.get?_of_insert? hrevisions i
  refine .write h hget' hworkflows hslugs (Table.insert?_eq_some hrevisions).1 rfl rfl (fun w₀ hw₀ => ?_)
    (fun _ => hslug) ⟨fun _ => hsynthetic, fun _ => ?_⟩ (fun _ => hsynthetic) (fun i a ha => ?_) (fun i x hx => ?_)
    (fun i source e hsource he => .inr ⟨i, source, hsource, he⟩) (by rw [htables])
  · rw [hw, Option.some.injEq] at hw₀
    rw [hw₀]
  · -- answers leave the mark of a synthetic event
    rw [sourceKind_eq_synthetic] at hkind ⊢
    rw [get?_updateSnapshot _ fun a ha => ne_synthetic_of_answered ha]
    exact hkind
  · have hkept : db.approvals.get? i = some a := by
      rw [htables] at ha
      exact (Table.get?_of_deleteWhere ha).1
    exact h.linked.approval i a hkept
  · rw [htables] at hx ⊢
    obtain ⟨hold, hnot⟩ := Table.get?_of_deleteWhere hx
    obtain ⟨a, ha⟩ := h.linked.execution i x hold
    exact ⟨a, Table.get?_deleteWhere_of_keep ha (by simpa [ha] using hnot)⟩

theorem Keeps.submitWorkflow (h : Apart db) {workflowId approvalId v : Uuid} {actorId : String} {actor : DemoActor}
    {transitionId : ℕ}
    (hsubmit : LaunchLoop.submitWorkflow workflowId actorId actor approvalId transitionId now db.toDb =
      .ok (v, tables)) : Keeps db { db with toDb := tables } := by
  obtain ⟨w, r, approvals, transitions, hw, -, -, -, -, happrovals, rfl⟩ := submitWorkflow_eq_ok hsubmit
  have hget := Table.get?_of_insert? happrovals
  have hkept {i : Uuid} {a : ApprovalRequest} (ha : db.approvals.get? i = some a) : approvals.get? i = some a := by
    rw [hget, if_neg, ha]
    rintro rfl
    rw [(Table.insert?_eq_some happrovals).1] at ha
    cases ha
  refine .frame h (fun _ => rfl) (fun _ => rfl) (bindingAt_set hw rfl rfl rfl) (fun i a ha => ?_) (fun i x hx => ?_)
    (fun i source e hsource he => ⟨i, source, hsource, he⟩) rfl
  · simp only [hget] at ha
    split_ifs at ha
    · obtain rfl := Option.some.inj ha
      exact ⟨w, hw⟩
    · exact h.linked.approval i a ha
  · obtain ⟨a, ha⟩ := h.linked.execution i x hx
    exact ⟨a, hkept ha⟩

theorem Keeps.decideApproval (h : Apart db) {approvalId : Uuid} {actorId : String} {actor : DemoActor}
    {decision submittedHash reason : String} {ids : DecisionIds}
    (hdecide : LaunchLoop.decideApproval approvalId actorId actor decision submittedHash reason ids now db.toDb =
      .ok (u, tables)) : Keeps db { db with toDb := tables } := by
  obtain ⟨a, w, r, transitions, ha, hw, -, -, -, -, -, hcases⟩ := decideApproval_eq_ok hdecide
  -- a decision keeps the workflow of the request
  have hworkflow {status : ApprovalStatus} {i : Uuid} {a' : ApprovalRequest}
      (ha' : (db.approvals.set approvalId (a.decided status actorId reason)).get? i = some a') :
      ∃ w, db.workflows.get? a'.workflow = some w := by
    rw [Table.get?_set] at ha'
    split_ifs at ha'
    · rw [ha] at ha'
      obtain rfl := Option.some.inj ha'
      exact ⟨w, hw⟩
    · exact h.linked.approval i a' ha'
  have hkept (status : ApprovalStatus) {i : Uuid} {a' : ApprovalRequest} (ha' : db.approvals.get? i = some a') :
      ∃ a', (db.approvals.set approvalId (a.decided status actorId reason)).get? i = some a' := by
    rw [Table.get?_set]
    split_ifs
    · exact ⟨_, by rw [ha]; rfl⟩
    · exact ⟨a', ha'⟩
  obtain rfl | ⟨key, receipt, executions, -, hexecutions, rfl⟩ := hcases
  · refine .frame h (fun _ => rfl) (fun _ => rfl) (bindingAt_set hw rfl rfl rfl) (fun i a' ha' => hworkflow ha')
      (fun i x hx => ?_) (fun i source e hsource he => ⟨i, source, hsource, he⟩) rfl
    obtain ⟨a', ha'⟩ := h.linked.execution i x hx
    exact hkept .rejected ha'
  · refine .frame h (fun _ => rfl) (fun _ => rfl) (bindingAt_set hw rfl rfl rfl) (fun i a' ha' => hworkflow ha')
      (fun i x hx => ?_) (fun i source e hsource he => ⟨i, source, hsource, he⟩) rfl
    simp only [Table.get?_of_insert? hexecutions] at hx
    split_ifs at hx
    · obtain rfl := Option.some.inj hx
      exact hkept .approved ha
    · obtain ⟨a', ha'⟩ := h.linked.execution i x hx
      exact hkept .approved ha'

/-- A request that is no reset keeps the demo apart. -/
theorem Keeps.handle (h : Apart db) {request : Request} (hreset : ∀ users ids, request ≠ .reset users ids)
    (hhandle : LaunchLoop.handle py sha256 ownerPackage now request db.toDb = .ok (u, tables)) :
    Keeps db { db with toDb := tables } := by
  cases request with
  | reset users ids => exact absurd rfl (hreset users ids)
  | run workflowId actorId transitionId =>
    obtain ⟨actor, -, hrun⟩ := bind_eq_ok.1 hhandle
    exact .runWorkflow h hrun
  | answer workflowId actorId answers revisionId transitionId =>
    obtain ⟨actor, -, hanswer⟩ := bind_eq_ok.1 hhandle
    exact .answerQuestions h hanswer
  | submit workflowId actorId approvalId transitionId =>
    obtain ⟨actor, -, hmap⟩ := bind_eq_ok.1 hhandle
    obtain ⟨v, hsubmit⟩ := ok_of_map (f := fun _ => ()) hmap
    exact .submitWorkflow h hsubmit
  | decide approvalId actorId decision submittedHash reason ids =>
    obtain ⟨actor, -, hdecide⟩ := bind_eq_ok.1 hhandle
    exact .decideApproval h hdecide

/-- A change of the runs alone. -/
theorem Apart.agentRuns (h : Apart db) (agentRuns : Table Uuid AgentRun) :
    Apart { db with toDb := { db.toDb with agentRuns } } where
  linked := ⟨h.linked.revision, h.linked.approval, h.linked.execution⟩
  revisionEvent := h.revisionEvent
  ofDemo := h.ofDemo
  synthetic := h.synthetic
  slug := h.slug
  localEvent := h.localEvent

/-- An action of a lane that is no request writes the runs alone. -/
theorem perform_eq_ok {db db' : Db} {action : LaneAction} (hrequest : ∀ request, action ≠ .request request)
    (hperform : LaunchLoop.perform py sha256 ownerPackage now db action = .ok (u, db')) :
    db' = { db with agentRuns := db'.agentRuns } := by
  cases action with
  | request request => exact absurd rfl (hrequest request)
  | queueHermes workflowId runId provider model =>
    obtain ⟨w, agentRuns, traceId, -, -, rfl⟩ := queueHermes_eq_ok hperform
    rfl
  | progress runId p =>
    obtain ⟨-, rfl⟩ := Prod.mk.inj (pure_eq_ok.1 hperform)
    rfl
  | judge call =>
    obtain ⟨found, hjudge⟩ := ok_of_map (f := fun _ => ()) hperform
    obtain ⟨w, -, ⟨_, _, _, rfl⟩ | ⟨-, _, agentRuns, -, rfl⟩⟩ := runFixedJudge_cases hjudge
    · rfl
    · rfl

/-- Every run after an action of a lane was there, or is for the workflow that the action is for. -/
theorem origin_of_perform {db db' : Db} {action : LaneAction}
    (hperform : LaunchLoop.perform py sha256 ownerPackage now db action = .ok (u, db')) {id : Uuid} {run' : AgentRun}
    (hrun' : db'.agentRuns.get? id = some run') :
    (∃ i run, db.agentRuns.get? i = some run ∧ run'.workflow = run.workflow) ∨
      action.target? = some run'.workflow ∧ ∃ w, db.workflows.get? run'.workflow = some w := by
  cases action with
  | request request =>
    rw [agentRuns_of_handle hperform] at hrun'
    exact .inl ⟨id, run', hrun', rfl⟩
  | queueHermes workflowId runId provider model =>
    obtain ⟨w, agentRuns, traceId, hw, hruns, rfl⟩ := queueHermes_eq_ok hperform
    simp only [Table.get?_of_insert? hruns] at hrun'
    split_ifs at hrun'
    · obtain rfl := Option.some.inj hrun'
      exact .inr ⟨rfl, w, hw⟩
    · exact .inl ⟨id, run', hrun', rfl⟩
  | progress runId p =>
    obtain ⟨-, rfl⟩ := Prod.mk.inj (pure_eq_ok.1 hperform)
    obtain ⟨run, hrun, hbinding⟩ | ⟨_, hadded, -⟩ := (Grows.modify db.agentRuns runId p).origin id run' hrun'
    · exact .inl ⟨id, run, hrun, hbinding.workflow⟩
    · cases hadded
  | judge call =>
    obtain ⟨found, hjudge⟩ := ok_of_map (f := fun _ => ()) hperform
    obtain ⟨w, hw, ⟨_, _, _, rfl⟩ | ⟨-, _, agentRuns, hruns, rfl⟩⟩ := runFixedJudge_cases hjudge
    · exact .inl ⟨id, run', hrun', rfl⟩
    · rw [get?_judged hruns] at hrun'
      split_ifs at hrun'
      · obtain rfl := Option.some.inj hrun'
        exact .inr ⟨rfl, w, hw.get⟩
      · exact .inl ⟨id, run', hrun', rfl⟩

end Lanes

/-! ### The owners -/

section Owners

variable {db db' : PilotDb} {now : Time} {u : Unit}

theorem append_ne {p q s : String} {c d : Char} (hp : p.toList.head? = some c) (hs : s.toList.head? = some d)
    (hne : c ≠ d) : p ++ q ≠ s := by
  rintro rfl
  rw [String.toList_append, List.head?_append, hp, Option.some_or, Option.some.injEq] at hs
  exact hne hs

/-- The actor of an owner is no user of the demo. -/
theorem not_ofDemo {r : EventRevision} {profileId : String} (h : r.author = ownerSlug profileId) : ¬ r.OfDemo := by
  have hmaya : ownerSlug profileId ≠ "maya" := append_ne (c := 'o') (d := 'm') rfl rfl (by decide)
  have hjordan : ownerSlug profileId ≠ "jordan" := append_ne (c := 'o') (d := 'j') rfl rfl (by decide)
  rintro ⟨hauthor | hauthor, -⟩
  · exact hmaya (h.symm.trans hauthor)
  · exact hjordan (h.symm.trans hauthor)

theorem Keeps.keepsEvents (h : Apart db) (hkeeps : KeepsEvents db db') : Keeps db db' := by
  obtain ⟨hdb, hlocal⟩ := hkeeps
  refine .frame h (fun i => ?_) (fun i => by rw [hdb]) (fun i => ?_) (fun i a ha => ?_) (fun i x hx => ?_) hlocal ?_
  · rw [slugAt, slugAt, hdb]
  · rw [bindingAt, bindingAt, hdb]
  · rw [hdb] at ha
    exact h.linked.approval i a ha
  · rw [hdb] at hx ⊢
    exact h.linked.execution i x hx
  · rw [hdb]

/-- An edit of an owner. -/
theorem Keeps.updateEventFacts (h : Apart db) {zones : String → Option Zone} {isWebUrl : String → Bool}
    {workflowId : Uuid} {body : Message} {profileId : String} {actor : DemoActor} {revisionId transitionId : ℕ}
    (hupdate : LaunchLoop.updateEventFacts zones isWebUrl workflowId body (ownerSlug profileId) actor revisionId
      transitionId now db = .ok (u, db')) : Keeps db db' := by
  obtain ⟨⟨w, r⟩, hworkflow, hupdate⟩ := bind_eq_ok.1 hupdate
  obtain ⟨hw, hr⟩ := workflowOf_eq_ok hworkflow
  obtain ⟨_, hkind, hupdate⟩ := bind_eq_ok.1 hupdate
  obtain ⟨_, -, hupdate⟩ := bind_eq_ok.1 hupdate
  obtain ⟨_, -, hupdate⟩ := bind_eq_ok.1 hupdate
  obtain ⟨_, -, hupdate⟩ := bind_eq_ok.1 hupdate
  obtain ⟨changes, hchanges, hupdate⟩ := bind_eq_ok.1 hupdate
  obtain ⟨_, -, hupdate⟩ := bind_eq_ok.1 hupdate
  obtain ⟨_, -, hupdate⟩ := bind_eq_ok.1 hupdate
  obtain ⟨revisions, hrevisions, hupdate⟩ := bind_eq_ok.1 hupdate
  obtain ⟨title, -, hupdate⟩ := bind_eq_ok.1 hupdate
  obtain ⟨transitions, -, hupdate⟩ := bind_eq_ok.1 hupdate
  rw [ensure_eq_ok] at hkind
  rw [mapError_eq_ok] at hchanges
  rw [fetch_eq_ok] at hrevisions
  simp only [pure_eq_ok, Prod.mk.injEq] at hupdate
  obtain ⟨-, rfl⟩ := hupdate
  -- the workflow is the owner's, before and after
  have hnot : ¬ ∃ w r, db.Synthetic workflowId w r := by
    rintro ⟨w₀, r₀, hw₀, hr₀, hsynthetic⟩
    obtain rfl := Option.some.inj (hw.symm.trans hw₀)
    obtain rfl := Option.some.inj (hr.symm.trans hr₀)
    rw [hsynthetic] at hkind
    rcases hkind with hkind | hkind <;> cases hkind
  have hmark : r.snapshot.get? "synthetic" ≠ some (.bool true) := by
    rw [Ne, ← sourceKind_eq_synthetic]
    intro hsynthetic
    exact hnot ⟨w, r, hw, hr, hsynthetic⟩
  have hkept : (updateSnapshot r.snapshot changes).get? "synthetic" = r.snapshot.get? "synthetic" := by
    refine get?_updateSnapshot _ fun a ha heq => ?_
    have hfield := mem_factFields_of_validateFacts hchanges a ha
    rw [heq] at hfield
    exact absurd hfield (by decide)
  obtain ⟨r₀, hr₀, hevent⟩ := h.linked.revision workflowId w hw
  obtain ⟨event, hget⟩ := h.revisionEvent w.revision r₀ hr₀
  rw [hevent] at hget
  have hslug : slugAt db w.event = some event.slug := by rw [slugAt, hget]; rfl
  have hworkflows (i : Uuid) : (db.workflows.set workflowId { w with
      revision := revisionId, status := .draft, package := none, packageHash := "" }).get? i =
      if i = workflowId then some { w with
        revision := revisionId, status := .draft, package := none, packageHash := "" }
      else db.workflows.get? i := by
    rw [Table.get?_set, hw]
    rfl
  have hevents (i : ℕ) : ((db.events.modify w.event fun e => { e with title := title }).get? i).map Event.slug =
      if i = w.event then some event.slug else slugAt db i := by
    rw [Table.get?_modify]
    split_ifs with hi
    · rw [hget]
      rfl
    · rfl
  refine .write h (Table.get?_of_insert? hrevisions) hworkflows hevents (Table.insert?_eq_some hrevisions).1 rfl rfl
    (fun w₀ hw₀ => ?_) (fun _ => hslug) ⟨fun hsynthetic => ?_, fun hexists => absurd hexists hnot⟩
    (fun hof => absurd hof (not_ofDemo rfl)) h.linked.approval h.linked.execution
    (fun i source e hsource he => .inr ⟨i, source, hsource, he⟩) rfl
  · rw [hw, Option.some.injEq] at hw₀
    rw [hw₀]
  · rw [sourceKind_eq_synthetic, hkept] at hsynthetic
    exact absurd hsynthetic hmark

/-- A manual event of an owner. -/
theorem Keeps.startManualEvent (h : Apart db) {facts : List (String × String)} {suffix profileId : String}
    {ids : NewIds}
    (hstart : onDb (LaunchLoop.startManualEvent facts suffix (ownerSlug profileId) ids now) db = .ok (u, db')) :
    Keeps db db' := by
  obtain ⟨⟨v, db₁⟩, hmanual, hdb⟩ := bind_eq_ok.1 hstart
  simp only [pure_eq_ok, Prod.mk.injEq] at hdb
  obtain ⟨-, rfl⟩ := hdb
  obtain ⟨_, -, hmanual⟩ := bind_eq_ok.1 hmanual
  obtain ⟨_, -, hmanual⟩ := bind_eq_ok.1 hmanual
  obtain ⟨events, hevents, hmanual⟩ := bind_eq_ok.1 hmanual
  obtain ⟨revisions, hrevisions, hmanual⟩ := bind_eq_ok.1 hmanual
  obtain ⟨workflows, hworkflows, hmanual⟩ := bind_eq_ok.1 hmanual
  obtain ⟨transitions, -, hmanual⟩ := bind_eq_ok.1 hmanual
  rw [fetch_eq_ok] at hevents hrevisions hworkflows
  simp only [pure_eq_ok, Prod.mk.injEq] at hmanual
  obtain ⟨-, rfl⟩ := hmanual
  have hfresh := (Table.insert?_eq_some hworkflows).1
  have hslugs (i : ℕ) : (events.get? i).map Event.slug =
      if i = ids.event then some ("manual-" ++ suffix) else slugAt db i := by
    rw [Table.get?_of_insert? hevents]
    split_ifs <;> rfl
  refine .write h (Table.get?_of_insert? hrevisions) (Table.get?_of_insert? hworkflows) hslugs
    (Table.insert?_eq_some hrevisions).1 rfl rfl (fun w hw => ?_) (fun heq => ?_) ⟨fun hsynthetic => ?_, ?_⟩
    (fun hof => absurd hof (not_ofDemo rfl)) h.linked.approval h.linked.execution
    (fun i source e hsource he => .inr ⟨i, source, hsource, he⟩) rfl
  · rw [hfresh] at hw
    cases hw
  · exact absurd heq (append_ne (c := 'm') (d := 'n') rfl rfl (by decide))
  · cases hsynthetic
  · rintro ⟨w, r, hw, -⟩
    rw [hfresh] at hw
    cases hw

/-- The event of a workflow has a row. -/
theorem Apart.event_of_workflow (h : Apart db) {id : Uuid} {w : Workflow} (hw : db.workflows.get? id = some w) :
    ∃ event, db.events.get? w.event = some event := by
  obtain ⟨r, hr, hevent⟩ := h.linked.revision id w hw
  rw [← hevent]
  exact h.revisionEvent w.revision r hr

/-- The database after the event of a source is found or made, which is none of the demo. -/
structure LocatesApart (db db₁ : PilotDb) (event : ℕ) (slug : String) : Prop where
  revisions : db₁.revisions = db.revisions
  workflows : db₁.workflows = db.workflows
  approvals : db₁.approvals = db.approvals
  executions : db₁.executions = db.executions
  agentRuns : db₁.agentRuns = db.agentRuns
  slugs : ∀ i, slugAt db₁ i = if i = event then some slug else slugAt db i
  notDemo : slug ≠ "ny-youth-day"
  notSynthetic : ¬ db.SyntheticEvent event
  found : (slugAt db event = some slug ∧
    ∃ i source, db.providerEvents.get? i = some source ∧ source.localEvent = some event) ∨ db.events.get? event = none
  localEvent : ∀ i source e, db₁.providerEvents.get? i = some source → source.localEvent = some e →
    e = event ∨ ∃ i source, db.providerEvents.get? i = some source ∧ source.localEvent = some e

theorem Apart.locates (h : Apart db) {sourceId : Uuid} {source : ProviderEvent} {snapshot : ProviderEventSnapshot}
    {eventId event : ℕ} (hsource : db.providerEvents.get? sourceId = some source)
    (hlocate : localEventOf sourceId source snapshot eventId db = .ok (event, db')) :
    ∃ slug, LocatesApart db db' event slug := by
  rcases localEventOf_cases hlocate with ⟨hlocal, rfl⟩ | ⟨events, -, -, hinsert, rfl⟩
  · obtain ⟨⟨old, hold⟩, hnot⟩ := h.localEvent sourceId source event hsource hlocal
    have hslug : slugAt db event = some old.slug := by rw [slugAt, hold]; rfl
    refine ⟨old.slug, ⟨rfl, rfl, rfl, rfl, rfl, fun i => ?_, fun heq => hnot (h.slug event old hold heq), hnot,
      .inl ⟨hslug, sourceId, source, hsource, hlocal⟩, fun i s e hs he => .inr ⟨i, s, hs, he⟩⟩⟩
    simp only [slugAt, Table.get?_modify]
    split_ifs
    · rw [hold]
      rfl
    · rfl
  · have hfresh := (Table.insert?_eq_some hinsert).1
    refine ⟨"eventbrite-" ++ source.providerEventId, ⟨rfl, rfl, rfl, rfl, rfl, fun i => ?_, append_ne (c := 'e') (d := 'n') rfl rfl (by decide), ?_, .inr hfresh,
      fun i s e hs he => ?_⟩⟩
    · simp only [slugAt, Table.get?_of_insert? hinsert]
      split_ifs <;> rfl
    · rintro ⟨id, w, r, ⟨hw, -⟩, rfl⟩
      obtain ⟨e, he⟩ := h.event_of_workflow hw
      rw [hfresh] at he
      cases he
    · simp only [Table.get?_set] at hs
      split_ifs at hs
      · obtain ⟨_, -, rfl⟩ := Option.map_eq_some_iff.1 hs
        exact .inl (Option.some.inj he).symm
      · exact .inr ⟨i, s, hs, he⟩

/-- A revision of a snapshot becomes that of the workflow of the event. -/
theorem LocatesApart.importRevision (w' : Workflow) {db₁ : PilotDb} {slug : String} {id : Uuid} {revisionId : ℕ}
    {actorId : String} {snapshot : ProviderEventSnapshot} {snapshotId : Uuid} {version : ℕ}
    {revisions : Table ℕ EventRevision} {workflows : Table Uuid Workflow} {transitions : Table ℕ WorkflowTransition}
    (hlocates : LocatesApart db db₁ w'.event slug) (h : Apart db)
    (hinsert : db₁.revisions.insert? revisionId
      ⟨w'.event, version, importedFacts snapshot, actorId, some snapshotId⟩ = some revisions)
    (hworkflows : ∀ i, workflows.get? i = if i = id then some w' else db.workflows.get? i)
    (hrevision : w'.revision = revisionId) (hsame : ∀ w, db.workflows.get? id = some w → w.event = w'.event) :
    Keeps db { db₁ with revisions, workflows, transitions } := by
  have hnew := (Table.insert?_eq_some hinsert).1
  rw [hlocates.revisions] at hnew
  have hrevisions (i : ℕ) : revisions.get? i = if i = revisionId then some (⟨w'.event, version,
      importedFacts snapshot, actorId, some snapshotId⟩ : EventRevision) else db.revisions.get? i := by
    rw [← hlocates.revisions]
    exact Table.get?_of_insert? hinsert i
  have hnot : ¬ ∃ w r, db.Synthetic id w r := by
    rintro ⟨w, r, hsynthetic⟩
    exact hlocates.notSynthetic ⟨id, w, r, hsynthetic, hsame w hsynthetic.1⟩
  refine .write h hrevisions hworkflows hlocates.slugs hnew rfl hrevision hsame
    (fun heq => absurd heq hlocates.notDemo) ⟨fun hsynthetic => ?_, fun hexists => absurd hexists hnot⟩
    (fun hof => ?_) (fun i a ha => ?_) (fun i x hx => ?_) (fun i source e hsource he => ?_) hlocates.agentRuns
  · rw [sourceKind_eq_synthetic, get?_synthetic_importedFacts] at hsynthetic
    cases hsynthetic
  · cases hof.2
  · rw [hlocates.approvals] at ha
    exact h.linked.approval i a ha
  · rw [hlocates.approvals]
    rw [hlocates.executions] at hx
    exact h.linked.execution i x hx
  · rcases hlocates.localEvent i source e hsource he with rfl | hold
    · exact .inl ⟨rfl, hlocates.notSynthetic⟩
    · exact .inr hold

/-- A selection of an event of the provider. -/
theorem Keeps.selectEventbriteEvent (h : Apart db) {sourceId v : Uuid} {actorId : String} {ids : NewIds}
    (hselect : LaunchLoop.selectEventbriteEvent sourceId actorId ids now db = .ok (v, db')) : Keeps db db' := by
  obtain ⟨source, hsource, hselect⟩ := bind_eq_ok.1 hselect
  obtain ⟨snapshotId, -, hselect⟩ := bind_eq_ok.1 hselect
  obtain ⟨snapshot, -, hselect⟩ := bind_eq_ok.1 hselect
  obtain ⟨_, -, hselect⟩ := bind_eq_ok.1 hselect
  obtain ⟨⟨event, db₁⟩, hlocate, hselect⟩ := bind_eq_ok.1 hselect
  rw [fetch_eq_ok] at hsource
  obtain ⟨slug, hlocates⟩ := h.locates hsource hlocate
  have hsame : workflowOfEvent event db₁ = workflowOfEvent event db := by
    unfold workflowOfEvent
    rw [hlocates.workflows]
  simp only [hsame] at hselect
  cases hworkflow : workflowOfEvent event db with
  | none =>
    rw [hworkflow] at hselect
    obtain ⟨revisions, hrevisions, hselect⟩ := bind_eq_ok.1 hselect
    obtain ⟨workflows, hworkflows, hselect⟩ := bind_eq_ok.1 hselect
    obtain ⟨transitions, -, hselect⟩ := bind_eq_ok.1 hselect
    rw [fetch_eq_ok] at hrevisions hworkflows
    simp only [pure_eq_ok, Prod.mk.injEq] at hselect
    obtain ⟨rfl, rfl⟩ := hselect
    rw [hlocates.workflows] at hworkflows
    refine hlocates.importRevision ⟨event, ids.revision, .draft, none, ""⟩ h hrevisions
      (Table.get?_of_insert? hworkflows) rfl fun w hw => ?_
    rw [(Table.insert?_eq_some hworkflows).1] at hw
    cases hw
  | some row =>
    obtain ⟨id, w⟩ := row
    obtain ⟨hw, hwevent⟩ := workflowOfEvent_eq_some hworkflow
    subst hwevent
    rw [hworkflow] at hselect
    obtain ⟨r, hr, hselect⟩ := bind_eq_ok.1 hselect
    split_ifs at hselect with hkept
    · -- the revision is kept, and the event may get another title
      simp only [pure_eq_ok, Prod.mk.injEq] at hselect
      obtain ⟨rfl, rfl⟩ := hselect
      obtain ⟨old, hold⟩ := h.event_of_workflow hw
      have hfound : slugAt db w.event = some slug ∧
          ∃ i source, db.providerEvents.get? i = some source ∧ source.localEvent = some w.event := by
        refine hlocates.found.resolve_right fun hnone => ?_
        rw [hold] at hnone
        cases hnone
      refine .frame h (fun i => ?_) (fun i => by rw [hlocates.revisions]) (fun i => ?_) (fun i a ha => ?_)
        (fun i x hx => ?_) (fun i s e hs he => ?_) hlocates.agentRuns
      · rw [hlocates.slugs]
        split_ifs with hi
        · rw [hi, hfound.1]
        · rfl
      · rw [bindingAt, bindingAt, hlocates.workflows]
      · rw [hlocates.approvals] at ha
        exact h.linked.approval i a ha
      · rw [hlocates.approvals]
        rw [hlocates.executions] at hx
        exact h.linked.execution i x hx
      · rcases hlocates.localEvent i s e hs he with rfl | hexists
        · exact hfound.2
        · exact hexists
    · obtain ⟨-, -, hselect⟩ := bind_eq_ok.1 hselect
      obtain ⟨revisions, hrevisions, hselect⟩ := bind_eq_ok.1 hselect
      obtain ⟨transitions, -, hselect⟩ := bind_eq_ok.1 hselect
      rw [fetch_eq_ok] at hrevisions
      simp only [pure_eq_ok, Prod.mk.injEq] at hselect
      obtain ⟨rfl, rfl⟩ := hselect
      let w' : Workflow := { w with revision := ids.revision, status := .draft, package := none, packageHash := "" }
      have hworkflows (i : Uuid) : (db₁.workflows.set id w').get? i =
          if i = id then some w' else db.workflows.get? i := by
        rw [hlocates.workflows, Table.get?_set, hw]
        rfl
      refine hlocates.importRevision w' h hrevisions hworkflows rfl fun w₀ hw₀ => ?_
      rw [hw, Option.some.injEq] at hw₀
      rw [← hw₀]

/-- What an owner does keeps the demo apart. -/
theorem Keeps.pilotPerform (world : PilotWorld) (h : Apart db) {profileId : String} {action : PilotAction}
    (hperform : LaunchLoop.pilotPerform world now db (action.byActor (ownerSlug profileId)) = .ok (u, db')) :
    Keeps db db' := by
  cases action with
  | refresh events reconcileMissing => exact .keepsEvents h (refreshEventbriteEvents_keeps hperform)
  | select sourceId actorId ids =>
    obtain ⟨v, hselect⟩ := ok_of_map (f := fun _ => ()) hperform
    exact .selectEventbriteEvent h hselect
  | update workflowId body actorId revisionId transitionId =>
    obtain ⟨actor, -, hupdate⟩ := bind_eq_ok.1 hperform
    exact .updateEventFacts h hupdate
  | startManual body suffix actorId ids =>
    obtain ⟨facts, -, hstart⟩ := bind_eq_ok.1 hperform
    exact .startManualEvent h hstart
  | runWorkflow workflowId actorId transitionId =>
    obtain ⟨actor, -, hrun⟩ := bind_eq_ok.1 hperform
    obtain ⟨⟨v, tables⟩, hrules, hdb⟩ := bind_eq_ok.1 hrun
    simp only [pure_eq_ok, Prod.mk.injEq] at hdb
    obtain ⟨-, rfl⟩ := hdb
    exact .runWorkflow h hrules

end Owners

/-! ### Runs of the system -/

section Runs

variable {world : PilotWorld} {db db' : PilotDb} {now : Time} {u : Unit}

/-- The actor of an owner does not matter. -/
theorem Keeps.enter (h : Apart db) (action : WorkspaceAction) : Keeps db (action.enter db) := by
  cases action with
  | lane action =>
    exact .frame h (fun _ => rfl) (fun _ => rfl) (fun _ => rfl) h.linked.approval h.linked.execution
      (fun i source _ hsource he => ⟨i, source, hsource, he⟩) rfl
  | owner profileId user displayName action =>
    exact .frame h (fun _ => rfl) (fun _ => rfl) (fun _ => rfl) h.linked.approval h.linked.execution
      (fun i source _ hsource he => ⟨i, source, hsource, he⟩) rfl

/-- What an action has done: a reset, an operation that keeps the demo apart, or a change of the runs alone. -/
theorem workspacePerform_cases (h : Apart db) {action : WorkspaceAction}
    (hperform : workspacePerform world now db action = .ok (u, db')) :
    (∃ users ids v, resetWorkspace users ids now db = .ok (v, db')) ∨ Keeps db db' ∨
      ∃ lane tables, action = .lane lane ∧ db' = { db with toDb := { db.toDb with agentRuns := tables.agentRuns } } ∧
        perform world.py world.sha256 world.ownerPackage now db.toDb lane = .ok ((), tables) := by
  cases action with
  | owner profileId user displayName action => exact .inr (.inl (.pilotPerform world h hperform))
  | lane lane =>
    by_cases hrequest : ∃ request, lane = .request request
    · obtain ⟨request, rfl⟩ := hrequest
      by_cases hreset : ∃ users ids, request = .reset users ids
      · obtain ⟨users, ids, rfl⟩ := hreset
        obtain ⟨v, hreset⟩ := ok_of_map (f := fun _ => ()) hperform
        exact .inl ⟨users, ids, v, hreset⟩
      · have hlane : workspacePerform world now db (.lane (.request request)) =
            onDb (handle world.py world.sha256 world.ownerPackage now request) db := by
          cases request with
          | reset users ids => exact absurd ⟨users, ids, rfl⟩ hreset
          | _ => rfl
        rw [hlane] at hperform
        obtain ⟨⟨v, tables⟩, hhandle, hdb⟩ := bind_eq_ok.1 hperform
        simp only [pure_eq_ok, Prod.mk.injEq] at hdb
        obtain ⟨-, rfl⟩ := hdb
        exact .inr (.inl (.handle h (fun users ids heq => hreset ⟨users, ids, heq⟩) hhandle))
    · have hlane : workspacePerform world now db (.lane lane) =
          onDb (fun db => perform world.py world.sha256 world.ownerPackage now db lane) db := by
        cases lane with
        | request request => exact absurd ⟨request, rfl⟩ hrequest
        | _ => rfl
      rw [hlane] at hperform
      obtain ⟨⟨v, tables⟩, hlanePerform, hdb⟩ := bind_eq_ok.1 hperform
      simp only [pure_eq_ok, Prod.mk.injEq] at hdb
      obtain ⟨-, rfl⟩ := hdb
      have htables := perform_eq_ok (fun request heq => hrequest ⟨request, heq⟩) hlanePerform
      refine .inr (.inr ⟨lane, tables, rfl, ?_, hlanePerform⟩)
      rw [← htables]

/-- A reset deletes no workflow that has a run. -/
theorem RunsApart.reset {ids : NewIds} (h : Apart db) (hruns : RunsApart db)
    (hrows : ResetRows ids db.toDb db'.toDb) : RunsApart db' := by
  intro id run hrun
  rw [hrows.agentRuns] at hrun
  obtain ⟨w, hw, hnot⟩ := hruns id run hrun
  obtain ⟨-, hkept⟩ := hrows.workflow (Db.withoutDemo_workflow.2 ⟨hw, h.contains_eq_false.2 hnot⟩)
  obtain ⟨event, hevent⟩ := h.event_of_workflow hw
  obtain ⟨hne, -⟩ := hrows.event (withoutDemo_event.2 ⟨hevent, h.contains_eq_false.2 hnot⟩)
  exact ⟨w, hkept, fun hsynthetic => hne ((hrows.syntheticEvent_iff h).1 hsynthetic)⟩

variable {s : WorkspaceState}

/-- **Every action keeps the demo apart.** -/
theorem apart_step (h : Apart s.db) (action : ℕ × WorkspaceAction) : Apart (workspaceStep world s action).db := by
  have hentered := (Keeps.enter h action.2).apart h
  refine commit_induction hentered fun u db' hperform => ?_
  obtain ⟨users, ids, v, hreset⟩ | hkeeps | ⟨lane, tables, -, rfl, -⟩ := workspacePerform_cases hentered hperform
  · obtain ⟨-, hrows, hproviders, -, -⟩ := resetWorkspace_eq_ok hreset
    exact Apart.reset hrows hentered hproviders
  · exact hkeeps.apart hentered
  · exact hentered.agentRuns tables.agentRuns

/-- The runs stay apart, unless a run of the demo is started. -/
theorem runsApart_step (h : Apart s.db) (hruns : RunsApart s.db) {action : ℕ × WorkspaceAction}
    (hclear : ¬ RunsDemo world s action) : RunsApart (workspaceStep world s action).db := by
  have hkept := Keeps.enter h action.2
  have hentered := hkept.apart h
  have hrunsEntered := hkept.runsApart hruns
  refine commit_induction hrunsEntered fun u db' hperform => ?_
  obtain ⟨users, ids, v, hreset⟩ | hkeeps | ⟨lane, tables, haction, rfl, hlane⟩ :=
    workspacePerform_cases hentered hperform
  · obtain ⟨-, hrows, -⟩ := resetWorkspace_eq_ok hreset
    exact hrunsEntered.reset hentered hrows
  · exact hkeeps.runsApart hrunsEntered
  · have henter : action.2.enter s.db = s.db := by rw [haction]; rfl
    rw [henter] at hlane ⊢
    intro id run hrun
    obtain ⟨i, old, hold, hworkflow⟩ | ⟨htarget, w, hw⟩ := origin_of_perform hlane hrun
    · rw [hworkflow]
      exact hruns i old hold
    · refine ⟨w, hw, fun hsynthetic => hclear ?_⟩
      exact ⟨lane, run.workflow, (), tables, haction, htarget, h.isDemo_iff.2 ⟨w, hw, hsynthetic⟩, hlane⟩

/-- After a run was started there is one. -/
theorem exists_run_of_perform {db db' : Db} {py : Interpreter} {sha256 : Message → String}
    {ownerPackage : Message → Option Message} {action : LaneAction} {workflowId : Uuid}
    (htarget : action.target? = some workflowId) (hperform : perform py sha256 ownerPackage now db action = .ok (u, db')) :
    ∃ id run, db'.agentRuns.get? id = some run ∧ run.workflow = workflowId := by
  cases action with
  | request request => cases htarget
  | progress runId p => cases htarget
  | queueHermes workflowId' runId provider model =>
    obtain rfl := Option.some.inj htarget
    obtain ⟨w, agentRuns, traceId, hw, hruns, rfl⟩ := queueHermes_eq_ok hperform
    exact ⟨runId, _, (Table.get?_of_insert? hruns runId).trans (if_pos rfl), rfl⟩
  | judge call =>
    obtain rfl := Option.some.inj htarget
    obtain ⟨found, hjudge⟩ := ok_of_map (f := fun _ => ()) hperform
    obtain ⟨w, hw, ⟨row, hrow, _, rfl⟩ | ⟨-, _, agentRuns, hruns, rfl⟩⟩ := runFixedJudge_cases hjudge
    · obtain ⟨hget, hworkflow, -⟩ := Db.newestRun_eq_some (Db.existingRun_eq_some.1 hrow).1
      exact ⟨row.1, row.2, hget, hworkflow⟩
    · exact ⟨call.runId, _, by rw [get?_judged hruns, if_pos rfl], rfl⟩

/-- After a run of the demo was started no reset succeeds. -/
theorem not_resetSucceeds_of_runsDemo {action : ℕ × WorkspaceAction} (h : RunsDemo world s action) :
    ¬ ResetSucceeds (workspaceStep world s action).db := by
  obtain ⟨lane, workflowId, u, tables, haction, htarget, hdemo, hlane⟩ := h
  obtain ⟨wait, action⟩ := action
  obtain rfl : action = .lane lane := haction
  have hrequest : ∀ request, lane ≠ .request request := by
    rintro request rfl
    cases htarget
  have hperform : workspacePerform world (s.next wait) s.db (.lane lane) = .ok ((), { s.db with toDb := tables }) := by
    have honDb : workspacePerform world (s.next wait) s.db (.lane lane) =
        onDb (fun db => perform world.py world.sha256 world.ownerPackage (s.next wait) db lane) s.db := by
      cases lane with
      | request request => exact absurd rfl (hrequest request)
      | _ => rfl
    rw [honDb, onDb, hlane]
    rfl
  have hstep : (workspaceStep world s (wait, .lane lane)).db = { s.db with toDb := tables } := by
    simp only [workspaceStep, WorkspaceAction.enter, hperform]
    rfl
  obtain ⟨id, run, hrun, rfl⟩ := exists_run_of_perform htarget hlane
  rw [hstep]
  refine not_resetSucceeds hrun ?_
  rw [perform_eq_ok hrequest hlane]
  exact hdemo

end Runs

/-! ### A judged demo -/

/-- The demo is reset and run, and its package is judged. -/
def judgedDemo : List (ℕ × WorkspaceAction) :=
  [(0, .lane (.request (.reset (1, 2) ⟨1, 1, 1, 1⟩))), (0, .lane (.request (.run 1 "maya" 2))),
    (0, .lane (.judge ⟨1, 6, "openai", "judge", "trace", ⟨"succeeded", "", "trace", 100, 10, 1, []⟩, true⟩))]

end CivicLoop.LaunchLoop
