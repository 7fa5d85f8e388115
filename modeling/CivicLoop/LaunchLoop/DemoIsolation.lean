import CivicLoop.LaunchLoop.DemoState
import CivicLoop.LaunchLoop.FourEyes

/-!
# The demo and the events of the owner

The state of a synthetic workflow depends on synthetic rows alone. Which workflow is shown does not: it is
the first of all. So two databases that agree on the synthetic rows show a user of the demo the same
synthetic workflow if and only if in neither of them a workflow of the owner is the first.

## Main definitions

* `Db.Agree` : two databases agree on the actors and on the synthetic rows.
* `Db.Whole` : the rows refer to rows that exist, and every event has its workflow.
* `SameDemo` : a request is answered by the state of the same synthetic workflow.

## Main results

* `serializeDemo_congr` : the state of a synthetic workflow depends on synthetic rows alone.
* `demoIsolated_iff` : when two databases that agree show the same.
-/

namespace CivicLoop.LaunchLoop

namespace Db

/-- The rows of this workflow are synthetic. -/
def IsSynthetic (db : Db) (id : Uuid) : Prop := ∃ w r, db.Synthetic id w r

/-- Agreement on the actors and on the synthetic rows. -/
structure Agree (db db' : Db) : Prop where
  actors : ∀ slug, db.actors.get? slug = db'.actors.get? slug
  revisions : ∀ id r, sourceKind r = .synthetic →
    (db.revisions.get? id = some r ↔ db'.revisions.get? id = some r)
  workflows : ∀ id w r, db.Synthetic id w r ↔ db'.Synthetic id w r
  events : ∀ id w r, db.Synthetic id w r → db.events.get? w.event = db'.events.get? w.event
  approvals : ∀ id a, db.IsSynthetic a.workflow →
    (db.approvals.get? id = some a ↔ db'.approvals.get? id = some a)
  executions : ∀ approvalId a, db.approvals.get? approvalId = some a → db.IsSynthetic a.workflow →
    ∀ id x, x.approval = approvalId → (db.executions.get? id = some x ↔ db'.executions.get? id = some x)
  transitions : ∀ id t, db.IsSynthetic t.workflow →
    (db.transitions.get? id = some t ↔ db'.transitions.get? id = some t)
  agentRuns : ∀ id run, db.IsSynthetic run.workflow →
    (db.agentRuns.get? id = some run ↔ db'.agentRuns.get? id = some run)

theorem Agree.isSynthetic {db db' : Db} (h : db.Agree db') (id : Uuid) :
    db.IsSynthetic id ↔ db'.IsSynthetic id :=
  exists_congr fun w => exists_congr fun r => h.workflows id w r

/-- The rows refer to rows that exist, and every event has its workflow. -/
structure Whole (db : Db) : Prop where
  workflow : ∀ row ∈ db.workflows.rows,
    (db.revisions.get? row.2.revision).isSome ∧ (db.events.get? row.2.event).isSome
  event : ∀ row ∈ db.events.rows, ∃ row' ∈ db.workflows.rows, row'.2.event = row.1
  revision : ∀ row ∈ db.revisions.rows, (db.events.get? row.2.event).isSome
  approval : ∀ row ∈ db.approvals.rows, (db.workflows.get? row.2.workflow).isSome
  execution : ∀ row ∈ db.executions.rows, (db.approvals.get? row.2.approval).isSome
  transition : ∀ row ∈ db.transitions.rows,
    (db.workflows.get? row.2.workflow).isSome ∧ (db.actors.get? row.2.actor).isSome
  agentRun : ∀ row ∈ db.agentRuns.rows, (db.workflows.get? row.2.workflow).isSome

end Db

/-! ### The state of a workflow -/

section Serialize

variable {db db' : Db} {id : Uuid} (h : db.Agree db') (hid : db.IsSynthetic id)
include h

theorem actorsByRole_congr : db.actorsByRole = db'.actorsByRole := by
  have hrows : (db.actors.sortedRows.filter fun _ => true) = db'.actors.sortedRows.filter fun _ => true :=
    Table.filter_sortedRows_congr fun slug actor _ => by rw [h.actors slug]
  simp only [List.filter_true] at hrows
  unfold Db.actorsByRole
  rw [hrows]

include hid

theorem workflowOf_congr : db.workflowOf id = db'.workflowOf id := by
  obtain ⟨w, r, hs⟩ := hid
  obtain ⟨hw', hr', -⟩ := (h.workflows id w r).1 hs
  obtain ⟨hw, hr, -⟩ := hs
  simp only [Db.workflowOf, hw, hw', fetch, ok_bind, hr, hr']

theorem approvalOf_congr : db.approvalOf id = db'.approvalOf id := by
  unfold Db.approvalOf
  rw [Table.filter_sortedRows_congr fun approvalId a ha => ?_]
  obtain rfl : a.workflow = id := by simpa using ha
  exact h.approvals approvalId a hid

theorem executionOf_congr {approvalId : Uuid} {a : ApprovalRequest} (ha : db.approvalOf id = some (approvalId, a)) :
    db.executionOf approvalId = db'.executionOf approvalId := by
  have hmem := List.mem_of_mem_head? (Option.mem_def.2 ha)
  obtain ⟨hrow, hworkflow⟩ := List.mem_filter.1 hmem
  obtain rfl : a.workflow = id := by simpa using hworkflow
  unfold Db.executionOf
  rw [Table.filter_sortedRows_congr fun executionId x hx => ?_]
  exact h.executions approvalId a (Table.mem_sortedRows.1 hrow) hid executionId x (by simpa using hx)

theorem latestRun_congr (packageHash : String) : db.latestRun id packageHash = db'.latestRun id packageHash := by
  unfold Db.latestRun
  rw [Table.filter_sortedRows_congr fun runId run hrun => ?_]
  obtain rfl : run.workflow = id := by simpa using hrun
  exact h.agentRuns runId run hid

theorem timelineOf_congr : db.timelineOf id = db'.timelineOf id := by
  unfold Db.timelineOf
  rw [Table.filter_sortedRows_congr fun transitionId t ht => ?_]
  obtain rfl : t.workflow = id := by simpa using ht
  exact h.transitions transitionId t hid

/-- The state of a synthetic workflow depends on synthetic rows alone. -/
theorem serializeDemo_congr : serializeDemo db id = serializeDemo db' id := by
  have ⟨w, r, hs⟩ := hid
  have hworkflow : db.workflowOf id = .ok (w, r) := by
    simp only [Db.workflowOf, hs.1, fetch, ok_bind, hs.2.1]
    rfl
  have hexecution : ((db'.approvalOf id).bind fun a => db.executionOf a.1) =
      (db'.approvalOf id).bind fun a => db'.executionOf a.1 := by
    rw [← approvalOf_congr h hid]
    cases ha : db.approvalOf id with
    | none => rfl
    | some a => exact executionOf_congr h hid ha
  simp only [serializeDemo, ← workflowOf_congr h hid, hworkflow, ok_bind, h.events id w r hs, hexecution,
    approvalOf_congr h hid, latestRun_congr h hid, timelineOf_congr h hid, actorsByRole_congr h, h.actors]

end Serialize

/-- A workflow with its event, whose transitions have their actors, has a state. -/
theorem exists_serializeDemo {db : Db} {id : Uuid} {w : Workflow} {r : EventRevision}
    (hs : db.Synthetic id w r) (hevent : (db.events.get? w.event).isSome)
    (hactors : ∀ transitionId t, db.transitions.get? transitionId = some t →
      (db.actors.get? t.actor).isSome) : ∃ state, serializeDemo db id = .ok state := by
  obtain ⟨event, hevent⟩ := Option.isSome_iff_exists.1 hevent
  obtain ⟨timeline, htimeline⟩ : ∃ timeline, ((db.timelineOf id).mapM fun row => do
      let actor ← fetch (db.actors.get? row.2.actor) ServiceError.notFound
      return serializeTransition row.1 row.2 actor) = .ok timeline := by
    refine exists_mapM_ok fun row hrow => ?_
    have hmem := List.mem_of_mem_filter ((List.mem_insertionSort _).1 hrow)
    obtain ⟨actor, hactor⟩ := Option.isSome_iff_exists.1 (hactors row.1 row.2 (Table.mem_sortedRows.1 hmem))
    exact ⟨_, by rw [hactor]; rfl⟩
  simp only [serializeDemo, Db.workflowOf, hs.1, hs.2.1, hevent, fetch, ok_bind, pure_bind]
  exact ⟨_, by erw [htimeline]; rfl⟩

theorem Db.Whole.exists_serializeDemo {db : Db} (hdb : db.Whole) {id : Uuid} (hid : db.IsSynthetic id) :
    ∃ state, serializeDemo db id = .ok state := by
  obtain ⟨w, r, hs⟩ := hid
  refine LaunchLoop.exists_serializeDemo hs (hdb.workflow (id, w) (Table.get?_eq_some_iff.1 hs.1)).2 ?_
  intro transitionId t ht
  exact (hdb.transition (transitionId, t) (Table.get?_eq_some_iff.1 ht)).2

/-! ### The workflow that is shown -/

theorem firstWorkflow_eq_some {db : Db} {id : Uuid} (h : db.firstWorkflow = some id) :
    (∃ w, db.workflows.get? id = some w) ∧ ∀ id' w', db.workflows.get? id' = some w' → id ≤ id' := by
  obtain ⟨⟨id₀, w⟩, hrow, rfl⟩ : ∃ row, db.workflows.sortedRows.head? = some row ∧ row.1 = id := by
    simpa only [Db.firstWorkflow, List.head?_map, Option.map_eq_some_iff] using h
  obtain ⟨rest, hrows⟩ := List.head?_eq_some_iff.1 hrow
  refine ⟨⟨w, Table.mem_sortedRows.1 (hrows ▸ List.mem_cons_self)⟩, fun id' w' hw' => ?_⟩
  have hmem := Table.mem_sortedRows.2 hw'
  have hsorted := Table.sortedRows_pairwise db.workflows
  rw [hrows] at hmem hsorted
  rcases List.mem_cons.1 hmem with e | hmem
  · rw [← e]
  · exact ((List.pairwise_cons.1 hsorted).1 _ hmem).le

theorem firstWorkflow_eq_none {db : Db} (h : db.firstWorkflow = none) : db.workflows.rows = [] := by
  have hnil : db.workflows.sortedRows = [] := by simpa [Db.firstWorkflow] using h
  exact List.eq_nil_iff_forall_not_mem.2 fun row hrow =>
    (List.mem_nil_iff row).1 (hnil ▸ Table.mem_sortedRows.2 (Table.get?_eq_some_iff.2 hrow))

/-- The workflow that is shown first is not one of the owner. -/
def Db.OwnerFree (db : Db) : Prop := ∀ id, db.firstWorkflow = some id → db.IsSynthetic id

/-- Two databases that agree and show a synthetic workflow show the same. -/
theorem firstWorkflow_congr {db db' : Db} (h : db.Agree db') {id id' : Uuid}
    (hfirst : db.firstWorkflow = some id) (hfirst' : db'.firstWorkflow = some id')
    (hid : db.IsSynthetic id) (hid' : db'.IsSynthetic id') : id = id' := by
  obtain ⟨w', r', hs'⟩ := (h.isSynthetic id').2 hid'
  obtain ⟨w, r, hs⟩ := (h.isSynthetic id).1 hid
  exact le_antisymm ((firstWorkflow_eq_some hfirst).2 id' w' hs'.1)
    ((firstWorkflow_eq_some hfirst').2 id w hs.1)

/-! ### A database without workflows -/

/-- A whole database without workflows has no rows but those of the actors. -/
theorem Db.Whole.eq_of_empty {db : Db} (hdb : db.Whole) (h : db.workflows.rows = []) :
    db = { Db.empty with actors := db.actors } := by
  have hget {α : Type} {t : Table Uuid α} (ht : t.rows = []) (id : Uuid) : (t.get? id).isSome = false := by
    rw [Table.get?, ht]
    rfl
  have hnil {α : Type} {l : List α} (hl : ∀ a ∈ l, False) : l = [] := List.eq_nil_iff_forall_not_mem.2 hl
  have hevents : db.events.rows = [] := hnil fun row hrow => by
    obtain ⟨row', hrow', -⟩ := hdb.event row hrow
    rw [h] at hrow'
    cases hrow'
  have hrevisions : db.revisions.rows = [] := hnil fun row hrow => by
    have hsome := hdb.revision row hrow
    rw [hget hevents] at hsome
    cases hsome
  have happrovals : db.approvals.rows = [] := hnil fun row hrow => by
    have hsome := hdb.approval row hrow
    rw [hget h] at hsome
    cases hsome
  have hexecutions : db.executions.rows = [] := hnil fun row hrow => by
    have hsome := hdb.execution row hrow
    rw [hget happrovals] at hsome
    cases hsome
  have htransitions : db.transitions.rows = [] := hnil fun row hrow => by
    have hsome := (hdb.transition row hrow).1
    rw [hget h] at hsome
    cases hsome
  have hruns : db.agentRuns.rows = [] := hnil fun row hrow => by
    have hsome := hdb.agentRun row hrow
    rw [hget h] at hsome
    cases hsome
  obtain ⟨actors, events, revisions, workflows, approvals, executions, transitions, agentRuns⟩ := db
  obtain rfl : events = .empty := Table.ext hevents
  obtain rfl : revisions = .empty := Table.ext hrevisions
  obtain rfl : workflows = .empty := Table.ext h
  obtain rfl : approvals = .empty := Table.ext happrovals
  obtain rfl : executions = .empty := Table.ext hexecutions
  obtain rfl : transitions = .empty := Table.ext htransitions
  obtain rfl : agentRuns = .empty := Table.ext hruns
  rfl

/-- The database after a reset of one without rows. -/
def freshDemo (users : ℕ × ℕ) (ids : NewIds) (now : Time) (actors : Table String DemoActor) : Db :=
  { ({ Db.empty with actors } : Db).seedActors users with
    events := Table.empty.put ids.event
      ⟨"ny-youth-day", "New York International Youth Day Networking Breakfast"⟩
    revisions := Table.empty.put ids.revision ⟨ids.event, 1, newYorkEvent, "maya", none⟩
    workflows := Table.empty.put ids.workflow ⟨ids.event, ids.revision, .draft, none, ""⟩
    transitions := Table.empty.put ids.transition
      ⟨ids.workflow, "maya", none, .draft, "demo_reset", .obj [("revision", .int 1)], now⟩ }

theorem resetDemo_empty (users : ℕ × ℕ) (ids : NewIds) (now : Time) (actors : Table String DemoActor) :
    resetDemo users ids now { Db.empty with actors } =
      .ok (ids.workflow, freshDemo users ids now actors) := by
  rfl

theorem freshDemo_synthetic (users : ℕ × ℕ) (ids : NewIds) (now : Time) (actors : Table String DemoActor) :
    (freshDemo users ids now actors).Synthetic ids.workflow ⟨ids.event, ids.revision, .draft, none, ""⟩
      ⟨ids.event, 1, newYorkEvent, "maya", none⟩ :=
  ⟨Table.get?_put_self _ _ _, Table.get?_put_self _ _ _, if_pos rfl⟩

theorem freshDemo_agree (users : ℕ × ℕ) (ids : NewIds) (now : Time) {actors actors' : Table String DemoActor}
    (h : ∀ slug, actors.get? slug = actors'.get? slug) :
    (freshDemo users ids now actors).Agree (freshDemo users ids now actors') where
  actors slug := by simp only [freshDemo, Db.seedActors, Table.get?_put, h]
  revisions _ _ _ := .rfl
  workflows _ _ _ := .rfl
  events _ _ _ _ := rfl
  approvals _ _ _ := .rfl
  executions _ _ _ _ _ _ _ := .rfl
  transitions _ _ _ := .rfl
  agentRuns _ _ _ := .rfl

theorem exists_serialize_freshDemo (users : ℕ × ℕ) (ids : NewIds) (now : Time)
    (actors : Table String DemoActor) :
    ∃ state, serializeDemo (freshDemo users ids now actors) ids.workflow = .ok state := by
  refine exists_serializeDemo (freshDemo_synthetic users ids now actors) ?_ fun transitionId t ht => ?_
  · simp only [freshDemo, Table.get?_put_self, Option.isSome_some]
  · simp only [freshDemo, Table.get?_put, Table.get?_empty] at ht
    split_ifs at ht
    obtain rfl := Option.some.inj ht
    simp only [freshDemo, Db.seedActors, Table.get?_put]
    rfl

/-! ### Two databases -/

/-- The two requests are answered by the same state of the same synthetic workflow. -/
def SameDemo (users : ℕ × ℕ) (ids : NewIds) (now : Time) (request : DemoRequest) (db db' : Db) : Prop :=
  ∃ id state d d', demoState users ids now request db = .ok ((id, state), d) ∧
    demoState users ids now request db' = .ok ((id, state), d') ∧ d.IsSynthetic id ∧ d'.IsSynthetic id

section SameDemo

variable {users : ℕ × ℕ} {ids : NewIds} {now : Time} {user : ℕ} {db db' : Db}

/-- The user is one of the demo. -/
def IsDemoUser (user : ℕ) (db : Db) : Prop := ∃ actor, actorOf ⟨some user, none⟩ db = .ok actor

theorem IsDemoUser.congr (h : db.Agree db') (huser : IsDemoUser user db) : IsDemoUser user db' := by
  have hrows : (db.actors.sortedRows.filter fun row => row.2.user = some user) =
      db'.actors.sortedRows.filter fun row => row.2.user = some user :=
    Table.filter_sortedRows_congr fun slug actor _ => by rw [h.actors slug]
  obtain ⟨actor, hactor⟩ := huser
  refine ⟨actor, ?_⟩
  simpa only [actorOf, fetch, ok_bind, ← List.head?_filter, hrows] using hactor

theorem demoState_of_first (huser : IsDemoUser user db) {id : Uuid} (hfirst : db.firstWorkflow = some id)
    {state : Message} (hstate : serializeDemo db id = .ok state) :
    demoState users ids now ⟨some user, none⟩ db = .ok ((id, state), db) := by
  obtain ⟨actor, hactor⟩ := huser
  simp only [demoState, hactor, ok_bind, currentWorkflow, hfirst, hstate]
  rfl

theorem demoState_of_empty (huser : IsDemoUser user db) (hdb : db.Whole) (hfirst : db.firstWorkflow = none)
    {state : Message} (hstate : serializeDemo (freshDemo users ids now db.actors) ids.workflow = .ok state) :
    demoState users ids now ⟨some user, none⟩ db =
      .ok ((ids.workflow, state), freshDemo users ids now db.actors) := by
  obtain ⟨actor, hactor⟩ := huser
  have hreset : resetDemo users ids now db = .ok (ids.workflow, freshDemo users ids now db.actors) := by
    conv_lhs => rw [hdb.eq_of_empty (firstWorkflow_eq_none hfirst)]
    exact resetDemo_empty users ids now db.actors
  simp only [demoState, hactor, ok_bind, currentWorkflow, hfirst, hreset, hstate]
  rfl

/-- What is shown of a database that has workflows is its first. -/
theorem demoState_id {id id' : Uuid} {state : Message} {d : Db}
    (h : demoState users ids now ⟨some user, none⟩ db = .ok ((id, state), d))
    (hfirst : db.firstWorkflow = some id') : id = id' ∧ d = db := by
  obtain ⟨actor, -, h⟩ := bind_eq_ok.1 h
  simp only [currentWorkflow, hfirst, ok_bind] at h
  obtain ⟨state', -, h⟩ := bind_eq_ok.1 h
  obtain ⟨hid, hd⟩ := Prod.mk.inj (pure_eq_ok.1 h)
  exact ⟨(Prod.mk.inj hid).1.symm, hd.symm⟩

theorem SameDemo.ownerFree (h : SameDemo users ids now ⟨some user, none⟩ db db') :
    db.OwnerFree ∧ db'.OwnerFree := by
  obtain ⟨id, state, d, d', hd, hd', hid, hid'⟩ := h
  refine ⟨fun id₀ hfirst => ?_, fun id₀ hfirst => ?_⟩
  · obtain ⟨rfl, rfl⟩ := demoState_id hd hfirst
    exact hid
  · obtain ⟨rfl, rfl⟩ := demoState_id hd' hfirst
    exact hid'

/-- Of two databases that agree, one has workflows that are shown if and only if the other does. -/
theorem firstWorkflow_none_congr (h : db.Agree db') (hfree' : db'.OwnerFree)
    (hfirst : db.firstWorkflow = none) : db'.firstWorkflow = none := by
  cases hfirst' : db'.firstWorkflow with
  | none => rfl
  | some id =>
    obtain ⟨w, r, hs⟩ := (h.isSynthetic id).2 (hfree' id hfirst')
    have hrow := Table.get?_eq_some_iff.1 hs.1
    rw [firstWorkflow_eq_none hfirst] at hrow
    cases hrow

theorem sameDemo_of_ownerFree (hdb : db.Whole) (hdb' : db'.Whole) (h : db.Agree db')
    (huser : IsDemoUser user db) (hfree : db.OwnerFree) (hfree' : db'.OwnerFree) :
    SameDemo users ids now ⟨some user, none⟩ db db' := by
  have huser' := huser.congr h
  cases hfirst : db.firstWorkflow with
  | none =>
    have hfirst' := firstWorkflow_none_congr h hfree' hfirst
    obtain ⟨state, hstate⟩ := exists_serialize_freshDemo users ids now db.actors
    have hfresh := freshDemo_synthetic users ids now
    have hstate' : serializeDemo (freshDemo users ids now db'.actors) ids.workflow = .ok state := by
      rw [← serializeDemo_congr (freshDemo_agree users ids now h.actors) ⟨_, _, hfresh db.actors⟩, hstate]
    exact ⟨ids.workflow, state, _, _, demoState_of_empty huser hdb hfirst hstate,
      demoState_of_empty huser' hdb' hfirst' hstate', ⟨_, _, hfresh db.actors⟩, ⟨_, _, hfresh db'.actors⟩⟩
  | some id =>
    have hid := hfree id hfirst
    cases hfirst' : db'.firstWorkflow with
    | none =>
      obtain ⟨w, r, hs⟩ := (h.isSynthetic id).1 hid
      have hrow := Table.get?_eq_some_iff.1 hs.1
      rw [firstWorkflow_eq_none hfirst'] at hrow
      cases hrow
    | some id' =>
      obtain rfl := firstWorkflow_congr h hfirst hfirst' hid (hfree' id' hfirst')
      obtain ⟨state, hstate⟩ := hdb.exists_serializeDemo hid
      have hstate' : serializeDemo db' id = .ok state := by rw [← serializeDemo_congr h hid, hstate]
      exact ⟨id, state, db, db', demoState_of_first huser hfirst hstate,
        demoState_of_first huser' hfirst' hstate', hid, hfree' id hfirst'⟩

end SameDemo

/-! ### An event of the owner -/

/-- The revision of an event of the owner. -/
def manualRevision (facts : List (String × String)) (actorId : String) (event : ℕ) : EventRevision :=
  ⟨event, 1, .obj ((factFields.map fun key => (key, .lit ((facts.lookup key).getD ""))) ++
    [("owner_event", .bool true)]), actorId, none⟩

theorem sourceKind_manualRevision (facts : List (String × String)) (actorId : String) (event : ℕ) :
    sourceKind (manualRevision facts actorId event) ≠ .synthetic := by
  have hnone : (manualRevision facts actorId event).snapshot.get? "synthetic" = none := by
    simp [manualRevision, factFields, Json.get?, List.lookup]
  simp only [sourceKind, hnone, reduceCtorEq, if_false]
  split_ifs <;> decide

theorem startManualEvent_eq_ok {facts : List (String × String)} {suffix actorId : String} {ids : NewIds}
    {now : Time} {db db' : Db} {v : Uuid} (h : startManualEvent facts suffix actorId ids now db = .ok (v, db')) :
    ∃ event workflowEvent transition events revisions workflows transitions,
      db.events.insert? ids.event event = some events ∧
      db.revisions.insert? ids.revision (manualRevision facts actorId workflowEvent) = some revisions ∧
      db.workflows.insert? ids.workflow ⟨workflowEvent, ids.revision, .draft, none, ""⟩ = some workflows ∧
      db.transitions.insert? ids.transition transition = some transitions ∧ transition.workflow = ids.workflow ∧
      db' = { db with events, revisions, workflows, transitions } := by
  obtain ⟨-, -, h⟩ := bind_eq_ok.1 h
  obtain ⟨-, -, h⟩ := bind_eq_ok.1 h
  obtain ⟨events, hevents, h⟩ := bind_eq_ok.1 h
  obtain ⟨revisions, hrevisions, h⟩ := bind_eq_ok.1 h
  obtain ⟨workflows, hworkflows, h⟩ := bind_eq_ok.1 h
  obtain ⟨transitions, htransitions, h⟩ := bind_eq_ok.1 h
  obtain ⟨-, rfl⟩ := Prod.mk.inj (pure_eq_ok.1 h)
  exact ⟨_, ids.event, _, events, revisions, workflows, transitions, fetch_eq_ok.1 hevents,
    fetch_eq_ok.1 hrevisions, fetch_eq_ok.1 hworkflows, fetch_eq_ok.1 htransitions, rfl, rfl⟩

/-- An event of the owner adds no synthetic row. -/
theorem agree_startManualEvent {facts : List (String × String)} {suffix actorId : String} {ids : NewIds}
    {now : Time} {db db' : Db} {v : Uuid} (hdb : db.Whole)
    (h : startManualEvent facts suffix actorId ids now db = .ok (v, db')) : db.Agree db' := by
  obtain ⟨event, workflowEvent, transition, events, revisions, workflows, transitions, hevents, hrevisions,
    hworkflows, htransitions, hworkflow, rfl⟩ := startManualEvent_eq_ok h
  have hexists {id : Uuid} {w : Workflow} (hw : db.workflows.get? id = some w) :
      id ≠ ids.workflow ∧ w.revision ≠ ids.revision ∧ w.event ≠ ids.event := by
    obtain ⟨hr, he⟩ := hdb.workflow (id, w) (Table.get?_eq_some_iff.1 hw)
    refine ⟨?_, ?_, ?_⟩
    · rintro rfl
      rw [(Table.insert?_eq_some hworkflows).1] at hw
      cases hw
    · intro e
      rw [e, (Table.insert?_eq_some hrevisions).1] at hr
      cases hr
    · intro e
      rw [e, (Table.insert?_eq_some hevents).1] at he
      cases he
  refine ⟨fun _ => rfl, fun id r hr => ?_, fun id w r => ?_, fun id w r hs => ?_, fun _ _ _ => .rfl,
    fun _ _ _ _ _ _ _ => .rfl, fun id t ht => ?_, fun _ _ _ => .rfl⟩
  · rw [show revisions.get? id = _ from Table.get?_of_insert? hrevisions id]
    split_ifs with e
    · rw [e, (Table.insert?_eq_some hrevisions).1]
      refine ⟨fun e => (by cases e), fun e => ?_⟩
      rw [← Option.some.inj e] at hr
      exact absurd hr (sourceKind_manualRevision facts actorId workflowEvent)
    · rfl
  · constructor
    · rintro ⟨hw, hr, hs⟩
      obtain ⟨hid, hrevision, -⟩ := hexists hw
      exact ⟨(Table.get?_of_insert? hworkflows id).trans ((if_neg hid).trans hw),
        (Table.get?_of_insert? hrevisions w.revision).trans ((if_neg hrevision).trans hr), hs⟩
    · rintro ⟨hw, hr, hs⟩
      rw [show workflows.get? id = _ from Table.get?_of_insert? hworkflows id] at hw
      rw [show revisions.get? w.revision = _ from Table.get?_of_insert? hrevisions w.revision] at hr
      split_ifs at hw with hid
      · rw [← Option.some.inj hw, if_pos rfl] at hr
        rw [← Option.some.inj hr] at hs
        exact absurd hs (sourceKind_manualRevision facts actorId workflowEvent)
      · rw [if_neg (hexists hw).2.1] at hr
        exact ⟨hw, hr, hs⟩
  · exact ((Table.get?_of_insert? hevents w.event).trans (if_neg (hexists hs.1).2.2)).symm
  · rw [show transitions.get? id = _ from Table.get?_of_insert? htransitions id]
    split_ifs with e
    · rw [e, (Table.insert?_eq_some htransitions).1]
      refine ⟨fun e => (by cases e), fun e => ?_⟩
      obtain ⟨w, r, hs⟩ := ht
      rw [← Option.some.inj e, hworkflow] at hs
      exact absurd rfl (hexists hs.1).1
    · rfl

/-! ### When the demo is isolated -/

/-- Two whole databases that agree on the synthetic rows, and a user of the demo. -/
structure Comparable (user : ℕ) (db db' : Db) : Prop where
  whole : db.Whole
  whole' : db'.Whole
  agree : db.Agree db'
  isDemoUser : IsDemoUser user db

/-- A user of the demo sees the same of any two databases that agree on the synthetic rows. -/
def DemoIsolated : Prop :=
  ∀ users ids now user db db', Comparable user db db' → SameDemo users ids now ⟨some user, none⟩ db db'

/-- **When the demo is isolated.** Two databases that agree on the synthetic rows show a user of the demo
the same synthetic workflow if and only if in neither of them the first workflow is one of the owner. -/
theorem demoIsolated_iff (users : ℕ × ℕ) (ids : NewIds) (now : Time) (user : ℕ) (db db' : Db)
    (h : Comparable user db db') :
    SameDemo users ids now ⟨some user, none⟩ db db' ↔ db.OwnerFree ∧ db'.OwnerFree :=
  ⟨SameDemo.ownerFree, fun hfree =>
    sameDemo_of_ownerFree h.whole h.whole' h.agree h.isDemoUser hfree.1 hfree.2⟩

/-- A database after a reset. -/
def sampleDemo : Db :=
  freshDemo (1, 2) ⟨1, 1, 5, 1⟩ 0 (Table.empty.put "owner-9" ⟨"Owner", .operator, some 9⟩)

/-- The same database after the owner has started an event, whose workflow comes before that of the demo. -/
def sampleOwnerDemo : Db :=
  commit sampleDemo (startManualEvent
    [("title", "Board meeting"), ("date", "2026-10-01"), ("timezone", "America/New_York")] "a1" "owner-9"
    ⟨2, 2, 3, 2⟩ 0 sampleDemo)

instance (db : Db) : Decidable db.Whole :=
  decidable_of_iff
    ((∀ row ∈ db.workflows.rows,
        (db.revisions.get? row.2.revision).isSome ∧ (db.events.get? row.2.event).isSome) ∧
      (∀ row ∈ db.events.rows, ∃ row' ∈ db.workflows.rows, row'.2.event = row.1) ∧
      (∀ row ∈ db.revisions.rows, (db.events.get? row.2.event).isSome) ∧
      (∀ row ∈ db.approvals.rows, (db.workflows.get? row.2.workflow).isSome) ∧
      (∀ row ∈ db.executions.rows, (db.approvals.get? row.2.approval).isSome) ∧
      (∀ row ∈ db.transitions.rows,
        (db.workflows.get? row.2.workflow).isSome ∧ (db.actors.get? row.2.actor).isSome) ∧
      ∀ row ∈ db.agentRuns.rows, (db.workflows.get? row.2.workflow).isSome)
    ⟨fun ⟨h₁, h₂, h₃, h₄, h₅, h₆, h₇⟩ => ⟨h₁, h₂, h₃, h₄, h₅, h₆, h₇⟩,
      fun ⟨h₁, h₂, h₃, h₄, h₅, h₆, h₇⟩ => ⟨h₁, h₂, h₃, h₄, h₅, h₆, h₇⟩⟩

theorem comparable_sample : Comparable 2 sampleDemo sampleOwnerDemo where
  whole := by decide +kernel
  whole' := by decide +kernel
  agree := by
    obtain ⟨⟨id, db⟩, h⟩ := exists_of_isOk (show (startManualEvent
      [("title", "Board meeting"), ("date", "2026-10-01"), ("timezone", "America/New_York")] "a1" "owner-9"
      ⟨2, 2, 3, 2⟩ 0 sampleDemo).isOk = true by decide +kernel)
    rw [sampleOwnerDemo, h, commit_ok]
    exact agree_startManualEvent (by decide +kernel) h
  isDemoUser := exists_of_isOk (by decide +kernel)

theorem demoIsolated_iff_sample :
    SameDemo (1, 2) ⟨7, 7, 7, 7⟩ 0 ⟨some 2, none⟩ sampleDemo sampleOwnerDemo ↔
      sampleDemo.OwnerFree ∧ sampleOwnerDemo.OwnerFree :=
  demoIsolated_iff (1, 2) ⟨7, 7, 7, 7⟩ 0 2 sampleDemo sampleOwnerDemo comparable_sample

/-- The workflow of the owner comes first, and the user of the demo is shown its state. -/
theorem not_demoIsolated : ¬DemoIsolated := by
  intro h
  obtain ⟨-, hfree⟩ := (h (1, 2) ⟨7, 7, 7, 7⟩ 0 2 sampleDemo sampleOwnerDemo comparable_sample).ownerFree
  obtain ⟨w, r, hw, hr, hs⟩ := hfree 3 (by decide +kernel)
  have hkind : (sampleOwnerDemo.workflows.get? 3).bind (fun w =>
      (sampleOwnerDemo.revisions.get? w.revision).map sourceKind) = some .manual := by
    decide +kernel
  rw [hw, Option.bind_some, hr, Option.map_some, hs] at hkind
  cases hkind

end CivicLoop.LaunchLoop
