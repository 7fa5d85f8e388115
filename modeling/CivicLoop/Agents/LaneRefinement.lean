import CivicLoop.Agents.LaneView
import CivicLoop.Agents.System
import CivicLoop.Budget.Outcome

/-!
# The agent service follows the lane protocol

Every step of the agent service is a chain of moves of the lane protocol, seen through
`Db.laneView`. The tool broker does not touch the lane at all.

## Main definitions

* `Db.laneView` : what the protocol sees of the database.
* `Db.SameLane` : two databases with the same lane tables.

## Main results

* `Db.sameLane_dispatchMcpTool` : a tool call leaves the lane tables alone.
* `Agents.step_refines` : every step is a chain of moves.

## References

Source: `backend/agents/tasks.py`, `backend/agents/mcp.py`.
-/

namespace CivicLoop

variable {D : Type} [DecidableEq D]

/-- The status of a Hermes run. -/
def Db.statusOf (db : Db D) (runId : Uuid) : Option RunStatus :=
  (db.runs.get? runId).bind fun run => if run.hermesLane then some run.status else none

/-- The cancellation of the run was asked for. -/
def Db.cancelRequested (db : Db D) (runId : Uuid) : Bool :=
  (db.controls.get? runId).any fun control => control.cancelRequestedAt.isSome

/-- The control of the run has admission disabled. -/
def Db.controlDisabled (db : Db D) (runId : Uuid) : Bool :=
  (db.controls.get? runId).any fun control => control.admissionDisabled

/-- What the lane protocol sees of the database. -/
def Db.laneView (db : Db D) : LaneView where
  active := db.lane.activeRun
  disabled := db.lane.admissionDisabled
  run runId :=
    { status := db.statusOf runId
      reservation := db.budget.statusOf runId
      cancelRequested := db.cancelRequested runId
      disabled := db.controlDisabled runId }

/-- The databases have the same lane tables. -/
structure Db.SameLane (db db' : Db D) : Prop where
  budget : db'.budget = db.budget
  lane : db'.lane = db.lane
  runs : db'.runs = db.runs
  bindings : db'.bindings = db.bindings
  controls : db'.controls = db.controls
  receipts : db'.receipts = db.receipts

namespace Db

theorem SameLane.refl (db : Db D) : db.SameLane db := ⟨rfl, rfl, rfl, rfl, rfl, rfl⟩

theorem SameLane.trans {db db' db'' : Db D} (h : db.SameLane db') (h' : db'.SameLane db'') :
    db.SameLane db'' :=
  ⟨h'.budget.trans h.budget, h'.lane.trans h.lane, h'.runs.trans h.runs,
    h'.bindings.trans h.bindings, h'.controls.trans h.controls, h'.receipts.trans h.receipts⟩

theorem SameLane.laneView {db db' : Db D} (h : db.SameLane db') : db'.laneView = db.laneView := by
  simp only [Db.laneView, statusOf, cancelRequested, controlDisabled, h.budget, h.lane, h.runs,
    h.controls]

/-! ### The broker leaves the lane alone -/

theorem sameLane_issueWorkflowCapability {H : Hash D} {now : Time} {id : Uuid} {token : ℕ}
    {workflowId : Uuid} {revisionId : ℤ} {actorId : Text D} {tools : List Tool}
    {lifetimeSeconds : ℤ} {id' : Uuid} {db db' : Db D}
    (h : db.issueWorkflowCapability H now id token workflowId revisionId actorId tools
      lifetimeSeconds = .ok (id', db')) : db.SameLane db' := by
  simp only [issueWorkflowCapability, bind_eq_ok, ensure_eq_ok, fetch_eq_ok, pure_eq_ok,
    Prod.mk.injEq] at h
  obtain ⟨-, -, workflow, -, revision, -, actor, -, -, -, digest, -, -, -, capabilities, -, -, rfl⟩ := h
  exact ⟨rfl, rfl, rfl, rfl, rfl, rfl⟩

theorem sameLane_revokeWorkflowCapability {H : Hash D} {now : Time} {token : ℕ} {u : Unit}
    {db db' : Db D} (h : db.revokeWorkflowCapability H now token = .ok (u, db')) :
    db.SameLane db' := by
  simp only [revokeWorkflowCapability, bind_eq_ok, fetch_eq_ok, pure_eq_ok, Prod.exists,
    Prod.mk.injEq] at h
  obtain ⟨id, record, -, -, rfl⟩ := h
  exact ⟨rfl, rfl, rfl, rfl, rfl, rfl⟩

theorem sameLane_revokeRecord {now : Time} {control : AgentRunControl} {db db' : Db D}
    (h : db.revokeRecord now control = .ok db') : db.SameLane db' := by
  unfold revokeRecord at h
  split at h
  · cases h
    exact .refl db
  · simp only [bind_eq_ok, fetch_eq_ok] at h
    obtain ⟨record, -, h⟩ := h
    split_ifs at h <;> cases h
    · exact ⟨rfl, rfl, rfl, rfl, rfl, rfl⟩
    · exact .refl db

theorem sameLane_submit {H : Hash D} {capability : Uuid} {kind : SubmissionKind}
    {name key : String} {arguments : Json D} {id : Uuid} {result : Json D} {db db' : Db D}
    (h : db.submit H capability kind name key arguments id = .ok (result, db')) :
    db.SameLane db' := by
  simp only [submit, bind_eq_ok, fetch_eq_ok, pure_eq_ok, Prod.mk.injEq] at h
  obtain ⟨content, -, digest, -, submissions, -, -, rfl⟩ := h
  exact ⟨rfl, rfl, rfl, rfl, rfl, rfl⟩

theorem sameLane_requestOperation {H : Hash D} {record : WorkflowCapability D} {proposalId : Uuid}
    {proposal : MCPSubmission D} {provider : DraftProvider} {kind : OperationKind} {id : Uuid}
    {result : Json D} {db db' : Db D}
    (h : db.requestOperation H record proposalId proposal provider kind id = .ok (result, db')) :
    db.SameLane db' := by
  simp only [requestOperation, bind_eq_ok, fetch_eq_ok] at h
  obtain ⟨action, -, key, -, h⟩ := h
  split at h
  · simp only [pure_eq_ok, Prod.mk.injEq] at h
    exact h.2 ▸ .refl db
  · simp only [bind_eq_ok, fetch_eq_ok, pure_eq_ok, Prod.mk.injEq] at h
    obtain ⟨operations, -, -, rfl⟩ := h
    exact ⟨rfl, rfl, rfl, rfl, rfl, rfl⟩

theorem sameLane_execute {H : Hash D} {fresh : ℕ → Uuid} {tool : Tool} {arguments : Json D}
    {recordId : Uuid} {record : WorkflowCapability D} {revisionId : ℤ} {revision : EventRevision D}
    {result : Json D} {db db' : Db D}
    (h : db.execute H fresh tool arguments recordId record revisionId revision =
      .ok (result, db')) : db.SameLane db' := by
  cases tool with
  | getEventRevision =>
    simp only [execute, bind_eq_ok, ensure_eq_ok] at h
    obtain ⟨-, -, h⟩ := h
    split at h
    · simp only [pure_eq_ok, Prod.mk.injEq] at h
      exact h.2 ▸ .refl db
    · cases h
  | getPolicyContext =>
    simp only [execute, bind_eq_ok, pure_eq_ok, Prod.mk.injEq] at h
    obtain ⟨kind, -, -, rfl⟩ := h
    exact .refl db
  | requestClarification => exact sameLane_submit h
  | proposeCampaignDrafts => exact sameLane_submit h
  | validateProposal =>
    simp only [execute, bind_eq_ok, pure_eq_ok, Prod.mk.injEq, Prod.exists] at h
    obtain ⟨id, proposal, -, -, -, kind, -, -, rfl⟩ := h
    exact .refl db
  | requestEventbriteDraft =>
    simp only [execute, bind_eq_ok, pure_eq_ok, Prod.mk.injEq, Prod.exists] at h
    obtain ⟨id, proposal, -, operation, db₁, h, -, rfl⟩ := h
    exact sameLane_requestOperation h
  | requestIterableDrafts =>
    simp only [execute, bind_eq_ok, pure_eq_ok, Prod.mk.injEq, Prod.exists] at h
    obtain ⟨id, proposal, -, email, db₁, h₁, reminder, db₂, h₂, -, rfl⟩ := h
    exact (sameLane_requestOperation h₁).trans (sameLane_requestOperation h₂)
  | getOperationStatus =>
    simp only [execute, bind_eq_ok, pure_eq_ok, Prod.mk.injEq] at h
    obtain ⟨id, -, operation, -, proposal, -, owner, -, -, -, -, rfl⟩ := h
    exact .refl db

theorem sameLane_invoke {H : Hash D} {fresh : ℕ → Uuid} {tool : Tool} {arguments : Json D}
    {recordId : Uuid} {record : WorkflowCapability D} {revisionId : ℤ} {revision : EventRevision D}
    {result : Json D} {db db' : Db D}
    (h : db.invoke H fresh tool arguments recordId record revisionId revision =
      .ok (result, db')) : db.SameLane db' := by
  simp only [invoke, bind_eq_ok, fetch_eq_ok] at h
  obtain ⟨requestId, -, correlationId, -, key, -, idem, -, h⟩ := h
  split at h
  · simp only [bind_eq_ok, pure_eq_ok, Prod.mk.injEq] at h
    obtain ⟨-, -, -, rfl⟩ := h
    exact ⟨rfl, rfl, rfl, rfl, rfl, rfl⟩
  · simp only [bind_eq_ok, pure_eq_ok, Prod.mk.injEq, Prod.exists] at h
    obtain ⟨result₁, db₁, h₁, -, -, invocations, -, -, rfl⟩ := h
    have hexec := sameLane_execute h₁
    exact ⟨hexec.budget, hexec.lane, hexec.runs, hexec.bindings, hexec.controls, hexec.receipts⟩

theorem sameLane_dispatch {H : Hash D} {now : Time} {fresh : ℕ → Uuid} {tool : Tool}
    {arguments : Json D} {token : ℕ} {result : Json D} {db db' : Db D}
    (h : db.dispatch H now fresh tool arguments token = .ok (result, db')) : db.SameLane db' := by
  simp only [dispatch, bind_eq_ok, Prod.exists] at h
  obtain ⟨recordId, record, -, -, -, workflow, -, revision, -, correlationId, -, -, -, h⟩ := h
  have hinvoke := sameLane_invoke h
  exact ⟨hinvoke.budget, hinvoke.lane, hinvoke.runs, hinvoke.bindings, hinvoke.controls,
    hinvoke.receipts⟩

/-- A tool call leaves the lane tables alone. -/
theorem sameLane_dispatchMcpTool (H : Hash D) (call : ToolCall D) (db : Db D) :
    db.SameLane (db.dispatchMcpTool H call).2 := by
  unfold dispatchMcpTool
  split
  · rename_i result db' h
    simp only [tryTool, bind_eq_ok] at h
    obtain ⟨-, -, -, -, tool, -, -, -, h⟩ := h
    exact sameLane_dispatch h
  all_goals exact ⟨rfl, rfl, rfl, rfl, rfl, rfl⟩

/-! ### Small steps of the lane -/

theorem event_eq_ok {H : Hash D} {runId : Uuid} {eventType outcome : String} {db db' : Db D}
    (h : db.event H runId eventType outcome = .ok db') :
    ∃ events audits, db' = { db with events, audits } := by
  simp only [event, bind_eq_ok, pure_eq_ok] at h
  obtain ⟨digest, -, binding, -, rfl⟩ := h
  exact ⟨_, _, rfl⟩

theorem sameLane_event {H : Hash D} {runId : Uuid} {eventType outcome : String} {db db' : Db D}
    (h : db.event H runId eventType outcome = .ok db') : db.SameLane db' := by
  obtain ⟨events, audits, rfl⟩ := event_eq_ok h
  exact ⟨rfl, rfl, rfl, rfl, rfl, rfl⟩

theorem saveRun_eq_ok {runId : Uuid} {run : AgentRun D} {db db' : Db D}
    (h : db.saveRun runId run = .ok db') : db' = { db with runs := db.runs.set runId run } := by
  simp only [saveRun, bind_eq_ok, pure_eq_ok] at h
  obtain ⟨-, -, rfl⟩ := h
  rfl

/-- A held reservation is one that the protocol holds. -/
theorem held_iff (db : Db D) (runId : Uuid) : db.held runId = true ↔ (db.laneView.run runId).Held := by
  simp only [held, laneView, RunView.Held, RunView.Active, statusOf, controlDisabled]
  cases db.runs.get? runId with
  | none => simp
  | some run =>
    cases hlane : run.hermesLane <;> cases hstatus : run.status <;>
      simp [hlane, hstatus, RunStatus.active]

theorem statusOf_set (db : Db D) {runId : Uuid} {run : AgentRun D} {status : RunStatus}
    (hrun : db.runs.get? runId = some run) (run' : AgentRun D) (hlane : run'.hermesLane = true)
    (hstatus : run'.status = status) (k : Uuid) :
    (({ db with runs := db.runs.set runId run' } : Db D).statusOf k) =
      if k = runId then some status else db.statusOf k := by
  unfold statusOf
  rw [Table.get?_set]
  split_ifs with hk
  · simp [hrun, hlane, hstatus]
  · rfl

/-- The view of a database in which one run and the lane have changed. -/
theorem laneView_eq_setRun {db : Db D} {v : LaneView} {id : Uuid} {r : RunView}
    {active : Option Uuid} {disabled : Bool} (hactive : db.lane.activeRun = active)
    (hdisabled : db.lane.admissionDisabled = disabled)
    (hstatus : ∀ k, db.statusOf k = if k = id then r.status else (v.run k).status)
    (hres : ∀ k, db.budget.statusOf k = if k = id then r.reservation else (v.run k).reservation)
    (hcancel : ∀ k, db.cancelRequested k =
      if k = id then r.cancelRequested else (v.run k).cancelRequested)
    (hcontrol : ∀ k, db.controlDisabled k = if k = id then r.disabled else (v.run k).disabled) :
    db.laneView = { v.setRun id r with active, disabled } := by
  subst hactive hdisabled
  simp only [laneView, LaneView.mk.injEq, true_and]
  funext k
  rw [hstatus, hres, hcancel, hcontrol]
  rw [LaneView.setRun_run]
  split_ifs <;> rfl

theorem statusOf_eq {db : Db D} {runId : Uuid} {run : AgentRun D}
    (hrun : db.runs.get? runId = some run) (hlane : run.hermesLane = true) :
    db.statusOf runId = some run.status := by
  simp [statusOf, hrun, hlane]

theorem ite_self_of_eq {α : Type} {f : Uuid → α} {id : Uuid} {a : α} (h : f id = a) (k : Uuid) :
    f k = if k = id then a else f k := by
  split_ifs with hk
  · rw [hk, h]
  · rfl

/-! ### Expiry and admission -/

theorem chain_of_expired {db : Db D} {budget : Budget} {expired : List Uuid}
    (hexp : ∀ x ∈ expired, Budget.Expirable db.held db.budget x)
    (hstatus : ∀ k, budget.statusOf k =
      if k ∈ expired then some .released else db.budget.statusOf k) :
    Relation.ReflTransGen LaneStep db.laneView ({ db with budget } : Db D).laneView := by
  refine LaneView.chain_expire (fun x hx => ⟨(hexp x hx).1, fun hheld => ?_⟩) rfl rfl fun k => ?_
  · exact absurd ((db.held_iff x).2 hheld) (by simp [(hexp x hx).2])
  · simp only [laneView, hstatus k]
    split_ifs <;> rfl

theorem laneOpen_eq_true {db : Db D} (h : db.laneOpen = true) :
    db.lane.admissionDisabled = false ∧ db.lane.activeRun = none := by
  simp only [laneOpen, Bool.and_eq_true, Bool.not_eq_true', Option.isNone_iff_eq_none] at h
  exact ⟨h.1.1.1.2, h.1.2⟩

/-- What an admission writes: a reservation, a queued run with its binding and its control, and the
lane. -/
theorem queueHermesRun_eq_ok {H : Hash D} {E : Engine D} {input : QueueInput} {workflowId : Uuid}
    {revisionId : ℤ} {actorSlug : Text D} {ownerSessionId : Option Uuid} {id : Uuid}
    {db db' : Db D}
    (h : db.queueHermesRun H E input workflowId revisionId actorSlug ownerSessionId =
      .ok (id, db')) :
    db.laneOpen = true ∧ id = runIdOf H input.correlationId ∧
      ∃ (request : Budget.ReserveRequest) (reservation : BudgetReservation) (run : AgentRun D)
        (binding : HermesRunBinding D) (control : AgentRunControl) (budget : Budget)
        (runs : Table Uuid (AgentRun D)) (bindings : Table Uuid (HermesRunBinding D))
        (controls : Table Uuid AgentRunControl) (events : List (AgentRunEvent D))
        (audits : List (AuditEvent D)),
        request.runId = id ∧
        db.budget.reserveBudget db.world.catalog db.held input.now request =
          .ok (reservation, budget) ∧
        run.hermesLane = true ∧ run.status = .queued ∧
        (run.workflow = workflowId ∧ run.inputTokens = 0 ∧ run.outputTokens = 0 ∧ run.costMicrousd = 0) ∧
        run.eventRevision = revisionId ∧
        db.runs.insert? id run = some runs ∧
        binding.actor = actorSlug ∧ db.bindings.insert? id binding = some bindings ∧
        control.cancelRequestedAt = none ∧ control.capability = none ∧
        control.admissionDisabled = false ∧ db.controls.insert? id control = some controls ∧
        db' = { db with
          budget, runs, bindings, controls, events, audits
          lane := { db.lane with activeRun := some id } } := by
  simp only [queueHermesRun, bind_eq_ok, ensure_eq_ok, fetch_eq_ok, orRaise_eq_ok, pure_eq_ok,
    Prod.exists, Prod.mk.injEq] at h
  obtain ⟨-, -, -, hopen, timeout, -, workflow, revision, live, session, hadmit, profile, -, -, -,
    policyId, policyRevision, policy, -, reservation, budget, hreserve, -, -, runs, hruns, digest, -, -, -,
    bindings, hbindings, controls, hcontrols, db₁, hevent, rfl, rfl⟩ := h
  obtain ⟨events, audits, rfl⟩ := event_eq_ok hevent
  have hrevision : workflow.revision = revisionId := by
    simp only [Db.admitRun, bind_eq_ok, ensure_eq_ok, fetch_eq_ok, pure_eq_ok, Prod.mk.injEq] at hadmit
    obtain ⟨w, -, r, -, actor, -, kind, -, -, hready, rfl, rfl, rfl, -⟩ := hadmit
    obtain ⟨-, hready⟩ := hready
    split_ifs at hready <;>
      simp only [ownerReady, ready, packageReady, Bool.and_eq_true, decide_eq_true_eq] at hready
    · exact hready.2.1.1.1.1.1.1
    · exact hready.2.1.1.1.1.1.1
  exact ⟨hopen, rfl, _, reservation, _, _, _, budget, runs, bindings, controls, events, audits, rfl,
    hreserve, rfl, rfl, ⟨rfl, rfl, rfl, rfl⟩, hrevision, hruns, rfl, hbindings, rfl, rfl, rfl, hcontrols, rfl⟩

theorem refines_queueHermesRun {H : Hash D} {E : Engine D} {input : QueueInput} {workflowId : Uuid}
    {revisionId : ℤ} {actorSlug : Text D} {ownerSessionId : Option Uuid} {id : Uuid}
    {db db' : Db D} (hsound : db.laneView.Sound)
    (h : db.queueHermesRun H E input workflowId revisionId actorSlug ownerSessionId =
      .ok (id, db')) : Relation.ReflTransGen LaneStep db.laneView db'.laneView := by
  obtain ⟨hopen, -, request, reservation, run, binding, control, budget, runs, bindings, controls,
    events, audits, hid, hreserve, hlane, hstatus, -, -, hruns, -, -, hc₁, -, hc₂, hcontrols, rfl⟩ :=
    queueHermesRun_eq_ok h
  obtain ⟨hdisabled, hactive⟩ := laneOpen_eq_true hopen
  have hnew : db.runs.get? id = none := (Table.insert?_eq_some hruns).1
  have hnocontrol : db.controls.get? id = none := (Table.insert?_eq_some hcontrols).1
  have hnostatus : db.statusOf id = none := by simp [statusOf, hnew]
  have hnores : db.budget.statusOf id = none := hsound.absent id hnostatus
  subst hid
  obtain ⟨expired, hexp, hbudget⟩ := Budget.statusOf_reserveBudget hreserve hnores
  -- First what can expires; then the run is admitted.
  let v : LaneView :=
    { db.laneView with
      run := fun k => if k ∈ expired then
        { db.laneView.run k with reservation := some .released } else db.laneView.run k }
  have hchain : Relation.ReflTransGen LaneStep db.laneView v :=
    LaneView.chain_expire (fun x hx => ⟨(hexp x hx).1, fun hheld =>
      absurd ((db.held_iff x).2 hheld) (by simp [(hexp x hx).2])⟩) rfl rfl fun _ => rfl
  have hv : ∀ k, (v.run k).status = db.statusOf k ∧
      (v.run k).cancelRequested = db.cancelRequested k ∧
      (v.run k).disabled = db.controlDisabled k ∧
      (v.run k).reservation = if k ∈ expired then some .released else db.budget.statusOf k := by
    intro k
    by_cases hk : k ∈ expired <;> simp [v, hk, laneView]
  refine hchain.tail ?_
  have hadmit := LaneStep.admitRun (v := v) request.runId hdisabled hactive
    ((hv _).1.trans hnostatus) ((hv _).2.1.trans (by simp [cancelRequested, hnocontrol]))
  convert hadmit using 1
  refine laneView_eq_setRun rfl rfl (fun k => ?_) (fun k => ?_) (fun k => ?_) fun k => ?_
  · simp only [statusOf, Table.get?_of_insert? hruns, (hv k).1]
    split_ifs <;> simp [hlane, hstatus]
  · rw [hbudget, (hv k).2.2.2]
  · simp only [cancelRequested, Table.get?_of_insert? hcontrols, (hv k).2.1]
    split_ifs <;> simp [hc₁]
  · simp only [controlDisabled, Table.get?_of_insert? hcontrols, (hv k).2.2.1]
    split_ifs <;> simp [hc₂]

theorem refines_startHermesRun {H : Hash D} {E : Engine D} {input : QueueInput}
    {q : StartRequest D} {id : Uuid} {db db' : Db D} (hsound : db.laneView.Sound)
    (h : db.startHermesRun H E input q = .ok (id, db')) :
    Relation.ReflTransGen LaneStep db.laneView db'.laneView := by
  simp only [startHermesRun, bind_eq_ok] at h
  obtain ⟨-, -, actor, -, -, -, owner, -, h⟩ := h
  split at h
  · simp only [bind_eq_ok, pure_eq_ok, Prod.mk.injEq] at h
    obtain ⟨-, -, -, rfl⟩ := h
    exact .refl
  · simp only [bind_eq_ok, pure_eq_ok, Prod.mk.injEq, Prod.exists] at h
    obtain ⟨runId, db₁, hqueue, receipts, -, -, rfl⟩ := h
    have hchain := refines_queueHermesRun hsound hqueue
    exact hchain

/-! ### The claim -/

theorem check_eq_ok {H : Hash D} {E : Engine D} {now : Time} {run : AgentRun D}
    {binding : HermesRunBinding D} {control : AgentRunControl}
    {capability : Option (WorkflowCapability D)} {db : Db D} {u : Unit}
    (h : db.check H E now run binding control capability = .ok u) :
    control.cancelRequestedAt = none ∧
      capability.all (capabilityMatches now run binding) = true ∧
      ∃ workflow revision, db.world.workflows.get? run.workflow = some workflow ∧
        db.world.revisions.get? workflow.revision = some revision ∧
        H.digest revision.snapshot = some binding.revisionDigest := by
  simp only [check, bind_eq_ok, ensure_eq_ok, fetch_eq_ok] at h
  obtain ⟨-, hcancel, -, -, actor, -, -, -, workflow, hworkflow, revision, hrevision, -, -, digest,
    hdigest, -, rfl, hcap⟩ := h
  exact ⟨hcancel.1, hcap, workflow, revision, hworkflow, hrevision, hdigest⟩

/-- What the claim of a queued run writes: a capability for the run, its control, and the run. -/
theorem beginRun_eq_ok {H : Hash D} {E : Engine D} {input : ClaimInput} {runId : Uuid}
    {run : AgentRun D} {db db' : Db D} (h : db.beginRun H E input runId run = .ok db') :
    ∃ (control : AgentRunControl) (binding : HermesRunBinding D) (record : WorkflowCapability D)
      (capabilities : Table Uuid (WorkflowCapability D)) (events : List (AgentRunEvent D))
      (audits : List (AuditEvent D)),
      db.controls.get? runId = some control ∧ db.bindings.get? runId = some binding ∧
      db.lane.activeRun = some runId ∧ db.lane.admissionDisabled = false ∧
      (record.workflow = run.workflow ∧ record.revision = run.eventRevision ∧
        record.actor = binding.actor ∧ record.revisionDigest = binding.revisionDigest) ∧
      db.capabilities.insert? input.capabilityId record = some capabilities ∧
      db' = { db with
        events, audits
        capabilities := capabilities.set input.capabilityId
          { record with correlationId := some binding.correlationId }
        controls := db.controls.set runId
          { control with capability := some input.capabilityId }
        runs := db.runs.set runId (startedRun input.now run) } := by
  simp only [beginRun, bind_eq_ok, ensure_eq_ok, fetch_eq_ok, orRaise_eq_ok, Prod.exists] at h
  obtain ⟨control, hcontrol, binding, hbinding, -, hlane, ⟨⟩, hcheck, -, -, lease, -, capabilityId,
    db₁, hissue, capability, hcapability, db₂, hsave, hevent⟩ := h
  obtain ⟨events, audits, rfl⟩ := event_eq_ok hevent
  obtain rfl := saveRun_eq_ok hsave
  simp only [issueWorkflowCapability, bind_eq_ok, ensure_eq_ok, fetch_eq_ok, pure_eq_ok,
    Prod.mk.injEq] at hissue
  obtain ⟨-, -, workflow, hworkflow, revision, hrevision, actor, -, -, -, digest, hdigest, -, -,
    capabilities, hins, rfl, rfl⟩ := hissue
  -- The check has read the same workflow and revision as the issue.
  have hsame : digest = binding.revisionDigest := by
    obtain ⟨-, -, workflow', revision', hworkflow', hrevision', hdigest'⟩ := check_eq_ok hcheck
    obtain rfl := Option.some.inj (hworkflow.symm.trans hworkflow')
    obtain rfl := Option.some.inj (hrevision.symm.trans hrevision')
    exact Option.some.inj (hdigest.symm.trans hdigest')
  simp only [audit, Table.get?_of_insert? hins, if_true, Option.some.injEq] at hcapability
  subst hcapability
  exact ⟨control, binding, _, capabilities, events, audits, hcontrol, hbinding, hlane.1,
    by simpa using hlane.2.1, ⟨rfl, rfl, rfl, hsame⟩, hins, rfl⟩

theorem claim_eq_ok {H : Hash D} {E : Engine D} {input : ClaimInput} {runId : Uuid}
    {token : Option ℕ} {db db' : Db D} (h : db.claim H E input runId = .ok (token, db')) :
    token = none ∧
        (db' = db ∨ db' = { db with lane := { db.lane with admissionDisabled := true } }) ∨
      token = some input.token ∧ ∃ run, db.runs.get? runId = some run ∧ run.hermesLane = true ∧
        run.status = .queued ∧ db.beginRun H E input runId run = .ok db' := by
  unfold claim at h
  split_ifs at h
  split at h
  · cases h
  · rename_i run hrun
    unfold ownsRun at h
    split_ifs at h with hlane hrows
    · simp only at h
      split at h
      · cases h
      · rename_i hstatus
        split at h
        · rename_i db₁ hbegin
          simp only [Except.ok.injEq, Prod.mk.injEq] at h
          obtain ⟨rfl, rfl⟩ := h
          exact .inr ⟨rfl, run, hrun, hlane, hstatus, hbegin⟩
        · cases h
      · simp only [Except.ok.injEq, Prod.mk.injEq] at h
        exact .inl ⟨h.1.symm, .inl h.2.symm⟩
    · simp only [Except.ok.injEq, Prod.mk.injEq] at h
      exact .inl ⟨h.1.symm, .inr h.2.symm⟩
    · simp only [Except.ok.injEq, Prod.mk.injEq] at h
      exact .inl ⟨h.1.symm, .inl h.2.symm⟩

theorem refines_claim {H : Hash D} {E : Engine D} {input : ClaimInput} {runId : Uuid}
    {token : Option ℕ} {db db' : Db D} (h : db.claim H E input runId = .ok (token, db')) :
    Relation.ReflTransGen LaneStep db.laneView db'.laneView := by
  obtain ⟨-, rfl | rfl⟩ | ⟨-, run, hrun, hlane, hstatus, hbegin⟩ := claim_eq_ok h
  · exact .refl
  · exact .single .close
  · obtain ⟨control, binding, record, capabilities, events, audits, hcontrol, -, hactive, hopen, -,
      -, rfl⟩ := beginRun_eq_ok hbegin
    have hqueued : db.statusOf runId = some .queued := by rw [statusOf_eq hrun hlane, hstatus]
    refine .single ?_
    convert LaneStep.start (v := db.laneView) runId hopen hactive hqueued using 1
    refine laneView_eq_setRun rfl rfl (fun k => ?_) (fun k => ?_) (fun k => ?_) fun k => ?_
    · exact statusOf_set db hrun (startedRun input.now run) hlane rfl k
    · exact ite_self_of_eq rfl k
    · simp only [cancelRequested, Table.get?_set, laneView]
      split_ifs with hk <;> simp [hcontrol]
    · simp only [controlDisabled, Table.get?_set, laneView]
      split_ifs with hk <;> simp [hcontrol]

/-! ### The completion -/

/-- What a completion has checked and what it writes. -/
theorem complete_eq_ok {H : Hash D} {E : Engine D} {input : CompleteInput} {runId : Uuid}
    {token : ℕ} {result : HermesResult D} {u : Unit} {db db' : Db D}
    (h : db.complete H E input runId token result = .ok (u, db')) :
    ∃ (run : AgentRun D) (control : AgentRunControl) (binding : HermesRunBinding D)
      (capabilityId : Uuid) (capability : WorkflowCapability D) (budget : Budget)
      (settlement : BudgetReservation) (revoked : Db D) (events : List (AgentRunEvent D))
      (audits : List (AuditEvent D)),
      db.runs.get? runId = some run ∧ run.status = .running ∧
      db.controls.get? runId = some control ∧ control.cancelRequestedAt = none ∧
      db.bindings.get? runId = some binding ∧ control.capability = some capabilityId ∧
      db.capabilities.get? capabilityId = some capability ∧
      capabilityMatches input.now run binding capability = true ∧
      db.lane.activeRun = some runId ∧ db.lane.admissionDisabled = false ∧
      db.validateResult H runId run binding capabilityId result = .ok () ∧
      db.revokeWorkflowCapability H input.now token = .ok ((), revoked) ∧
      db.budget.settleBudget runId result.usage.inputTokens result.usage.outputTokens =
        .ok (settlement, budget) ∧
      db' = { db with
        budget, events, audits
        capabilities := revoked.capabilities
        runs := db.runs.set runId (acceptedRun input.now run settlement)
        lane := { db.lane with activeRun := none } } := by
  simp only [complete, bind_eq_ok, ensure_eq_ok, fetch_eq_ok, orRaise_eq_ok, pure_eq_ok,
    Prod.exists, Prod.mk.injEq] at h
  obtain ⟨-, -, run, hrun, -, hstatus, control, hcontrol, binding, hbinding, capabilityId, hcapId,
    capability, hcap, -, hlane, ⟨⟩, hcheck, ⟨⟩, hvalid, -, -, ⟨⟩, revoked, hrevoke, settlement,
    budget, hsettle, db₁, hsave, db₂, hevent, -, rfl⟩ := h
  obtain ⟨events, audits, rfl⟩ := event_eq_ok hevent
  obtain rfl := saveRun_eq_ok hsave
  obtain ⟨hcancel, hmatch, -⟩ := check_eq_ok hcheck
  have hsame := sameLane_revokeWorkflowCapability hrevoke
  have hrevoked : revoked = { db with
      capabilities := revoked.capabilities, audits := revoked.audits } := by
    simp only [revokeWorkflowCapability, bind_eq_ok, fetch_eq_ok, pure_eq_ok, Prod.exists,
      Prod.mk.injEq] at hrevoke
    obtain ⟨id, record, -, -, rfl⟩ := hrevoke
    rfl
  refine ⟨run, control, binding, capabilityId, capability, budget, settlement, revoked, events,
    audits, hrun, hstatus, hcontrol, hcancel, hbinding, hcapId, hcap, by simpa using hmatch,
    hlane.2, by simpa using hlane.1, hvalid, hrevoke, by rwa [hsame.budget] at hsettle, ?_⟩
  rw [hrevoked]

theorem refines_complete {H : Hash D} {E : Engine D} {input : CompleteInput} {runId : Uuid}
    {token : ℕ} {result : HermesResult D} {u : Unit} {db db' : Db D} (hsound : db.laneView.Sound)
    (h : db.complete H E input runId token result = .ok (u, db')) :
    Relation.ReflTransGen LaneStep db.laneView db'.laneView := by
  obtain ⟨run, control, binding, capabilityId, capability, budget, settlement, revoked, events,
    audits, hrun, hstatus, hcontrol, hcancel, -, -, -, -, hactive, hopen, -, -, hsettle, rfl⟩ :=
    complete_eq_ok h
  have hlane : run.hermesLane = true := by
    have := (hsound.active runId).1 hactive
    by_contra hl
    simp [laneView, RunView.Active, statusOf, hrun, hl] at this
  have hrunning : db.statusOf runId = some .running := by rw [statusOf_eq hrun hlane, hstatus]
  have hnocancel : db.cancelRequested runId = false := by simp [cancelRequested, hcontrol, hcancel]
  refine .single ?_
  convert LaneStep.succeed (v := db.laneView) runId hopen hactive hrunning hnocancel using 1
  refine laneView_eq_setRun rfl rfl (fun k => ?_) (fun k => ?_) (fun k => ?_) fun k => ?_
  · exact statusOf_set db hrun (acceptedRun input.now run settlement) hlane rfl k
  · exact Budget.statusOf_settleBudget hsettle k
  · exact ite_self_of_eq rfl k
  · exact ite_self_of_eq rfl k

/-! ### The end of a run -/

/-- What the accounting of an active run does: the reservation is charged or released, or kept with
the lane and the control closed. -/
theorem account_cases {db : Db D} {runId : Uuid} (accountingFails billable : Bool)
    (hres : db.budget.statusOf runId = some .reserved) :
    (∃ budget, (db.account accountingFails billable runId).2 = { db with budget } ∧
        ∀ k, budget.statusOf k = if k = runId then
          some (if billable then .settled else .released) else db.budget.statusOf k) ∨
      (db.account accountingFails billable runId).2 = db.closeLane runId := by
  unfold account
  cases accountingFails with
  | true => exact .inr rfl
  | false =>
    cases billable with
    | true =>
      cases hcharge : db.budget.chargeReservedBudget runId with
      | error e => exact .inr (by simp [hcharge, closeLane])
      | ok r =>
        exact .inl ⟨r.2, by simp [hcharge], Budget.statusOf_chargeReservedBudget hcharge hres⟩
    | false =>
      cases hrelease : db.budget.releaseBudget runId with
      | error e => exact .inr (by simp [hrelease, closeLane])
      | ok r => exact .inl ⟨r.2, by simp [hrelease], Budget.statusOf_releaseBudget hrelease hres⟩

theorem controlDisabled_closeLane {db : Db D} {runId : Uuid} {control : AgentRunControl}
    (hcontrol : db.controls.get? runId = some control) (k : Uuid) :
    (db.closeLane runId).controlDisabled k = if k = runId then true else db.controlDisabled k := by
  simp only [controlDisabled, closeLane, Table.get?_modify]
  split_ifs with hk
  · simp [hcontrol]
  · rfl

theorem cancelRequested_closeLane (db : Db D) (runId k : Uuid) :
    (db.closeLane runId).cancelRequested k = db.cancelRequested k := by
  simp only [cancelRequested, closeLane, Table.get?_modify]
  split_ifs with hk
  · subst hk
    cases db.controls.get? k <;> rfl
  · rfl

theorem refines_closeLane {db : Db D} {runId : Uuid} {control : AgentRunControl}
    (hcontrol : db.controls.get? runId = some control) :
    LaneStep db.laneView (db.closeLane runId).laneView := by
  convert LaneStep.closeRun (v := db.laneView) runId using 1
  refine laneView_eq_setRun rfl rfl (fun k => ?_) (fun k => ?_) (fun k => ?_) fun k => ?_
  · exact ite_self_of_eq rfl k
  · exact ite_self_of_eq rfl k
  · rw [cancelRequested_closeLane]
    exact ite_self_of_eq rfl k
  · exact controlDisabled_closeLane hcontrol k

/-- The status of a run that ends with a category. -/
def endedStatus (category : FailureCategory) : RunStatus :=
  if category = .cancelled then .cancelled else .failed

/-- What the end of a run writes besides the accounting. -/
theorem terminal_eq_ok {H : Hash D} {now : Time} {accountingFails : Bool} {runId : Uuid}
    {run : AgentRun D} {category : FailureCategory} {billable : Bool} {db db' : Db D}
    (h : db.terminal H now accountingFails runId run category billable = .ok db') :
    ∃ reservation events audits, reservation = (db.account accountingFails billable runId).1 ∧
      db' = { (db.account accountingFails billable runId).2 with
        events, audits
        runs := (db.account accountingFails billable runId).2.runs.set runId
          (endedRun now run category reservation)
        lane := { (db.account accountingFails billable runId).2.lane with
          activeRun := if (db.account accountingFails billable runId).2.lane.activeRun = some runId
            then none else (db.account accountingFails billable runId).2.lane.activeRun } } := by
  simp only [terminal, bind_eq_ok, pure_eq_ok] at h
  obtain ⟨db₁, hsave, db₂, hevent, rfl⟩ := h
  obtain rfl := saveRun_eq_ok hsave
  obtain ⟨events, audits, rfl⟩ := event_eq_ok hevent
  exact ⟨_, events, audits, rfl, rfl⟩

theorem refines_terminal {H : Hash D} {now : Time} {accountingFails : Bool} {runId : Uuid}
    {run : AgentRun D} {category : FailureCategory} {billable : Bool} {control : AgentRunControl}
    {db db' : Db D} (hsound : db.laneView.Sound)
    (h : db.terminal H now accountingFails runId run category billable = .ok db')
    (hrun : db.runs.get? runId = some run) (hlane : run.hermesLane = true)
    (hactive : run.status.active = true) (hcontrol : db.controls.get? runId = some control)
    (hbillable : billable = false → run.status = .queued) :
    LaneStep db.laneView db'.laneView := by
  have hstatus : db.statusOf runId = some run.status := statusOf_eq hrun hlane
  have hactive' : (db.laneView.run runId).Active := by
    cases hs : run.status <;> simp_all [RunView.Active, laneView, RunStatus.active]
  have hres : db.budget.statusOf runId = some .reserved := hsound.reserved runId hactive'
  have hended : endedStatus category = .failed ∨ endedStatus category = .cancelled := by
    unfold endedStatus
    split_ifs
    · exact .inr rfl
    · exact .inl rfl
  obtain ⟨reservation, events, audits, -, rfl⟩ := terminal_eq_ok h
  obtain ⟨budget, hdb, hbudget⟩ | hdb := account_cases accountingFails billable hres
  · rw [hdb]
    have hfinish := LaneStep.finish (v := db.laneView) runId (endedStatus category)
      (if billable then .charged else .released) hactive' hended (fun hacc => by
        cases billable with
        | true => cases hacc
        | false => exact hstatus.trans (congrArg some (hbillable rfl)))
    have hkept : decide ((if billable then Accounting.charged else .released) = .kept) = false := by
      cases billable <;> rfl
    rw [hkept, Bool.or_false, Bool.or_false] at hfinish
    convert hfinish using 1
    refine laneView_eq_setRun rfl rfl (fun k => ?_) (fun k => ?_) (fun k => ?_) fun k => ?_
    · exact statusOf_set db hrun (endedRun now run category reservation) hlane rfl k
    · rw [show ({ db with budget } : Db D).budget.statusOf k = budget.statusOf k from rfl, hbudget]
      cases billable <;> rfl
    · exact ite_self_of_eq rfl k
    · exact ite_self_of_eq rfl k
  · rw [hdb]
    have hfinish := LaneStep.finish (v := db.laneView) runId (endedStatus category) .kept hactive'
      hended (by simp)
    convert hfinish using 1
    refine laneView_eq_setRun rfl (by simp [closeLane]) (fun k => ?_) (fun k => ?_) (fun k => ?_)
      fun k => ?_
    · exact statusOf_set db hrun (endedRun now run category reservation) hlane rfl k
    · exact ite_self_of_eq rfl k
    · exact (cancelRequested_closeLane db runId k).trans (ite_self_of_eq rfl k)
    · refine (controlDisabled_closeLane hcontrol k).trans ?_
      simp [laneView]

theorem ownsRun_cases (db : Db D) (runId : Uuid) (run : AgentRun D) :
    db.ownsRun runId run = (true, db) ∧ run.hermesLane = true ∨
      db.ownsRun runId run = (false, db) ∨
      db.ownsRun runId run =
        (false, { db with lane := { db.lane with admissionDisabled := true } }) := by
  unfold ownsRun
  split_ifs with hlane hrows
  · exact .inl ⟨rfl, hlane⟩
  · exact .inr (.inr rfl)
  · exact .inr (.inl rfl)

theorem sameLane_tryRevoke {revokeFails : Bool} {now : Time} {control : AgentRunControl}
    {db db' : Db D} (h : db.tryRevoke revokeFails now control = some db') : db.SameLane db' := by
  unfold tryRevoke at h
  split_ifs at h
  split at h
  · rename_i db₁ hrevoke
    obtain rfl := Option.some.inj h
    exact sameLane_revokeRecord hrevoke
  · cases h

/-- The end of a run on an error: nothing, or a chain of moves that ends the run. -/
theorem finish_cases {H : Hash D} {input : FinishInput} {runId : Uuid}
    {category : FailureCategory} {billable cleanupOk : Bool} {u : Unit} {db db' : Db D}
    (h : db.finish H input runId category billable cleanupOk = .ok (u, db')) :
    db' = db ∨ db' = { db with lane := { db.lane with admissionDisabled := true } } ∨
      ∃ (run : AgentRun D) (control : AgentRunControl) (category' : FailureCategory)
        (billable' : Bool) (db₁ db₂ : Db D),
        db.runs.get? runId = some run ∧ run.hermesLane = true ∧ run.status.active = true ∧
        db.controls.get? runId = some control ∧ (billable' = false → run.status ≠ .running) ∧
        (db₁ = db ∨ db.tryRevoke input.revokeFails input.now control = some db₁) ∧
        (db₂ = db₁ ∨ db₂ = db₁.closeLane runId) ∧
        db₂.terminal H input.now input.accountingFails runId run category' billable' = .ok db' := by
  simp only [finish, bind_eq_ok, fetch_eq_ok] at h
  obtain ⟨-, -, run, hrun, h⟩ := h
  obtain ⟨howns, hlane⟩ | howns | howns := ownsRun_cases db runId run
  · rw [howns] at h
    simp only at h
    split_ifs at h with hactive
    · simp only [bind_eq_ok, fetch_eq_ok, pure_eq_ok, Prod.mk.injEq] at h
      obtain ⟨control, hcontrol, db₁, hterminal, -, rfl⟩ := h
      refine .inr (.inr ⟨run, control, _, _,
        (db.tryRevoke input.revokeFails input.now control).getD db, _, hrun, hlane, hactive, hcontrol, ?_, ?_, ?_,
        hterminal⟩)
      · intro hb hr
        cases billable <;> simp [hr] at hb
      · cases hrevoke : db.tryRevoke input.revokeFails input.now control with
        | none => exact .inl rfl
        | some db₁ => exact .inr rfl
      · split_ifs
        · exact .inl rfl
        · exact .inr rfl
    · simp only [pure_eq_ok, Prod.mk.injEq] at h
      exact .inl h.2.symm
  · rw [howns] at h
    simp only [pure_eq_ok, Prod.mk.injEq] at h
    exact .inl h.2.symm
  · rw [howns] at h
    simp only [pure_eq_ok, Prod.mk.injEq] at h
    exact .inr (.inl h.2.symm)

theorem refines_finish {H : Hash D} {input : FinishInput} {runId : Uuid}
    {category : FailureCategory} {billable cleanupOk : Bool} {u : Unit} {db db' : Db D}
    (hsound : db.laneView.Sound)
    (h : db.finish H input runId category billable cleanupOk = .ok (u, db')) :
    Relation.ReflTransGen LaneStep db.laneView db'.laneView := by
  obtain rfl | rfl | ⟨run, control, category', billable', db₁, db₂, hrun, hlane, hactive, hcontrol,
    hbillable, hrevoke, hclose, hterminal⟩ := finish_cases h
  · exact .refl
  · exact .single .close
  · have hsame : db.SameLane db₁ := by
      rcases hrevoke with rfl | hrevoke
      · exact .refl db₁
      · exact sameLane_tryRevoke hrevoke
    have hcontrol₁ : db₁.controls.get? runId = some control := by rw [hsame.controls, hcontrol]
    have hchain : Relation.ReflTransGen LaneStep db.laneView db₂.laneView := by
      rw [← hsame.laneView]
      rcases hclose with rfl | rfl
      · exact .refl
      · exact .single (refines_closeLane hcontrol₁)
    have hcontrol₂ : ∃ control', db₂.controls.get? runId = some control' := by
      rcases hclose with rfl | rfl
      · exact ⟨control, hcontrol₁⟩
      · simp [closeLane, Table.get?_modify, hcontrol₁]
    obtain ⟨control', hcontrol₂⟩ := hcontrol₂
    have hrun₂ : db₂.runs.get? runId = some run := by
      rcases hclose with rfl | rfl
      · rw [hsame.runs, hrun]
      · exact (congrArg (·.get? runId) hsame.runs).trans hrun
    refine hchain.tail (refines_terminal (hsound.chain hchain).1 hterminal hrun₂ hlane hactive
      hcontrol₂ fun hb => ?_)
    have hne := hbillable hb
    cases hs : run.status <;> simp_all [RunStatus.active]

/-- A cancellation: nothing, or the request with the revocation or the closed lane, and the end of a
run that is still queued. -/
theorem cancelHermesRun_cases {H : Hash D} {input : FinishInput} {runId : Uuid} {u : Unit}
    {db db' : Db D} (h : db.cancelHermesRun H input runId = .ok (u, db')) :
    db' = db ∨ db' = { db with lane := { db.lane with admissionDisabled := true } } ∨
      ∃ (run : AgentRun D) (control : AgentRunControl) (db₁ db₂ : Db D),
        db.runs.get? runId = some run ∧ run.hermesLane = true ∧ run.status.active = true ∧
        db.controls.get? runId = some control ∧ control.cancelRequestedAt = none ∧
        ((db.markCancelled input.now runId control).tryRevoke input.revokeFails input.now control =
            some db₁ ∨
          db₁ = (db.markCancelled input.now runId control).closeLane runId) ∧
        db₁.event H runId "cancel_requested" "accepted" = .ok db₂ ∧
        (run.status ≠ .queued ∧ db' = db₂ ∨ run.status = .queued ∧
          db₂.terminal H input.now input.accountingFails runId run .cancelled false = .ok db') := by
  simp only [cancelHermesRun, bind_eq_ok, fetch_eq_ok] at h
  obtain ⟨-, -, run, hrun, h⟩ := h
  obtain ⟨howns, hlane⟩ | howns | howns := ownsRun_cases db runId run
  · rw [howns] at h
    simp only at h
    by_cases hactive : run.status.active = true
    · simp only [if_pos hactive, bind_eq_ok, fetch_eq_ok] at h
      obtain ⟨control, hcontrol, h⟩ := h
      by_cases hcancel : control.cancelRequestedAt.isSome = true
      · simp only [if_pos hcancel, pure_eq_ok, Prod.mk.injEq] at h
        exact .inl h.2.symm
      · simp only [if_neg hcancel, bind_eq_ok] at h
        obtain ⟨db₂, hevent, h⟩ := h
        refine .inr (.inr ⟨run, control, _, db₂, hrun, hlane, hactive, hcontrol, by simpa using hcancel, ?_, hevent,
          ?_⟩)
        · split
          · rename_i db₁ hrevoke
            exact .inl hrevoke
          · exact .inr rfl
        · split_ifs at h with hqueued
          · simp only [bind_eq_ok, pure_eq_ok, Prod.mk.injEq] at h
            obtain ⟨db₃, hterminal, -, rfl⟩ := h
            exact .inr ⟨hqueued, hterminal⟩
          · simp only [pure_eq_ok, Prod.mk.injEq] at h
            exact .inl ⟨hqueued, h.2.symm⟩
    · simp only [if_neg hactive, pure_eq_ok, Prod.mk.injEq] at h
      exact .inl h.2.symm
  · rw [howns] at h
    simp only [pure_eq_ok, Prod.mk.injEq] at h
    exact .inl h.2.symm
  · rw [howns] at h
    simp only [pure_eq_ok, Prod.mk.injEq] at h
    exact .inr (.inl h.2.symm)

theorem refines_markCancelled {db : Db D} {runId : Uuid} {control : AgentRunControl} (now : Time)
    (hcontrol : db.controls.get? runId = some control)
    (hactive : (db.laneView.run runId).Active) :
    LaneStep db.laneView (db.markCancelled now runId control).laneView := by
  convert LaneStep.requestCancel (v := db.laneView) runId hactive using 1
  refine laneView_eq_setRun rfl rfl (fun k => ?_) (fun k => ?_) (fun k => ?_) fun k => ?_
  · exact ite_self_of_eq rfl k
  · exact ite_self_of_eq rfl k
  · simp only [cancelRequested, markCancelled, Table.get?_set, laneView]
    split_ifs <;> simp [hcontrol]
  · simp only [controlDisabled, markCancelled, Table.get?_set, laneView]
    split_ifs with hk <;> simp [hcontrol]

theorem active_of_status {db : Db D} {runId : Uuid} {run : AgentRun D}
    (hrun : db.runs.get? runId = some run) (hlane : run.hermesLane = true)
    (hactive : run.status.active = true) : (db.laneView.run runId).Active := by
  have hstatus := statusOf_eq hrun hlane
  cases hs : run.status <;> simp_all [RunView.Active, laneView, RunStatus.active]

theorem refines_cancelHermesRun {H : Hash D} {input : FinishInput} {runId : Uuid} {u : Unit}
    {db db' : Db D} (hsound : db.laneView.Sound)
    (h : db.cancelHermesRun H input runId = .ok (u, db')) :
    Relation.ReflTransGen LaneStep db.laneView db'.laneView := by
  obtain rfl | rfl | ⟨run, control, db₁, db₂, hrun, hlane, hactive, hcontrol, -, hrevoke, hevent,
    hend⟩ := cancelHermesRun_cases h
  · exact .refl
  · exact .single .close
  · have hmarked : (db.markCancelled input.now runId control).controls.get? runId =
        some { control with cancelRequestedAt := some input.now } :=
      Table.get?_set_self hcontrol _
    have hmark := refines_markCancelled input.now hcontrol
      (active_of_status hrun hlane hactive)
    -- The revocation leaves the lane alone; when it fails the lane is closed.
    have hrows : db₁.runs.get? runId = some run ∧ (∃ c, db₁.controls.get? runId = some c) ∧
        Relation.ReflTransGen LaneStep db.laneView db₁.laneView := by
      rcases hrevoke with hrevoke | rfl
      · have hsame := sameLane_tryRevoke hrevoke
        refine ⟨by rw [hsame.runs]; exact hrun, ⟨_, by rw [hsame.controls]; exact hmarked⟩, ?_⟩
        rw [hsame.laneView]
        exact .single hmark
      · refine ⟨hrun, ?_, (Relation.ReflTransGen.single hmark).tail (refines_closeLane hmarked)⟩
        simp [closeLane, Table.get?_modify, hmarked]
    obtain ⟨hrun₁, ⟨c, hcontrol₁⟩, hchain⟩ := hrows
    have hsame₂ := sameLane_event hevent
    have hchain₂ : Relation.ReflTransGen LaneStep db.laneView db₂.laneView := by
      rwa [hsame₂.laneView]
    rcases hend with ⟨-, rfl⟩ | ⟨hqueued, hterminal⟩
    · exact hchain₂
    · exact hchain₂.tail (refines_terminal (hsound.chain hchain₂).1 hterminal
        (by rw [hsame₂.runs, hrun₁]) hlane hactive (by rw [hsame₂.controls]; exact hcontrol₁)
        fun _ => hqueued)

end Db

/-! ### The service -/

namespace Agents

theorem refines_commit {α ε : Type} {db : Db D} {x : Except ε (α × Db D)}
    (h : ∀ (a : α) (db' : Db D), x = .ok (a, db') →
      Relation.ReflTransGen LaneStep db.laneView db'.laneView) :
    Relation.ReflTransGen LaneStep db.laneView (commit db x).laneView :=
  commit_induction (P := fun (db' : Db D) => Relation.ReflTransGen LaneStep db.laneView db'.laneView) .refl h

theorem serviceStep_refines (H : Hash D) (E : Engine D) (db : Db D) (a : Action D)
    (hsound : db.laneView.Sound) :
    Relation.ReflTransGen LaneStep db.laneView (serviceStep H E db a).laneView := by
  cases a with
  | queue input workflowId revisionId actorSlug ownerSessionId =>
    exact refines_commit fun _ _ h => Db.refines_queueHermesRun hsound h
  | start input request => exact refines_commit fun _ _ h => Db.refines_startHermesRun hsound h
  | dispatchFails input runId => exact refines_commit fun _ _ h => Db.refines_finish hsound h
  | cancel input runId => exact refines_commit fun _ _ h => Db.refines_cancelHermesRun hsound h
  | expire now =>
    simp only [serviceStep]
    split
    · rename_i n budget h
      obtain ⟨expired, hexp, hstatus⟩ := Budget.statusOf_expireReservations h
      exact Db.chain_of_expired hexp hstatus
    · exact .refl
  | issueCapability now id token workflowId revisionId actorId tools lifetimeSeconds =>
    exact refines_commit fun _ _ h => (Db.sameLane_issueWorkflowCapability h).laneView ▸ .refl
  | revokeCapability now token =>
    exact refines_commit fun _ _ h => (Db.sameLane_revokeWorkflowCapability h).laneView ▸ .refl
  | tool call => exact (Db.sameLane_dispatchMcpTool H call db).laneView ▸ .refl
  | changeWorld world => exact .refl
  | deliver | claim | clientCall | complete | clientCancel | finish | crash => exact .refl

theorem claimStep_refines (H : Hash D) (E : Engine D) (input : ClaimInput) (runId : Uuid)
    (db : Db D) :
    Relation.ReflTransGen LaneStep db.laneView (claimStep H E input runId db).1.laneView := by
  unfold claimStep
  split
  · rename_i hclaim
    exact Db.refines_claim hclaim
  · rename_i hclaim
    exact Db.refines_claim hclaim
  · exact .refl

theorem completeStep_refines (H : Hash D) (E : Engine D) (input : CompleteInput) (runId : Uuid)
    (token : ℕ) (result : HermesResult D) (db : Db D) (hsound : db.laneView.Sound) :
    Relation.ReflTransGen LaneStep db.laneView
      (completeStep H E input runId token result db).1.laneView := by
  unfold completeStep
  split
  · rename_i hcomplete
    exact Db.refines_complete hsound hcomplete
  · exact .refl

theorem workerStep_refines {H : Hash D} {E : Engine D} {worker : Worker D} {db db' : Db D}
    {a : Action D} {phase : Option (WorkerPhase D)} (hsound : db.laneView.Sound)
    (h : workerStep H E worker db a = some (db', phase)) :
    Relation.ReflTransGen LaneStep db.laneView db'.laneView := by
  cases a with
  | claim _ input =>
    simp only [workerStep] at h
    split at h
    · obtain rfl := congrArg Prod.fst (Option.some.inj h)
      exact claimStep_refines H E input worker.runId db
    · cases h
  | clientCall _ outcome =>
    simp only [workerStep] at h
    split at h <;> cases h <;> exact .refl
  | complete _ input =>
    simp only [workerStep] at h
    split at h
    · rename_i token result _
      obtain rfl := congrArg Prod.fst (Option.some.inj h)
      exact completeStep_refines H E input worker.runId token result db hsound
    · cases h
  | clientCancel _ ok =>
    simp only [workerStep] at h
    split at h <;> cases h
    exact .refl
  | finish _ input =>
    simp only [workerStep] at h
    split at h <;> cases h
    exact refines_commit fun _ _ h => Db.refines_finish hsound h
  | _ => cases h

/-- **Every step of the service is a chain of moves of the lane protocol.** -/
theorem step_refines (H : Hash D) (E : Engine D) (s : State D) (a : Action D)
    (hsound : s.db.laneView.Sound) :
    Relation.ReflTransGen LaneStep s.db.laneView (step H E s a).db.laneView := by
  unfold step
  split
  · split <;> exact .refl
  · exact .refl
  · split
    · exact serviceStep_refines H E s.db a hsound
    · split
      · exact .refl
      · split
        · exact .refl
        · rename_i h
          exact workerStep_refines hsound h

end Agents

end CivicLoop
