import CivicLoop.Agents.Calls
import CivicLoop.Agents.LaneInvariant

/-!
# The capability of a run

A claim gives a run its capability, for the workflow, the revision, the actor and the revision digest
of the run. Nothing changes these later: runs, bindings and capabilities keep what they name, and
only the claim of a queued run writes which capability is its own.

## Main definitions

* `Db.capabilityOfRun` : the capability that the control of a run names.
* `Db.Grows` : runs, bindings and capabilities are kept, with what they name.
* `Db.Scoped` : the capability of a run is one for the run.

## Main results

* `Agents.step_grows`, `Agents.step_capabilityOfRun` : what a step keeps.
* `Agents.scoped_of_run` : every reachable database is scoped.

## References

Source: `backend/agents/tasks.py`, lines 392–456 and 546–620.
-/

namespace CivicLoop

variable {D : Type} [DecidableEq D]

/-- The two capabilities are for the same workflow, revision, actor and revision digest. -/
structure WorkflowCapability.SameScope (record record' : WorkflowCapability D) : Prop where
  workflow : record'.workflow = record.workflow
  revision : record'.revision = record.revision
  actor : record'.actor = record.actor
  revisionDigest : record'.revisionDigest = record.revisionDigest

omit [DecidableEq D] in
theorem WorkflowCapability.SameScope.refl (record : WorkflowCapability D) : record.SameScope record :=
  ⟨rfl, rfl, rfl, rfl⟩

omit [DecidableEq D] in
theorem WorkflowCapability.SameScope.trans {r r' r'' : WorkflowCapability D} (h : r.SameScope r')
    (h' : r'.SameScope r'') : r.SameScope r'' :=
  ⟨h'.workflow.trans h.workflow, h'.revision.trans h.revision, h'.actor.trans h.actor,
    h'.revisionDigest.trans h.revisionDigest⟩

/-- The capability is one for the run. -/
structure WorkflowCapability.ForRun (record : WorkflowCapability D) (run : AgentRun D)
    (binding : HermesRunBinding D) : Prop where
  workflow : record.workflow = run.workflow
  revision : record.revision = run.eventRevision
  actor : record.actor = binding.actor
  revisionDigest : record.revisionDigest = binding.revisionDigest

namespace Db

/-- The capability that the control of a run names. -/
def capabilityOfRun (db : Db D) (id : Uuid) : Option Uuid :=
  (db.controls.get? id).bind fun control => control.capability

/-- Runs, bindings and capabilities are kept, with what they name. -/
structure Grows (db db' : Db D) : Prop where
  runs : ∀ id run, db.runs.get? id = some run → ∃ run', db'.runs.get? id = some run' ∧
    run'.workflow = run.workflow ∧ run'.eventRevision = run.eventRevision
  bindings : ∀ id binding, db.bindings.get? id = some binding → db'.bindings.get? id = some binding
  capabilities : ∀ id record, db.capabilities.get? id = some record →
    ∃ record', db'.capabilities.get? id = some record' ∧ record.SameScope record'

/-- Runs and bindings are kept, and so is which capability is the one of a run. -/
structure KeepsScope (db db' : Db D) : Prop where
  grows : db.Grows db'
  capabilityOfRun : ∀ id, db'.capabilityOfRun id = db.capabilityOfRun id

/-- The capability of a run is one for the run. -/
def Scoped (db : Db D) : Prop :=
  ∀ id capability, db.capabilityOfRun id = some capability → ∃ run binding record,
    db.runs.get? id = some run ∧ db.bindings.get? id = some binding ∧
      db.capabilities.get? capability = some record ∧ record.ForRun run binding

theorem Grows.trans {db db' db'' : Db D} (h : db.Grows db') (h' : db'.Grows db'') :
    db.Grows db'' where
  runs id run hrun := by
    obtain ⟨run', hrun', hw, hr⟩ := h.runs id run hrun
    obtain ⟨run'', hrun'', hw', hr'⟩ := h'.runs id run' hrun'
    exact ⟨run'', hrun'', hw'.trans hw, hr'.trans hr⟩
  bindings id binding hb := h'.bindings id binding (h.bindings id binding hb)
  capabilities id record hrecord := by
    obtain ⟨record', hrecord', hs⟩ := h.capabilities id record hrecord
    obtain ⟨record'', hrecord'', hs'⟩ := h'.capabilities id record' hrecord'
    exact ⟨record'', hrecord'', hs.trans hs'⟩

theorem KeepsScope.trans {db db' db'' : Db D} (h : db.KeepsScope db') (h' : db'.KeepsScope db'') :
    db.KeepsScope db'' :=
  ⟨h.grows.trans h'.grows, fun id => (h'.capabilityOfRun id).trans (h.capabilityOfRun id)⟩

/-! ### Writes that keep the scope -/

/-- A capability is replaced by one of the same scope. -/
theorem capabilities_set {db : Db D} {id : Uuid} {record record' : WorkflowCapability D}
    (hget : db.capabilities.get? id = some record) (hscope : record.SameScope record') (k : Uuid)
    (r : WorkflowCapability D) (hr : db.capabilities.get? k = some r) :
    ∃ r', (db.capabilities.set id record').get? k = some r' ∧ r.SameScope r' := by
  by_cases hk : k = id
  · subst hk
    obtain rfl := Option.some.inj (hget.symm.trans hr)
    exact ⟨record', Table.get?_set_self hget _, hscope⟩
  · exact ⟨r, by rw [Table.get?_set_of_ne _ _ hk, hr], .refl r⟩

/-- A run is replaced by one of the same workflow and revision. -/
theorem runs_set {db : Db D} {id : Uuid} {run run' : AgentRun D} (hget : db.runs.get? id = some run)
    (hworkflow : run'.workflow = run.workflow) (hrevision : run'.eventRevision = run.eventRevision)
    (k : Uuid) (r : AgentRun D) (hr : db.runs.get? k = some r) :
    ∃ r', (db.runs.set id run').get? k = some r' ∧ r'.workflow = r.workflow ∧
      r'.eventRevision = r.eventRevision := by
  by_cases hk : k = id
  · subst hk
    obtain rfl := Option.some.inj (hget.symm.trans hr)
    exact ⟨run', Table.get?_set_self hget _, hworkflow, hrevision⟩
  · exact ⟨r, by rw [Table.get?_set_of_ne _ _ hk, hr], rfl, rfl⟩

/-- A row that is inserted leaves the others alone. -/
theorem get?_of_insert?_of_some {V : Type} {t t' : Table Uuid V} {id k : Uuid} {v w : V}
    (hinsert : t.insert? id v = some t') (hk : t.get? k = some w) : t'.get? k = some w := by
  have hne : k ≠ id := by
    rintro rfl
    rw [(Table.insert?_eq_some hinsert).1] at hk
    cases hk
  rw [Table.get?_of_insert? hinsert, if_neg hne, hk]

theorem keepsScope_of_eq {db db' : Db D} (hruns : db'.runs = db.runs)
    (hbindings : db'.bindings = db.bindings) (hcapabilities : db'.capabilities = db.capabilities)
    (hcontrols : ∀ id, db'.capabilityOfRun id = db.capabilityOfRun id) : db.KeepsScope db' where
  grows := ⟨fun id run h => ⟨run, by rw [hruns, h], rfl, rfl⟩, fun id b h => by rw [hbindings, h],
    fun id r h => ⟨r, by rw [hcapabilities, h], .refl r⟩⟩
  capabilityOfRun := hcontrols

theorem KeepsScope.refl (db : Db D) : db.KeepsScope db := keepsScope_of_eq rfl rfl rfl fun _ => rfl

theorem keepsScope_of_sameLane {db db' : Db D} (h : db.SameLane db')
    (hcapabilities : ∀ id record, db.capabilities.get? id = some record →
      ∃ record', db'.capabilities.get? id = some record' ∧ record.SameScope record') :
    db.KeepsScope db' where
  grows := ⟨fun id run hr => ⟨run, by rw [h.runs, hr], rfl, rfl⟩,
    fun id b hb => by rw [h.bindings, hb], hcapabilities⟩
  capabilityOfRun id := by rw [Db.capabilityOfRun, h.controls]; rfl

theorem keepsScope_issueWorkflowCapability {H : Hash D} {now : Time} {id : Uuid} {token : ℕ}
    {workflowId : Uuid} {revisionId : ℤ} {actorId : Text D} {tools : List Tool}
    {lifetimeSeconds : ℤ} {id' : Uuid} {db db' : Db D}
    (h : db.issueWorkflowCapability H now id token workflowId revisionId actorId tools
      lifetimeSeconds = .ok (id', db')) : db.KeepsScope db' := by
  refine keepsScope_of_sameLane (sameLane_issueWorkflowCapability h) fun k r hk => ?_
  simp only [issueWorkflowCapability, bind_eq_ok, ensure_eq_ok, fetch_eq_ok, pure_eq_ok,
    Prod.mk.injEq] at h
  obtain ⟨-, -, workflow, -, revision, -, actor, -, -, -, digest, -, -, -, capabilities, hinsert, -,
    rfl⟩ := h
  exact ⟨r, get?_of_insert?_of_some hinsert hk, .refl r⟩

theorem keepsScope_revokeWorkflowCapability {H : Hash D} {now : Time} {token : ℕ} {u : Unit}
    {db db' : Db D} (h : db.revokeWorkflowCapability H now token = .ok (u, db')) :
    db.KeepsScope db' := by
  refine keepsScope_of_sameLane (sameLane_revokeWorkflowCapability h) ?_
  simp only [revokeWorkflowCapability, bind_eq_ok, fetch_eq_ok, pure_eq_ok, Prod.exists,
    Prod.mk.injEq] at h
  obtain ⟨id, record, hrecord, -, rfl⟩ := h
  exact capabilities_set (Table.find?_eq_some hrecord).1 ⟨rfl, rfl, rfl, rfl⟩

theorem keepsScope_tryRevoke {revokeFails : Bool} {now : Time} {control : AgentRunControl}
    {db db' : Db D} (h : db.tryRevoke revokeFails now control = some db') : db.KeepsScope db' := by
  have hsame := sameLane_tryRevoke h
  unfold tryRevoke revokeRecord at h
  split_ifs at h
  split at h
  · rename_i db₁ hrevoke
    obtain rfl := Option.some.inj h
    split at hrevoke
    · cases hrevoke
      exact .refl db
    · simp only [bind_eq_ok, fetch_eq_ok] at hrevoke
      obtain ⟨record, hrecord, hrevoke⟩ := hrevoke
      split_ifs at hrevoke <;> cases hrevoke
      · exact keepsScope_of_sameLane hsame (capabilities_set hrecord ⟨rfl, rfl, rfl, rfl⟩)
      · exact .refl db
  · cases h

/-- The capability that a control names is kept by a change of its other fields. -/
theorem capabilityOfRun_modify {db db' : Db D} {runId : Uuid}
    {f : AgentRunControl → AgentRunControl} (hf : ∀ control, (f control).capability = control.capability)
    (h : db'.controls = db.controls.modify runId f) (id : Uuid) :
    db'.capabilityOfRun id = db.capabilityOfRun id := by
  rw [capabilityOfRun, capabilityOfRun, h, Table.get?_modify]
  split_ifs with hid
  · subst hid
    cases db.controls.get? id with
    | none => rfl
    | some control => simp [hf]
  · rfl

theorem keepsScope_closeLane (db : Db D) (runId : Uuid) : db.KeepsScope (db.closeLane runId) :=
  keepsScope_of_eq rfl rfl rfl (capabilityOfRun_modify
    (f := fun control => { control with admissionDisabled := true }) (fun _ => rfl) rfl)

theorem keepsScope_account (db : Db D) (accountingFails billable : Bool) (runId : Uuid) :
    db.KeepsScope (db.account accountingFails billable runId).2 := by
  unfold account
  simp only
  split
  · exact keepsScope_of_eq rfl rfl rfl fun _ => rfl
  · exact db.keepsScope_closeLane runId

theorem keepsScope_terminal {H : Hash D} {now : Time} {accountingFails : Bool} {runId : Uuid}
    {run : AgentRun D} {category : FailureCategory} {billable : Bool} {db db' : Db D}
    (h : db.terminal H now accountingFails runId run category billable = .ok db')
    (hrun : db.runs.get? runId = some run) : db.KeepsScope db' := by
  refine (db.keepsScope_account accountingFails billable runId).trans ?_
  have hruns : (db.account accountingFails billable runId).2.runs = db.runs := by
    unfold account
    simp only
    split <;> rfl
  obtain ⟨reservation, events, audits, -, rfl⟩ := terminal_eq_ok h
  rw [← hruns] at hrun
  exact ⟨⟨runs_set hrun rfl rfl, fun _ _ hb => hb, fun _ r hr => ⟨r, hr, .refl r⟩⟩, fun _ => rfl⟩

theorem keepsScope_finish {H : Hash D} {input : FinishInput} {runId : Uuid}
    {category : FailureCategory} {billable cleanupOk : Bool} {u : Unit} {db db' : Db D}
    (h : db.finish H input runId category billable cleanupOk = .ok (u, db')) :
    db.KeepsScope db' := by
  obtain rfl | rfl | ⟨run, control, category', billable', db₁, db₂, hrun, -, -, -, -, hrevoke,
    hclose, hterminal⟩ := finish_cases h
  · exact .refl db'
  · exact keepsScope_of_eq rfl rfl rfl fun _ => rfl
  · have h₁ : db.KeepsScope db₁ ∧ db₁.runs = db.runs := by
      rcases hrevoke with rfl | hrevoke
      · exact ⟨.refl db₁, rfl⟩
      · exact ⟨keepsScope_tryRevoke hrevoke, (sameLane_tryRevoke hrevoke).runs⟩
    have h₂ : db₁.KeepsScope db₂ ∧ db₂.runs = db₁.runs := by
      rcases hclose with rfl | rfl
      · exact ⟨.refl db₂, rfl⟩
      · exact ⟨db₁.keepsScope_closeLane runId, rfl⟩
    exact (h₁.1.trans h₂.1).trans
      (keepsScope_terminal hterminal (by rw [h₂.2, h₁.2, hrun]))

theorem keepsScope_cancelHermesRun {H : Hash D} {input : FinishInput} {runId : Uuid} {u : Unit}
    {db db' : Db D} (h : db.cancelHermesRun H input runId = .ok (u, db')) : db.KeepsScope db' := by
  obtain rfl | rfl | ⟨run, control, db₁, db₂, hrun, -, -, hcontrol, -, hrevoke, hevent, hend⟩ :=
    cancelHermesRun_cases h
  · exact .refl db'
  · exact keepsScope_of_eq rfl rfl rfl fun _ => rfl
  · have hmark : db.KeepsScope (db.markCancelled input.now runId control) := by
      refine keepsScope_of_eq rfl rfl rfl fun id => ?_
      simp only [capabilityOfRun, markCancelled, Table.get?_set]
      split_ifs with hid
      · simp [hid, hcontrol]
      · rfl
    have h₁ : db.KeepsScope db₁ ∧ db₁.runs = db.runs := by
      rcases hrevoke with hrevoke | rfl
      · exact ⟨hmark.trans (keepsScope_tryRevoke hrevoke), (sameLane_tryRevoke hrevoke).runs⟩
      · exact ⟨hmark.trans (keepsScope_closeLane _ runId), rfl⟩
    obtain ⟨events, audits, rfl⟩ := event_eq_ok hevent
    have h₂ : db.KeepsScope { db₁ with events, audits } :=
      h₁.1.trans (keepsScope_of_eq rfl rfl rfl fun _ => rfl)
    rcases hend with ⟨-, rfl⟩ | ⟨-, hterminal⟩
    · exact h₂
    · exact h₂.trans (keepsScope_terminal hterminal (h₁.2 ▸ hrun))

theorem keepsScope_queueHermesRun {H : Hash D} {E : Engine D} {input : QueueInput}
    {workflowId : Uuid} {revisionId : ℤ} {actorSlug : Text D} {ownerSessionId : Option Uuid}
    {id : Uuid} {db db' : Db D}
    (h : db.queueHermesRun H E input workflowId revisionId actorSlug ownerSessionId =
      .ok (id, db')) : db.KeepsScope db' := by
  obtain ⟨-, -, request, reservation, run, binding, control, budget, runs, bindings, controls,
    events, audits, -, -, -, -, -, -, hruns, -, hbindings, -, hcapability, -, hcontrols, rfl⟩ :=
    queueHermesRun_eq_ok h
  refine ⟨⟨fun k r hr => ⟨r, get?_of_insert?_of_some hruns hr, rfl, rfl⟩,
    fun k b hb => get?_of_insert?_of_some hbindings hb, fun k r hr => ⟨r, hr, .refl r⟩⟩, fun k => ?_⟩
  simp only [capabilityOfRun, Table.get?_of_insert? hcontrols]
  split_ifs with hk
  · rw [hk, (Table.insert?_eq_some hcontrols).1]
    simp [hcapability]
  · rfl

theorem keepsScope_startHermesRun {H : Hash D} {E : Engine D} {input : QueueInput}
    {q : StartRequest D} {id : Uuid} {db db' : Db D}
    (h : db.startHermesRun H E input q = .ok (id, db')) : db.KeepsScope db' := by
  simp only [startHermesRun, bind_eq_ok] at h
  obtain ⟨-, -, actor, -, -, -, owner, -, h⟩ := h
  split at h
  · simp only [bind_eq_ok, pure_eq_ok, Prod.mk.injEq] at h
    obtain ⟨-, -, -, rfl⟩ := h
    exact .refl db
  · simp only [bind_eq_ok, pure_eq_ok, Prod.mk.injEq, Prod.exists] at h
    obtain ⟨runId, db₁, hqueue, receipts, -, -, rfl⟩ := h
    exact (keepsScope_queueHermesRun hqueue).trans (keepsScope_of_eq rfl rfl rfl fun _ => rfl)

theorem keepsScope_complete {H : Hash D} {E : Engine D} {input : CompleteInput} {runId : Uuid}
    {token : ℕ} {result : HermesResult D} {u : Unit} {db db' : Db D}
    (h : db.complete H E input runId token result = .ok (u, db')) : db.KeepsScope db' := by
  obtain ⟨run, control, binding, capabilityId, capability, budget, settlement, revoked, events,
    audits, hrun, -, -, -, -, -, -, -, -, -, -, hrevoke, -, rfl⟩ := complete_eq_ok h
  have hcapabilities := (keepsScope_revokeWorkflowCapability hrevoke).grows.capabilities
  exact ⟨⟨runs_set hrun rfl rfl, fun _ _ hb => hb, hcapabilities⟩, fun _ => rfl⟩

theorem keepsScope_dispatchMcpTool (H : Hash D) (call : ToolCall D) (db : Db D) :
    db.KeepsScope (db.dispatchMcpTool H call).2 := by
  cases h : db.tryTool H call with
  | error e =>
    obtain ⟨audits, heq⟩ := dispatchMcpTool_eq_error (dispatchMcpTool_of_error h)
    rw [heq]
    exact keepsScope_of_eq rfl rfl rfl fun _ => rfl
  | ok r =>
    obtain ⟨result, db'⟩ := r
    refine keepsScope_of_sameLane (sameLane_dispatchMcpTool H call db) ?_
    rw [dispatchMcpTool_of_ok h]
    obtain ⟨tool, recordId, record, workflow, revision, correlation, hadmitted, hinvoke⟩ :=
      tryTool_eq_ok h
    have hcapabilities : db'.capabilities =
        (db.bindCorrelation recordId record correlation).capabilities := by
      obtain ⟨requestId, correlationId, key, idem, -, ⟨id, existing, -, -, -, rfl⟩ |
        ⟨-, result₁, db₁, invocations, hexecute, -, -, rfl⟩⟩ := invoke_eq_ok hinvoke
      · rfl
      · change db₁.capabilities = _
        rw [(execute_eq_ok hexecute).frame]
    rw [hcapabilities]
    exact capabilities_set (Table.find?_eq_some hadmitted.capability).1 ⟨rfl, rfl, rfl, rfl⟩

/-! ### The claim -/

/-- What a claim writes: the capability of one queued run. -/
structure GivesCapability (db db' : Db D) (runId : Uuid) : Prop where
  grows : db.Grows db'
  queued : db.statusOf runId = some .queued
  other : ∀ id, id ≠ runId → db'.capabilityOfRun id = db.capabilityOfRun id
  given : ∃ capability run binding record, db'.capabilityOfRun runId = some capability ∧
    db'.runs.get? runId = some run ∧ db'.bindings.get? runId = some binding ∧
    db'.capabilities.get? capability = some record ∧ record.ForRun run binding

theorem claim_scope {H : Hash D} {E : Engine D} {input : ClaimInput} {runId : Uuid}
    {token : Option ℕ} {db db' : Db D} (h : db.claim H E input runId = .ok (token, db')) :
    db.KeepsScope db' ∨ db.GivesCapability db' runId := by
  obtain ⟨-, rfl | rfl⟩ | ⟨-, run, hrun, hlane, hstatus, hbegin⟩ := claim_eq_ok h
  · exact .inl (.refl db')
  · exact .inl (keepsScope_of_eq rfl rfl rfl fun _ => rfl)
  · obtain ⟨control, binding, record, capabilities, events, audits, hcontrol, hbinding, -, -,
      ⟨hw, hr, ha, hd⟩, hinsert, rfl⟩ := beginRun_eq_ok hbegin
    have hget := Table.get?_of_insert? hinsert
    refine .inr ⟨⟨runs_set hrun rfl rfl, fun _ _ hb => hb, fun k r hk => ?_⟩, ?_, fun id hid => ?_,
      input.capabilityId, startedRun input.now run, binding, _, ?_, Table.get?_set_self hrun _,
      hbinding, Table.get?_set_self (by rw [hget, if_pos rfl]) _, ⟨hw, hr, ha, hd⟩⟩
    · have hne : k ≠ input.capabilityId := by
        rintro rfl
        rw [(Table.insert?_eq_some hinsert).1] at hk
        cases hk
      exact ⟨r, by rw [Table.get?_set_of_ne _ _ hne, hget, if_neg hne, hk], .refl r⟩
    · rw [statusOf_eq hrun hlane, hstatus]
    · simp only [capabilityOfRun, Table.get?_set_of_ne _ _ hid]
    · simp only [capabilityOfRun, Table.get?_set_self hcontrol, Option.bind_some]

/-! ### The invariant -/

/-- A run, its binding and its capability stay what they are for each other. -/
theorem Grows.forRun {db db' : Db D} (h : db.Grows db') {id capability : Uuid} {run : AgentRun D}
    {binding : HermesRunBinding D} {record : WorkflowCapability D} (hrun : db.runs.get? id = some run)
    (hbinding : db.bindings.get? id = some binding)
    (hrecord : db.capabilities.get? capability = some record) (hfor : record.ForRun run binding) :
    ∃ run' binding' record', db'.runs.get? id = some run' ∧ db'.bindings.get? id = some binding' ∧
      db'.capabilities.get? capability = some record' ∧ record'.ForRun run' binding' := by
  obtain ⟨run', hrun', hw, hr⟩ := h.runs id run hrun
  obtain ⟨record', hrecord', hs⟩ := h.capabilities capability record hrecord
  exact ⟨run', binding, record', hrun', h.bindings id binding hbinding, hrecord',
    ⟨by rw [hs.workflow, hfor.workflow, hw], by rw [hs.revision, hfor.revision, hr],
      by rw [hs.actor, hfor.actor], by rw [hs.revisionDigest, hfor.revisionDigest]⟩⟩

theorem Scoped.of_keepsScope {db db' : Db D} (h : db.Scoped) (hkeeps : db.KeepsScope db') :
    db'.Scoped := by
  intro id capability hcapability
  rw [hkeeps.capabilityOfRun] at hcapability
  obtain ⟨run, binding, record, hrun, hbinding, hrecord, hfor⟩ := h id capability hcapability
  exact hkeeps.grows.forRun hrun hbinding hrecord hfor

theorem Scoped.of_givesCapability {db db' : Db D} {runId : Uuid} (h : db.Scoped)
    (hgives : db.GivesCapability db' runId) : db'.Scoped := by
  intro id capability hcapability
  by_cases hid : id = runId
  · subst hid
    obtain ⟨capability', run, binding, record, hcapability', hrun, hbinding, hrecord, hfor⟩ :=
      hgives.given
    obtain rfl := Option.some.inj (hcapability.symm.trans hcapability')
    exact ⟨run, binding, record, hrun, hbinding, hrecord, hfor⟩
  · rw [hgives.other id hid] at hcapability
    obtain ⟨run, binding, record, hrun, hbinding, hrecord, hfor⟩ := h id capability hcapability
    exact hgives.grows.forRun hrun hbinding hrecord hfor

end Db

namespace Agents

theorem serviceStep_keepsScope (H : Hash D) (E : Engine D) (db : Db D) (a : Action D) :
    db.KeepsScope (serviceStep H E db a) := by
  cases a with
  | queue input workflowId revisionId actorSlug ownerSessionId =>
    exact commit_induction (P := db.KeepsScope) (.refl db) fun _ _ h =>
      Db.keepsScope_queueHermesRun h
  | start input request =>
    exact commit_induction (P := db.KeepsScope) (.refl db) fun _ _ h =>
      Db.keepsScope_startHermesRun h
  | dispatchFails input runId =>
    exact commit_induction (P := db.KeepsScope) (.refl db) fun _ _ h => Db.keepsScope_finish h
  | cancel input runId =>
    exact commit_induction (P := db.KeepsScope) (.refl db) fun _ _ h =>
      Db.keepsScope_cancelHermesRun h
  | expire now =>
    simp only [serviceStep]
    split
    · exact Db.keepsScope_of_eq rfl rfl rfl fun _ => rfl
    · exact .refl db
  | issueCapability now id token workflowId revisionId actorId tools lifetimeSeconds =>
    exact commit_induction (P := db.KeepsScope) (.refl db) fun _ _ h =>
      Db.keepsScope_issueWorkflowCapability h
  | revokeCapability now token =>
    exact commit_induction (P := db.KeepsScope) (.refl db) fun _ _ h =>
      Db.keepsScope_revokeWorkflowCapability h
  | tool call => exact db.keepsScope_dispatchMcpTool H call
  | changeWorld world => exact Db.keepsScope_of_eq rfl rfl rfl fun _ => rfl
  | deliver | claim | clientCall | complete | clientCancel | finish | crash => exact .refl db

theorem workerStep_scope {H : Hash D} {E : Engine D} {worker : Worker D} {db db' : Db D}
    {a : Action D} {phase : Option (WorkerPhase D)}
    (h : workerStep H E worker db a = some (db', phase)) :
    db.KeepsScope db' ∨ db.GivesCapability db' worker.runId := by
  cases a with
  | claim _ input =>
    simp only [workerStep] at h
    split at h
    · obtain rfl := congrArg Prod.fst (Option.some.inj h)
      unfold claimStep
      split
      · rename_i hclaim
        exact Db.claim_scope hclaim
      · rename_i hclaim
        exact Db.claim_scope hclaim
      · exact .inl (.refl db)
    · cases h
  | clientCall _ outcome =>
    simp only [workerStep] at h
    split at h <;> cases h <;> exact .inl (.refl db)
  | complete _ input =>
    simp only [workerStep] at h
    split at h
    · obtain rfl := congrArg Prod.fst (Option.some.inj h)
      unfold completeStep
      split
      · rename_i hcomplete
        exact .inl (Db.keepsScope_complete hcomplete)
      · exact .inl (.refl db)
    · cases h
  | clientCancel _ ok =>
    simp only [workerStep] at h
    split at h <;> cases h
    exact .inl (.refl db)
  | finish _ input =>
    simp only [workerStep] at h
    split at h <;> cases h
    exact .inl (commit_induction (P := db.KeepsScope) (.refl db) fun _ _ h =>
      Db.keepsScope_finish h)
  | _ => cases h

/-- A step keeps runs, bindings and capabilities; it keeps which capability is the one of a run, or is
the claim that gives a queued run its own. -/
theorem step_scope (H : Hash D) (E : Engine D) (s : State D) (a : Action D) :
    s.db.KeepsScope (step H E s a).db ∨ ∃ runId, s.db.GivesCapability (step H E s a).db runId := by
  unfold step
  split
  · split <;> exact .inl (.refl s.db)
  · exact .inl (.refl s.db)
  · split
    · exact .inl (serviceStep_keepsScope H E s.db a)
    · split
      · exact .inl (.refl s.db)
      · split
        · exact .inl (.refl s.db)
        · rename_i worker _ _ _ _ h
          exact (workerStep_scope h).imp_right fun hgives => ⟨worker.runId, hgives⟩

theorem step_grows (H : Hash D) (E : Engine D) (s : State D) (a : Action D) :
    s.db.Grows (step H E s a).db :=
  (step_scope H E s a).elim (fun h => h.grows) fun ⟨_, h⟩ => h.grows

theorem run_grows (H : Hash D) (E : Engine D) (s : State D) (as : List (Action D)) :
    s.db.Grows (Transition.run (step H E) s as).db :=
  Transition.run_rel (P := fun _ => True) (R := fun s s' : State D => s.db.Grows s'.db)
    (fun _ _ _ => trivial) (fun s => (Db.KeepsScope.refl s.db).grows)
    (fun _ _ _ h h' => h.trans h') (fun s a _ => step_grows H E s a) trivial as

/-- The capability of a run that is no longer queued stays. -/
theorem step_capabilityOfRun (H : Hash D) (E : Engine D) (s : State D) (a : Action D) {id : Uuid}
    (hid : s.db.statusOf id ≠ some .queued) :
    (step H E s a).db.capabilityOfRun id = s.db.capabilityOfRun id := by
  rcases step_scope H E s a with h | ⟨runId, h⟩
  · exact h.capabilityOfRun id
  · exact h.other id fun e => hid (e ▸ h.queued)

theorem step_scoped (H : Hash D) (E : Engine D) (s : State D) (a : Action D) (h : s.db.Scoped) :
    (step H E s a).db.Scoped := by
  rcases step_scope H E s a with hkeeps | ⟨runId, hgives⟩
  · exact h.of_keepsScope hkeeps
  · exact h.of_givesCapability hgives

/-- **The capability of a run is one for the run**, in every reachable state. -/
theorem scoped_of_run (H : Hash D) (E : Engine D) (world : World D) (as : List (Action D)) :
    (Transition.run (step H E) (start world) as).db.Scoped :=
  Transition.run_induction (P := fun s : State D => s.db.Scoped)
    (fun s a h => step_scoped H E s a h) (fun id capability h => by cases h) as

end Agents

end CivicLoop
