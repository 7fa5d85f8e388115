import CivicLoop.Agents.Broker

/-!
# What a tool call does

A call that commits has passed every check up to `_invoke`, and then either replays the stored result
of an invocation or executes its tool and stores the result. A tool at most adds one submission of
its capability, or operations on one proposal.

## Main definitions

* `Tool.requests` : the operations that a tool requests.
* `Db.Admitted` : a call has passed the checks of the broker.
* `Db.Identified` : the identifiers of the arguments of a call.
* `Db.Requests` : the operations of a proposal that a request adds.

## Main results

* `Db.tryTool_eq_ok`, `Db.tryTool_of_admitted` : admission.
* `Db.invoke_eq_ok`, `Db.invoke_of_existing` : replay and execution.
* `Db.execute_eq_ok` : the effect of a tool.
* `Db.dispatchMcpTool_eq_error` : a refused call leaves at most an audit row.

## References

Source: `backend/agents/mcp.py`, lines 129–404.
-/

namespace CivicLoop

variable {D : Type} [DecidableEq D]

/-- The operations that a tool requests. -/
def Tool.requests : Tool → List (DraftProvider × OperationKind)
  | .requestEventbriteDraft => [(.eventbrite, .createEventbriteDraft)]
  | .requestIterableDrafts =>
    [(.iterable, .createIterableEmailDraft), (.iterable, .createIterableReminderDraft)]
  | _ => []

namespace Db

/-! ### Admission -/

/-- The call passes every check of the broker up to `_invoke`, with the tool, the capability, the
workflow, the revision and the correlation id that it is then executed for. -/
structure Admitted (H : Hash D) (db : Db D) (call : ToolCall D) (tool : Tool) (recordId : Uuid)
    (record : WorkflowCapability D) (workflow : Workflow D) (revision : EventRevision D)
    (correlationId : Uuid) : Prop where
  authenticated : call.authenticated = true
  verified : call.verified = true
  valid : validateToolArguments H call.toolName call.arguments = some tool
  connected : ¬call.dbFails
  capability : db.capabilityOf H call.token = some (recordId, record)
  scope : capabilityScope db.world call.now tool call.arguments record = true
  hworkflow : db.world.workflows.get? record.workflow = some workflow
  hrevision : db.world.revisions.get? workflow.revision = some revision
  correlation : call.arguments.uuid? "correlation_id" = some correlationId
  current : revisionScope H correlationId record workflow revision = .ok ()

/-- The call is admitted. -/
def Admits (H : Hash D) (db : Db D) (call : ToolCall D) : Prop :=
  ∃ tool recordId record workflow revision correlationId,
    db.Admitted H call tool recordId record workflow revision correlationId

/-- The database of an admitted call: the correlation id is bound to the capability. -/
def bindCorrelation (recordId : Uuid) (record : WorkflowCapability D) (correlationId : Uuid)
    (db : Db D) : Db D :=
  { db with capabilities :=
      db.capabilities.set recordId { record with correlationId := some correlationId } }

/-- An admitted call is invoked. -/
theorem tryTool_of_admitted {H : Hash D} {db : Db D} {call : ToolCall D} {tool : Tool}
    {recordId : Uuid} {record : WorkflowCapability D} {workflow : Workflow D}
    {revision : EventRevision D} {correlationId : Uuid}
    (h : db.Admitted H call tool recordId record workflow revision correlationId) :
    db.tryTool H call = (db.bindCorrelation recordId record correlationId).invoke H call.fresh tool
      call.arguments recordId { record with correlationId := some correlationId }
      workflow.revision revision := by
  rw [tryTool, ensure_bind h.authenticated, ensure_bind h.verified, fetch_bind h.valid,
    ensure_bind h.connected, dispatch, fetch_bind h.capability]
  simp only
  rw [ensure_bind h.scope, fetch_bind h.hworkflow, fetch_bind h.hrevision,
    fetch_bind h.correlation, h.current]
  rfl

/-- Only an admitted call commits. -/
theorem tryTool_eq_ok {H : Hash D} {db db' : Db D} {call : ToolCall D} {result : Json D}
    (h : db.tryTool H call = .ok (result, db')) :
    ∃ tool recordId record workflow revision correlationId,
      db.Admitted H call tool recordId record workflow revision correlationId ∧
        (db.bindCorrelation recordId record correlationId).invoke H call.fresh tool call.arguments
          recordId { record with correlationId := some correlationId } workflow.revision revision =
            .ok (result, db') := by
  simp only [tryTool, dispatch, bind_eq_ok, ensure_eq_ok, fetch_eq_ok, Prod.exists] at h
  obtain ⟨-, h₁, -, h₂, tool, h₃, -, h₄, recordId, record, h₅, -, h₆, workflow, h₇, revision, h₈,
    correlationId, h₉, ⟨⟩, hcurrent, h⟩ := h
  exact ⟨tool, recordId, record, workflow, revision, correlationId,
    ⟨h₁, h₂, h₃, h₄, h₅, h₆, h₇, h₈, h₉, hcurrent⟩, h⟩

/-! ### Invocations -/

/-- The identifiers of the arguments of a call under a capability. -/
structure Identified (H : Hash D) (recordId : Uuid) (arguments : Json D) (requestId : Uuid)
    (correlationId key : Text D) (idem : D) : Prop where
  request : arguments.uuid? "request_id" = some requestId
  correlation : arguments.text? "correlation_id" = some correlationId
  hkey : arguments.text? "idempotency_key" = some key
  hidem : invocationKey H recordId key = some idem

/-- The invocation is one of the tool with the arguments under the capability. -/
def IsReplay (H : Hash D) (recordId : Uuid) (tool : Tool) (arguments : Json D) (idem : D)
    (invocation : MCPInvocation D) : Prop :=
  invocation.capability = recordId ∧ invocation.toolName = tool ∧
    invocation.argumentDigest = H.ofJson arguments ∧ invocation.idempotencyDigest = idem

instance (H : Hash D) (recordId : Uuid) (tool : Tool) (arguments : Json D) (idem : D)
    (invocation : MCPInvocation D) : Decidable (IsReplay H recordId tool arguments idem invocation) :=
  inferInstanceAs (Decidable (_ ∧ _ ∧ _ ∧ _))

section Invoke

variable {H : Hash D} {fresh : ℕ → Uuid} {tool : Tool} {arguments : Json D} {recordId : Uuid}
  {record : WorkflowCapability D} {revisionId : ℤ} {revision : EventRevision D} {db db' : Db D}
  {result : Json D}

/-- An invocation with one of the identifiers of a call decides it. -/
theorem invoke_of_existing {requestId id : Uuid} {correlationId key : Text D} {idem : D}
    {existing : MCPInvocation D}
    (hid : Identified H recordId arguments requestId correlationId key idem)
    (h : db.existingInvocation requestId idem = some (id, existing)) :
    db.invoke H fresh tool arguments recordId record revisionId revision =
      if IsReplay H recordId tool arguments idem existing then
        .ok (existing.result,
          db.audit (toolAudit "mcp.tool_replayed" recordId record tool correlationId requestId))
      else .error (.denied .invocationReplayConflict) := by
  rw [invoke, fetch_bind hid.request, fetch_bind hid.correlation, fetch_bind hid.hkey,
    fetch_bind hid.hidem, h]
  simp only
  split_ifs with hr
  · exact ensure_bind (p := IsReplay H recordId tool arguments idem existing) hr _
  · exact ensure_bind_of_not (p := IsReplay H recordId tool arguments idem existing) hr _

/-- A call that commits replays an invocation or executes its tool and stores the result. -/
theorem invoke_eq_ok
    (h : db.invoke H fresh tool arguments recordId record revisionId revision =
      .ok (result, db')) :
    ∃ requestId correlationId key idem,
      Identified H recordId arguments requestId correlationId key idem ∧
        ((∃ id existing, db.existingInvocation requestId idem = some (id, existing) ∧
            IsReplay H recordId tool arguments idem existing ∧ result = existing.result ∧
            db' = db.audit
              (toolAudit "mcp.tool_replayed" recordId record tool correlationId requestId)) ∨
          db.existingInvocation requestId idem = none ∧ ∃ result₁ db₁ invocations,
            db.execute H fresh tool arguments recordId record revisionId revision =
              .ok (result₁, db₁) ∧
            result = withCorrelation result₁ correlationId ∧
            db₁.invocations.insert? requestId
              ⟨recordId, idem, H.ofJson arguments, tool, result⟩ = some invocations ∧
            db' = { db₁ with invocations }.audit
              (toolAudit "mcp.tool_succeeded" recordId record tool correlationId requestId)) := by
  simp only [invoke, bind_eq_ok, fetch_eq_ok] at h
  obtain ⟨requestId, h₁, correlationId, h₂, key, h₃, idem, h₄, h⟩ := h
  refine ⟨requestId, correlationId, key, idem, ⟨h₁, h₂, h₃, h₄⟩, ?_⟩
  split at h
  · rename_i id existing hexisting
    simp only [bind_eq_ok, ensure_eq_ok, pure_eq_ok, Prod.mk.injEq] at h
    obtain ⟨-, hsame, rfl, rfl⟩ := h
    exact .inl ⟨id, existing, hexisting, hsame, rfl, rfl⟩
  · rename_i hexisting
    simp only [bind_eq_ok, ensure_eq_ok, fetch_eq_ok, pure_eq_ok, Prod.mk.injEq, Prod.exists] at h
    obtain ⟨result₁, db₁, hexecute, -, -, invocations, hinsert, rfl, rfl⟩ := h
    exact .inr ⟨hexisting, result₁, db₁, invocations, hexecute, rfl, hinsert, rfl⟩

end Invoke

/-! ### Effects -/

/-- The request of one operation: it exists, or it is added. -/
def Requests (H : Hash D) (record : WorkflowCapability D) (proposalId : Uuid)
    (proposal : MCPSubmission D) (provider : DraftProvider) (kind : OperationKind)
    (db db' : Db D) (payload : Json D) : Prop :=
  ∃ action key,
    actionDigest H record.workflow record.revision record.revisionDigest provider kind
      proposal.digest = some action ∧
    operationKey H record.workflow record.revision record.actor kind action = some key ∧
    ((∃ id operation, db.operationByKey key = some (id, operation) ∧ db' = db ∧
        payload = operationPayload id operation) ∨
      db.operationByKey key = none ∧ ∃ id operations,
        db.operations.insert? id (pendingOperation record proposalId provider kind action key) =
          some operations ∧ db' = { db with operations } ∧
        payload = operationPayload id (pendingOperation record proposalId provider kind action key))

theorem requestOperation_eq_ok {H : Hash D} {record : WorkflowCapability D} {proposalId : Uuid}
    {proposal : MCPSubmission D} {provider : DraftProvider} {kind : OperationKind} {id : Uuid}
    {payload : Json D} {db db' : Db D}
    (h : db.requestOperation H record proposalId proposal provider kind id = .ok (payload, db')) :
    Requests H record proposalId proposal provider kind db db' payload := by
  simp only [requestOperation, bind_eq_ok, fetch_eq_ok] at h
  obtain ⟨action, haction, key, hkey, h⟩ := h
  refine ⟨action, key, haction, hkey, ?_⟩
  split at h
  · rename_i existingId existing hexisting
    simp only [pure_eq_ok, Prod.mk.injEq] at h
    exact .inl ⟨existingId, existing, hexisting, h.2.symm, h.1.symm⟩
  · rename_i hnone
    simp only [bind_eq_ok, fetch_eq_ok, pure_eq_ok, Prod.mk.injEq] at h
    obtain ⟨operations, hinsert, rfl, rfl⟩ := h
    exact .inr ⟨hnone, id, operations, hinsert, rfl, rfl⟩

/-- The effect of a tool: none, one submission of the capability, or requests on one proposal. -/
inductive Effect (H : Hash D) (arguments : Json D) (recordId : Uuid)
    (record : WorkflowCapability D) (db : Db D) : Tool → Db D → Json D → Prop
  | read {tool : Tool} (htool : tool.requests = []) (result : Json D) :
      Effect H arguments recordId record db tool db result
  | submit {tool : Tool} {id : Uuid} {submission : MCPSubmission D} {result : Json D}
      {submissions : Table Uuid (MCPSubmission D)}
      (htool : tool.requests = []) (hcapability : submission.capability = recordId)
      (hdigest : H.digest submission.content = some submission.digest)
      (hproposal : submission.kind = .proposal → tool = .proposeCampaignDrafts ∧
        arguments.get? "proposal" = some submission.content)
      (hinsert : db.submissions.insert? id submission = some submissions) :
      Effect H arguments recordId record db tool { db with submissions } result
  | eventbrite {id : Uuid} {proposal : MCPSubmission D} {db' : Db D} {operation : Json D}
      (hproposal : db.proposal H arguments record = .ok (id, proposal))
      (hrequest : Requests H record id proposal .eventbrite .createEventbriteDraft db db' operation) :
      Effect H arguments recordId record db .requestEventbriteDraft db'
        (.obj [("operations", .arr [operation])])
  | iterable {id : Uuid} {proposal : MCPSubmission D} {db₁ db' : Db D} {email reminder : Json D}
      (hproposal : db.proposal H arguments record = .ok (id, proposal))
      (hemail : Requests H record id proposal .iterable .createIterableEmailDraft db db₁ email)
      (hreminder : Requests H record id proposal .iterable .createIterableReminderDraft db₁ db'
        reminder) :
      Effect H arguments recordId record db .requestIterableDrafts db'
        (.obj [("operations", .arr [email, reminder])])

omit [DecidableEq D] in
theorem submit_eq_ok {H : Hash D} {capability : Uuid} {kind : SubmissionKind} {name key : String}
    {arguments : Json D} {id : Uuid} {result : Json D} {db db' : Db D}
    (h : db.submit H capability kind name key arguments id = .ok (result, db')) :
    ∃ content digest submissions, arguments.get? key = some content ∧
      H.digest content = some digest ∧
      db.submissions.insert? id ⟨capability, kind, content, digest⟩ = some submissions ∧
      result = submissionResult name id digest ∧ db' = { db with submissions } := by
  simp only [submit, bind_eq_ok, fetch_eq_ok, pure_eq_ok, Prod.mk.injEq] at h
  obtain ⟨content, hcontent, digest, hdigest, submissions, hinsert, rfl, rfl⟩ := h
  exact ⟨content, digest, submissions, hcontent, hdigest, hinsert, rfl, rfl⟩

/-- What a tool does. -/
theorem execute_eq_ok {H : Hash D} {fresh : ℕ → Uuid} {tool : Tool} {arguments : Json D}
    {recordId : Uuid} {record : WorkflowCapability D} {revisionId : ℤ} {revision : EventRevision D}
    {result : Json D} {db db' : Db D}
    (h : db.execute H fresh tool arguments recordId record revisionId revision =
      .ok (result, db')) : Effect H arguments recordId record db tool db' result := by
  cases tool with
  | getEventRevision =>
    simp only [execute, bind_eq_ok, ensure_eq_ok] at h
    obtain ⟨-, -, h⟩ := h
    split at h
    · simp only [pure_eq_ok, Prod.mk.injEq] at h
      exact h.2 ▸ .read rfl _
    · cases h
  | getPolicyContext =>
    simp only [execute, bind_eq_ok, pure_eq_ok, Prod.mk.injEq] at h
    obtain ⟨kind, -, -, rfl⟩ := h
    exact .read rfl _
  | requestClarification =>
    obtain ⟨content, digest, submissions, -, hdigest, hinsert, -, rfl⟩ := submit_eq_ok h
    exact .submit rfl rfl hdigest (fun hkind => by cases hkind) hinsert
  | proposeCampaignDrafts =>
    obtain ⟨content, digest, submissions, hcontent, hdigest, hinsert, -, rfl⟩ := submit_eq_ok h
    exact .submit rfl rfl hdigest (fun _ => ⟨rfl, hcontent⟩) hinsert
  | validateProposal =>
    simp only [execute, bind_eq_ok, pure_eq_ok, Prod.mk.injEq, Prod.exists] at h
    obtain ⟨id, proposal, -, -, -, kind, -, -, rfl⟩ := h
    exact .read rfl _
  | requestEventbriteDraft =>
    simp only [execute, bind_eq_ok, pure_eq_ok, Prod.mk.injEq, Prod.exists] at h
    obtain ⟨id, proposal, hproposal, operation, db₁, hrequest, rfl, rfl⟩ := h
    exact .eventbrite hproposal (requestOperation_eq_ok hrequest)
  | requestIterableDrafts =>
    simp only [execute, bind_eq_ok, pure_eq_ok, Prod.mk.injEq, Prod.exists] at h
    obtain ⟨id, proposal, hproposal, email, db₁, hemail, reminder, db₂, hreminder, rfl, rfl⟩ := h
    exact .iterable hproposal (requestOperation_eq_ok hemail) (requestOperation_eq_ok hreminder)
  | getOperationStatus =>
    simp only [execute, bind_eq_ok, pure_eq_ok, Prod.mk.injEq] at h
    obtain ⟨id, -, operation, -, proposal, -, owner, -, -, -, -, rfl⟩ := h
    exact .read rfl _

/-- A request writes operations only. -/
theorem Requests.frame {H : Hash D} {record : WorkflowCapability D} {proposalId : Uuid}
    {proposal : MCPSubmission D} {provider : DraftProvider} {kind : OperationKind} {db db' : Db D}
    {payload : Json D} (h : Requests H record proposalId proposal provider kind db db' payload) :
    db' = { db with operations := db'.operations } := by
  obtain ⟨action, key, -, -, ⟨id, operation, -, rfl, -⟩ | ⟨-, id, operations, -, rfl, -⟩⟩ := h <;> rfl

/-- A tool writes submissions and operations only. -/
theorem Effect.frame {H : Hash D} {arguments : Json D} {recordId : Uuid}
    {record : WorkflowCapability D} {tool : Tool} {db db' : Db D} {result : Json D}
    (h : Effect H arguments recordId record db tool db' result) :
    db' = { db with submissions := db'.submissions, operations := db'.operations } := by
  cases h with
  | read => rfl
  | submit => rfl
  | eventbrite hproposal hrequest => rw [hrequest.frame]
  | iterable hproposal hemail hreminder => rw [hreminder.frame, hemail.frame]

/-! ### Refused calls -/

/-- A call that raises leaves at most an audit row. -/
theorem dispatchMcpTool_eq_error {H : Hash D} {call : ToolCall D} {db : Db D} {e : BrokerError}
    (h : (db.dispatchMcpTool H call).1 = .error e) :
    ∃ audits, (db.dispatchMcpTool H call).2 = { db with audits } := by
  unfold dispatchMcpTool at h ⊢
  split at h
  · cases h
  · exact ⟨_, rfl⟩
  · exact ⟨_, rfl⟩
  · exact ⟨db.audits, rfl⟩

theorem dispatchMcpTool_of_ok {H : Hash D} {call : ToolCall D} {db db' : Db D} {result : Json D}
    (h : db.tryTool H call = .ok (result, db')) : db.dispatchMcpTool H call = (.ok result, db') := by
  rw [dispatchMcpTool, h]

theorem dispatchMcpTool_of_error {H : Hash D} {call : ToolCall D} {db : Db D} {e : BrokerError}
    (h : db.tryTool H call = .error e) : (db.dispatchMcpTool H call).1 = .error e := by
  rw [dispatchMcpTool, h]
  cases e <;> rfl

end Db

end CivicLoop
