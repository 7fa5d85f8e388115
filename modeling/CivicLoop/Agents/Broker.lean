import CivicLoop.Agents.Db

/-!
# Capabilities and the tool broker

The broker executes the tool calls of a model run under a capability: a short-lived record, found by
the digest of its bearer token, that names the workflow, the revision, the actor and the tools. Each
call is one transaction. A call that is denied or invalid leaves an audit row and nothing else.

What the environment chooses is part of a call: the clock, the keys of new rows, whether the service
identity and the signature of the token are good, and whether the database fails.

## Main definitions

* `Db.issueWorkflowCapability`, `Db.revokeWorkflowCapability`, `Db.revokeRecord` : capabilities.
* `actionDigest`, `operationKey`, `invocationKey` : the digests that identify a request.
* `Db.execute` : the effect of a tool; `Db.invoke` : the effect or the replay of an invocation.
* `Db.dispatch`, `Db.dispatchMcpTool` : a call, and a call with its audit row when refused.
* `bindCallMetadata` : the retry identifiers of a bound call.

## References

Source: `backend/agents/capabilities.py`, `backend/agents/mcp.py`.
-/

namespace CivicLoop

variable {D : Type} [DecidableEq D]

/-- The stages at which the broker denies a call. -/
inductive DenialStage
  | authorizationFailed
  | serviceIdentity
  | capabilityScope
  | revisionScope
  | invocationReplayConflict
  | proposalUnavailable
  | proposalIntegrity
  | operationUnavailable
deriving DecidableEq, Repr

def DenialStage.value : DenialStage → String
  | authorizationFailed => "authorization_failed"
  | serviceIdentity => "service_identity"
  | capabilityScope => "capability_scope"
  | revisionScope => "revision_scope"
  | invocationReplayConflict => "invocation_replay_conflict"
  | proposalUnavailable => "proposal_unavailable"
  | proposalIntegrity => "proposal_integrity"
  | operationUnavailable => "operation_unavailable"

/-- What a broker call raises: a denial, invalid arguments, or an exception that it does not handle,
of the database or of the code. -/
inductive BrokerError
  | denied (stage : DenialStage)
  | invalidToolArguments
  | unhandled
deriving DecidableEq, Repr

/-- `AUDIENCE`. -/
def audience : String := "civicloop-hermes"

/-! ### Capabilities -/

/-- The capability of a token and its key. -/
def Db.capabilityOf (H : Hash D) (token : ℕ) (db : Db D) :
    Option (Uuid × WorkflowCapability D) :=
  db.capabilities.find? fun _ record => record.tokenDigest == H.token token

def capabilityAudit (action : String) (id : Uuid) (record : WorkflowCapability D) :
    AuditEvent D where
  actor := some record.actor
  action := action
  targetType := "workflow"
  targetId := .uuid record.workflow
  details := .obj [("capability_id", .str (.uuid id))]

/-- `issue_workflow_capability`: a new capability for the current revision of a workflow, under the
fresh key `id` and the fresh token `token`. -/
def Db.issueWorkflowCapability (H : Hash D) (now : Time) (id : Uuid) (token : ℕ)
    (workflowId : Uuid) (revisionId : ℤ) (actorId : Text D) (tools : List Tool)
    (lifetimeSeconds : ℤ) (db : Db D) : Except BrokerError (Uuid × Db D) := do
  let denied := BrokerError.denied .authorizationFailed
  ensure (1 ≤ lifetimeSeconds ∧ lifetimeSeconds ≤ 300 ∧ tools ≠ []) denied
  let workflow ← fetch (db.world.workflows.get? workflowId) denied
  let revision ← fetch (db.world.revisions.get? workflow.revision) denied
  let actor ← fetch (db.world.actors.get? actorId) denied
  ensure (workflow.revision = revisionId ∧ revision.event = workflow.event ∧
    db.world.operator actor) denied
  let revisionDigest ← fetch (H.digest revision.snapshot) .invalidToolArguments
  -- The token digest is a unique column.
  ensure (db.capabilityOf H token = none) .unhandled
  let record : WorkflowCapability D :=
    { tokenDigest := H.token token
      revisionDigest
      workflow := workflowId
      revision := revisionId
      actor := actorId
      tools
      audience
      issuedAt := now
      expiresAt := now + seconds lifetimeSeconds
      revokedAt := none
      correlationId := none }
  let capabilities ← fetch (db.capabilities.insert? id record) .unhandled
  return (id, { db with capabilities }.audit (capabilityAudit "mcp.capability_issued" id record))

/-- `revoke_workflow_capability`. -/
def Db.revokeWorkflowCapability (H : Hash D) (now : Time) (token : ℕ) (db : Db D) :
    Except BrokerError (Unit × Db D) := do
  let (id, record) ← fetch (db.capabilityOf H token) (.denied .authorizationFailed)
  let capabilities := db.capabilities.set id { record with revokedAt := some now }
  return ((), { db with capabilities }.audit (capabilityAudit "mcp.capability_revoked" id record))

/-- `_revoke_record`: revoke the capability of a control, unless it is revoked. -/
def Db.revokeRecord (now : Time) (control : AgentRunControl) (db : Db D) :
    Except BrokerError (Db D) :=
  match control.capability with
  | none => .ok db
  | some id => do
    let record ← fetch (db.capabilities.get? id) .unhandled
    if record.revokedAt.isNone then
      let capabilities := db.capabilities.set id { record with revokedAt := some now }
      .ok ({ db with capabilities }.audit (capabilityAudit "mcp.capability_revoked" id record))
    else .ok db

/-! ### Digests that identify a request -/

/-- The digest of the action of a draft operation. -/
def actionDigest (H : Hash D) (workflow : Uuid) (revision : ℤ) (revisionDigest : D)
    (provider : DraftProvider) (kind : OperationKind) (proposalDigest : D) : Option D :=
  H.digest (.obj
    [("workflow_id", .str (.uuid workflow)),
      ("revision_id", .int revision),
      ("revision_digest", .str (.hex revisionDigest)),
      ("provider", .lit provider.value),
      ("operation_kind", .lit kind.value),
      ("proposal_digest", .str (.hex proposalDigest))])

/-- The idempotency key of a draft operation. -/
def operationKey (H : Hash D) (workflow : Uuid) (revision : ℤ) (actor : Text D)
    (kind : OperationKind) (action : D) : Option D :=
  H.digest (.arr [.str (.uuid workflow), .int revision, .str actor, .lit kind.value,
    .str (.hex action)])

/-- The digest of the idempotency key of a call under a capability. -/
def invocationKey (H : Hash D) (capability : Uuid) (key : Text D) : Option D :=
  H.digest (.arr [.str (.uuid capability), .str key])

/-! ### The tools -/

/-- `_proposal`: a proposal of any capability for the same workflow, revision and actor. -/
def Db.proposal (H : Hash D) (arguments : Json D) (record : WorkflowCapability D) (db : Db D) :
    Except BrokerError (Uuid × MCPSubmission D) := do
  let unavailable := BrokerError.denied .proposalUnavailable
  let id ← fetch (arguments.uuid? "proposal_id") unavailable
  let proposal ← fetch (db.submissions.get? id) unavailable
  let owner ← fetch (db.capabilities.get? proposal.capability) unavailable
  ensure (proposal.kind = .proposal ∧ owner.workflow = record.workflow ∧
    owner.revision = record.revision ∧ owner.revisionDigest = record.revisionDigest ∧
    owner.actor = record.actor) unavailable
  let digest ← fetch (H.digest proposal.content) .invalidToolArguments
  ensure (proposal.digest = digest) (.denied .proposalIntegrity)
  return (id, proposal)

/-- `_operation_payload`. -/
def operationPayload (id : Uuid) (operation : DraftOperation D) : Json D :=
  .obj
    [("operation_id", .str (.uuid id)),
      ("workflow_id", .str (.uuid operation.workflow)),
      ("revision_id", .int operation.revision),
      ("provider", .lit operation.provider.value),
      ("operation_kind", .lit operation.operationKind.value),
      ("action_digest", .str (.hex operation.actionDigest)),
      ("idempotency_key", .str (.hex operation.idempotencyKey)),
      ("status", .lit "pending"),
      ("approval", .null),
      ("receipt", .null),
      ("schema_version", .lit "1.0")]

/-- The operation with an idempotency key. -/
def Db.operationByKey (key : D) (db : Db D) : Option (Uuid × DraftOperation D) :=
  db.operations.find? fun _ operation => operation.idempotencyKey == key

/-- A new operation on a proposal. -/
def pendingOperation (record : WorkflowCapability D) (proposalId : Uuid) (provider : DraftProvider)
    (kind : OperationKind) (action key : D) : DraftOperation D where
  workflow := record.workflow
  revision := record.revision
  actor := record.actor
  proposal := proposalId
  provider := provider
  operationKind := kind
  actionDigest := action
  idempotencyKey := key
  status := .pending
  approval := none
  receipt := none

/-- One round of the loop over the kinds: `get_or_create` of the operation of a proposal, under the
fresh key `id` if it is new. -/
def Db.requestOperation (H : Hash D) (record : WorkflowCapability D) (proposalId : Uuid)
    (proposal : MCPSubmission D) (provider : DraftProvider) (kind : OperationKind) (id : Uuid)
    (db : Db D) : Except BrokerError (Json D × Db D) := do
  let action ← fetch (actionDigest H record.workflow record.revision record.revisionDigest provider
    kind proposal.digest) .invalidToolArguments
  let key ← fetch (operationKey H record.workflow record.revision record.actor kind action)
    .invalidToolArguments
  match db.operationByKey key with
  | some (existingId, existing) => return (operationPayload existingId existing, db)
  | none => do
    let operation := pendingOperation record proposalId provider kind action key
    let operations ← fetch (db.operations.insert? id operation) .unhandled
    return (operationPayload id operation, { db with operations })

/-- The keys of `get_event_revision` facts. -/
def exportedFacts : List String :=
  ["title", "date", "start_time", "end_time", "timezone", "venue_name", "venue_address",
    "access_instructions", "signup_url", "city", "region", "country"]

/-- Whether a snapshot item is exported: a known fact that is a short string. -/
def isExported (item : String × Json D) : Bool :=
  match item.2 with
  | .str t => exportedFacts.contains item.1 && decide (t.length ≤ 4000)
  | _ => false

/-- The result of a submission. -/
def submissionResult (kind : String) (id : Uuid) (digest : D) : Json D :=
  .obj
    [(kind ++ "_id", .str (.uuid id)),
      (kind ++ "_digest", .str (.hex digest)),
      ("status", .lit "pending"),
      ("content_trust", .lit "untrusted")]

/-- Create a submission with the content under an argument. -/
def Db.submit (H : Hash D) (capability : Uuid) (kind : SubmissionKind) (name key : String)
    (arguments : Json D) (id : Uuid) (db : Db D) : Except BrokerError (Json D × Db D) := do
  let content ← fetch (arguments.get? key) .invalidToolArguments
  let digest ← fetch (H.digest content) .invalidToolArguments
  let submissions ← fetch (db.submissions.insert? id { capability, kind, content, digest })
    .unhandled
  return (submissionResult name id digest, { db with submissions })

/-- `_execute`: the effect of a tool. New rows take their keys from `fresh`. -/
def Db.execute (H : Hash D) (fresh : ℕ → Uuid) (tool : Tool) (arguments : Json D)
    (recordId : Uuid) (record : WorkflowCapability D) (revisionId : ℤ)
    (revision : EventRevision D) (db : Db D) : Except BrokerError (Json D × Db D) :=
  match tool with
  | .getEventRevision => do
    ensure revision.snapshot.bounded .invalidToolArguments
    match revision.snapshot with
    | .obj items =>
      return (.obj
        [("revision_id", .int revisionId),
          ("event", .obj (items.filter isExported)),
          ("content_trust", .lit "untrusted")], db)
    | _ => .error .invalidToolArguments
  | .getPolicyContext => do
    let kind ← fetch (sourceKind revision) .unhandled
    return (.obj
      [("policy_version", .lit "mcp-drafts-v1"),
        ("provider_execution_allowed", .bool false),
        ("approval_required", .lit (if kind = .synthetic then
            "four_eyes_exact_revision_and_action_digest"
          else "owner_exact_revision_and_action_digest_audience_policy_review")),
        ("prohibited_actions", .arr [.lit "publish", .lit "schedule", .lit "send",
          .lit "ticket_economics", .lit "create_segment", .lit "export_constituents"])], db)
  | .requestClarification =>
    db.submit H recordId .clarification "clarification" "questions" arguments (fresh 0)
  | .proposeCampaignDrafts =>
    db.submit H recordId .proposal "proposal" "proposal" arguments (fresh 0)
  | .getOperationStatus => do
    let unavailable := BrokerError.denied .operationUnavailable
    let id ← fetch (arguments.uuid? "operation_id") unavailable
    let operation ← fetch (db.operations.get? id) unavailable
    let proposal ← fetch (db.submissions.get? operation.proposal) unavailable
    let owner ← fetch (db.capabilities.get? proposal.capability) unavailable
    ensure (operation.workflow = record.workflow ∧ operation.revision = record.revision ∧
      operation.actor = record.actor ∧ owner.revisionDigest = record.revisionDigest) unavailable
    return (operationPayload id operation, db)
  | .validateProposal => do
    let (id, proposal) ← db.proposal H arguments record
    ensure (proposalSchema.validate H proposal.content) .invalidToolArguments
    let kind ← fetch (sourceKind revision) .unhandled
    return (.obj
      [("proposal_id", .str (.uuid id)),
        ("schema_valid", .bool true),
        ("execution_authorized", .bool false),
        ("required_review", .lit (if kind = .synthetic then "deterministic_policy_and_four_eyes"
          else "owner_exact_draft_approval_and_deferred_audience_policy"))], db)
  | .requestEventbriteDraft => do
    let (id, proposal) ← db.proposal H arguments record
    let (operation, db) ← db.requestOperation H record id proposal .eventbrite
      .createEventbriteDraft (fresh 0)
    return (.obj [("operations", .arr [operation])], db)
  | .requestIterableDrafts => do
    let (id, proposal) ← db.proposal H arguments record
    let (email, db) ← db.requestOperation H record id proposal .iterable
      .createIterableEmailDraft (fresh 0)
    let (reminder, db) ← db.requestOperation H record id proposal .iterable
      .createIterableReminderDraft (fresh 1)
    return (.obj [("operations", .arr [email, reminder])], db)

/-! ### Invocations -/

/-- `_audit`. -/
def toolAudit (action : String) (recordId : Uuid) (record : WorkflowCapability D) (tool : Tool)
    (correlationId : Text D) (requestId : Uuid) : AuditEvent D where
  actor := some record.actor
  action := action
  targetType := "workflow"
  targetId := .uuid record.workflow
  details := .obj
    [("capability_id", .str (.uuid recordId)),
      ("tool", .lit tool.name),
      ("correlation_id", .str correlationId),
      ("request_id", .str (.uuid requestId))]

/-- `result["correlation_id"] = ...`. -/
def withCorrelation (result : Json D) (correlationId : Text D) : Json D :=
  match result with
  | .obj items => .obj (items ++ [("correlation_id", .str correlationId)])
  | j => j

/-- The first invocation with the request id or the idempotency digest. -/
def Db.existingInvocation (requestId : Uuid) (idem : D) (db : Db D) :
    Option (Uuid × MCPInvocation D) :=
  db.invocations.find? fun id invocation => id == requestId || invocation.idempotencyDigest == idem

/-- `_invoke`: replay the stored result of the same invocation, or execute the tool and store its
result. -/
def Db.invoke (H : Hash D) (fresh : ℕ → Uuid) (tool : Tool) (arguments : Json D) (recordId : Uuid)
    (record : WorkflowCapability D) (revisionId : ℤ) (revision : EventRevision D) (db : Db D) :
    Except BrokerError (Json D × Db D) := do
  let argumentDigest := H.ofJson arguments
  let requestId ← fetch (arguments.uuid? "request_id") .invalidToolArguments
  let correlationId ← fetch (arguments.text? "correlation_id") .invalidToolArguments
  let key ← fetch (arguments.text? "idempotency_key") .invalidToolArguments
  let idem ← fetch (invocationKey H recordId key) .invalidToolArguments
  match db.existingInvocation requestId idem with
  | some (_, existing) => do
    ensure (existing.capability = recordId ∧ existing.toolName = tool ∧
        existing.argumentDigest = argumentDigest ∧ existing.idempotencyDigest = idem)
      (.denied .invocationReplayConflict)
    return (existing.result,
      db.audit (toolAudit "mcp.tool_replayed" recordId record tool correlationId requestId))
  | none => do
    let (result, db) ← db.execute H fresh tool arguments recordId record revisionId revision
    let result := withCorrelation result correlationId
    ensure result.bounded .invalidToolArguments
    let invocation : MCPInvocation D :=
      { capability := recordId
        idempotencyDigest := idem
        argumentDigest
        toolName := tool
        result }
    let invocations ← fetch (db.invocations.insert? requestId invocation) .unhandled
    return (result, { db with invocations }.audit
      (toolAudit "mcp.tool_succeeded" recordId record tool correlationId requestId))

/-! ### Dispatch -/

/-- The first check of `_dispatch`: the capability is live and covers the tool, the workflow, the
revision and the actor of the call, and the actor is an active operator. -/
def capabilityScope (w : World D) (now : Time) (tool : Tool) (arguments : Json D)
    (record : WorkflowCapability D) : Bool :=
  record.audience == audience && record.revokedAt.isNone &&
    decide (record.issuedAt ≤ now ∧ now < record.expiresAt) &&
    decide (0 < record.expiresAt - record.issuedAt ∧
      record.expiresAt - record.issuedAt ≤ seconds 300) &&
    record.tools.contains tool &&
    arguments.uuid? "workflow_id" == some record.workflow &&
    arguments.int? "revision_id" == some record.revision &&
    decide (arguments.text? "actor_id" = some record.actor) &&
    (w.actors.get? record.actor).any w.operator

/-- The second check of `_dispatch`: the revision is the current one, unchanged, and the call has
the correlation id of the capability if that is bound. -/
def revisionScope (H : Hash D) (correlationId : Uuid) (record : WorkflowCapability D)
    (workflow : Workflow D) (revision : EventRevision D) : Except BrokerError Unit := do
  ensure (workflow.revision = record.revision) (.denied .revisionScope)
  let snapshotDigest ← fetch (H.digest revision.snapshot) .invalidToolArguments
  ensure (snapshotDigest = record.revisionDigest ∧ workflow.event = revision.event ∧
    (record.correlationId = none ∨ record.correlationId = some correlationId))
    (.denied .revisionScope)

/-- `_dispatch`. -/
def Db.dispatch (H : Hash D) (now : Time) (fresh : ℕ → Uuid) (tool : Tool) (arguments : Json D)
    (token : ℕ) (db : Db D) : Except BrokerError (Json D × Db D) := do
  let scope := BrokerError.denied .capabilityScope
  let (recordId, record) ← fetch (db.capabilityOf H token) scope
  ensure (capabilityScope db.world now tool arguments record) scope
  let workflow ← fetch (db.world.workflows.get? record.workflow) .unhandled
  let revision ← fetch (db.world.revisions.get? workflow.revision) .unhandled
  let correlationId ← fetch (arguments.uuid? "correlation_id") .invalidToolArguments
  revisionScope H correlationId record workflow revision
  let record := { record with correlationId := some correlationId }
  let db := { db with capabilities := db.capabilities.set recordId record }
  db.invoke H fresh tool arguments recordId record workflow.revision revision

/-- A call of `dispatch_mcp_tool`, with what the environment chooses. -/
structure ToolCall (D : Type) where
  toolName : String
  arguments : Json D
  token : ℕ
  authenticated : Bool
  verified : Bool
  now : Time
  fresh : ℕ → Uuid
  dbFails : Bool

/-- The body of `dispatch_mcp_tool`. -/
def Db.tryTool (H : Hash D) (call : ToolCall D) (db : Db D) :
    Except BrokerError (Json D × Db D) := do
  ensure call.authenticated (.denied .serviceIdentity)
  ensure call.verified (.denied .authorizationFailed)
  let tool ← fetch (validateToolArguments H call.toolName call.arguments) .invalidToolArguments
  ensure (¬call.dbFails) .unhandled
  db.dispatch H call.now call.fresh tool call.arguments call.token

/-- The audit row of a denied call. -/
def deniedAudit (stage : DenialStage) (toolName : String) : AuditEvent D where
  actor := none
  action := "mcp.tool_denied"
  targetType := "mcp"
  targetId := .lit "broker"
  details := .obj
    [("reason", .lit "authorization_failed"),
      ("stage", .lit stage.value),
      ("tool", .lit (if (Tool.ofName toolName).isSome then toolName else "unknown"))]

/-- The audit row of an invalid call. -/
def invalidAudit : AuditEvent D where
  actor := none
  action := "mcp.tool_invalid"
  targetType := "mcp"
  targetId := .lit "broker"
  details := .obj [("reason", .lit "invalid_arguments")]

/-- `dispatch_mcp_tool`: the outcome of a call and the database after it. -/
def Db.dispatchMcpTool (H : Hash D) (call : ToolCall D) (db : Db D) :
    Except BrokerError (Json D) × Db D :=
  match db.tryTool H call with
  | .ok (result, db') => (.ok result, db')
  | .error (.denied stage) =>
    (.error (.denied stage), db.audit (deniedAudit stage call.toolName))
  | .error .invalidToolArguments => (.error .invalidToolArguments, db.audit invalidAudit)
  | .error .unhandled => (.error .unhandled, db)

/-! ### Retry identifiers -/

/-- `bind_call_metadata`: a call without identifiers gets the ones of its capability, tool and
arguments. -/
def bindCallMetadata (H : Hash D) (token : ℕ) (toolName : String) (arguments : Json D) :
    Option (Json D) :=
  match arguments with
  | .obj items =>
    if (items.lookup "request_id").isSome || (items.lookup "idempotency_key").isSome then
      some arguments
    else
      (H.digest (.arr [.str (.hex (H.token token)), .lit toolName, arguments])).map fun key =>
        .obj (items ++
          [("request_id", .str (.uuid (H.uuid5 "urn:civicloop:mcp-call:" (.hex key)))),
            ("idempotency_key", .str (.hex key))])
  | _ => none

end CivicLoop
