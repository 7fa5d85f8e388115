import CivicLoop.Agents.System
import CivicLoop.Drafts.Model

/-!
# The review of a request

A request to a provider is bound to an accepted operation of the tool broker. Its review digest covers
the operation, the run, the current revision and the request itself, and is computed again from the
database at every later step: at the approval, at the claim and before the adapter is called.

An instance of a row caches the rows it refers to when they are first read, so the second check of a
claimed row sees the operation, the proposal, the capability, the run and the users as they were at
the claim, and the workflow, the revision, the actors and the sessions as they are now. The structure
`Operation` is a row with what it caches.

## Main definitions

* `Intent`, `Run`, `Operation` : rows with what they cache.
* `validateIntent` : the operation is an accepted one of the current revision.
* `eventbriteReview`, `templateReview`, `campaignReview` : the two digests of a request.
* `validateExecution` : the checks of a row.

## References

Source: `backend/integrations/draft_operations.py`, lines 39–181, 282–309 and 460–516.
-/

namespace CivicLoop.Drafts

variable {D : Type} [DecidableEq D]

/-! ### Rows with what they cache -/

/-- The operation of the broker that a request is for. -/
structure Intent (D : Type) where
  id : Uuid
  operation : DraftOperation D
  proposal : MCPSubmission D
  capability : WorkflowCapability D

/-- The run of a request. -/
structure Run (D : Type) where
  id : Uuid
  run : AgentRun D
  binding : Option (HermesRunBinding D)
  control : Option AgentRunControl

/-- A row with what it caches. -/
structure Operation (D : Type) where
  ref : ExecutionRef
  row : Execution D
  intent : Intent D
  run : Run D
  submitter : User
  approver : Option User
  proof : Option (AdministratorSession × AdministratorProfile)

omit [DecidableEq D] in
def loadIntent (db : Db D) (id : Uuid) : Except DraftError (Intent D) := do
  let operation ← fetch (db.operations.get? id) .doesNotExist
  let proposal ← fetch (db.submissions.get? operation.proposal) .doesNotExist
  let capability ← fetch (db.capabilities.get? proposal.capability) .doesNotExist
  return { id, operation, proposal, capability }

omit [DecidableEq D] in
def loadRun (db : Db D) (id : Uuid) : Except DraftError (Run D) := do
  let run ← fetch (db.runs.get? id) .doesNotExist
  return { id, run, binding := db.bindings.get? id, control := db.controls.get? id }

/-- The session of an approval and its profile. -/
def loadProof (w : World D) (sessionId : Option Uuid) :
    Option (AdministratorSession × AdministratorProfile) := do
  let sessionId ← sessionId
  let session ← w.sessions.get? sessionId
  let profile ← w.profiles.get? session.profile
  return (session, profile)

def loadOperation (db : Db D) (e : Executions D) (ref : ExecutionRef) :
    Except DraftError (Operation D) := do
  let row ← fetch (e.get? ref) .doesNotExist
  let intent ← loadIntent db row.intent
  let run ← loadRun db row.run
  let submitter ← fetch (db.world.users.get? row.submitter) .doesNotExist
  return {
    ref, row, intent, run, submitter
    approver := row.approver.bind db.world.users.get?
    proof := loadProof db.world row.approvalSession }

/-! ### Users -/

/-- The user of a request, as it was when the request was authenticated. -/
structure RequestUser where
  pk : ℕ
  isAuthenticated : Bool
  isActive : Bool

/-- A user that was read from the database. -/
def storedUser (pk : ℕ) (user : User) : RequestUser := ⟨pk, true, user.isActive⟩

/-- `_actor(user, DemoActor.Role.OPERATOR)`. -/
def actor (w : World D) (user : RequestUser) : Except DraftError (Text D) := do
  ensure (user.isAuthenticated ∧ user.isActive)
    (.permissionDenied "Authenticated active user required.")
  let (slug, _) ← fetch (w.actors.find? fun _ actor =>
    actor.user == some user.pk && actor.role == .operator)
    (.permissionDenied "User-bound actor role required.")
  return slug

/-- An active MFA-verified session of the user, without restriction. -/
def fullSession (w : World D) (now : Time) (user : ℕ) (sessionId : Uuid) : Bool :=
  match w.sessions.get? sessionId with
  | none => false
  | some session =>
    match w.profiles.get? session.profile with
    | none => false
    | some profile =>
      profile.user == user && profile.status == .active &&
        (w.users.get? profile.user).any (·.isActive) && !session.recoveryRestricted &&
        session.revokedAt.isNone && session.expiresAt.any (now < ·) &&
        session.absoluteExpiresAt.any (now < ·) && session.mfaVerifiedAt.isSome

/-- `_session`. -/
def session (w : World D) (now : Time) (user : RequestUser) (sessionId : Uuid) :
    Except DraftError Unit := do
  ensure (user.isAuthenticated ∧ user.isActive) (.permissionDenied "Authenticated owner required.")
  ensure (fullSession w now user.pk sessionId)
    (.permissionDenied "Active full owner session required.")

/-! ### The accepted operation -/

/-- The tool that requests the drafts of a provider. -/
def requestTool : DraftProvider → Tool
  | .eventbrite => .requestEventbriteDraft
  | .iterable => .requestIterableDrafts

/-- The run is an accepted run of the workflow, at its revision and with its package. -/
def RunOf (workflowId : Uuid) (workflow : Workflow D) (run : AgentRun D) : Prop :=
  run.status = .succeeded ∧ run.hermesLane = true ∧ run.workflow = workflowId ∧
    run.eventRevision = workflow.revision ∧ run.packageHash = workflow.packageHash

instance (workflowId : Uuid) (workflow : Workflow D) (run : AgentRun D) :
    Decidable (RunOf workflowId workflow run) := inferInstanceAs (Decidable (_ ∧ _))

/-- The proposal was filed under the capability of the run, for the current revision. -/
def FiledUnder (workflowId : Uuid) (workflow : Workflow D) (revisionDigest : D)
    (intent : Intent D) (binding : HermesRunBinding D) (control : AgentRunControl) : Prop :=
  control.capability = some intent.proposal.capability ∧
    intent.capability.workflow = workflowId ∧ intent.capability.revision = workflow.revision ∧
    intent.capability.actor = intent.operation.actor ∧
    intent.capability.audience = "civicloop-hermes" ∧
    intent.capability.correlationId = some binding.correlationId ∧
    requestTool intent.operation.provider ∈ intent.capability.tools ∧
    intent.capability.revisionDigest = revisionDigest ∧
    intent.operation.revision = workflow.revision ∧ intent.proposal.kind = .proposal

instance (workflowId : Uuid) (workflow : Workflow D) (revisionDigest : D) (intent : Intent D)
    (binding : HermesRunBinding D) (control : AgentRunControl) :
    Decidable (FiledUnder workflowId workflow revisionDigest intent binding control) :=
  inferInstanceAs (Decidable (_ ∧ _))

/-- The operation is pending and has these digests. -/
def PendingWith (operation : DraftOperation D) (action key : D) : Prop :=
  (operation.provider, operation.operationKind) ∈ requiredOperations ∧
    operation.status = .pending ∧ operation.approval = none ∧ operation.receipt.isNone ∧
    operation.actionDigest = action ∧ operation.idempotencyKey = key

instance (operation : DraftOperation D) (action key : D) :
    Decidable (PendingWith operation action key) := inferInstanceAs (Decidable (_ ∧ _))

/-- `validate_intent`: the digest of the current revision. -/
def validateIntent (H : Hash D) (w : World D) (intent : Intent D) (run : Run D) :
    Except DraftError D := do
  let denied := DraftError.permissionDenied "Intent is not an accepted current provider proposal."
  let operation := intent.operation
  let workflow ← fetch (w.workflows.get? operation.workflow) .doesNotExist
  let revision ← fetch (w.revisions.get? workflow.revision) .doesNotExist
  let revisionDigest ← fetch (H.digest revision.snapshot) .unhandled
  let action ← fetch (actionDigest H operation.workflow operation.revision revisionDigest
    operation.provider operation.operationKind intent.proposal.digest) .unhandled
  let key ← fetch (operationKey H operation.workflow operation.revision operation.actor
    operation.operationKind action) .unhandled
  ensure (RunOf operation.workflow workflow run.run) denied
  let binding ← fetch run.binding .doesNotExist
  ensure (binding.actor = operation.actor ∧ binding.revisionDigest = revisionDigest) denied
  let control ← fetch run.control .doesNotExist
  ensure (FiledUnder operation.workflow workflow revisionDigest intent binding control) denied
  let content ← fetch (H.digest intent.proposal.content) .unhandled
  ensure (intent.proposal.digest = content ∧ PendingWith operation action key) denied
  ensure (operation.provider = .iterable → proposalSchema.validate H intent.proposal.content)
    (.permissionDenied "Accepted Iterable content schema required.")
  return revisionDigest

/-! ### The digests of a request -/

/-- What every review digest covers. -/
def intentItems (intent : Intent D) (run : Run D) (revisionDigest : D) :
    List (String × Json D) :=
  [("intent", .str (.uuid intent.id)),
    ("run", .str (.uuid run.id)),
    ("revision", .int intent.operation.revision),
    ("revision_digest", .str (.hex revisionDigest)),
    ("action_digest", .str (.hex intent.operation.actionDigest)),
    ("idempotency_key", .str (.hex intent.operation.idempotencyKey))]

/-- `event_id or None`. -/
def orNone (t : Text D) : Option (Text D) := if t = .lit "" then none else some t

/-- `_review`: the request digest and the review digest of an Eventbrite request. -/
def eventbriteReview (H : Hash D) (zones : String → Bool) (w : World D) (intent : Intent D)
    (run : Run D) (request : RequestFields D) : Except DraftError (D × D) := do
  let revisionDigest ← validateIntent H w intent run
  let requestDigest ← fetch (EventbriteDrafts.computeRequestDigest H zones request.action
    request.organizationId (orNone request.eventId) request.payload) (.eventbrite "invalid_request")
  let review ← fetch (H.digest (.obj (intentItems intent run revisionDigest ++
    [("request_digest", .str (.hex requestDigest)),
      ("expected_readback_digest", .str request.expectedReadbackDigest)]))) .unhandled
  return (requestDigest, review)

/-- The review digest of an Iterable request. -/
def iterableDigest (H : Hash D) (intent : Intent D) (run : Run D) (revisionDigest : D)
    (step : String) (requestDigest : D) : Except DraftError (D × D) := do
  let review ← fetch (H.digest (.obj (intentItems intent run revisionDigest ++
    [("step", .lit step), ("request_digest", .str (.hex requestDigest))]))) .unhandled
  return (requestDigest, review)

/-- The checks of `_iterable_review` that both models share. -/
def createOnly (request : RequestFields D) : Except DraftError Unit := do
  ensure request.providerConfiguration.isObj
    (.permissionDenied "Exact Iterable configuration required.")
  ensure (request.action = .create ∧ request.organizationId = .lit "" ∧ request.eventId = .lit "" ∧
    request.expectedReadbackDigest = .lit "")
    (.permissionDenied "Iterable only supports create-only operations.")

/-- The sender of a template. -/
def senderOf (payload : Json D) : Except DraftError (Json D) := do
  let items ← IterableTemplates.senderFields.mapM fun key => do
    let value ← fetch (payload.get? key) .keyOrType
    return (key, value)
  return .obj items

/-- `_iterable_review` of a template: its content is the one of the proposal. -/
def templateReview (H : Hash D) (w : World D) (intent : Intent D) (run : Run D)
    (request : RequestFields D) : Except DraftError (D × D) := do
  let revisionDigest ← validateIntent H w intent run
  createOnly request
  ensure (request.providerConfiguration.hasKeys ["region"])
    (.permissionDenied "Exact template region required.")
  let sender ← senderOf request.payload
  let version ← fetch (IterableTemplates.payloadVersion request.payload)
    (.iterable "invalid_request")
  let expected ← IterableTemplates.authorPayload H intent.id intent.operation.operationKind
    intent.proposal.content sender version
  ensure (request.payload.canon = expected.canon)
    (.permissionDenied "Template content must match the accepted Hermes proposal.")
  let region ← fetch (request.providerConfiguration.get? "region") .keyOrType
  let requestDigest ← fetch (IterableTemplates.computeRequestDigest H region request.payload)
    (.iterable "invalid_request")
  iterableDigest H intent run revisionDigest "template" requestDigest

/-! ### The checks of a row -/

/-- Turn the errors for which `caught` holds into a denial. -/
def denyIf {α : Type} (caught : DraftError → Bool) (message : String) (x : Except DraftError α) :
    Except DraftError α :=
  match x with
  | .ok a => .ok a
  | .error e => .error (if caught e then .permissionDenied message else e)

@[simp] theorem denyIf_eq_ok {α : Type} {caught : DraftError → Bool} {message : String}
    {x : Except DraftError α} {a : α} : denyIf caught message x = .ok a ↔ x = .ok a := by
  cases x <;> simp [denyIf]

/-- The errors that `validate_execution` turns into a denial. -/
def invalidPayload : DraftError → Bool
  | .eventbrite _ | .iterable _ | .keyOrType => true
  | _ => false

def catchInvalid {α : Type} : Except DraftError α → Except DraftError α :=
  denyIf invalidPayload "Reviewed provider payload is invalid."

/-- The last part of `validate_execution`: the digests are the stored ones, the submitter is the actor
of the operation, and an approval stands. -/
def validateReviewed (w : World D) (now : Time) (live : Bool) (op : Operation D)
    (reviewed : D × D) : Except DraftError Unit := do
  ensure (reviewed.1 = op.row.requestDigest ∧ reviewed.2 = op.row.reviewDigest)
    (.permissionDenied "Reviewed provider payload changed.")
  let slug ← actor w (storedUser op.row.submitter op.submitter)
  ensure (slug = op.intent.operation.actor)
    (.permissionDenied "Execution submitter must match the accepted intent actor.")
  match op.row.approver with
  | none => return ()
  | some approver => do
    let sessionId ← fetch op.row.approvalSession
      (.permissionDenied "Owner approval session proof required.")
    let user ← fetch op.approver .doesNotExist
    if live then session w now (storedUser approver user) sessionId
    else do
      let (proof, profile) ← fetch op.proof .doesNotExist
      let denied := DraftError.permissionDenied "Original owner approval proof is invalid."
      let approvedAt ← fetch op.row.approvedAt denied
      ensure (user.isActive ∧ profile.status = .active ∧ profile.user = approver ∧
        proof.recoveryRestricted = false ∧ proof.mfaVerifiedAt.any (· ≤ approvedAt) ∧
        proof.expiresAt.any (approvedAt < ·) ∧ proof.absoluteExpiresAt.any (approvedAt < ·) ∧
        proof.revokedAt.all (approvedAt < ·)) denied

/-- `validate_execution` of a template. -/
def validateTemplate (H : Hash D) (w : World D) (now : Time) (live : Bool) (op : Operation D) :
    Except DraftError Unit := do
  let reviewed ← catchInvalid do
    let reviewed ← templateReview H w op.intent op.run op.row.toRequestFields
    let version ← fetch (IterableTemplates.payloadVersion op.row.payload)
      (.iterable "invalid_request")
    ensure (live → version = .two)
      (.permissionDenied "Prepare a new reviewed template with its marketing footer.")
    return reviewed
  validateReviewed w now live op reviewed

/-- A campaign is for the confirmed template of its operation, in the same region and with the same
content. -/
def OwnsTemplate (request : RequestFields D) (template : Execution D) : Prop :=
  template.status = .succeeded ∧
    ∃ receipt templateId, template.receipt = some receipt ∧
      receipt.text? "outcome" = some (.lit "CONFIRMED") ∧
      template.providerConfiguration.get? "region" =
        request.providerConfiguration.get? "region" ∧
      receipt.get? "readback_digest" =
        request.providerConfiguration.get? "expected_template_digest" ∧
      request.payload.int? "templateId" = some templateId ∧
      template.providerId = .lit (toString templateId)

/-- The check of a campaign against its template. -/
def checkTemplate (request : RequestFields D) (template : Execution D) :
    Except DraftError Unit := do
  let denied := DraftError.permissionDenied "Campaign requires the confirmed owned Hermes template."
  ensure (template.status = .succeeded) denied
  let receipt ← fetch template.receipt denied
  ensure (receipt.text? "outcome" = some (.lit "CONFIRMED")) denied
  ensure (template.providerConfiguration.get? "region" =
    request.providerConfiguration.get? "region") denied
  ensure (receipt.get? "readback_digest" =
    request.providerConfiguration.get? "expected_template_digest") denied
  ensure request.payload.isObj .unhandled
  let templateId ← fetch (request.payload.int? "templateId") denied
  ensure (template.providerId = .lit (toString templateId)) denied

/-- `_iterable_review` of a campaign. -/
def campaignReview (H : Hash D) (db : Db D) (e : Executions D) (now : Time) (intent : Intent D)
    (run : Run D) (request : RequestFields D) : Except DraftError (D × D) := do
  let revisionDigest ← validateIntent H db.world intent run
  createOnly request
  ensure (request.providerConfiguration.hasKeys ["region", "expected_template_digest"])
    (.permissionDenied "Exact campaign region and template digest required.")
  let (templateId, _) ← fetch (e.ofIntent .template intent.id) .templateDoesNotExist
  let template ← loadOperation db e (.template, templateId)
  validateTemplate H db.world now false template
  checkTemplate request template.row
  let region ← fetch (request.providerConfiguration.get? "region") .keyOrType
  let expected ← fetch (request.providerConfiguration.get? "expected_template_digest") .keyOrType
  let requestDigest ← fetch (IterableDrafts.computeRequestDigest H region request.payload expected)
    (.iterable "invalid_request")
  iterableDigest H intent run revisionDigest "campaign" requestDigest

/-- `validate_execution`, with the approval session alive if `live`. -/
def validateExecution (H : Hash D) (zones : String → Bool) (db : Db D) (e : Executions D)
    (now : Time) (live : Bool) (op : Operation D) : Except DraftError Unit :=
  match op.intent.operation.provider, op.ref.1 with
  | .iterable, .template => validateTemplate H db.world now live op
  | .iterable, .draft => do
    let reviewed ← catchInvalid
      (campaignReview H db e now op.intent op.run op.row.toRequestFields)
    validateReviewed db.world now live op reviewed
  | .eventbrite, _ => do
    let reviewed ← catchInvalid do
      ensure (op.row.providerConfiguration.canon = .obj [])
        (.permissionDenied "Unexpected provider configuration.")
      eventbriteReview H zones db.world op.intent op.run op.row.toRequestFields
    validateReviewed db.world now live op reviewed

end CivicLoop.Drafts
