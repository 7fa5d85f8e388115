import CivicLoop.Drafts.Review

/-!
# Submission, approval, claim and receipt

The transactions of the draft service, as functions on the database of the agent service, the platform
and the two tables. A transaction that raises leaves no trace. Readings of the clock, the keys of new
rows and failures of the database are inputs.

## Main definitions

* `submitDraft`, `submitTemplate` : a reviewed request becomes a pending row.
* `approve` : `approve_draft` and `approve_template`.
* `claim` : the transaction in which a row passes to `executing`.
* `reopen` : the checks with which a reconciliation reads a claimed row.
* `DraftReceipt`, `storeReceipt` : the row after a receipt.

## References

Source: `backend/integrations/draft_operations.py`, lines 184–412, 519–668.
-/

namespace CivicLoop.Drafts

variable {D : Type} [DecidableEq D]

/-- What the transactions read and write. -/
structure Ledger (D : Type) where
  db : Db D
  platform : Platform D
  executions : Executions D

/-- What the environment chooses for a transaction: a reading of the clock, the key of a new row, and
whether the database fails. -/
structure TransactionInput where
  now : Time
  fresh : Uuid
  dbFails : Bool

/-! ### Submission -/

/-- The row of the operation if it was submitted before with the same review, or a new one. -/
def insertOrReplay (input : TransactionInput) (model : ExecutionModel) (message : String)
    (review : ReviewFields D) (e : Executions D) : Except DraftError (Uuid × Executions D) := do
  match e.ofIntent model review.intent with
  | some (id, existing) => do
    ensure (existing.reviewDigest = review.reviewDigest ∧ existing.submitter = review.submitter)
      (.permissionDenied message)
    return (id, e)
  | none => do
    ensure (¬input.dbFails ∧ (review.pending).constraintsOk) .unhandled
    let e ← fetch (e.insert? (model, input.fresh) review.pending) .unhandled
    return (input.fresh, e)

/-- The arguments of `submit_draft`. -/
structure SubmitRequest (D : Type) where
  intentId : Uuid
  runId : Uuid
  action : String
  organizationId : Text D
  eventId : Text D
  expectedReadbackDigest : Text D
  payload : Json D
  providerConfiguration : Json D

/-- The errors that `_new_iterable_operation` turns into a denial. -/
def invalidRequest : DraftError → Bool
  | .iterable _ | .keyOrType | .templateDoesNotExist => true
  | _ => false

/-- The errors that `submit_template` turns into a denial. -/
def invalidContent : DraftError → Bool
  | .iterable _ | .keyOrType => true
  | _ => false

/-- `_new_iterable_operation`. -/
def newIterableOperation (input : TransactionInput) (H : Hash D) (model : ExecutionModel)
    (user : RequestUser) (intentId runId : Uuid) (payload configuration : Json D) (l : Ledger D) :
    Except DraftError (Uuid × Executions D) := do
  let slug ← actor l.db.world user
  let intent ← loadIntent l.db intentId
  ensure (intent.operation.provider = .iterable ∧ slug = intent.operation.actor)
    (.permissionDenied "Accepted Iterable intent operator required.")
  let run ← loadRun l.db runId
  let request : RequestFields D :=
    { action := .create
      organizationId := .lit ""
      eventId := .lit ""
      expectedReadbackDigest := .lit ""
      payload
      providerConfiguration := configuration }
  let (requestDigest, reviewDigest) ← denyIf invalidRequest "Invalid reviewed Iterable request."
    (match model with
    | .template => templateReview H l.db.world intent run request
    | .draft => campaignReview H l.db l.executions input.now intent run request)
  insertOrReplay input model "Intent already submitted with another review."
    { toRequestFields := request
      intent := intentId
      run := runId
      submitter := user.pk
      requestDigest
      reviewDigest } l.executions

/-- A text that `str` makes of a falsy value. -/
def isEmpty (t : Text D) : Prop := t = .lit ""

instance (t : Text D) : Decidable (isEmpty t) := inferInstanceAs (Decidable (_ = _))

/-- The checks of `submit_draft` before the payload is read. -/
def checkExpected (request : SubmitRequest D) : Except DraftError Unit := do
  ensure (request.action = "update" → request.expectedReadbackDigest.isHex64)
    (.permissionDenied "Update requires exact provider revision readback.")
  ensure (request.action = "create" → isEmpty request.expectedReadbackDigest)
    (.permissionDenied "Create has no existing provider revision.")

/-- The action of a request. It is checked with the request digest, after the operation. -/
def requestedAction (H : Hash D) (w : World D) (intent : Intent D) (run : Run D) (name : String) :
    Except DraftError DraftAction :=
  match DraftAction.ofName name with
  | some action => .ok action
  | none => do
    let _ ← validateIntent H w intent run
    .error (.eventbrite "invalid_request")

/-- `submit_draft` of an Eventbrite operation. -/
def submitEventbrite (input : TransactionInput) (H : Hash D) (zones : String → Bool)
    (user : RequestUser) (request : SubmitRequest D) (l : Ledger D) :
    Except DraftError (Uuid × Executions D) := do
  ensure (request.providerConfiguration.canon = .obj [] ∨ request.providerConfiguration.canon = .null)
    (.permissionDenied "Eventbrite does not accept Iterable configuration.")
  let slug ← actor l.db.world user
  let intent ← loadIntent l.db request.intentId
  let run ← loadRun l.db request.runId
  ensure (slug = intent.operation.actor)
    (.permissionDenied "Only the accepted intent operator can submit.")
  checkExpected request
  let payload ← fetch (EventbriteDrafts.validatePayload zones (request.action == "create")
    request.payload) (.eventbrite "invalid_request")
  let action ← requestedAction H l.db.world intent run request.action
  let fields : RequestFields D :=
    { action
      organizationId := request.organizationId
      eventId := request.eventId
      expectedReadbackDigest := request.expectedReadbackDigest
      payload
      providerConfiguration := .obj [] }
  let (requestDigest, reviewDigest) ← eventbriteReview H zones l.db.world intent run fields
  insertOrReplay input .draft "Intent already submitted with a different review."
    { toRequestFields := fields
      intent := request.intentId
      run := request.runId
      submitter := user.pk
      requestDigest
      reviewDigest } l.executions

/-- `submit_draft`. -/
def submitDraft (input : TransactionInput) (H : Hash D) (zones : String → Bool)
    (user : RequestUser) (request : SubmitRequest D) (l : Ledger D) :
    Except DraftError (Uuid × Executions D) := do
  let operation ← fetch (l.db.operations.get? request.intentId) .doesNotExist
  match operation.provider with
  | .eventbrite => submitEventbrite input H zones user request l
  | .iterable => do
    ensure (request.action = "create" ∧ isEmpty request.organizationId ∧ isEmpty request.eventId ∧
      isEmpty request.expectedReadbackDigest)
      (.permissionDenied "Iterable campaign creation has no Eventbrite identity.")
    newIterableOperation input H .draft user request.intentId request.runId request.payload
      request.providerConfiguration l

/-- `submit_template`. -/
def submitTemplate (input : TransactionInput) (H : Hash D) (user : RequestUser)
    (intentId runId : Uuid) (sender region : Json D) (l : Ledger D) :
    Except DraftError (Uuid × Executions D) := do
  let intent ← loadIntent l.db intentId
  let payload ← denyIf invalidContent "Invalid template sender or Hermes content."
    (IterableTemplates.authorPayload H intentId intent.operation.operationKind
      intent.proposal.content sender .two)
  newIterableOperation input H .template user intentId runId payload (.obj [("region", region)]) l

/-! ### Approval -/

/-- The text with which an approval of another review is refused. -/
def ExecutionModel.exactReview : ExecutionModel → String
  | .draft => "Exact current owner review required."
  | .template => "Exact current owner template review required."

/-- The row that an approval writes. -/
def approvedRow (row : Execution D) (user : ℕ) (sessionId : Uuid) (now : Time) : Execution D :=
  { row with
    approver := some user
    approvalSession := some sessionId
    approvedAt := some now
    status := .approved }

/-- `save` of a row inside a transaction that holds its lock. -/
def save (dbFails : Bool) (ref : ExecutionRef) (old row : Execution D) (e : Executions D) :
    Except DraftError (Executions D) := do
  old.checkSave ref.1 row
  ensure (¬dbFails ∧ row.constraintsOk) .unhandled
  return e.set ref row

/-- `approve_draft` and `approve_template`. -/
def approve (input : TransactionInput) (H : Hash D) (zones : String → Bool) (user : RequestUser)
    (sessionId : Uuid) (ref : ExecutionRef) (reviewDigest : Text D) (revisionId : ℤ)
    (l : Ledger D) : Except DraftError (Executions D) := do
  session l.db.world input.now user sessionId
  let op ← loadOperation l.db l.executions ref
  validateExecution H zones l.db l.executions input.now true op
  ensure (op.row.status = .pending ∧ reviewDigest = .hex op.row.reviewDigest ∧
    revisionId = op.intent.operation.revision) (.permissionDenied (ExecutionModel.exactReview ref.1))
  save input.dbFails ref op.row (approvedRow op.row user.pk sessionId input.now) l.executions

/-! ### Claim -/

/-- The text with which a dispatch by another user is refused. -/
def bound : DraftProvider → String
  | .eventbrite => "Dispatch must be bound to the approving owner."
  | .iterable => "Iterable dispatch requires the approving owner."

/-- The row that a claim writes; an Eventbrite update already knows its event. -/
def claimedRow (path : DraftProvider) (row : Execution D) (now : Time) : Execution D :=
  { row with
    status := .executing
    claimedAt := some now
    providerId := if path = .eventbrite ∧ row.action = .update then row.eventId else row.providerId }

/-- The claim of `execute_draft` and of `_execute_iterable`: the claimed row in memory, and the
tables. -/
def claim (input : TransactionInput) (H : Hash D) (zones : String → Bool) (path : DraftProvider)
    (user : RequestUser) (ref : ExecutionRef) (l : Ledger D) :
    Except DraftError (Operation D × Executions D) := do
  let op ← loadOperation l.db l.executions ref
  validateExecution H zones l.db l.executions input.now true op
  ensure (op.row.approver = some user.pk) (.permissionDenied (bound path))
  ensure (op.row.status = .approved) (.permissionDenied "Operation cannot be dispatched again.")
  let row := claimedRow path op.row input.now
  let e ← save input.dbFails ref op.row row l.executions
  return ({ op with row }, e)

/-- The checks of `reconcile_draft` on a row, and those of a reconciliation in `_execute_iterable`. -/
def reopen (input : TransactionInput) (H : Hash D) (zones : String → Bool) (path : DraftProvider)
    (user : RequestUser) (ref : ExecutionRef) (l : Ledger D) : Except DraftError (Operation D) := do
  let op ← loadOperation l.db l.executions ref
  validateExecution H zones l.db l.executions input.now false op
  let inFlight := op.row.status = .unknown ∨ op.row.status = .executing
  match path with
  | .eventbrite => do
    ensure (op.row.approver = some user.pk)
      (.permissionDenied "Reconciliation must be bound to the approving owner.")
    ensure (inFlight ∧ ¬isEmpty op.row.providerId)
      (.permissionDenied "Reconciliation requires an already recorded provider ID.")
  | .iterable => do
    ensure (op.row.approver = some user.pk) (.permissionDenied (bound .iterable))
    ensure (inFlight ∧ op.row.claimedAt.isSome)
      (.permissionDenied "Only a previously claimed write can reconcile.")
    ensure (ref.1 = .draft → ¬isEmpty op.row.providerId)
      (.permissionDenied "Campaign reconciliation requires its recorded ID.")
  return op

/-! ### Flags and connections -/

/-- `_enabled` and `_iterable_enabled`. -/
def enabled (platform : Platform D) : DraftProvider → Except DraftError Unit
  | .eventbrite => ensure platform.eventbriteWrites
    (.permissionDenied "Eventbrite draft writes are disabled.")
  | .iterable => ensure platform.iterableWrites
    (.permissionDenied "Iterable draft writes are disabled.")

/-- `_reference`. -/
def reference (platform : Platform D) (provider : DraftProvider) :
    Except DraftError (IntegrationConnection D) := do
  let connection ← fetch (platform.connection provider) .doesNotExist
  ensure (connection.state = .healthy ∧ connection.secret = some .active)
    (.permissionDenied "Healthy Eventbrite connection required.")
  return connection

/-- The connection of a claimed row: for Iterable, in the reviewed region. -/
def connect (platform : Platform D) (path : DraftProvider) (op : Operation D) :
    Except DraftError Unit := do
  let connection ← reference platform path
  ensure (path = .iterable → connection.configuration.get? "region" =
      op.row.providerConfiguration.get? "region")
    (.permissionDenied "Reviewed region does not match the healthy connection.")

/-! ### Receipts -/

/-- `EventbriteDraftReceipt` and `IterableDraftReceipt`. -/
structure DraftReceipt (D : Type) where
  outcome : String
  providerId : Option (Text D)
  providerStatus : Option String
  requestDigest : Text D
  readbackDigest : Option (Text D)
  errorCategory : Option String

/-- `asdict`. -/
def DraftReceipt.asDict (receipt : DraftReceipt D) : Json D :=
  .obj
    [("outcome", .lit receipt.outcome),
      ("provider_id", receipt.providerId.elim .null .str),
      ("provider_status", receipt.providerStatus.elim .null .lit),
      ("request_digest", .str receipt.requestDigest),
      ("readback_digest", receipt.readbackDigest.elim .null .str),
      ("error_category", receipt.errorCategory.elim .null .lit)]

/-- A value that is neither `None` nor empty. -/
def given (t : Option (Text D)) : Option (Text D) := t.bind orNone

/-- The statuses of a confirmed draft at its provider. -/
def confirmedStatuses : DraftProvider → ExecutionModel → List String
  | .eventbrite, _ => ["draft"]
  | .iterable, .template => ["template"]
  | .iterable, .draft => ["Draft", "Ready"]

/-- The checks of `_store_receipt` and `_iterable_store_receipt`. -/
def receiptOk (path : DraftProvider) (model : ExecutionModel) (row : Execution D)
    (receipt : DraftReceipt D) : Bool :=
  decide (receipt.requestDigest = .hex row.requestDigest) &&
    ["CONFIRMED", "UNKNOWN"].contains receipt.outcome &&
    (given receipt.providerId).all (fun id =>
      (path == .iterable || row.action == .create || decide (id = row.eventId)) &&
        decide (isEmpty row.providerId ∨ id = row.providerId)) &&
    (receipt.outcome != "CONFIRMED" ||
      ((given receipt.providerId).isSome &&
        receipt.providerStatus.any (confirmedStatuses path model).contains &&
        (given receipt.readbackDigest).isSome))

/-- The text with which a receipt is refused. -/
def invalidReceipt : DraftProvider → String
  | .eventbrite => "Invalid typed draft receipt."
  | .iterable => "Invalid typed Iterable receipt."

/-- The row that a receipt writes. -/
def receivedRow (row : Execution D) (receipt : DraftReceipt D) (now : Time) : Execution D :=
  { row with
    receipt := some receipt.asDict
    providerId := (given receipt.providerId).getD row.providerId
    status := if receipt.outcome = "CONFIRMED" then .succeeded else .unknown
    errorCategory := receipt.errorCategory.getD ""
    completedAt := some now }

/-- `_store_receipt` and `_iterable_store_receipt` up to the write in `save`: the row to be written.
What the adapter returned is not a receipt of the type if it is absent. -/
def storeReceipt (now : Time) (path : DraftProvider) (op : Operation D)
    (receipt : Option (DraftReceipt D)) (e : Executions D) :
    Except DraftError (Execution D) := do
  let invalid := DraftError.valueError (invalidReceipt path)
  let receipt ← fetch receipt invalid
  ensure (receiptOk path op.ref.1 op.row receipt) invalid
  let row := receivedRow op.row receipt now
  let old ← fetch (e.get? op.ref) .unhandled
  old.checkSave op.ref.1 row
  return row

/-! ### The handlers of a dispatch -/

/-- The categories after which nothing was written at the provider. -/
def definite : List String :=
  ["provider_validation", "authentication", "forbidden", "not_found", "rate_limited", "redirect",
    "invalid_request", "invalid_credential", "stale_revision", "unsafe_provider_state",
    "identity_mismatch"]

/-- What a handler writes: the status and the category. -/
structure Failure where
  status : ExecutionStatus
  category : String

/-- The failure of which nothing is known. -/
def Failure.unconfirmed : Failure := ⟨.unknown, "dispatch_unconfirmed"⟩

/-- The failure of an exception of the adapter: only Eventbrite's own errors are told apart. -/
def failureOf (path : DraftProvider) (category : Option String) : Failure :=
  match path, category with
  | .eventbrite, some category =>
    if definite.contains category then ⟨.failed, category⟩ else .unconfirmed
  | _, _ => .unconfirmed

/-- The row that a handler writes. -/
def failedRow (row : Execution D) (failure : Failure) (now : Time) : Execution D :=
  { row with
    status := failure.status
    errorCategory := failure.category
    completedAt := some now }

end CivicLoop.Drafts
