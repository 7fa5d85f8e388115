import CivicLoop.Agents.Broker

/-!
# The Hermes lane

One Hermes run is admitted at a time. Its life is spread over separate transactions with a remote
call in between: admission (`queueHermesRun`, under a start receipt in `startHermesRun`), the claim
by a worker, the completion after the remote call, cancellation, and the end on any error
(`finish`). Each is a function into `Except HermesError`, so a transaction that raises leaves the
database as it was.

A reading of the clock, the keys of new rows, and the failure of a step that the code guards are
inputs. All readings of the clock in one transaction are taken to be equal.

## Main definitions

* `Engine` : the preparation of packages, which is not modelled here.
* `Db.queueHermesRun`, `Db.startHermesRun` : admission.
* `Db.claim`, `Db.complete` : the two transactions of a worker.
* `Db.validateResult` : the acceptance of a result.
* `Db.cancelHermesRun`, `Db.finish` : cancellation and the end on an error.

## References

Source: `backend/agents/tasks.py`.
-/

namespace CivicLoop

variable {D : Type} [DecidableEq D]

/-- The preparation of packages: whether `prepare_package` and `prepare_owner_package` of a snapshot
are equal to a package. An exception counts as unequal. -/
structure Engine (D : Type) where
  syntheticPackage : Json D → Json D → Bool
  ownerPackage : Json D → Json D → Bool

/-- What a lane operation raises. `doesNotExist` is the exception of a missing run, and `unhandled`
any exception without a category of its own. -/
inductive HermesError
  | admissionDenied
  | startConflict
  | doesNotExist
  | workerFailure (category : FailureCategory) (quarantine : Bool)
  | unhandled
deriving DecidableEq, Repr

/-- `WorkerFailure(category)`. -/
def workerFailure (category : FailureCategory) : HermesError := .workerFailure category false

/-- The result of a nested call, with every exception of it taken as `e`. -/
def orRaise {ε α : Type} (x : Except ε α) (e : HermesError) : Except HermesError α :=
  match x with
  | .ok a => .ok a
  | .error _ => .error e

@[simp] theorem orRaise_eq_ok {ε α : Type} {x : Except ε α} {e : HermesError} {a : α} :
    orRaise x e = .ok a ↔ x = .ok a := by
  cases x <;> simp [orRaise]

/-! ### Readiness -/

/-- `FIXTURE_ID`, `FIXTURE_REVISION` and `FIXTURE_DIGEST`. -/
def fixtureId : String := "launchloop_synthetic_v1"

def fixtureRevision : ℤ := 3

def fixtureDigest : String := "815d14762306d96bdc6449eb58a3e5739fb0ad95e08dc70b9025bd2cc8099d5f"

/-- What `_ready` and `_owner_ready` both ask of a workflow: the revision, the status, and a package
that is ready and has the stored hash, and the expected one if that is given. -/
def packageReady (H : Hash D) (prepared : Json D → Json D → Bool) (workflow : Workflow D)
    (revision : EventRevision D) (revisionId : ℤ) (expectedHash : Option (Text D)) : Bool :=
  decide (workflow.revision = revisionId) && decide (revision.event = workflow.event) &&
    decide (workflow.status = .readyForReview ∨ workflow.status = .inReview) &&
    decide (workflow.package.text? "status" = some (.lit "ready_for_review")) &&
    prepared revision.snapshot workflow.package &&
    decide (.hex (H.ofJson workflow.package) = workflow.packageHash) &&
    decide (expectedHash = none ∨ expectedHash = some workflow.packageHash)

/-- `_ready`. -/
def ready (H : Hash D) (E : Engine D) (workflow : Workflow D) (revision : EventRevision D)
    (revisionId : ℤ) (expectedHash : Option (Text D)) : Bool :=
  revision.snapshot.isTrue "synthetic" &&
    packageReady H E.syntheticPackage workflow revision revisionId expectedHash

/-- `_owner_ready`. -/
def ownerReady (H : Hash D) (E : Engine D) (workflow : Workflow D) (revision : EventRevision D)
    (revisionId : ℤ) (actorSlug : Text D) (session : Option Uuid)
    (expectedHash : Option (Text D)) : Bool :=
  session.isSome &&
    decide (sourceKind revision = some .manual ∨ sourceKind revision = some .eventbrite) &&
    decide (revision.author = actorSlug) &&
    packageReady H E.ownerPackage workflow revision revisionId expectedHash

/-- `_run_ready`. -/
def runReady (H : Hash D) (E : Engine D) (w : World D) (now : Time) (run : AgentRun D)
    (binding : HermesRunBinding D) (actor : DemoActor) (workflow : Workflow D)
    (revision : EventRevision D) : Bool :=
  match run.privacyMode with
  | .pilotMinimized =>
    run.fixtureManifestId.isNone && run.fixtureManifestRevision.isNone &&
      run.fixtureManifestDigest.isNone &&
      ownerReady H E workflow revision run.eventRevision binding.actor
        (w.ownerSession now actor binding.ownerSession) (some run.packageHash)
  | .syntheticFull =>
    binding.ownerSession.isNone &&
      decide (run.fixtureManifestId = some fixtureId ∧
        run.fixtureManifestRevision = some fixtureRevision ∧
        run.fixtureManifestDigest = some fixtureDigest) &&
      ready H E workflow revision run.eventRevision (some run.packageHash)
  | .disabled => false

/-! ### Rows of a run -/

/-- The lifecycle part of `AgentRun.clean`. -/
def AgentRun.lifecycleOk (run : AgentRun D) : Bool :=
  (match run.status with
  | .queued => run.startedAt.isNone && run.finishedAt.isNone
  | .running => run.startedAt.isSome && run.finishedAt.isNone
  | .succeeded | .failed => run.startedAt.isSome && run.finishedAt.isSome
  | .cancelled => run.finishedAt.isSome) &&
  match run.status with
  | .failed => run.failureCategory.isSome
  | .cancelled => run.failureCategory == some .cancelled
  | _ => run.failureCategory.isNone

/-- `AgentRun.clean`: the fixture of the privacy mode, the event of the revision, the profile of the
policy, and the lifecycle. -/
def AgentRun.clean (w : World D) (run : AgentRun D) : Bool :=
  (!run.hermesLane || match run.privacyMode with
    | .pilotMinimized =>
      run.fixtureManifestId.isNone && run.fixtureManifestRevision.isNone &&
        run.fixtureManifestDigest.isNone
    | .syntheticFull =>
      run.fixtureManifestId.any (· ≠ "") && run.fixtureManifestRevision.any (· ≠ 0) &&
        run.fixtureManifestDigest.any (· ≠ "")
    | .disabled => false) &&
  (match w.revisions.get? run.eventRevision, w.workflows.get? run.workflow with
  | some revision, some workflow => revision.event == workflow.event
  | _, _ => false) &&
  run.routingPolicy.modelProfile == (run.modelProfile.profileId, run.modelProfile.revision) &&
  run.lifecycleOk

/-- `run.save()`, for a run that is there. -/
def Db.saveRun (runId : Uuid) (run : AgentRun D) (db : Db D) : Except HermesError (Db D) := do
  ensure (run.clean db.world) .unhandled
  return { db with runs := db.runs.set runId run }

/-- `_event`: append to the event log of a run, with the next sequence number, and to the audit. -/
def Db.event (H : Hash D) (runId : Uuid) (eventType outcome : String) (db : Db D) :
    Except HermesError (Db D) := do
  let sequence :=
    ((db.events.filter fun e => e.run == runId).map (·.sequence)).foldl max 0 + 1
  let detailDigest ← fetch
    (H.digest (.obj [("event_type", .lit eventType), ("outcome", .lit outcome)])) .unhandled
  let binding ← fetch (db.bindings.get? runId) .unhandled
  let entry : AgentRunEvent D := ⟨runId, sequence, eventType, outcome, detailDigest⟩
  return { db with events := db.events ++ [entry] }.audit
    { actor := some binding.actor
      action := "hermes." ++ eventType
      targetType := "agent_run"
      targetId := .uuid runId
      details := .obj [("outcome", .lit outcome), ("sequence", .int sequence)] }

/-! ### Admission -/

/-- `_timeout`. -/
def Settings.timeout (settings : Settings) : Option ℤ := do
  let timeout ← settings.hermesTimeoutSeconds
  let inferences ← settings.hermesMaxInferences
  if 1 ≤ timeout ∧ timeout ≤ 300 ∧ 1 ≤ inferences ∧ inferences ≤ 8 then some timeout else none

/-- The lane is open: Hermes is enabled, nothing is quarantined and no run is active. -/
def Db.laneOpen (db : Db D) : Bool :=
  db.world.settings.hermesEnabled && !db.lane.admissionDisabled &&
    !db.controls.values.any (·.admissionDisabled) && db.lane.activeRun.isNone &&
    !db.bindings.rows.any fun row => (db.runs.get? row.1).any (·.status.active)

/-- What an admission reads from the environment. -/
structure QueueInput where
  now : Time
  correlationId : Uuid
  dbFails : Bool

/-- The run id of a correlation id. -/
def runIdOf (H : Hash D) (correlationId : Uuid) : Uuid :=
  H.uuid5 "urn:civicloop:run:" (.uuid correlationId)

/-- The row of an admitted run. -/
def queuedRun (workflowId : Uuid) (workflow : Workflow D) (profile : ModelProfile)
    (policy : RoutingPolicy) (live : Bool) : AgentRun D where
  workflow := workflowId
  eventRevision := workflow.revision
  packageHash := workflow.packageHash
  hermesLane := true
  routingPolicy := policy
  modelProfile := profile
  fixtureManifestId := if live then none else some fixtureId
  fixtureManifestRevision := if live then none else some fixtureRevision
  fixtureManifestDigest := if live then none else some fixtureDigest
  privacyMode := if live then .pilotMinimized else .syntheticFull
  status := .queued
  startedAt := none
  finishedAt := none
  failureCategory := none
  inputTokens := 0
  outputTokens := 0
  costMicrousd := 0

/-- The checks of `queue_hermes_run` on the workflow and the actor: the workflow, whether its event
is an owner event, and the owner session. -/
def Db.admitRun (H : Hash D) (E : Engine D) (now : Time) (workflowId : Uuid) (revisionId : ℤ)
    (actorSlug : Text D) (ownerSessionId : Option Uuid) (db : Db D) :
    Except HermesError (Workflow D × EventRevision D × Bool × Option Uuid) := do
  let workflow ← fetch (db.world.workflows.get? workflowId) .admissionDenied
  let revision ← fetch (db.world.revisions.get? workflow.revision) .admissionDenied
  let actor ← fetch (db.world.actors.get? actorSlug) .admissionDenied
  let kind ← fetch (sourceKind revision) .admissionDenied
  let live := kind != .synthetic
  let session := if live then db.world.ownerSession now actor ownerSessionId else none
  ensure (db.world.operator actor ∧
      if live then ownerReady H E workflow revision revisionId actorSlug session none
      else ready H E workflow revision revisionId none)
    .admissionDenied
  return (workflow, revision, live, session)

/-- `queue_hermes_run`: reserve the budget and create the run with its binding and its control. -/
def Db.queueHermesRun (H : Hash D) (E : Engine D) (input : QueueInput) (workflowId : Uuid)
    (revisionId : ℤ) (actorSlug : Text D) (ownerSessionId : Option Uuid) (db : Db D) :
    Except HermesError (Uuid × Db D) := do
  ensure (¬input.dbFails) .admissionDenied
  ensure db.laneOpen .admissionDenied
  let timeout ← fetch db.world.settings.timeout .admissionDenied
  let (workflow, revision, live, session) ←
    db.admitRun H E input.now workflowId revisionId actorSlug ownerSessionId
  let settings := db.world.settings
  let profile ← fetch (db.world.catalog.profiles.get?
    (settings.hermesProfileId, settings.hermesProfileRevision)) .admissionDenied
  ensure (profile.purpose = .workflow) .admissionDenied
  let policy ← fetch (db.world.catalog.policies.find? fun _ policy =>
    policy.modelProfile == (profile.profileId, profile.revision) &&
      policy.purpose == .workflow) .admissionDenied
  let runId := runIdOf H input.correlationId
  let lease := input.now + seconds timeout
  let (_, budget) ← orRaise (db.budget.reserveBudget db.world.catalog db.held input.now
    ⟨runId, profile.profileId, profile.revision, profile.maxInputTokens, profile.maxOutputTokens,
      some lease⟩) .admissionDenied
  let run := queuedRun workflowId workflow profile policy.2 live
  ensure (run.clean db.world) .unhandled
  let runs ← fetch (db.runs.insert? runId run) .unhandled
  let revisionDigest ← fetch (H.digest revision.snapshot) .unhandled
  -- The correlation id is a unique column.
  ensure (∀ binding ∈ db.bindings.values, binding.correlationId ≠ input.correlationId)
    .admissionDenied
  let bindings ← fetch (db.bindings.insert? runId
    ⟨actorSlug, session, input.correlationId, revisionDigest⟩) .admissionDenied
  let controls ← fetch (db.controls.insert? runId ⟨none, none, some lease, false⟩) .admissionDenied
  let lane := { db.lane with activeRun := some runId }
  let db ← { db with budget, runs, bindings, controls, lane }.event H runId "queued" "accepted"
  return (runId, db)

/-- The arguments of `start_hermes_run`. -/
structure StartRequest (D : Type) where
  idempotencyKey : Uuid
  workflowId : Uuid
  revisionId : ℤ
  actorSlug : Text D
  ownerSessionId : Option Uuid

/-- `start_hermes_run`: replay the receipt of the key, or admit a run and write its receipt. -/
def Db.startHermesRun (H : Hash D) (E : Engine D) (input : QueueInput) (q : StartRequest D)
    (db : Db D) : Except HermesError (Uuid × Db D) := do
  ensure (¬q.revisionId < 1) .admissionDenied
  let actor ← fetch (db.world.actors.get? q.actorSlug) .admissionDenied
  ensure (db.world.operator actor) .admissionDenied
  let owner ← fetch actor.user .admissionDenied
  match db.receipts.get? q.idempotencyKey with
  | some receipt => do
    ensure (receipt.owner = owner ∧ receipt.actor = q.actorSlug ∧
      receipt.workflow = q.workflowId ∧ receipt.revision = q.revisionId) .startConflict
    return (receipt.run, db)
  | none => do
    let (runId, db) ← db.queueHermesRun H E input q.workflowId q.revisionId q.actorSlug
      q.ownerSessionId
    let receipts ← fetch (db.receipts.insert? q.idempotencyKey
      ⟨owner, q.actorSlug, q.workflowId, q.revisionId, runId⟩) .admissionDenied
    return (runId, { db with receipts })

/-! ### Checks of a worker -/

/-- `_owns_run`: a run without binding or control closes the lane. -/
def Db.ownsRun (runId : Uuid) (run : AgentRun D) (db : Db D) : Bool × Db D :=
  if run.hermesLane then
    if (db.bindings.get? runId).isSome && (db.controls.get? runId).isSome then (true, db)
    else (false, { db with lane := { db.lane with admissionDisabled := true } })
  else (false, db)

/-- The last part of `_check`: the capability is live and is the one of the run. -/
def capabilityMatches (now : Time) (run : AgentRun D) (binding : HermesRunBinding D)
    (capability : WorkflowCapability D) : Bool :=
  capability.revokedAt.isNone && decide (now < capability.expiresAt) &&
    decide (capability.correlationId = some binding.correlationId) &&
    decide (capability.revisionDigest = binding.revisionDigest) &&
    decide (capability.workflow = run.workflow) &&
    decide (capability.revision = run.eventRevision) &&
    decide (capability.actor = binding.actor)

/-- `_check`. -/
def Db.check (H : Hash D) (E : Engine D) (now : Time) (run : AgentRun D)
    (binding : HermesRunBinding D) (control : AgentRunControl)
    (capability : Option (WorkflowCapability D)) (db : Db D) : Except HermesError Unit := do
  ensure (control.cancelRequestedAt = none ∧ db.world.settings.hermesEnabled)
    (workerFailure .cancelled)
  ensure (control.leaseExpiresAt.any fun lease => now < lease) (workerFailure .timeout)
  let actor ← fetch (db.world.actors.get? binding.actor) .unhandled
  ensure (db.world.operator actor) (workerFailure .invalidOutput)
  let workflow ← fetch (db.world.workflows.get? run.workflow) .unhandled
  let revision ← fetch (db.world.revisions.get? workflow.revision) .unhandled
  ensure (runReady H E db.world now run binding actor workflow revision)
    (workerFailure .invalidOutput)
  let snapshotDigest ← fetch (H.digest revision.snapshot) .unhandled
  ensure (snapshotDigest = binding.revisionDigest) (workerFailure .invalidOutput)
  ensure (capability.all (capabilityMatches now run binding)) (workerFailure .invalidOutput)

/-! ### The claim -/

/-- What a claim reads from the environment: the clock, the key and the token of the new
capability, whether the client can be built from the settings, and whether the database fails. -/
structure ClaimInput where
  now : Time
  capabilityId : Uuid
  token : ℕ
  clientReady : Bool
  dbFails : Bool

/-- The failure of a claim. A run that is already running is a redelivery: the old worker may still
own the process. -/
structure ClaimFailure where
  error : HermesError
  redelivery : Bool
deriving DecidableEq, Repr

/-- The row of a run that a worker has claimed. -/
def startedRun (now : Time) (run : AgentRun D) : AgentRun D :=
  { run with status := .running, startedAt := some now }

/-- The part of the claim after the status checks: issue a capability and set the run running. -/
def Db.beginRun (H : Hash D) (E : Engine D) (input : ClaimInput) (runId : Uuid) (run : AgentRun D)
    (db : Db D) : Except HermesError (Db D) := do
  let control ← fetch (db.controls.get? runId) .unhandled
  let binding ← fetch (db.bindings.get? runId) .unhandled
  ensure (db.lane.activeRun = some runId ∧ ¬db.lane.admissionDisabled ∧
    ¬control.admissionDisabled) (workerFailure .dependencyUnavailable)
  db.check H E input.now run binding control none
  ensure input.clientReady (workerFailure .dependencyUnavailable)
  let lease ← fetch control.leaseExpiresAt .unhandled
  let remaining := max 1 ((lease - input.now) / seconds 1)
  let (capabilityId, db) ← orRaise (db.issueWorkflowCapability H input.now input.capabilityId
    input.token run.workflow run.eventRevision binding.actor Tool.all (min remaining 300)) .unhandled
  let capability ← fetch (db.capabilities.get? capabilityId) .unhandled
  let capabilities := db.capabilities.set capabilityId
    { capability with correlationId := some binding.correlationId }
  let controls := db.controls.set runId { control with capability := some capabilityId }
  let db ← { db with capabilities, controls }.saveRun runId (startedRun input.now run)
  db.event H runId "running" "started"

/-- The claim transaction of `_execute_hermes_run`: the token of the capability if the run is now
running under this worker, nothing if there is nothing to do. -/
def Db.claim (H : Hash D) (E : Engine D) (input : ClaimInput) (runId : Uuid) (db : Db D) :
    Except ClaimFailure (Option ℕ × Db D) :=
  if input.dbFails then .error ⟨.unhandled, false⟩
  else match db.runs.get? runId with
  | none => .error ⟨.doesNotExist, false⟩
  | some run =>
    match db.ownsRun runId run with
    | (false, db) => .ok (none, db)
    | (true, db) =>
      match run.status with
      | .running => .error ⟨workerFailure .dependencyUnavailable, true⟩
      | .queued =>
        match db.beginRun H E input runId run with
        | .ok db => .ok (some input.token, db)
        | .error e => .error ⟨e, false⟩
      | _ => .ok (none, db)

/-! ### The acceptance of a result -/

structure ProposalReference (D : Type) where
  proposalId : Uuid
  schemaId : String
  proposalDigest : D

structure Usage where
  inputTokens : ℤ
  outputTokens : ℤ
  costMicrousd : ℤ

inductive ResultStatus
  | succeeded
  | failed
  | cancelled
deriving DecidableEq, Repr

/-- A result as the client returns it: the ids of its references are canonical and their digests
well formed. A failure category that is none of the run's categories is absent. -/
structure HermesResult (D : Type) where
  runId : Text D
  workflowId : Text D
  revisionId : ℤ
  status : ResultStatus
  proposalReferences : List (ProposalReference D)
  usage : Usage
  failureCategory : Option FailureCategory

/-- `PROPOSAL_SCHEMA_ID`. -/
def proposalSchemaId : String := "urn:civicloop:schema:campaign-proposal:v1.0"

/-- `required_operations`. -/
def requiredOperations : List (DraftProvider × OperationKind) :=
  [(.eventbrite, .createEventbriteDraft), (.iterable, .createIterableEmailDraft),
    (.iterable, .createIterableReminderDraft)]

/-- The draft operations on proposals of a capability. -/
def Db.operationsOf (capability : Uuid) (db : Db D) : List (Uuid × DraftOperation D) :=
  db.operations.rows.filter fun row =>
    (db.submissions.get? row.2.proposal).any fun proposal => proposal.capability == capability

/-- A reference names an intact proposal of the capability. -/
def Db.referenceOk (H : Hash D) (capability : Uuid) (db : Db D) (reference : ProposalReference D) :
    Bool :=
  match db.submissions.get? reference.proposalId with
  | some proposal =>
    decide (proposal.capability = capability) && decide (proposal.kind = .proposal) &&
      decide (reference.schemaId = proposalSchemaId) &&
      decide (reference.proposalDigest = proposal.digest) &&
      decide (H.digest proposal.content = some proposal.digest) &&
      proposalSchema.validate H proposal.content
  | none => false

/-- An operation is on one of the proposals and has the digests of the run. -/
def Db.operationOk (H : Hash D) (run : AgentRun D) (binding : HermesRunBinding D)
    (proposalIds : List Uuid) (db : Db D) (operation : DraftOperation D) : Bool :=
  proposalIds.contains operation.proposal && decide (operation.workflow = run.workflow) &&
    decide (operation.revision = run.eventRevision) && decide (operation.actor = binding.actor) &&
    decide (operation.status = .pending) && operation.approval.isNone &&
    operation.receipt.isNone &&
    requiredOperations.contains (operation.provider, operation.operationKind) &&
    match db.submissions.get? operation.proposal with
    | some proposal =>
      match actionDigest H run.workflow run.eventRevision binding.revisionDigest operation.provider
          operation.operationKind proposal.digest with
      | some action =>
        decide (operation.actionDigest = action) &&
          decide (operationKey H run.workflow run.eventRevision binding.actor
            operation.operationKind action = some operation.idempotencyKey)
      | none => false
    | none => false

/-- `_validate_result`. An exception of another kind is an invalid output too. -/
def Db.validateResult (H : Hash D) (runId : Uuid) (run : AgentRun D) (binding : HermesRunBinding D)
    (capability : Uuid) (result : HermesResult D) (db : Db D) : Except HermesError Unit := do
  let invalid := workerFailure .invalidOutput
  ensure (result.runId = .uuid runId ∧ result.workflowId = .uuid run.workflow ∧
    result.revisionId = run.eventRevision) invalid
  ensure (result.status = .succeeded)
    (workerFailure (result.failureCategory.getD .invalidOutput))
  let proposalIds : List Uuid := result.proposalReferences.map fun reference => reference.proposalId
  ensure (proposalIds ≠ [] ∧ proposalIds.Nodup) invalid
  ensure (result.proposalReferences.all (db.referenceOk H capability)) invalid
  let operations := db.operationsOf capability
  ensure (operations.all fun row => db.operationOk H run binding proposalIds row.2) invalid
  let revision ← fetch (db.world.revisions.get? run.eventRevision) invalid
  let kind ← fetch (sourceKind revision) invalid
  ensure (kind = .manual ∨ kind = .eventbrite →
    proposalIds.length = 1 ∧ operations.length = requiredOperations.length ∧
      ∀ pair ∈ requiredOperations, pair ∈ operations.map fun row =>
        (row.2.provider, row.2.operationKind)) invalid
  ensure (Budget.cost run.modelProfile result.usage.inputTokens result.usage.outputTokens =
    .ok result.usage.costMicrousd) invalid

/-! ### The completion -/

/-- What a completion reads from the environment. -/
structure CompleteInput where
  now : Time
  revokeFails : Bool
  dbFails : Bool

/-- The row of a run whose result is accepted. -/
def acceptedRun (now : Time) (run : AgentRun D) (settlement : BudgetReservation) : AgentRun D :=
  { run with
    status := .succeeded
    finishedAt := some now
    inputTokens := settlement.settledInputTokens.getD 0
    outputTokens := settlement.settledOutputTokens.getD 0
    costMicrousd := settlement.settledCostMicrousd.getD 0 }

/-- The completion transaction of `_execute_hermes_run`. -/
def Db.complete (H : Hash D) (E : Engine D) (input : CompleteInput) (runId : Uuid) (token : ℕ)
    (result : HermesResult D) (db : Db D) : Except HermesError (Unit × Db D) := do
  ensure (¬input.dbFails) .unhandled
  let run ← fetch (db.runs.get? runId) .doesNotExist
  ensure (run.status = .running) (workerFailure .invalidOutput)
  let control ← fetch (db.controls.get? runId) .unhandled
  let binding ← fetch (db.bindings.get? runId) .unhandled
  let capabilityId ← fetch control.capability .unhandled
  let capability ← fetch (db.capabilities.get? capabilityId) .unhandled
  ensure (¬db.lane.admissionDisabled ∧ db.lane.activeRun = some runId)
    (workerFailure .dependencyUnavailable)
  db.check H E input.now run binding control (some capability)
  db.validateResult H runId run binding capabilityId result
  let quarantine := HermesError.workerFailure .dependencyUnavailable true
  ensure (¬input.revokeFails) quarantine
  let (_, db) ← orRaise (db.revokeWorkflowCapability H input.now token) quarantine
  let (settlement, budget) ← orRaise (db.budget.settleBudget runId result.usage.inputTokens
    result.usage.outputTokens) .unhandled
  let db ← { db with budget }.saveRun runId (acceptedRun input.now run settlement)
  let db ← db.event H runId "succeeded" "accepted"
  return ((), { db with lane := { db.lane with activeRun := none } })

/-! ### The end of a run -/

/-- What the end of a run reads from the environment: the clock, and whether the revocation, the
accounting or the transaction fails. -/
structure FinishInput where
  now : Time
  revokeFails : Bool
  accountingFails : Bool
  dbFails : Bool

/-- The accounting of `_terminal`: charge or release the reservation. If that fails, the
reservation stays and the lane and the control are closed. -/
def Db.account (accountingFails billable : Bool) (runId : Uuid) (db : Db D) :
    Option BudgetReservation × Db D :=
  let attempt :=
    if accountingFails then .error .integrityError
    else if billable then db.budget.chargeReservedBudget runId
    else db.budget.releaseBudget runId
  match attempt with
  | .ok (reservation, budget) => (reservation, { db with budget })
  | .error _ =>
    (none, { db with
      lane := { db.lane with admissionDisabled := true }
      controls := db.controls.modify runId fun control =>
        { control with admissionDisabled := true } })

/-- The row of a run that ends with a category. -/
def endedRun (now : Time) (run : AgentRun D) (category : FailureCategory)
    (reservation : Option BudgetReservation) : AgentRun D :=
  let usage := reservation.bind fun r => r.settledCostMicrousd.map fun c =>
    (r.settledInputTokens.getD 0, r.settledOutputTokens.getD 0, c)
  { run with
    inputTokens := usage.elim run.inputTokens (·.1)
    outputTokens := usage.elim run.outputTokens (·.2.1)
    costMicrousd := usage.elim run.costMicrousd (·.2.2)
    status := if category = .cancelled then .cancelled else .failed
    failureCategory := some category
    startedAt := some (run.startedAt.getD now)
    finishedAt := some now }

/-- `_terminal`. -/
def Db.terminal (H : Hash D) (now : Time) (accountingFails : Bool) (runId : Uuid)
    (run : AgentRun D) (category : FailureCategory) (billable : Bool) (db : Db D) :
    Except HermesError (Db D) := do
  let (reservation, db) := db.account accountingFails billable runId
  let db ← db.saveRun runId (endedRun now run category reservation)
  let db ← db.event H runId (if category = .cancelled then "cancelled" else "failed") category.value
  return { db with
    lane := { db.lane with
      activeRun := if db.lane.activeRun = some runId then none else db.lane.activeRun } }

/-- Close the lane and the control of a run. -/
def Db.closeLane (runId : Uuid) (db : Db D) : Db D :=
  { db with
    lane := { db.lane with admissionDisabled := true }
    controls := db.controls.modify runId fun control => { control with admissionDisabled := true } }

/-- The guarded revocation of the capability of a run: the new database, or nothing if it fails. -/
def Db.tryRevoke (revokeFails : Bool) (now : Time) (control : AgentRunControl) (db : Db D) :
    Option (Db D) :=
  if revokeFails then none
  else match db.revokeRecord now control with
  | .ok db => some db
  | .error _ => none

/-- Write the request to cancel to the control of a run. -/
def Db.markCancelled (now : Time) (runId : Uuid) (control : AgentRunControl) (db : Db D) : Db D :=
  { db with controls := db.controls.set runId { control with cancelRequestedAt := some now } }

/-- `cancel_hermes_run`. -/
def Db.cancelHermesRun (H : Hash D) (input : FinishInput) (runId : Uuid) (db : Db D) :
    Except HermesError (Unit × Db D) := do
  ensure (¬input.dbFails) .unhandled
  let run ← fetch (db.runs.get? runId) .doesNotExist
  match db.ownsRun runId run with
  | (false, db) => return ((), db)
  | (true, db) =>
    if run.status.active then do
      let control ← fetch (db.controls.get? runId) .unhandled
      if control.cancelRequestedAt.isSome then return ((), db)
      else do
        let db := db.markCancelled input.now runId control
        let db := match db.tryRevoke input.revokeFails input.now control with
          | some db => db
          | none => db.closeLane runId
        let db ← db.event H runId "cancel_requested" "accepted"
        if run.status = .queued then do
          let db ← db.terminal H input.now input.accountingFails runId run .cancelled false
          return ((), db)
        else return ((), db)
    else return ((), db)

/-- `_finish`: end an active run with a category. A running run is always billable, and a cleanup
that cannot be established closes the lane. -/
def Db.finish (H : Hash D) (input : FinishInput) (runId : Uuid) (category : FailureCategory)
    (billable cleanupOk : Bool) (db : Db D) : Except HermesError (Unit × Db D) := do
  ensure (¬input.dbFails) .unhandled
  let run ← fetch (db.runs.get? runId) .doesNotExist
  match db.ownsRun runId run with
  | (false, db) => return ((), db)
  | (true, db) =>
    if run.status.active then do
      let control ← fetch (db.controls.get? runId) .unhandled
      let forced := decide (run.status = .running) && !billable
      let billable := billable || forced
      let revoked := db.tryRevoke input.revokeFails input.now control
      let cleanupOk := cleanupOk && !forced && revoked.isSome
      let db := revoked.getD db
      let db := if cleanupOk then db else db.closeLane runId
      let category := if cleanupOk && control.cancelRequestedAt.isSome then .cancelled else category
      let db ← db.terminal H input.now input.accountingFails runId run category billable
      return ((), db)
    else return ((), db)

end CivicLoop
