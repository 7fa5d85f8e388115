import CivicLoop.Agents.Schema
import CivicLoop.Budget.Ledger

/-!
# The database of the agent service

The tables that the Hermes lane and the tool broker read and write, and the part of the database
that other services own (`World`): settings, the model catalog, workflows, event revisions, actors,
users and administrator sessions. The agent service only reads the latter, and it may be a different
one at every step.

Rows are keyed by their primary key, or by the run where the source has a one-to-one relation.
Timestamps that nothing reads, and the trace identifiers, are left out. The partial unique
constraint on the active Hermes run is left out too: the lane keeps it by itself.

## Main definitions

* `World` : what other services own.
* `AgentRun`, `HermesRunBinding`, `AgentRunControl`, `HermesAdmissionLane`, `HermesStartReceipt`,
  `AgentRunEvent` : the Hermes lane.
* `WorkflowCapability`, `MCPInvocation`, `MCPSubmission`, `DraftOperation` : the tool broker.
* `Db` : all tables.

## References

Source: `backend/agents/models.py`, `backend/launchloop/models.py`, `backend/identity/models.py`,
`backend/launchloop/owner_events.py`, lines 77–103.
-/

namespace CivicLoop

variable {D : Type}

/-! ### What other services own -/

/-- The settings of the Hermes lane. A number that is not an `int` is absent. -/
structure Settings where
  hermesEnabled : Bool
  hermesTimeoutSeconds : Option ℤ
  hermesMaxInferences : Option ℤ
  hermesProfileId : String
  hermesProfileRevision : ℤ

inductive ActorRole
  | operator
  | approver
deriving DecidableEq, Repr

structure DemoActor where
  role : ActorRole
  user : Option ℕ

structure User where
  isActive : Bool

inductive ProfileStatus
  | enrollmentRequired
  | active
  | recoveryRequired
  | disabled
deriving DecidableEq, Repr

structure AdministratorProfile where
  user : ℕ
  status : ProfileStatus

structure AdministratorSession where
  profile : Uuid
  mfaVerifiedAt : Option Time
  absoluteExpiresAt : Option Time
  expiresAt : Option Time
  revokedAt : Option Time
  recoveryRestricted : Bool

structure EventRevision (D : Type) where
  event : ℕ
  snapshot : Json D
  author : Text D
  sourceSnapshot : Option Uuid

inductive WorkflowStatus
  | draft
  | needsInput
  | readyForReview
  | inReview
  | approved
  | completed
deriving DecidableEq, Repr

structure Workflow (D : Type) where
  event : ℕ
  revision : ℤ
  status : WorkflowStatus
  package : Json D
  packageHash : Text D

/-- What the agent service reads and other services write. -/
structure World (D : Type) where
  settings : Settings
  catalog : Catalog
  actors : Table (Text D) DemoActor
  users : Table ℕ User
  profiles : Table Uuid AdministratorProfile
  sessions : Table Uuid AdministratorSession
  revisions : Table ℤ (EventRevision D)
  workflows : Table Uuid (Workflow D)

inductive SourceKind
  | synthetic
  | eventbrite
  | manual
  | unsupported
deriving DecidableEq, Repr

/-- `source_kind`; a snapshot that is not a dictionary raises. -/
def sourceKind (revision : EventRevision D) : Option SourceKind :=
  if revision.snapshot.isObj then
    if revision.snapshot.isTrue "synthetic" then some .synthetic
    else if revision.sourceSnapshot.isSome then some .eventbrite
    else if revision.snapshot.isTrue "owner_event" then some .manual
    else some .unsupported
  else none

variable [DecidableEq D]

/-- The actor's user is active. -/
def World.activeUser (w : World D) (actor : DemoActor) : Bool :=
  match actor.user with
  | some user => (w.users.get? user).any (·.isActive)
  | none => false

/-- `_operator`. -/
def World.operator (w : World D) (actor : DemoActor) : Bool :=
  w.activeUser actor && actor.role == .operator

/-- `owner_session`: the given session, if it is an active MFA-verified session of the actor's
user. -/
def World.ownerSession (w : World D) (now : Time) (actor : DemoActor) (sessionId : Option Uuid) :
    Option Uuid := do
  let sessionId ← sessionId
  let session ← w.sessions.get? sessionId
  let profile ← w.profiles.get? session.profile
  let user ← w.users.get? profile.user
  let expires ← session.expiresAt
  let absolute ← session.absoluteExpiresAt
  if actor.user == some profile.user && profile.status == .active && user.isActive &&
      !session.recoveryRestricted && session.revokedAt.isNone && decide (now < expires) &&
      decide (now < absolute) && session.mfaVerifiedAt.isSome then
    some sessionId
  else none

/-! ### The Hermes lane -/

inductive PrivacyMode
  | syntheticFull
  | pilotMinimized
  | disabled
deriving DecidableEq, Repr

inductive RunStatus
  | queued
  | running
  | succeeded
  | failed
  | cancelled
deriving DecidableEq, Repr

/-- The statuses of `ACTIVE`. -/
def RunStatus.active : RunStatus → Bool
  | queued | running => true
  | _ => false

inductive FailureCategory
  | budgetExhausted
  | cancelled
  | dependencyUnavailable
  | invalidOutput
  | providerUnavailable
  | timeout
deriving DecidableEq, Repr

def FailureCategory.value : FailureCategory → String
  | budgetExhausted => "budget_exhausted"
  | cancelled => "cancelled"
  | dependencyUnavailable => "dependency_unavailable"
  | invalidOutput => "invalid_output"
  | providerUnavailable => "provider_unavailable"
  | timeout => "timeout"

structure AgentRun (D : Type) where
  workflow : Uuid
  eventRevision : ℤ
  packageHash : Text D
  hermesLane : Bool
  routingPolicy : RoutingPolicy
  modelProfile : ModelProfile
  fixtureManifestId : Option String
  fixtureManifestRevision : Option ℤ
  fixtureManifestDigest : Option String
  privacyMode : PrivacyMode
  status : RunStatus
  startedAt : Option Time
  finishedAt : Option Time
  failureCategory : Option FailureCategory
  inputTokens : ℤ
  outputTokens : ℤ
  costMicrousd : ℤ

structure HermesRunBinding (D : Type) where
  actor : Text D
  ownerSession : Option Uuid
  correlationId : Uuid
  revisionDigest : D

structure AgentRunControl where
  cancelRequestedAt : Option Time
  capability : Option Uuid
  leaseExpiresAt : Option Time
  admissionDisabled : Bool

structure HermesAdmissionLane where
  activeRun : Option Uuid
  admissionDisabled : Bool

structure HermesStartReceipt (D : Type) where
  owner : ℕ
  actor : Text D
  workflow : Uuid
  revision : ℤ
  run : Uuid
deriving DecidableEq

structure AgentRunEvent (D : Type) where
  run : Uuid
  sequence : ℕ
  eventType : String
  outcome : String
  detailDigest : D

/-! ### The tool broker -/

structure WorkflowCapability (D : Type) where
  tokenDigest : D
  revisionDigest : D
  workflow : Uuid
  revision : ℤ
  actor : Text D
  tools : List Tool
  audience : String
  issuedAt : Time
  expiresAt : Time
  revokedAt : Option Time
  correlationId : Option Uuid

/-- An invocation, keyed by its request id. -/
structure MCPInvocation (D : Type) where
  capability : Uuid
  idempotencyDigest : D
  argumentDigest : D
  toolName : Tool
  result : Json D

inductive SubmissionKind
  | clarification
  | proposal
deriving DecidableEq, Repr

structure MCPSubmission (D : Type) where
  capability : Uuid
  kind : SubmissionKind
  content : Json D
  digest : D

inductive DraftProvider
  | eventbrite
  | iterable
deriving DecidableEq, Repr

def DraftProvider.value : DraftProvider → String
  | eventbrite => "eventbrite"
  | iterable => "iterable"

inductive OperationKind
  | createEventbriteDraft
  | createIterableEmailDraft
  | createIterableReminderDraft
deriving DecidableEq, Repr

def OperationKind.value : OperationKind → String
  | createEventbriteDraft => "create_eventbrite_draft"
  | createIterableEmailDraft => "create_iterable_email_draft"
  | createIterableReminderDraft => "create_iterable_reminder_draft"

/-- The only status that the table admits. -/
inductive OperationStatus
  | pending
deriving DecidableEq, Repr

structure DraftOperation (D : Type) where
  workflow : Uuid
  revision : ℤ
  actor : Text D
  proposal : Uuid
  provider : DraftProvider
  operationKind : OperationKind
  actionDigest : D
  idempotencyKey : D
  status : OperationStatus
  approval : Option Uuid
  receipt : Option (Json D)

structure AuditEvent (D : Type) where
  actor : Option (Text D)
  action : String
  targetType : String
  targetId : Text D
  details : Json D

/-! ### All tables -/

/-- The database. -/
structure Db (D : Type) where
  world : World D
  budget : Budget
  lane : HermesAdmissionLane
  runs : Table Uuid (AgentRun D)
  bindings : Table Uuid (HermesRunBinding D)
  controls : Table Uuid AgentRunControl
  receipts : Table Uuid (HermesStartReceipt D)
  events : List (AgentRunEvent D)
  capabilities : Table Uuid (WorkflowCapability D)
  submissions : Table Uuid (MCPSubmission D)
  operations : Table Uuid (DraftOperation D)
  invocations : Table Uuid (MCPInvocation D)
  audits : List (AuditEvent D)

/-- The database of a new installation: the lane is seeded, the other tables are empty. -/
def Db.initial (world : World D) : Db D where
  world
  budget := .initial
  lane := ⟨none, false⟩
  runs := .empty
  bindings := .empty
  controls := .empty
  receipts := .empty
  events := []
  capabilities := .empty
  submissions := .empty
  operations := .empty
  invocations := .empty
  audits := []

/-- The runs whose reservation must not expire: Hermes runs that are active or whose control has
admission disabled (`_expire_period_reservations`). -/
def Db.held (db : Db D) (runId : Uuid) : Bool :=
  match db.runs.get? runId with
  | some run =>
    run.hermesLane && (run.status.active || (db.controls.get? runId).any (·.admissionDisabled))
  | none => false

/-- `AuditEvent.objects.create`. -/
def Db.audit (event : AuditEvent D) (db : Db D) : Db D :=
  { db with audits := db.audits ++ [event] }

end CivicLoop
