import CivicLoop.Foundation.Calendar
import CivicLoop.Foundation.Checked
import CivicLoop.Foundation.Table
import CivicLoop.LaunchLoop.Package

/-!
# The services of the launch loop

A workflow takes an event from a draft to a completed launch: it is run, which makes a package of the
current revision; questions about missing facts are answered, which makes a new revision; the package is
submitted, which makes an approval request; and an approver decides.

Every operation is a transaction: it commits, or raises and leaves no trace. The identifiers of new rows
and the time are inputs.

## Main definitions

* `Db` : the tables.
* `resetDemo`, `runWorkflow`, `answerQuestions`, `submitWorkflow`, `decideApproval` : the operations.
-/

namespace CivicLoop.LaunchLoop

/-! ### The tables -/

inductive Role
  | operator
  | approver
deriving DecidableEq

/-- `DemoActor`, by its slug. -/
structure DemoActor where
  displayName : String
  role : Role
  user : Option ℕ
deriving DecidableEq

structure Event where
  slug : String
  title : String
deriving DecidableEq

structure EventRevision where
  event : ℕ
  version : ℕ
  snapshot : Message
  author : String
  sourceSnapshot : Option Uuid
deriving DecidableEq

/-- `Workflow.Status`. -/
inductive Status
  | draft
  | needsInput
  | readyForReview
  | inReview
  | approved
  | completed
deriving DecidableEq

structure Workflow where
  event : ℕ
  revision : ℕ
  status : Status
  package : Option Message
  packageHash : String
deriving DecidableEq

/-- `ApprovalRequest.Status`. -/
inductive ApprovalStatus
  | pending
  | approved
  | rejected
deriving DecidableEq

structure ApprovalRequest where
  workflow : Uuid
  submitter : String
  approver : Option String
  packageHash : String
  status : ApprovalStatus
  reason : String
deriving DecidableEq

structure ConnectorExecution where
  approval : Uuid
  idempotencyKey : String
  receipt : Message
deriving DecidableEq

/-- `WorkflowTransition`. The status before the first one is empty. -/
structure WorkflowTransition where
  workflow : Uuid
  actor : String
  fromStatus : Option Status
  toStatus : Status
  action : String
  details : Message
  createdAt : Time
deriving DecidableEq

/-- A result of an evaluation, with what is shown of it. -/
structure EvaluationResult where
  rubricId : String
  rubricVersion : ℤ
  outcome : String
  reasonCodes : List String
  summary : String
deriving DecidableEq

/-- `AgentRun`, with what is shown of it, its model profile, and its results, the newest first. -/
structure AgentRun where
  workflow : Uuid
  packageHash : String
  hermesLane : Bool
  createdAt : Time
  status : String
  failureCategory : String
  traceId : String
  provider : String
  model : String
  inputTokens : ℤ
  outputTokens : ℤ
  costMicrousd : ℤ
  results : List EvaluationResult
deriving DecidableEq

structure Db where
  actors : Table String DemoActor
  events : Table ℕ Event
  revisions : Table ℕ EventRevision
  workflows : Table Uuid Workflow
  approvals : Table Uuid ApprovalRequest
  executions : Table Uuid ConnectorExecution
  transitions : Table ℕ WorkflowTransition
  agentRuns : Table Uuid AgentRun

/-- What an operation raises. -/
inductive ServiceError
  | demo (code message : String) (status : ℕ)
  | notFound
  | integrity
  | protectedRow
  | keyError
  | value (code : String)
deriving DecidableEq

/-- `source_kind`. -/
inductive SourceKind
  | synthetic
  | eventbrite
  | manual
  | unsupported
deriving DecidableEq

def sourceKind (r : EventRevision) : SourceKind :=
  if r.snapshot.get? "synthetic" = some (.bool true) then .synthetic
  else if r.sourceSnapshot.isSome then .eventbrite
  else if r.snapshot.get? "owner_event" = some (.bool true) then .manual
  else .unsupported

namespace Db

/-- The database without rows. -/
def empty : Db := ⟨.empty, .empty, .empty, .empty, .empty, .empty, .empty, .empty⟩

variable (db : Db)

/-- The workflow, and its current revision. -/
def workflowOf (workflowId : Uuid) : Except ServiceError (Workflow × EventRevision) := do
  let w ← fetch (db.workflows.get? workflowId) .notFound
  let r ← fetch (db.revisions.get? w.revision) .notFound
  return (w, r)

/-- `_transition`: the new status of a workflow, and its entry in the timeline. -/
def transition (workflowId : Uuid) (actor : String) (toStatus : Status) (action : String)
    (details : Message) (transitionId : ℕ) (now : Time) : Except ServiceError Db := do
  let w ← fetch (db.workflows.get? workflowId) .notFound
  let transitions ← fetch (db.transitions.insert? transitionId
    ⟨workflowId, actor, some w.status, toStatus, action, details, now⟩) .integrity
  return { db with workflows := db.workflows.set workflowId { w with status := toStatus }, transitions }

/-- The events of the demo: those with a revision by one of its users that was not imported. -/
def demoEvents : List ℕ :=
  (db.revisions.values.filter fun r =>
    (r.author = "maya" || r.author = "jordan") && r.sourceSnapshot.isNone).map EventRevision.event

/-- The workflow is one of the demo. -/
def isDemo (workflowId : Uuid) : Bool :=
  (db.workflows.get? workflowId).any fun w => db.demoEvents.contains w.event

/-- Without the rows of the demo. -/
def withoutDemo : Db :=
  { db with
    approvals := db.approvals.deleteWhere fun a => db.isDemo a.workflow
    executions := db.executions.deleteWhere fun x =>
      (db.approvals.get? x.approval).any fun a => db.isDemo a.workflow
    transitions := db.transitions.deleteWhere fun t => db.isDemo t.workflow
    workflows := db.workflows.deleteWhere fun w => db.demoEvents.contains w.event
    revisions := db.revisions.deleteWhere fun r => db.demoEvents.contains r.event
    events := db.events.deleteKeys fun id => db.demoEvents.contains id }

/-- `DemoActor.objects.update_or_create`, for the two users of the demo. -/
def seedActors (users : ℕ × ℕ) : Db :=
  { db with
    actors := (db.actors.put "maya" ⟨"Maya Chen", .operator, some users.1⟩).put "jordan"
      ⟨"Jordan Brooks", .approver, some users.2⟩ }

end Db

/-! ### Operations -/

/-- The identifiers of the rows a reset makes. -/
structure NewIds where
  event : ℕ
  revision : ℕ
  workflow : Uuid
  transition : ℕ

/-- `reset_demo`; `users` are the accounts of the demo. Runs of an agent protect their workflow. -/
def resetDemo (users : ℕ × ℕ) (ids : NewIds) (now : Time) (db : Db) : Except ServiceError (Uuid × Db) := do
  ensure (db.agentRuns.values.all fun run => !db.isDemo run.workflow) .protectedRow
  let db := db.withoutDemo.seedActors users
  ensure (db.events.values.all fun e => e.slug ≠ "ny-youth-day") .integrity
  let events ← fetch (db.events.insert? ids.event
    ⟨"ny-youth-day", "New York International Youth Day Networking Breakfast"⟩) .integrity
  let revisions ← fetch (db.revisions.insert? ids.revision ⟨ids.event, 1, newYorkEvent, "maya", none⟩)
    .integrity
  let workflows ← fetch (db.workflows.insert? ids.workflow ⟨ids.event, ids.revision, .draft, none, ""⟩)
    .integrity
  let transitions ← fetch (db.transitions.insert? ids.transition
    ⟨ids.workflow, "maya", none, .draft, "demo_reset", .obj [("revision", .int 1)], now⟩) .integrity
  return (ids.workflow, { db with events, revisions, workflows, transitions })

def operatorRequired (message : String) : ServiceError := .demo "operator_required" message 403

def invalidWorkflowState (message : String) : ServiceError := .demo "invalid_workflow_state" message 409

def syntheticOnly (message : String) : ServiceError := .demo "synthetic_only" message 403

/-- The items of a dictionary after `update`. -/
def updateItem (items : List (String × Message)) (key : String) (value : Message) :
    List (String × Message) :=
  if items.any fun item => item.1 = key then
    items.map fun item => if item.1 = key then (key, value) else item
  else items ++ [(key, value)]

/-- `snapshot.update(answers)`. -/
def updateSnapshot (snapshot : Message) (answers : List (String × String)) : Message :=
  match snapshot with
  | .obj items => .obj (answers.foldl (fun items a => updateItem items a.1 (.lit a.2)) items)
  | j => j

/-- The facts that questions are about. -/
def requiredAnswers : List String := ["venue_name", "venue_address", "access_instructions"]

/-- `str.strip`. -/
def strip (s : String) : String :=
  String.ofList ((s.toList.dropWhile isSpace).reverse.dropWhile isSpace).reverse

section Operations

variable (py : Interpreter)

/-- The answers that are given, without the blanks around them. -/
def answeredFields (answers : Message) : List (String × String) :=
  (requiredAnswers.map fun field =>
    (field, strip (match answers.get? field with
      | some value => pyStr py value
      | none => ""))).filter fun a => a.2 ≠ ""

/-- The facts that are blank in a snapshot. -/
def missingAnswers (snapshot : Message) : List String :=
  requiredAnswers.filter fun field =>
    strip (match snapshot.get? field with
      | some value => pyStr py value
      | none => "") = ""

variable (sha256 : Message → String)

/-- `package_hash`. -/
def packageHash (package : Message) : String := sha256 package.canon

/-- The package of a revision; a fact that is missing altogether raises. Of a revision that is not
synthetic the package is `ownerPackage`. -/
def packageOf (ownerPackage : Message → Option Message) (r : EventRevision) : Option Message :=
  if sourceKind r = .synthetic then preparePackage py r.snapshot else ownerPackage r.snapshot

/-- `run_workflow`. -/
def runWorkflow (ownerPackage : Message → Option Message) (workflowId : Uuid) (actorId : String)
    (actor : DemoActor) (transitionId : ℕ) (now : Time) (db : Db) : Except ServiceError (Unit × Db) := do
  let (w, r) ← db.workflowOf workflowId
  ensure (actor.role = .operator) (operatorRequired "Only the operator can run LaunchLoop.")
  ensure (w.status = .draft) (invalidWorkflowState "LaunchLoop can only run from Draft.")
  let package ← fetch (packageOf py ownerPackage r) .keyError
  let w := { w with package := some package, packageHash := packageHash sha256 package }
  let destination := if package.get? "status" = some (.lit "ready_for_review") then .readyForReview
    else .needsInput
  let db ← ({ db with workflows := db.workflows.set workflowId w } : Db).transition workflowId actorId
    destination "launchloop_ran" (.obj [("revision", .int r.version),
      ("missing_fields", valueOf package "missing_fields")]) transitionId now
  return ((), db)

/-- `answer_questions`. -/
def answerQuestions (workflowId : Uuid) (actorId : String) (actor : DemoActor) (answers : Message)
    (revisionId transitionId : ℕ) (now : Time) (db : Db) : Except ServiceError (Unit × Db) := do
  let (w, r) ← db.workflowOf workflowId
  ensure (sourceKind r = .synthetic) (syntheticOnly "Use the owner public event facts editor.")
  ensure (actor.role = .operator) (operatorRequired "Only the operator can resolve event facts.")
  ensure (w.status = .needsInput) (invalidWorkflowState "This workflow is not waiting for input.")
  let answered := answeredFields py answers
  ensure (answered ≠ [])
    (.demo "answers_incomplete" "Save at least one event fact before continuing." 400)
  let snapshot := updateSnapshot r.snapshot answered
  let missing := missingAnswers py snapshot
  ensure (db.revisions.values.all fun r' => r'.event ≠ w.event || r'.version ≠ r.version + 1) .integrity
  let revisions ← fetch (db.revisions.insert? revisionId
    ⟨w.event, r.version + 1, snapshot, actorId, none⟩) .integrity
  let executions := db.executions.deleteWhere fun x =>
    (db.approvals.get? x.approval).any fun a => a.workflow = workflowId
  let approvals := db.approvals.deleteWhere fun a => a.workflow = workflowId
  let w := { w with revision := revisionId, package := none, packageHash := "" }
  let db ← ({ db with revisions, executions, approvals, workflows := db.workflows.set workflowId w } : Db).transition
    workflowId actorId (if missing = [] then .draft else .needsInput)
    (if missing = [] then "event_facts_resolved" else "event_facts_saved")
    (.obj [("revision", .int (r.version + 1)), ("fields", .arr (answered.map fun a => .lit a.1)),
      ("missing_fields", .arr (missing.map .lit))]) transitionId now
  return ((), db)

/-- `submit_workflow`. -/
def submitWorkflow (workflowId : Uuid) (actorId : String) (actor : DemoActor) (approvalId : Uuid)
    (transitionId : ℕ) (now : Time) (db : Db) : Except ServiceError (Uuid × Db) := do
  let (w, r) ← db.workflowOf workflowId
  ensure (actor.role = .operator) (operatorRequired "Only the operator can submit this package.")
  ensure (sourceKind r = .synthetic) (syntheticOnly "Use the owner provider request review.")
  ensure (w.status = .readyForReview ∧ w.packageHash ≠ "")
    (invalidWorkflowState "Only a review-ready package can be submitted.")
  ensure (db.approvals.values.all fun a => a.workflow ≠ workflowId) .integrity
  let approvals ← fetch (db.approvals.insert? approvalId
    ⟨workflowId, actorId, none, w.packageHash, .pending, ""⟩) .integrity
  let db ← ({ db with approvals } : Db).transition workflowId actorId .inReview "package_submitted"
    (.obj [("package_hash", .lit w.packageHash)]) transitionId now
  return (approvalId, db)

/-- The receipt of the sandbox connector. -/
def receiptOf (audienceCount : ℤ) : Message :=
  .obj [("connector", .lit "sandbox_iterable"),
    ("campaign", .lit "New York Youth Day invitation and reminder"),
    ("audience_count", .int audienceCount), ("mode", .lit "simulation"), ("external_actions", .int 0),
    ("message", .lit "Sandbox delivery recorded. No email or social post was sent.")]

/-- The members of the audience of a package. -/
def audienceCount (package : Option Message) : ℤ :=
  ((package.bind fun p => p.get? "audience").bind fun a => a.int? "member_count").getD 0

/-- The identifiers of the rows a decision makes. -/
structure DecisionIds where
  execution : Uuid
  first : ℕ
  second : ℕ

/-- A rejection: the package is dropped, and the workflow waits for input. -/
def reject (workflowId : Uuid) (w : Workflow) (actorId reason : String) (transitionId : ℕ) (now : Time)
    (db : Db) : Except ServiceError Db :=
  ({ db with workflows := db.workflows.set workflowId { w with package := none, packageHash := "" } } : Db).transition
    workflowId actorId .needsInput "package_rejected" (.obj [("reason", .lit reason)]) transitionId now

/-- An approval: the sandbox connector is executed, and the workflow is completed. -/
def approve (approvalId : Uuid) (a : ApprovalRequest) (w : Workflow) (actorId : String) (ids : DecisionIds)
    (now : Time) (db : Db) : Except ServiceError Db := do
  let db ← db.transition a.workflow actorId .approved "package_approved"
    (.obj [("package_hash", .lit a.packageHash)]) ids.first now
  let count := audienceCount w.package
  let key := "launchloop:" ++ a.packageHash
  ensure (db.executions.values.all fun x => x.approval ≠ approvalId && x.idempotencyKey ≠ key) .integrity
  let executions ← fetch (db.executions.insert? ids.execution ⟨approvalId, key, receiptOf count⟩) .integrity
  ({ db with executions } : Db).transition a.workflow actorId .completed "sandbox_receipt_recorded"
    (.obj [("connector", .lit "sandbox_iterable"), ("audience_count", .int count)]) ids.second now

/-- `decide_approval`. -/
def decideApproval (approvalId : Uuid) (actorId : String) (actor : DemoActor)
    (decision submittedHash reason : String) (ids : DecisionIds) (now : Time) (db : Db) :
    Except ServiceError (Unit × Db) := do
  let a ← fetch (db.approvals.get? approvalId)
    (.demo "approval_not_found" "The approval request does not exist." 404)
  let (w, r) ← db.workflowOf a.workflow
  ensure (sourceKind r = .synthetic) (syntheticOnly "Use the owner provider request review.")
  ensure (actorId ≠ a.submitter)
    (.demo "self_approval_forbidden" "The package submitter cannot approve their own work." 403)
  ensure (actor.role = .approver) (.demo "approver_required" "An approver persona is required." 403)
  ensure (a.status = .pending) (.demo "approval_already_decided" "This request is already decided." 409)
  ensure (submittedHash = a.packageHash)
    (.demo "package_hash_mismatch" "The package changed after review. Reload before deciding." 409)
  ensure (decision = "approve" ∨ decision = "reject")
    (.demo "invalid_decision" "Decision must be approve or reject." 400)
  let a := { a with approver := some actorId, reason := reason }
  if decision = "reject" then
    let db := { db with approvals := db.approvals.set approvalId { a with status := .rejected } }
    let db ← reject a.workflow w actorId reason ids.first now db
    return ((), db)
  else
    let db := { db with approvals := db.approvals.set approvalId { a with status := .approved } }
    let db ← approve approvalId a w actorId ids now db
    return ((), db)

end Operations

end CivicLoop.LaunchLoop
