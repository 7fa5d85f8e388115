import CivicLoop.Foundation.DateTime
import CivicLoop.LaunchLoop.Services
import Mathlib

/-!
# What a user of the demo sees

The state of the demo is the state of one workflow: the one stored in the session, or else the first of
the table, which also holds the workflows of the owner's events.

## Main definitions

* `serializeDemo` : the state of a workflow.
* `demoState` : the answer to a request of a user who is not an administrator.
* `startManualEvent` : an event of the owner.
-/

namespace CivicLoop.LaunchLoop

/-! ### Texts -/

def Role.value : Role → String
  | operator => "operator"
  | approver => "approver"

def Status.value : Status → String
  | draft => "draft"
  | needsInput => "needs_input"
  | readyForReview => "ready_for_review"
  | inReview => "in_review"
  | approved => "approved"
  | completed => "completed"

def ApprovalStatus.value : ApprovalStatus → String
  | pending => "pending"
  | approved => "approved"
  | rejected => "rejected"

def SourceKind.value : SourceKind → String
  | synthetic => "synthetic"
  | eventbrite => "eventbrite"
  | manual => "manual"
  | unsupported => "unsupported"

/-- A text, or `None` when it is empty. -/
def orNone (s : String) : Message := if s = "" then .null else .lit s

/-- A text, or `None`. -/
def optional (s : Option String) : Message := (s.map .lit).getD .null

/-! ### Queries -/

namespace Db

variable (db : Db)

/-- `DemoActor.objects.order_by("role", "slug")`. -/
def actorsByRole : List (String × DemoActor) :=
  db.actors.sortedRows.insertionSort fun a b => a.2.role.value ≤ b.2.role.value

/-- `ApprovalRequest.objects.filter(workflow=workflow).first()`. -/
def approvalOf (workflowId : Uuid) : Option (Uuid × ApprovalRequest) :=
  (db.approvals.sortedRows.filter fun row => row.2.workflow = workflowId).head?

/-- `ConnectorExecution.objects.filter(approval=approval).first()`. -/
def executionOf (approvalId : Uuid) : Option (Uuid × ConnectorExecution) :=
  (db.executions.sortedRows.filter fun row => row.2.approval = approvalId).head?

/-- The newest run of an agent for the package of a workflow. -/
def latestRun (workflowId : Uuid) (packageHash : String) : Option (Uuid × AgentRun) :=
  (((db.agentRuns.sortedRows.filter fun row => row.2.workflow = workflowId).filter fun row =>
    row.2.packageHash = packageHash && !row.2.hermesLane).insertionSort fun a b =>
      b.2.createdAt ≤ a.2.createdAt).head?

/-- `workflow.transitions.order_by("created_at", "id")`. -/
def timelineOf (workflowId : Uuid) : List (ℕ × WorkflowTransition) :=
  (db.transitions.sortedRows.filter fun row => row.2.workflow = workflowId).insertionSort fun a b =>
    a.2.createdAt ≤ b.2.createdAt

/-- `Workflow.objects.first()`. -/
def firstWorkflow : Option Uuid := (db.workflows.sortedRows.map Prod.fst).head?

end Db

/-! ### The state of a workflow -/

/-- The state of an evaluation. -/
def evaluationState (run : AgentRun) : String :=
  if run.status = "queued" ∨ run.status = "running" then "pending"
  else match run.status, run.results.head? with
    | "succeeded", some result => if result.outcome = "passed" then "passed" else "failed"
    | _, _ =>
      if run.failureCategory = "budget_exhausted" then "denied"
      else if ["dependency_unavailable", "provider_unavailable", "timeout"].contains run.failureCategory then
        "unavailable"
      else "failed"

def serializeEvaluation (runId : Uuid) (run : AgentRun) : Message :=
  let result := run.results.head?
  .obj [("state", .lit (evaluationState run)), ("run_id", .str (.uuid runId)),
    ("trace_id", .lit run.traceId),
    ("rubric_id", .lit (result.elim "launchloop_package_quality" EvaluationResult.rubricId)),
    ("rubric_version", .int (result.elim 1 EvaluationResult.rubricVersion)),
    ("risk_labels", .arr ((result.elim [] EvaluationResult.reasonCodes).map .lit)),
    ("summary", .lit (result.elim "" EvaluationResult.summary)),
    ("provider", .lit run.provider), ("model", .lit run.model),
    ("input_tokens", .int run.inputTokens), ("output_tokens", .int run.outputTokens),
    ("cost_microusd", .int run.costMicrousd), ("failure_category", orNone run.failureCategory),
    ("advisory_only", .bool true)]

def serializeApproval (id : Uuid) (a : ApprovalRequest) : Message :=
  .obj [("id", .str (.uuid id)), ("status", .lit a.status.value), ("package_hash", .lit a.packageHash),
    ("submitter", .lit a.submitter), ("approver", optional a.approver), ("reason", .lit a.reason)]

def serializeExecution (id : Uuid) (x : ConnectorExecution) : Message :=
  .obj [("id", .str (.uuid id)), ("status", .lit "delivered"), ("receipt", x.receipt)]

def serializeTransition (id : ℕ) (t : WorkflowTransition) (actor : DemoActor) : Message :=
  .obj [("id", .int id), ("actor", .lit actor.displayName), ("action", .lit t.action),
    ("from_status", .lit ((t.fromStatus.map Status.value).getD "")), ("to_status", .lit t.toStatus.value),
    ("details", t.details), ("created_at", .lit (isoformat t.createdAt))]

/-- `serialize_demo`, of a workflow. -/
def serializeDemo (db : Db) (workflowId : Uuid) : Except ServiceError Message := do
  let (w, r) ← db.workflowOf workflowId
  let event ← fetch (db.events.get? w.event) .notFound
  let approval := db.approvalOf workflowId
  let execution := approval.bind fun a => db.executionOf a.1
  let latestRun := if w.packageHash = "" then none else db.latestRun workflowId w.packageHash
  let timeline ← (db.timelineOf workflowId).mapM fun row => do
    let actor ← fetch (db.actors.get? row.2.actor) .notFound
    return serializeTransition row.1 row.2 actor
  return .obj [
    ("deployment_mode", .lit "server"),
    ("actors", .arr (db.actorsByRole.map fun row => .obj [("slug", .lit row.1),
      ("display_name", .lit row.2.displayName), ("role", .lit row.2.role.value)])),
    ("event", .obj [("id", .lit event.slug), ("title", .lit event.title),
      ("revision", .obj [("id", .int w.revision), ("version", .int r.version), ("facts", r.snapshot),
        ("author", .lit r.author), ("source_kind", .lit (sourceKind r).value)])]),
    ("workflow", .obj [("id", .str (.uuid workflowId)), ("status", .lit w.status.value),
      ("package", w.package.getD .null), ("package_hash", orNone w.packageHash)]),
    ("approval", (approval.map fun a => serializeApproval a.1 a.2).getD .null),
    ("execution", (execution.map fun x => serializeExecution x.1 x.2).getD .null),
    ("evaluation", (latestRun.map fun run => serializeEvaluation run.1 run.2).getD .null),
    ("timeline", .arr timeline)]

/-! ### The request -/

/-- A request without a session of an administrator: the user, if one is signed in, and the workflow that
the session has stored. -/
structure DemoRequest where
  user : Option ℕ
  storedWorkflow : Option Uuid

/-- `_actor`, without a session of an administrator. -/
def actorOf (request : DemoRequest) (db : Db) : Except ServiceError (String × DemoActor) := do
  let user ← fetch request.user
    (.demo "authentication_required" "Sign in to use the demo workspace." 401)
  fetch (db.actors.sortedRows.find? fun row => row.2.user = some user)
    (.demo "demo_role_not_found" "This account is not assigned to the seeded demo workspace." 403)

/-- `current_workflow`. -/
def currentWorkflow (users : ℕ × ℕ) (ids : NewIds) (now : Time) (db : Db) :
    Except ServiceError (Uuid × Db) :=
  match db.firstWorkflow with
  | some id => .ok (id, db)
  | none => resetDemo users ids now db

/-- `workflow_for`, for the workflow of the session. -/
def storedWorkflow (id : Uuid) (db : Db) : Except ServiceError (Uuid × Db) := do
  let _ ← fetch (db.workflows.get? id) (.demo "workflow_not_found" "The workflow does not exist." 404)
  return (id, db)

/-- `demo_state`: the workflow that is shown, and its state. -/
def demoState (users : ℕ × ℕ) (ids : NewIds) (now : Time) (request : DemoRequest) (db : Db) :
    Except ServiceError ((Uuid × Message) × Db) := do
  let _ ← actorOf request db
  let (id, db) ← match request.storedWorkflow with
    | some id => storedWorkflow id db
    | none => currentWorkflow users ids now db
  let state ← serializeDemo db id
  return ((id, state), db)

/-! ### Events of the owner -/

/-- `FACT_FIELDS`. -/
def factFields : List String :=
  ["title", "date", "start_time", "end_time", "timezone", "city", "region", "country", "venue_name",
    "venue_address", "access_instructions", "signup_url"]

/-- `start_manual_event`; `facts` are those of the request, validated, and `suffix` is the random part of
the slug. -/
def startManualEvent (facts : List (String × String)) (suffix actorId : String) (ids : NewIds) (now : Time)
    (db : Db) : Except ServiceError (Uuid × Db) := do
  let fact (key : String) := (facts.lookup key).getD ""
  ensure (fact "title" ≠ "" ∧ fact "date" ≠ "" ∧ fact "timezone" ≠ "") (.value "invalid_event_brief")
  let snapshot : Message :=
    .obj ((factFields.map fun key => (key, .lit (fact key))) ++ [("owner_event", .bool true)])
  ensure (db.events.values.all fun e => e.slug ≠ "manual-" ++ suffix) .integrity
  let events ← fetch (db.events.insert? ids.event ⟨"manual-" ++ suffix, fact "title"⟩) .integrity
  let revisions ← fetch (db.revisions.insert? ids.revision ⟨ids.event, 1, snapshot, actorId, none⟩) .integrity
  let workflows ← fetch (db.workflows.insert? ids.workflow ⟨ids.event, ids.revision, .draft, none, ""⟩)
    .integrity
  let transitions ← fetch (db.transitions.insert? ids.transition
    ⟨ids.workflow, actorId, none, .draft, "manual_event_started", .obj [("revision", .int 1)], now⟩) .integrity
  return (ids.workflow, { db with events, revisions, workflows, transitions })

end CivicLoop.LaunchLoop
