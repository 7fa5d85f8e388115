import CivicLoop.Agents.Lane
import CivicLoop.Foundation.Transition

/-!
# The agent service as a transition system

The state is the database and the workers that hold a delivery of a run. A worker moves through the
claim, the remote call, the completion, and on any error through the remote cancellation and the end
of the run; it may stop at any point. Deliveries are not tied to admissions: a run may be delivered
late, never or more than once. Admissions, cancellations, failed dispatches, expiry, tool calls and
the issue of capabilities may fall between any two steps of a worker, and the world outside the
service may change at any time.

## Main definitions

* `WorkerPhase` : where a worker stands.
* `Agents.State`, `Agents.Action`, `Agents.step` : the transition system.

## References

Source: `backend/agents/tasks.py`, lines 325–331 and 546–700.
-/

namespace CivicLoop.Agents

variable {D : Type} [DecidableEq D]

/-- Where a worker stands: before its claim, in the remote call, before the completion, in the
handler before the remote cancellation, or before the end of the run. -/
inductive WorkerPhase (D : Type)
  | claiming
  | calling (token : ℕ)
  | completing (token : ℕ) (result : HermesResult D)
  | failing (error : HermesError) (billable redelivery : Bool)
  | finishing (category : FailureCategory) (billable cleanupOk : Bool)

/-- A worker holds a delivery of one run. -/
structure Worker (D : Type) where
  runId : Uuid
  phase : WorkerPhase D

/-- The state of the service. -/
structure State (D : Type) where
  db : Db D
  workers : Table ℕ (Worker D)

/-- The initial states: a new installation, without workers. -/
def Initial (s : State D) : Prop := ∃ world, s = ⟨.initial world, .empty⟩

/-- The outcome of the remote call: a result or a category. -/
inductive ClientOutcome (D : Type)
  | returns (result : HermesResult D)
  | raises (category : FailureCategory)

/-- One step of the service or of its environment. -/
inductive Action (D : Type)
  | changeWorld (world : World D)
  | queue (input : QueueInput) (workflowId : Uuid) (revisionId : ℤ) (actorSlug : Text D)
      (ownerSessionId : Option Uuid)
  | start (input : QueueInput) (request : StartRequest D)
  | dispatchFails (input : FinishInput) (runId : Uuid)
  | deliver (worker : ℕ) (runId : Uuid)
  | claim (worker : ℕ) (input : ClaimInput)
  | clientCall (worker : ℕ) (outcome : ClientOutcome D)
  | complete (worker : ℕ) (input : CompleteInput)
  | clientCancel (worker : ℕ) (ok : Bool)
  | finish (worker : ℕ) (input : FinishInput)
  | crash (worker : ℕ)
  | cancel (input : FinishInput) (runId : Uuid)
  | expire (now : Time)
  | issueCapability (now : Time) (id : Uuid) (token : ℕ) (workflowId : Uuid) (revisionId : ℤ)
      (actorId : Text D) (tools : List Tool) (lifetimeSeconds : ℤ)
  | revokeCapability (now : Time) (token : ℕ)
  | tool (call : ToolCall D)

/-- The category of an exception in the handler of `_execute_hermes_run`. -/
def errorCategory : HermesError → FailureCategory
  | .workerFailure category _ => category
  | _ => .dependencyUnavailable

def errorQuarantine : HermesError → Bool
  | .workerFailure _ quarantine => quarantine
  | _ => false

/-- The phase after an exception; a missing run ends the worker. -/
def failingPhase (error : HermesError) (billable redelivery : Bool) : Option (WorkerPhase D) :=
  if error = .doesNotExist then none else some (.failing error billable redelivery)

/-- The claim of a worker: the database and the next phase. -/
def claimStep (H : Hash D) (E : Engine D) (input : ClaimInput) (runId : Uuid) (db : Db D) :
    Db D × Option (WorkerPhase D) :=
  match db.claim H E input runId with
  | .ok (some token, db') => (db', some (.calling token))
  | .ok (none, db') => (db', none)
  | .error failure => (db, failingPhase failure.error failure.redelivery failure.redelivery)

/-- The completion of a worker: the database and the next phase. -/
def completeStep (H : Hash D) (E : Engine D) (input : CompleteInput) (runId : Uuid) (token : ℕ)
    (result : HermesResult D) (db : Db D) : Db D × Option (WorkerPhase D) :=
  match db.complete H E input runId token result with
  | .ok ((), db') => (db', none)
  | .error error => (db, failingPhase error true false)

/-- The phase after the remote cancellation, which is only asked for if the run is billable. -/
def cancelledPhase (error : HermesError) (billable redelivery ok : Bool) : WorkerPhase D :=
  .finishing (errorCategory error) billable
    (!billable || (ok && !redelivery && !errorQuarantine error))

/-- Remove a worker. -/
def dropWorker (worker : ℕ) (workers : Table ℕ (Worker D)) : Table ℕ (Worker D) :=
  ⟨workers.rows.filter fun row => row.1 != worker, workers.nodup.sublist (List.filter_sublist.map _)⟩

/-- Move a worker to its next phase, or end it. -/
def setPhase (worker : ℕ) (runId : Uuid) (phase : Option (WorkerPhase D))
    (workers : Table ℕ (Worker D)) : Table ℕ (Worker D) :=
  match phase with
  | some phase => workers.set worker ⟨runId, phase⟩
  | none => dropWorker worker workers

/-- A step of the worker `worker`: what it does in its phase, if the action is the one of the
phase. -/
def workerStep (H : Hash D) (E : Engine D) (worker : Worker D) (db : Db D) :
    Action D → Option (Db D × Option (WorkerPhase D))
  | .claim _ input =>
    match worker.phase with
    | .claiming => some (claimStep H E input worker.runId db)
    | _ => none
  | .clientCall _ outcome =>
    match worker.phase, outcome with
    | .calling token, .returns result => some (db, some (.completing token result))
    | .calling _, .raises category => some (db, some (.failing (workerFailure category) true false))
    | _, _ => none
  | .complete _ input =>
    match worker.phase with
    | .completing token result => some (completeStep H E input worker.runId token result db)
    | _ => none
  | .clientCancel _ ok =>
    match worker.phase with
    | .failing error billable redelivery =>
      some (db, some (cancelledPhase error billable redelivery ok))
    | _ => none
  | .finish _ input =>
    match worker.phase with
    | .finishing category billable cleanupOk =>
      some (commit db (db.finish H input worker.runId category billable cleanupOk), none)
    | _ => none
  | _ => none

/-- The worker that an action is about. -/
def Action.worker? : Action D → Option ℕ
  | .claim worker _ | .clientCall worker _ | .complete worker _ | .clientCancel worker _
  | .finish worker _ => some worker
  | _ => none

/-- The database after an action that is not one of a worker. -/
def serviceStep (H : Hash D) (E : Engine D) (db : Db D) : Action D → Db D
  | .changeWorld world => { db with world }
  | .queue input workflowId revisionId actorSlug ownerSessionId =>
    commit db (db.queueHermesRun H E input workflowId revisionId actorSlug ownerSessionId)
  | .start input request => commit db (db.startHermesRun H E input request)
  | .dispatchFails input runId =>
    commit db (db.finish H input runId .dependencyUnavailable false true)
  | .cancel input runId => commit db (db.cancelHermesRun H input runId)
  | .expire now =>
    match db.budget.expireReservations db.held now with
    | .ok (_, budget) => { db with budget }
    | .error _ => db
  | .issueCapability now id token workflowId revisionId actorId tools lifetimeSeconds =>
    commit db (db.issueWorkflowCapability H now id token workflowId revisionId actorId tools
      lifetimeSeconds)
  | .revokeCapability now token => commit db (db.revokeWorkflowCapability H now token)
  | .tool call => (db.dispatchMcpTool H call).2
  | _ => db

/-- The transition function. -/
def step (H : Hash D) (E : Engine D) (s : State D) (a : Action D) : State D :=
  match a with
  | .deliver worker runId =>
    match s.workers.insert? worker ⟨runId, .claiming⟩ with
    | some workers => { s with workers }
    | none => s
  | .crash worker => { s with workers := dropWorker worker s.workers }
  | a =>
    match a.worker? with
    | none => { s with db := serviceStep H E s.db a }
    | some id =>
      match s.workers.get? id with
      | none => s
      | some worker =>
        match workerStep H E worker s.db a with
        | none => s
        | some (db, phase) => ⟨db, setPhase id worker.runId phase s.workers⟩

end CivicLoop.Agents
