import CivicLoop.LaunchLoop.DemoState
import CivicLoop.LaunchLoop.FourEyes
import Mathlib

/-!
# The runs of the judge

Two lanes store their runs in one table. The judge makes a run for the package of a workflow unless the newest
run of the workflow is for this package already; the state of the demo shows the newest run for the package
that is not of the Hermes lane. The lookup of the judge does not ask for the lane, so that it may find a run
of Hermes.

A transaction takes time, so that no two runs are made in the same microsecond. How a judged run ends is an
input.

## Main definitions

* `newestRun`, `runFixedJudge` : the judge.
* `LaneAction`, `laneStep` : the two lanes and the services.
* `Evaluated`, `JudgedWell` : what a call of the judge should return, and what a run of the system should keep.
* `ClearCalls` : no call of the judge finds a run of Hermes for the package.
* `Held` : what the judge returns again while the package is the same.

## Main results

* `runFixedJudge_cases` : a call returns the newest run, or makes one.
* `evaluated_iff` : the run returned is an evaluation if the call is clear.
* `judgedWell_iff` : a run of the system is judged well if and only if its calls are clear.
-/

namespace CivicLoop.LaunchLoop

/-! ### The judge -/

/-- What changes of a run after it was made: the fields that do not bind it. -/
structure Progress where
  status : String
  failureCategory : String
  traceId : String
  inputTokens : ℤ
  outputTokens : ℤ
  costMicrousd : ℤ
  results : List EvaluationResult

/-- `AgentRun.save`, which keeps the binding of the run. -/
def AgentRun.progress (run : AgentRun) (p : Progress) : AgentRun :=
  { run with
    status := p.status
    failureCategory := p.failureCategory
    traceId := p.traceId
    inputTokens := p.inputTokens
    outputTokens := p.outputTokens
    costMicrousd := p.costMicrousd
    results := p.results }

/-- A new run of a lane for the package of a workflow. -/
def newRun (hermesLane : Bool) (workflowId : Uuid) (w : Workflow) (provider model traceId : String) (now : Time) :
    AgentRun where
  workflow := workflowId
  packageHash := w.packageHash
  hermesLane := hermesLane
  createdAt := now
  status := "queued"
  failureCategory := ""
  traceId := traceId
  provider := provider
  model := model
  inputTokens := 0
  outputTokens := 0
  costMicrousd := 0
  results := []

/-- What a call of the judge takes from outside: the key and the trace of a new run, the profile, how the run is
left, and whether the call returns it or raises an exception that it does not catch. -/
structure JudgeCall where
  workflowId : Uuid
  runId : Uuid
  provider : String
  model : String
  traceId : String
  outcome : Progress
  returns : Bool

namespace Db

variable (db : Db)

/-- `workflow.agent_runs.order_by("-created_at").first()`. -/
def newestRun (workflowId : Uuid) : Option (Uuid × AgentRun) :=
  ((db.agentRuns.sortedRows.filter fun row => row.2.workflow = workflowId).insertionSort fun a b =>
    b.2.createdAt ≤ a.2.createdAt).head?

/-- The newest run of a workflow, if it is for its package. -/
def existingRun (workflowId : Uuid) (w : Workflow) : Option (Uuid × AgentRun) :=
  (db.newestRun workflowId).filter fun row => row.2.packageHash = w.packageHash

end Db

/-- `run_fixed_judge`: the ID of the run that is returned, if any. It is no transaction: a new run stays when an
exception leaves the call. -/
def runFixedJudge (call : JudgeCall) (now : Time) (db : Db) : Except ServiceError (Option Uuid × Db) := do
  let (w, r) ← db.workflowOf call.workflowId
  ensure ((w.package.any fun package => package != .null && package != .obj []) = true ∧ w.packageHash ≠ "")
    (.value "evaluation_package_unavailable")
  ensure (r.snapshot.get? "synthetic" = some (.bool true)) (.value "evaluation_synthetic_only")
  match db.existingRun call.workflowId w with
  | some existing => return (some existing.1, db)
  | none =>
    let run := newRun false call.workflowId w call.provider call.model call.traceId now
    let agentRuns ← fetch (db.agentRuns.insert? call.runId run) .integrity
    return (if call.returns then some call.runId else none,
      { db with agentRuns := agentRuns.set call.runId (run.progress call.outcome) })

/-! ### The system -/

/-- What happens: a request to the services, an admitted run of Hermes, the progress of a run, or a call of the
judge. -/
inductive LaneAction
  | request (request : Request)
  | queueHermes (workflowId runId : Uuid) (provider model : String)
  | progress (runId : Uuid) (p : Progress)
  | judge (call : JudgeCall)

/-- The tables, and the time of the last change. -/
structure LaneState where
  clock : Time
  db : Db

section System

variable (py : Interpreter) (sha256 : Message → String) (ownerPackage : Message → Option Message)

/-- The row of `queue_hermes_run`, of a workflow that is ready; its other checks only refuse more. -/
def queueHermes (workflowId runId : Uuid) (provider model : String) (now : Time) (db : Db) :
    Except ServiceError (Unit × Db) := do
  let w ← fetch (db.workflows.get? workflowId) .notFound
  let package ← fetch w.package .notFound
  ensure ((w.status = .readyForReview ∨ w.status = .inReview) ∧
    package.get? "status" = some (.lit "ready_for_review") ∧ packageHash sha256 package = w.packageHash) .notFound
  let run := newRun true workflowId w provider model "00000000000000000000000000000000" now
  let agentRuns ← fetch (db.agentRuns.insert? runId run) .integrity
  return ((), { db with agentRuns })

/-- The transaction of an action. -/
def perform (now : Time) (db : Db) : LaneAction → Except ServiceError (Unit × Db)
  | .request request => handle py sha256 ownerPackage now request db
  | .queueHermes workflowId runId provider model => queueHermes sha256 workflowId runId provider model now db
  | .progress runId p => .ok ((), { db with agentRuns := db.agentRuns.modify runId (·.progress p) })
  | .judge call => (runFixedJudge call now db).map fun r => ((), r.2)

/-- The time of an action that comes `wait` microseconds after the earliest moment. -/
def LaneState.next (s : LaneState) (wait : ℕ) : Time := s.clock + wait + 1

/-- One action. -/
def laneStep (s : LaneState) (action : ℕ × LaneAction) : LaneState :=
  ⟨s.next action.1, commit s.db (perform py sha256 ownerPackage (s.next action.1) s.db action.2)⟩

end System

/-! ### The newest run -/

section Newest

variable {α : Type} {key : α → ℤ} {l : List α} {a : α}

theorem head?_newest (h : (l.insertionSort fun a b => key b ≤ key a).head? = some a) :
    a ∈ l ∧ ∀ b ∈ l, key b ≤ key a := by
  have hsorted : (l.insertionSort fun a b => key b ≤ key a).Pairwise fun a b => key b ≤ key a := by
    have : Std.Total fun a b : α => key b ≤ key a := ⟨fun a b => le_total (key b) (key a)⟩
    have : IsTrans α fun a b => key b ≤ key a := ⟨fun a b c hab hbc => hbc.trans hab⟩
    exact List.pairwise_insertionSort _ l
  cases hl : l.insertionSort fun a b => key b ≤ key a with
  | nil =>
    rw [hl] at h
    cases h
  | cons x xs =>
    rw [hl] at h hsorted
    obtain rfl := Option.some.inj h
    rw [List.pairwise_cons] at hsorted
    have hmem : ∀ b, b ∈ l ↔ b = x ∨ b ∈ xs := by
      intro b
      rw [← List.mem_insertionSort fun a b => key b ≤ key a, hl, List.mem_cons]
    refine ⟨(hmem x).2 (.inl rfl), fun b hb => ?_⟩
    obtain rfl | hb := (hmem b).1 hb
    · exact le_rfl
    · exact hsorted.1 b hb

theorem head?_newest_of_max (ha : a ∈ l) (hmax : ∀ b ∈ l, key a ≤ key b → b = a) :
    (l.insertionSort fun a b => key b ≤ key a).head? = some a := by
  cases hhead : (l.insertionSort fun a b => key b ≤ key a).head? with
  | none =>
    rw [List.head?_eq_none_iff] at hhead
    have hmem := (List.mem_insertionSort fun a b => key b ≤ key a).2 ha
    rw [hhead] at hmem
    cases hmem
  | some b =>
    obtain ⟨hb, hle⟩ := head?_newest hhead
    rw [hmax b hb (hle a ha)]

end Newest

/-! ### What an action does to the runs -/

/-- The fields that bind a run are the same. -/
structure SameBinding (run run' : AgentRun) : Prop where
  workflow : run'.workflow = run.workflow
  packageHash : run'.packageHash = run.packageHash
  hermesLane : run'.hermesLane = run.hermesLane
  createdAt : run'.createdAt = run.createdAt

theorem SameBinding.refl (run : AgentRun) : SameBinding run run := ⟨rfl, rfl, rfl, rfl⟩

theorem sameBinding_progress (run : AgentRun) (p : Progress) : SameBinding run (run.progress p) :=
  ⟨rfl, rfl, rfl, rfl⟩

/-- The runs after an action: those there were, bound as before, and at most the one with the binding `added`. -/
structure Grows (runs runs' : Table Uuid AgentRun) (added : Option (Uuid × AgentRun)) : Prop where
  kept : ∀ id run, runs.get? id = some run → ∃ run', runs'.get? id = some run' ∧ SameBinding run run'
  origin : ∀ id run', runs'.get? id = some run' →
    (∃ run, runs.get? id = some run ∧ SameBinding run run') ∨
      ∃ run, added = some (id, run) ∧ runs.get? id = none ∧ SameBinding run run'

theorem Grows.refl (runs : Table Uuid AgentRun) : Grows runs runs none :=
  ⟨fun _ run h => ⟨run, h, .refl run⟩, fun _ run h => .inl ⟨run, h, .refl run⟩⟩

theorem Grows.modify (runs : Table Uuid AgentRun) (runId : Uuid) (p : Progress) :
    Grows runs (runs.modify runId (·.progress p)) none := by
  constructor
  · intro id run h
    rw [Table.get?_modify]
    split_ifs with heq
    · subst heq
      exact ⟨run.progress p, by rw [h]; rfl, sameBinding_progress run p⟩
    · exact ⟨run, h, .refl run⟩
  · intro id run' h
    rw [Table.get?_modify] at h
    split_ifs at h with heq
    · subst heq
      obtain ⟨run, hrun, rfl⟩ := Option.map_eq_some_iff.1 h
      exact .inl ⟨run, hrun, sameBinding_progress run p⟩
    · exact .inl ⟨run', h, .refl run'⟩

/-- A row is added, and may be written at once. -/
theorem Grows.insert {runs runs' runs'' : Table Uuid AgentRun} {runId : Uuid} {run run' : AgentRun}
    (h : runs.insert? runId run = some runs') (hbinding : SameBinding run run')
    (hget : ∀ id, runs''.get? id = if id = runId then some run' else runs.get? id) :
    Grows runs runs'' (some (runId, run)) := by
  have hnew := (Table.insert?_eq_some h).1
  constructor
  · intro id r hr
    have hne : id ≠ runId := by
      rintro rfl
      rw [hnew] at hr
      cases hr
    exact ⟨r, by rw [hget, if_neg hne, hr], .refl r⟩
  · intro id r hr
    rw [hget] at hr
    split_ifs at hr with heq
    · subst heq
      obtain rfl := Option.some.inj hr
      exact .inr ⟨run, rfl, hnew, hbinding⟩
    · exact .inl ⟨r, hr, .refl r⟩

section Effects

variable {py : Interpreter} {sha256 : Message → String} {ownerPackage : Message → Option Message}
variable {db db' : Db} {now : Time}

/-- The services leave the runs alone. -/
theorem agentRuns_of_handle {request : Request} {u : Unit}
    (h : handle py sha256 ownerPackage now request db = .ok (u, db')) : db'.agentRuns = db.agentRuns := by
  cases request with
  | reset users ids =>
    obtain ⟨v, h⟩ := ok_of_map (f := fun _ => ()) h
    obtain ⟨_, _, _, _, -, -, rfl⟩ := resetDemo_eq_ok h
    rfl
  | run workflowId actorId transitionId =>
    obtain ⟨actor, -, h⟩ := bind_eq_ok.1 h
    obtain ⟨_, _, _, _, -, -, -, -, rfl⟩ := runWorkflow_eq_ok h
    rfl
  | answer workflowId actorId answers revisionId transitionId =>
    obtain ⟨actor, -, h⟩ := bind_eq_ok.1 h
    obtain ⟨_, _, _, _, _, -, -, -, -, -, rfl⟩ := answerQuestions_eq_ok h
    rfl
  | submit workflowId actorId approvalId transitionId =>
    obtain ⟨actor, -, h⟩ := bind_eq_ok.1 h
    obtain ⟨v, h⟩ := ok_of_map (f := fun _ => ()) h
    obtain ⟨_, _, _, _, -, -, -, -, -, -, rfl⟩ := submitWorkflow_eq_ok h
    rfl
  | decide approvalId actorId decision submittedHash reason ids =>
    obtain ⟨actor, -, h⟩ := bind_eq_ok.1 h
    obtain ⟨_, _, _, _, -, -, -, -, -, -, -, rfl | ⟨_, _, _, -, -, rfl⟩⟩ := decideApproval_eq_ok h
    · rfl
    · rfl

theorem queueHermes_eq_ok {workflowId runId : Uuid} {provider model : String} {u : Unit}
    (h : queueHermes sha256 workflowId runId provider model now db = .ok (u, db')) :
    ∃ w agentRuns, ∃ traceId : String, db.workflows.get? workflowId = some w ∧
      db.agentRuns.insert? runId (newRun true workflowId w provider model traceId now) = some agentRuns ∧
      db' = { db with agentRuns } := by
  obtain ⟨w, hw, h⟩ := bind_eq_ok.1 h
  obtain ⟨package, -, h⟩ := bind_eq_ok.1 h
  obtain ⟨-, -, h⟩ := bind_eq_ok.1 h
  obtain ⟨agentRuns, hruns, h⟩ := bind_eq_ok.1 h
  obtain ⟨-, rfl⟩ := Prod.mk.inj (pure_eq_ok.1 h)
  exact ⟨w, agentRuns, _, fetch_eq_ok.1 hw, fetch_eq_ok.1 hruns, rfl⟩

end Effects

/-- The workflow has a package, of a revision that is synthetic. -/
def Judgeable (db : Db) (workflowId : Uuid) (w : Workflow) : Prop :=
  ∃ r, db.workflowOf workflowId = .ok (w, r) ∧
    ((w.package.any fun package => package != .null && package != .obj []) = true ∧ w.packageHash ≠ "") ∧
    r.snapshot.get? "synthetic" = some (.bool true)

theorem Judgeable.get {db : Db} {workflowId : Uuid} {w : Workflow} (h : Judgeable db workflowId w) :
    db.workflows.get? workflowId = some w := by
  obtain ⟨r, hwr, -⟩ := h
  exact (workflowOf_eq_ok hwr).1

/-- The database with the run of a call, as the call leaves it. -/
def Db.judged (db : Db) (call : JudgeCall) (w : Workflow) (now : Time) (agentRuns : Table Uuid AgentRun) : Db :=
  { db with
    agentRuns := agentRuns.set call.runId
      ((newRun false call.workflowId w call.provider call.model call.traceId now).progress call.outcome) }

section Judge

variable {db db' : Db} {call : JudgeCall} {now : Time} {w : Workflow}

theorem runFixedJudge_existing {row : Uuid × AgentRun} (hw : Judgeable db call.workflowId w)
    (h : db.existingRun call.workflowId w = some row) : runFixedJudge call now db = .ok (some row.1, db) := by
  obtain ⟨r, hwr, hpackage, hsynthetic⟩ := hw
  simp only [runFixedJudge, hwr, ok_bind]
  rw [ensure_bind hpackage, ensure_bind hsynthetic, h]
  rfl

theorem runFixedJudge_new (hw : Judgeable db call.workflowId w) (h : db.existingRun call.workflowId w = none)
    (hreturns : call.returns = true) (hnew : db.agentRuns.get? call.runId = none) :
    ∃ agentRuns, runFixedJudge call now db = .ok (some call.runId, db.judged call w now agentRuns) := by
  obtain ⟨r, hwr, hpackage, hsynthetic⟩ := hw
  obtain ⟨agentRuns, hruns⟩ := Table.insert?_isSome hnew
    (newRun false call.workflowId w call.provider call.model call.traceId now)
  refine ⟨agentRuns, ?_⟩
  simp only [runFixedJudge, hwr, ok_bind]
  rw [ensure_bind hpackage, ensure_bind hsynthetic, h]
  simp only [hruns, hreturns]
  rfl

/-- A call returns the newest run of the workflow, if it is for its package, or makes one. -/
theorem runFixedJudge_cases {found : Option Uuid} (h : runFixedJudge call now db = .ok (found, db')) :
    ∃ w, Judgeable db call.workflowId w ∧
      ((∃ row, db.existingRun call.workflowId w = some row ∧ found = some row.1 ∧ db' = db) ∨
        db.existingRun call.workflowId w = none ∧ (∀ id, found = some id → id = call.runId) ∧
          ∃ agentRuns, db.agentRuns.insert? call.runId
              (newRun false call.workflowId w call.provider call.model call.traceId now) = some agentRuns ∧
            db' = db.judged call w now agentRuns) := by
  obtain ⟨⟨w, r⟩, hwr, h⟩ := bind_eq_ok.1 h
  obtain ⟨_, hpackage, h⟩ := bind_eq_ok.1 h
  obtain ⟨_, hsynthetic, h⟩ := bind_eq_ok.1 h
  refine ⟨w, ⟨r, hwr, ensure_eq_ok.1 hpackage, ensure_eq_ok.1 hsynthetic⟩, ?_⟩
  cases hexisting : db.existingRun call.workflowId w with
  | some row =>
    rw [hexisting] at h
    obtain ⟨rfl, rfl⟩ := Prod.mk.inj (pure_eq_ok.1 h)
    exact .inl ⟨row, rfl, rfl, rfl⟩
  | none =>
    rw [hexisting] at h
    obtain ⟨agentRuns, hruns, h⟩ := bind_eq_ok.1 h
    obtain ⟨hfound, rfl⟩ := Prod.mk.inj (pure_eq_ok.1 h)
    refine .inr ⟨rfl, fun id hid => ?_, agentRuns, fetch_eq_ok.1 hruns, rfl⟩
    rw [hid] at hfound
    split_ifs at hfound
    exact (Option.some.inj hfound).symm

end Judge

/-! ### The dates of the runs -/

/-- The runs were made in the past, no two of them at once. -/
structure Dated (clock : Time) (runs : Table Uuid AgentRun) : Prop where
  past : ∀ id run, runs.get? id = some run → run.createdAt ≤ clock
  apart : ∀ id id' run run', runs.get? id = some run → runs.get? id' = some run' →
    run.createdAt = run'.createdAt → id = id'

theorem dated_empty (clock : Time) : Dated clock .empty :=
  ⟨fun _ _ h => (by cases h), fun _ _ _ _ h => (by cases h)⟩

theorem Dated.later {clock now : Time} {runs : Table Uuid AgentRun} (h : Dated clock runs) (hlt : clock ≤ now) :
    Dated now runs :=
  ⟨fun id run hrun => (h.past id run hrun).trans hlt, h.apart⟩

/-- Runs that grow later stay dated. -/
theorem Dated.grows {clock now : Time} {runs runs' : Table Uuid AgentRun} {added : Option (Uuid × AgentRun)}
    (h : Dated clock runs) (hlt : clock < now) (hgrows : Grows runs runs' added)
    (hadded : ∀ id run, added = some (id, run) → run.createdAt = now) : Dated now runs' := by
  constructor
  · intro id run' hrun'
    obtain ⟨run, hrun, hsame⟩ | ⟨run, hrun, -, hsame⟩ := hgrows.origin id run' hrun'
    · rw [hsame.createdAt]
      exact (h.past id run hrun).trans hlt.le
    · rw [hsame.createdAt, hadded id run hrun]
  · intro id id' run₁ run₂ hrun₁ hrun₂ heq
    obtain ⟨r₁, hr₁, hs₁⟩ | ⟨r₁, hr₁, -, hs₁⟩ := hgrows.origin id run₁ hrun₁ <;>
      obtain ⟨r₂, hr₂, hs₂⟩ | ⟨r₂, hr₂, -, hs₂⟩ := hgrows.origin id' run₂ hrun₂ <;>
      rw [hs₁.createdAt, hs₂.createdAt] at heq
    · exact h.apart id id' r₁ r₂ hr₁ hr₂ heq
    · rw [hadded id' r₂ hr₂] at heq
      exact absurd heq ((h.past id r₁ hr₁).trans_lt hlt).ne
    · rw [hadded id r₁ hr₁] at heq
      exact absurd heq.symm ((h.past id' r₂ hr₂).trans_lt hlt).ne
    · rw [hr₁] at hr₂
      exact congrArg Prod.fst (Option.some.inj hr₂)

namespace Db

variable {db : Db} {workflowId : Uuid} {w : Workflow}

theorem newestRun_eq_some {row : Uuid × AgentRun} (h : db.newestRun workflowId = some row) :
    db.agentRuns.get? row.1 = some row.2 ∧ row.2.workflow = workflowId ∧
      ∀ id run, db.agentRuns.get? id = some run → run.workflow = workflowId → run.createdAt ≤ row.2.createdAt := by
  obtain ⟨hmem, hmax⟩ := head?_newest h
  rw [List.mem_filter, decide_eq_true_iff] at hmem
  refine ⟨Table.mem_sortedRows.1 hmem.1, hmem.2, fun id run hrun hworkflow => ?_⟩
  exact hmax (id, run) (List.mem_filter.2 ⟨Table.mem_sortedRows.2 hrun, decide_eq_true hworkflow⟩)

theorem newestRun_ne_none {id : Uuid} {run : AgentRun} (hrun : db.agentRuns.get? id = some run)
    (hworkflow : run.workflow = workflowId) : db.newestRun workflowId ≠ none := by
  intro h
  rw [newestRun, List.head?_eq_none_iff] at h
  have hmem : (id, run) ∈ db.agentRuns.sortedRows.filter fun row => row.2.workflow = workflowId :=
    List.mem_filter.2 ⟨Table.mem_sortedRows.2 hrun, decide_eq_true hworkflow⟩
  rw [← List.mem_insertionSort fun a b : Uuid × AgentRun => b.2.createdAt ≤ a.2.createdAt, h] at hmem
  cases hmem

theorem existingRun_eq_some {row : Uuid × AgentRun} :
    db.existingRun workflowId w = some row ↔
      db.newestRun workflowId = some row ∧ row.2.packageHash = w.packageHash := by
  rw [existingRun, Option.filter_eq_some_iff, decide_eq_true_iff]

/-- The newest evaluation for the package is the one that is shown. -/
theorem latestRun_of_max {clock : Time} {id : Uuid} {run : AgentRun} {hash : String}
    (hdated : Dated clock db.agentRuns) (hrun : db.agentRuns.get? id = some run)
    (hworkflow : run.workflow = workflowId) (hhash : run.packageHash = hash) (hlane : run.hermesLane = false)
    (hmax : ∀ id' run', db.agentRuns.get? id' = some run' → run'.workflow = workflowId →
      run'.createdAt ≤ run.createdAt) : db.latestRun workflowId hash = some (id, run) := by
  refine head?_newest_of_max ?_ fun row hrow hle => ?_
  · simp [Table.mem_sortedRows, hrun, hworkflow, hhash, hlane]
  · obtain ⟨hrow, -⟩ := List.mem_filter.1 hrow
    obtain ⟨hrow, hrowWorkflow⟩ := List.mem_filter.1 hrow
    have hget := Table.mem_sortedRows.1 hrow
    have heq := le_antisymm (hmax row.1 row.2 hget (of_decide_eq_true hrowWorkflow)) hle
    have hid := hdated.apart row.1 id row.2 run hget hrun heq
    rw [← hid, hget] at hrun
    exact Prod.ext hid (Option.some.inj hrun)

end Db

/-! ### An evaluation -/

/-- The run of an evaluation of the package of a workflow, which the state of the demo shows. -/
structure EvaluationOf (db : Db) (workflowId : Uuid) (hash : String) (runId : Uuid) : Prop where
  run : ∃ run, db.agentRuns.get? runId = some run ∧ run.workflow = workflowId ∧ run.hermesLane = false ∧
    run.packageHash = hash
  shown : ∀ state, serializeDemo db workflowId = .ok state →
    ∃ evaluation, state.get? "evaluation" = some evaluation ∧
      evaluation.get? "run_id" = some (.str (.uuid runId))

theorem serializeDemo_evaluation {db : Db} {workflowId : Uuid} {state : Message}
    (h : serializeDemo db workflowId = .ok state) :
    ∃ w, db.workflows.get? workflowId = some w ∧
      state.get? "evaluation" = some (((if w.packageHash = "" then none
        else db.latestRun workflowId w.packageHash).map fun run => serializeEvaluation run.1 run.2).getD .null) := by
  obtain ⟨⟨w, r⟩, hwr, h⟩ := bind_eq_ok.1 h
  obtain ⟨event, -, h⟩ := bind_eq_ok.1 h
  obtain ⟨timeline, -, h⟩ := bind_eq_ok.1 h
  obtain rfl := pure_eq_ok.1 h
  exact ⟨w, (workflowOf_eq_ok hwr).1, rfl⟩

theorem evaluationOf_of_max {db : Db} {clock : Time} {workflowId id : Uuid} {run : AgentRun} {w : Workflow}
    (hw : db.workflows.get? workflowId = some w) (hne : w.packageHash ≠ "") (hdated : Dated clock db.agentRuns)
    (hrun : db.agentRuns.get? id = some run) (hworkflow : run.workflow = workflowId)
    (hhash : run.packageHash = w.packageHash) (hlane : run.hermesLane = false)
    (hmax : ∀ id' run', db.agentRuns.get? id' = some run' → run'.workflow = workflowId →
      run'.createdAt ≤ run.createdAt) : EvaluationOf db workflowId w.packageHash id := by
  refine ⟨⟨run, hrun, hworkflow, hlane, hhash⟩, fun state hstate => ?_⟩
  obtain ⟨w', hw', hevaluation⟩ := serializeDemo_evaluation hstate
  rw [hw] at hw'
  obtain rfl := Option.some.inj hw'
  rw [if_neg hne, Db.latestRun_of_max hdated hrun hworkflow hhash hlane hmax] at hevaluation
  exact ⟨_, hevaluation, rfl⟩

/-- What a call should do, for a workflow that can be judged: it returns a run unless it is left with an
exception, and the run it returns is the evaluation. -/
structure Evaluated (call : JudgeCall) (now : Time) (db : Db) (w : Workflow) : Prop where
  returned : call.returns = true → db.agentRuns.get? call.runId = none →
    ∃ runId db', runFixedJudge call now db = .ok (some runId, db')
  evaluation : ∀ runId db', runFixedJudge call now db = .ok (some runId, db') →
    EvaluationOf db' call.workflowId w.packageHash runId

section Calls

variable {db db' : Db} {call : JudgeCall} {clock now : Time} {w : Workflow}

theorem Judgeable.unique {w' : Workflow} (h : Judgeable db call.workflowId w) (h' : Judgeable db call.workflowId w') :
    w' = w := by
  have hget := h.get
  rw [h'.get] at hget
  exact Option.some.inj hget

theorem get?_judged {agentRuns : Table Uuid AgentRun} {run : AgentRun}
    (h : db.agentRuns.insert? call.runId run = some agentRuns) (id : Uuid) :
    (db.judged call w now agentRuns).agentRuns.get? id =
      if id = call.runId then
        some ((newRun false call.workflowId w call.provider call.model call.traceId now).progress call.outcome)
      else db.agentRuns.get? id := by
  rw [Db.judged, Table.get?_set]
  split_ifs with heq
  · rw [Table.get?_of_insert? h, if_pos rfl]
    rfl
  · rw [Table.get?_of_insert? h, if_neg heq]

theorem grows_judged {agentRuns : Table Uuid AgentRun}
    (h : db.agentRuns.insert? call.runId
      (newRun false call.workflowId w call.provider call.model call.traceId now) = some agentRuns) :
    Grows db.agentRuns (db.judged call w now agentRuns).agentRuns
      (some (call.runId, newRun false call.workflowId w call.provider call.model call.traceId now)) :=
  .insert h (sameBinding_progress _ call.outcome) (get?_judged h)

/-- A call returns an evaluation if and only if it finds no run of Hermes. -/
theorem evaluated_iff (hdated : Dated clock db.agentRuns) (hlt : clock < now)
    (hw : Judgeable db call.workflowId w) :
    Evaluated call now db w ↔
      ∀ row, db.existingRun call.workflowId w = some row → row.2.hermesLane = false := by
  have hne : w.packageHash ≠ "" := by
    obtain ⟨r, -, ⟨-, hne⟩, -⟩ := hw
    exact hne
  constructor
  · intro h row hrow
    obtain ⟨run, hrun, -, hlane, -⟩ := (h.evaluation row.1 db (runFixedJudge_existing hw hrow)).run
    obtain ⟨hget, -, -⟩ := Db.newestRun_eq_some (Db.existingRun_eq_some.1 hrow).1
    rw [hget] at hrun
    obtain rfl := Option.some.inj hrun
    exact hlane
  · intro hclear
    constructor
    · intro hreturns hnew
      cases hexisting : db.existingRun call.workflowId w with
      | some row => exact ⟨row.1, db, runFixedJudge_existing hw hexisting⟩
      | none =>
        obtain ⟨agentRuns, h⟩ : ∃ agentRuns,
            runFixedJudge call now db = .ok (some call.runId, db.judged call w now agentRuns) :=
          runFixedJudge_new hw hexisting hreturns hnew
        exact ⟨call.runId, _, h⟩
    · intro runId db' h
      obtain ⟨w', hw', ⟨row, hrow, hfound, rfl⟩ | ⟨-, hfound, agentRuns, hruns, rfl⟩⟩ := runFixedJudge_cases h
      · obtain rfl := hw.unique hw'
        obtain rfl := Option.some.inj hfound
        obtain ⟨hnewest, hhash⟩ := Db.existingRun_eq_some.1 hrow
        obtain ⟨hget, hworkflow, hmax⟩ := Db.newestRun_eq_some hnewest
        exact evaluationOf_of_max hw.get hne hdated hget hworkflow hhash (hclear row hrow) hmax
      · obtain rfl := hw.unique hw'
        obtain rfl := hfound runId rfl
        have hdated' : Dated now (db.judged call w' now agentRuns).agentRuns := by
          refine hdated.grows hlt (grows_judged hruns) fun id run hadded => ?_
          obtain ⟨-, rfl⟩ := Prod.mk.inj (Option.some.inj hadded)
          rfl
        have hget : (db.judged call w' now agentRuns).agentRuns.get? call.runId = _ := get?_judged hruns call.runId
        rw [if_pos rfl] at hget
        exact evaluationOf_of_max hw.get hne hdated' hget rfl rfl rfl fun id run hrun _ => hdated'.past id run hrun

end Calls

/-! ### Runs of the system -/

section Runs

variable {py : Interpreter} {sha256 : Message → String} {ownerPackage : Message → Option Message}

/-- What an action does to the runs: at most one is made, now, by Hermes for the package of its workflow, or by
a call of the judge that finds no run for the package. -/
theorem perform_grows {now : Time} {db db' : Db} {action : LaneAction} {u : Unit}
    (h : perform py sha256 ownerPackage now db action = .ok (u, db')) :
    ∃ added, Grows db.agentRuns db'.agentRuns added ∧ ∀ id run, added = some (id, run) →
      run.createdAt = now ∧ ∃ w, db.workflows.get? run.workflow = some w ∧ run.packageHash = w.packageHash ∧
        (run.hermesLane = true ∨ db.existingRun run.workflow w = none) := by
  cases action with
  | request request =>
    rw [agentRuns_of_handle h]
    exact ⟨none, .refl _, fun _ _ hadded => by cases hadded⟩
  | queueHermes workflowId runId provider model =>
    obtain ⟨w, agentRuns, traceId, hw, hruns, rfl⟩ := queueHermes_eq_ok h
    refine ⟨_, .insert hruns (.refl _) (Table.get?_of_insert? hruns), fun id run hadded => ?_⟩
    obtain ⟨-, rfl⟩ := Prod.mk.inj (Option.some.inj hadded)
    exact ⟨rfl, w, hw, rfl, .inl rfl⟩
  | progress runId p =>
    obtain ⟨-, rfl⟩ := Prod.mk.inj (pure_eq_ok.1 h)
    exact ⟨none, .modify _ runId p, fun _ _ hadded => by cases hadded⟩
  | judge call =>
    obtain ⟨found, h⟩ := ok_of_map (f := fun _ => ()) h
    obtain ⟨w, hw, ⟨_, _, _, rfl⟩ | ⟨hnone, _, agentRuns, hruns, rfl⟩⟩ := runFixedJudge_cases h
    · exact ⟨none, .refl _, fun _ _ hadded => by cases hadded⟩
    · refine ⟨_, grows_judged hruns, fun id run hadded => ?_⟩
      obtain ⟨-, rfl⟩ := Prod.mk.inj (Option.some.inj hadded)
      exact ⟨rfl, w, hw.get, rfl, .inr hnone⟩

/-- What an action does to the state: nothing, or its transaction. -/
theorem laneStep_cases (s : LaneState) (action : ℕ × LaneAction) {P : Db → Prop} (hs : P s.db)
    (h : ∀ u db', perform py sha256 ownerPackage (s.next action.1) s.db action.2 = .ok (u, db') → P db') :
    P (laneStep py sha256 ownerPackage s action).db :=
  commit_induction hs fun u db' hdb => h u db' hdb

theorem LaneState.lt_next (s : LaneState) (wait : ℕ) : s.clock < s.next wait := by
  show s.clock < s.clock + (wait : ℤ) + 1
  linarith [Int.natCast_nonneg wait]

theorem dated_laneStep (s : LaneState) (action : ℕ × LaneAction) (h : Dated s.clock s.db.agentRuns) :
    Dated (laneStep py sha256 ownerPackage s action).clock (laneStep py sha256 ownerPackage s action).db.agentRuns := by
  have hlt := s.lt_next action.1
  refine laneStep_cases (P := fun db => Dated (s.next action.1) db.agentRuns) s action (h.later hlt.le) ?_
  intro u db' hdb
  obtain ⟨added, hgrows, hadded⟩ := perform_grows hdb
  exact h.grows hlt hgrows fun id run hrun => (hadded id run hrun).1

/-- A run is for the package with a hash, and every newer run of the workflow is a run of Hermes for the same. -/
def Held (runs : Table Uuid AgentRun) (workflowId : Uuid) (hash : String) (runId : Uuid) : Prop :=
  ∃ run, runs.get? runId = some run ∧ run.workflow = workflowId ∧ run.packageHash = hash ∧
    ∀ id run', runs.get? id = some run' → run'.workflow = workflowId →
      run'.createdAt ≤ run.createdAt ∨ run'.hermesLane = true ∧ run'.packageHash = hash

/-- A call finds the run that is held, or a run of Hermes. -/
theorem Held.existingRun {db : Db} {clock : Time} {workflowId runId : Uuid} {w : Workflow}
    (h : Held db.agentRuns workflowId w.packageHash runId) (hdated : Dated clock db.agentRuns) :
    ∃ row, db.existingRun workflowId w = some row ∧ (row.1 = runId ∨ row.2.hermesLane = true) := by
  obtain ⟨run, hrun, hworkflow, hhash, hnewer⟩ := h
  obtain ⟨row, hrow⟩ := Option.ne_none_iff_exists'.1 (Db.newestRun_ne_none hrun hworkflow)
  obtain ⟨hget, hrowWorkflow, hmax⟩ := Db.newestRun_eq_some hrow
  refine ⟨row, ?_⟩
  obtain hle | ⟨hhermes, hrowHash⟩ := hnewer row.1 row.2 hget hrowWorkflow
  · have heq := le_antisymm hle (hmax runId run hrun hworkflow)
    have hid := hdated.apart row.1 runId row.2 run hget hrun heq
    rw [hid, hrun] at hget
    rw [Db.existingRun_eq_some, ← Option.some.inj hget]
    exact ⟨⟨hrow, hhash⟩, .inl hid⟩
  · exact ⟨Db.existingRun_eq_some.2 ⟨hrow, hrowHash⟩, .inr hhermes⟩

/-- While the package is the same, the run stays held: the judge makes no run, and those of Hermes are for it. -/
theorem held_laneStep (s : LaneState) (action : ℕ × LaneAction) {workflowId runId : Uuid} {hash : String}
    (hsame : (s.db.workflows.get? workflowId).map Workflow.packageHash = some hash)
    (hdated : Dated s.clock s.db.agentRuns) (h : Held s.db.agentRuns workflowId hash runId) :
    Held (laneStep py sha256 ownerPackage s action).db.agentRuns workflowId hash runId := by
  refine laneStep_cases (P := fun db => Held db.agentRuns workflowId hash runId) s action h fun u db' hdb => ?_
  obtain ⟨added, hgrows, hadded⟩ := perform_grows hdb
  obtain ⟨run, hrun, hworkflow, hhash, hnewer⟩ := h
  obtain ⟨run', hrun', hsame'⟩ := hgrows.kept runId run hrun
  refine ⟨run', hrun', hsame'.workflow.trans hworkflow, hsame'.packageHash.trans hhash, fun id r hr hrw => ?_⟩
  rw [hsame'.createdAt]
  obtain ⟨r₀, hr₀, hsame₀⟩ | ⟨r₀, hr₀, -, hsame₀⟩ := hgrows.origin id r hr
  · rw [hsame₀.createdAt, hsame₀.hermesLane, hsame₀.packageHash]
    exact hnewer id r₀ hr₀ (hsame₀.workflow.symm.trans hrw)
  · obtain ⟨-, w, hw, hr₀Hash, hlane⟩ := hadded id r₀ hr₀
    rw [← hsame₀.workflow, hrw] at hw hlane
    rw [hw] at hsame
    obtain rfl := Option.some.inj hsame
    refine .inr ⟨?_, hsame₀.packageHash.trans hr₀Hash⟩
    obtain hhermes | hnone := hlane
    · exact hsame₀.hermesLane.trans hhermes
    · have hheld : Held s.db.agentRuns workflowId w.packageHash runId := ⟨run, hrun, hworkflow, hhash, hnewer⟩
      obtain ⟨row, hrow, -⟩ := hheld.existingRun hdated
      rw [hnone] at hrow
      cases hrow

/-- The run that a call returns is held. -/
theorem held_of_runFixedJudge {db db' : Db} {clock now : Time} {call : JudgeCall} {w : Workflow} {runId : Uuid}
    (hdated : Dated clock db.agentRuns) (hlt : clock < now) (hw : Judgeable db call.workflowId w)
    (h : runFixedJudge call now db = .ok (some runId, db')) :
    Held db'.agentRuns call.workflowId w.packageHash runId := by
  obtain ⟨w', hw', ⟨row, hrow, hfound, rfl⟩ | ⟨-, hfound, agentRuns, hruns, rfl⟩⟩ := runFixedJudge_cases h
  · obtain rfl := hw.unique hw'
    obtain rfl := Option.some.inj hfound
    obtain ⟨hnewest, hhash⟩ := Db.existingRun_eq_some.1 hrow
    obtain ⟨hget, hworkflow, hmax⟩ := Db.newestRun_eq_some hnewest
    exact ⟨row.2, hget, hworkflow, hhash, fun id run hrun hrw => .inl (hmax id run hrun hrw)⟩
  · obtain rfl := hw.unique hw'
    obtain rfl := hfound runId rfl
    have hget : (db.judged call w' now agentRuns).agentRuns.get? call.runId = _ := get?_judged hruns call.runId
    rw [if_pos rfl] at hget
    refine ⟨_, hget, rfl, rfl, fun id run hrun _ => .inl ?_⟩
    rw [get?_judged hruns] at hrun
    split_ifs at hrun
    · obtain rfl := Option.some.inj hrun
      exact le_rfl
    · exact (hdated.past id run hrun).trans hlt.le

end Runs

section System

variable (py : Interpreter) (sha256 : Message → String) (ownerPackage : Message → Option Message)

/-- What should hold of the calls of a run of the system: each returns an evaluation, and a further call for the
same package returns the same run and makes none. -/
structure JudgedWell (s : LaneState) (as : List (ℕ × LaneAction)) : Prop where
  evaluated : Transition.AllSteps (laneStep py sha256 ownerPackage)
    (fun s action => ∀ call, action.2 = .judge call → ∀ w, Judgeable s.db call.workflowId w →
      Evaluated call (s.next action.1) s.db w) s as
  repeated : ∀ before wait call between wait' call' after w w',
    as = before ++ (wait, .judge call) :: (between ++ (wait', .judge call') :: after) →
    call'.workflowId = call.workflowId →
    let s₀ := Transition.run (laneStep py sha256 ownerPackage) s before
    let s₁ := laneStep py sha256 ownerPackage s₀ (wait, .judge call)
    let s₂ := Transition.run (laneStep py sha256 ownerPackage) s₁ between
    Judgeable s₀.db call.workflowId w → Judgeable s₂.db call.workflowId w' → w'.packageHash = w.packageHash →
    Transition.AllSteps (laneStep py sha256 ownerPackage)
      (fun s _ => (s.db.workflows.get? call.workflowId).map Workflow.packageHash = some w.packageHash) s₁ between →
    ∀ runId db', runFixedJudge call (s₀.next wait) s₀.db = .ok (some runId, db') →
      runFixedJudge call' (s₂.next wait') s₂.db = .ok (some runId, s₂.db)

/-- No call of a run of the system finds a run of Hermes for the package. -/
def ClearCalls (s : LaneState) (as : List (ℕ × LaneAction)) : Prop :=
  Transition.AllSteps (laneStep py sha256 ownerPackage)
    (fun s action => ∀ call, action.2 = .judge call → ∀ w, Judgeable s.db call.workflowId w →
      ∀ row, s.db.existingRun call.workflowId w = some row → row.2.hermesLane = false) s as

theorem dated_run {s : LaneState} (h : Dated s.clock s.db.agentRuns) (as : List (ℕ × LaneAction)) :
    Dated (Transition.run (laneStep py sha256 ownerPackage) s as).clock
      (Transition.run (laneStep py sha256 ownerPackage) s as).db.agentRuns :=
  Transition.run_induction (P := fun s : LaneState => Dated s.clock s.db.agentRuns) dated_laneStep h as

variable {py sha256 ownerPackage}

/-- The run stays held as long as the package is the same. -/
theorem held_run {s : LaneState} {as : List (ℕ × LaneAction)} {workflowId runId : Uuid} {hash : String}
    (hdated : Dated s.clock s.db.agentRuns) (h : Held s.db.agentRuns workflowId hash runId)
    (hsame : Transition.AllSteps (laneStep py sha256 ownerPackage)
      (fun s _ => (s.db.workflows.get? workflowId).map Workflow.packageHash = some hash) s as) :
    Held (Transition.run (laneStep py sha256 ownerPackage) s as).db.agentRuns workflowId hash runId := by
  refine (hsame.run_induction (P := fun s : LaneState =>
    Dated s.clock s.db.agentRuns ∧ Held s.db.agentRuns workflowId hash runId) ?_ ⟨hdated, h⟩).2
  intro s action hsame hs
  exact ⟨dated_laneStep s action hs.1, held_laneStep s action hsame hs.1 hs.2⟩

/-- The database after a call that succeeds. -/
theorem laneStep_judge {s : LaneState} {wait : ℕ} {call : JudgeCall} {found : Option Uuid} {db' : Db}
    (h : runFixedJudge call (s.next wait) s.db = .ok (found, db')) :
    laneStep py sha256 ownerPackage s (wait, .judge call) = ⟨s.next wait, db'⟩ := by
  simp only [laneStep, perform, h]
  rfl

/-- A further call for the same package returns the run that is held, if it finds no run of Hermes. -/
theorem runFixedJudge_of_held {db : Db} {clock now : Time} {call : JudgeCall} {w : Workflow} {runId : Uuid}
    (hdated : Dated clock db.agentRuns) (hw : Judgeable db call.workflowId w)
    (h : Held db.agentRuns call.workflowId w.packageHash runId)
    (hclear : ∀ row, db.existingRun call.workflowId w = some row → row.2.hermesLane = false) :
    runFixedJudge call now db = .ok (some runId, db) := by
  obtain ⟨row, hrow, rfl | hhermes⟩ := h.existingRun hdated
  · exact runFixedJudge_existing hw hrow
  · rw [hclear row hrow] at hhermes
    cases hhermes

/-- The lane of the run that a call returns. -/
def judgedLane (call : JudgeCall) (now : Time) (db : Db) : Option Bool :=
  (runFixedJudge call now db).toOption.bind fun r => r.1.bind fun runId =>
    (r.2.agentRuns.get? runId).map AgentRun.hermesLane

theorem exists_not_evaluated {call : JudgeCall} {now : Time} {db : Db} (h : judgedLane call now db = some true) :
    ∃ w, Judgeable db call.workflowId w ∧ ¬ Evaluated call now db w := by
  unfold judgedLane at h
  cases hcall : runFixedJudge call now db with
  | error e =>
    rw [hcall] at h
    cases h
  | ok r =>
  rw [hcall] at h
  change (r.1.bind fun runId => (r.2.agentRuns.get? runId).map AgentRun.hermesLane) = some true at h
  obtain ⟨runId, hrunId, h⟩ := Option.bind_eq_some_iff.1 h
  obtain ⟨run, hrun, hlane⟩ := Option.map_eq_some_iff.1 h
  obtain ⟨w, hw, -⟩ := runFixedJudge_cases hcall
  refine ⟨w, hw, fun hevaluated => ?_⟩
  have hreturned : runFixedJudge call now db = .ok (some runId, r.2) := by
    rw [hcall, ← hrunId]
  obtain ⟨run', hrun', -, hfalse, -⟩ := (hevaluated.evaluation runId r.2 hreturned).run
  rw [hrun] at hrun'
  rw [← Option.some.inj hrun', hlane] at hfalse
  cases hfalse

/-- A workflow of the demo whose package is ready, and a run of Hermes for it. -/
def hermesFirst : List (ℕ × LaneAction) :=
  let answers : Message := .obj [("venue_name", .lit "Hall"), ("venue_address", .lit "1 Main St"),
    ("access_instructions", .lit "Ring the bell")]
  [(0, .request (.reset (1, 2) ⟨1, 1, 1, 1⟩)), (0, .request (.run 1 "maya" 7)),
    (0, .request (.answer 1 "maya" answers 2 2)), (0, .request (.run 1 "maya" 3)),
    (0, .queueHermes 1 5 "openai" "hermes")]

/-- The judge is called, and makes no run. -/
def judgeSecond : JudgeCall :=
  ⟨1, 6, "openai", "judge", "trace", ⟨"succeeded", "", "trace", 100, 10, 1, []⟩, true⟩

end System

end CivicLoop.LaunchLoop
