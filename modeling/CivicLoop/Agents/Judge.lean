import CivicLoop.Agents.System

/-!
# The judge of packages

A call of the judge makes a run, reserves its budget, asks a model for an evaluation, settles the usage, stores
the evaluation, and writes the usage to the run. Each of these is a transaction of its own, so that anything may
happen between two of them, and a call may be left at any point with an exception that it does not catch.

The evaluation is checked twice: the response of the client before the settlement, and the stored row, by
stricter rules, after it. A score is given by the decimal that its text denotes. What Python knows of the
characters of Unicode is a parameter.

Calls that return an older run change nothing here and are left out, as is the row of the step of the run.

## Main definitions

* `JudgeResponse`, `validatedResponse` : the response of the client and its check.
* `Evaluation.recordable` : the check of the stored evaluation.
* `JudgeProcess`, `Agents.advance` : a call of the judge, transaction by transaction.
* `Agents.JudgeState`, `Agents.judgeStep` : the agent service with calls of the judge.

## References

Source: `backend/evaluations/judge.py`, `backend/evaluations/models.py`, `backend/agents/redaction.py`.
-/

namespace CivicLoop

/-! ### Summaries -/

/-- What the regular expressions know of characters: `\w`, `\s`, and equality up to the case. -/
structure CharTables where
  word : Char → Bool
  space : Char → Bool
  sameLetter : Char → Char → Bool

/-- The pieces of the patterns: a letter in either case, at most one character of a class, `\s*`, and `\b`. -/
inductive Piece
  | letter (c : Char)
  | atMostOne (class' : List Char)
  | spaces
  | boundary

namespace CharTables

variable (t : CharTables)

/-- The rest of a match after `\s*`. -/
def afterSpaces (rest : Option Char → List Char → Bool) : Option Char → List Char → Bool
  | before, [] => rest before []
  | before, c :: cs => rest before (c :: cs) || t.space c && afterSpaces rest (some c) cs

/-- A pattern matches at a place, given by the character before it and the text from it on. -/
def matchesAt : List Piece → Option Char → List Char → Bool
  | [], _, _ => true
  | .letter c :: pieces, _, x :: cs => t.sameLetter c x && matchesAt pieces (some x) cs
  | .letter _ :: _, _, [] => false
  | .atMostOne class' :: pieces, before, cs =>
    matchesAt pieces before cs ||
      match cs with
      | x :: cs => class'.contains x && matchesAt pieces (some x) cs
      | [] => false
  | .spaces :: pieces, before, cs => t.afterSpaces (matchesAt pieces) before cs
  | .boundary :: pieces, before, cs => (before.any t.word != cs.head?.any t.word) && matchesAt pieces before cs

/-- `pattern.search`. -/
def search (pattern : List Piece) : Option Char → List Char → Bool
  | before, [] => t.matchesAt pattern before []
  | before, c :: cs => t.matchesAt pattern before (c :: cs) || search pattern (some c) cs

end CharTables

/-- The letters of a word. -/
def letters (word : String) : List Piece := word.toList.map .letter

/-- `[_ -]?`. -/
def joint : Piece := .atMostOne ['_', ' ', '-']

/-- `PROHIBITED_TELEMETRY_PATTERNS`. -/
def prohibitedTelemetryPatterns : List (List Piece) :=
  [letters "authorization" ++ [.spaces, .letter ':'],
    .boundary :: letters "bearer" ++ [.boundary],
    .boundary :: letters "api" ++ joint :: letters "key" ++ [.boundary],
    .boundary :: letters "password" ++ [.boundary],
    .boundary :: letters "secret" ++ [.boundary],
    .boundary :: letters "session" ++ joint :: letters "cookie" ++ [.boundary],
    .boundary :: letters "provider" ++ joint :: letters "response" ++ joint :: letters "body" ++ [.boundary],
    .boundary :: letters "raw" ++ joint :: letters "response" ++ [.boundary]]

/-- `validate_safe_summary` does not raise. -/
def safeSummary (t : CharTables) (value : String) : Bool :=
  !prohibitedTelemetryPatterns.any fun pattern => t.search pattern none value.toList

/-! ### Scores -/

/-- The `Decimal` of a text. -/
structure Decimal where
  negative : Bool
  coefficient : ℕ
  exponent : ℤ
deriving DecidableEq, Repr

/-- `0 <= d <= 1`. -/
def Decimal.inUnit (d : Decimal) : Bool :=
  decide (d.coefficient = 0) ||
    !d.negative && decide (d.coefficient * 10 ^ d.exponent.toNat ≤ 10 ^ (-d.exponent).toNat)

/-- `DecimalValidator(max_digits, decimal_places)`. -/
def Decimal.withinPlaces (maxDigits decimalPlaces : ℕ) (d : Decimal) : Bool :=
  let written := (Nat.toDigits 10 d.coefficient).length
  let shift := d.exponent.natAbs
  let (digits, decimals) :=
    if 0 ≤ d.exponent then (if d.coefficient = 0 then written else written + shift, 0)
    else if written < shift then (shift, shift)
    else (written, shift)
  decide (digits ≤ maxDigits) && decide (decimals ≤ decimalPlaces) &&
    decide (digits - decimals ≤ maxDigits - decimalPlaces)

/-! ### Responses -/

/-- A response as the client builds it. A value that is not of its type is absent. -/
structure JudgeResponse where
  outcome : Option String
  score : Option Decimal
  labels : Option (List String)
  rationale : Option String
  inputTokens : Option ℤ
  outputTokens : Option ℤ
  latencyMs : Option ℤ

/-- A response that is validated. -/
structure Evaluation where
  outcome : String
  score : Decimal
  labels : List String
  rationale : String
  inputTokens : ℤ
  outputTokens : ℤ
  latencyMs : ℤ

/-- `EvaluationResult.Outcome.values`. -/
def evaluationOutcomes : List String := ["passed", "failed", "inconclusive"]

/-- `ALLOWED_LABELS`. -/
def allowedLabels : List String := ["expected_output", "policy_violation", "schema_invalid", "tool_error", "timeout"]

/-- `_validated_response`. -/
def validatedResponse (response : JudgeResponse) : Option Evaluation := do
  let outcome ← response.outcome
  let score ← response.score
  let labels ← response.labels
  let rationale ← response.rationale
  let inputTokens ← response.inputTokens
  let outputTokens ← response.outputTokens
  let latencyMs ← response.latencyMs
  if outcome ∈ evaluationOutcomes ∧ score.inUnit = true ∧ (1 ≤ labels.length ∧ labels.length ≤ 5) ∧ labels.Nodup ∧
      labels ⊆ allowedLabels ∧ (1 ≤ rationale.length ∧ rationale.length ≤ 500) ∧
      (0 ≤ inputTokens ∧ inputTokens ≤ 4096) ∧ (0 ≤ outputTokens ∧ outputTokens ≤ 256) ∧
      0 ≤ latencyMs ∧ latencyMs ≤ 3600000 then
    some ⟨outcome, score, labels, rationale, inputTokens, outputTokens, latencyMs⟩
  else none

/-- `EvaluationResult.full_clean`, as far as it is about the response: the fields, and `clean`. -/
def Evaluation.recordable (t : CharTables) (e : Evaluation) : Bool :=
  evaluationOutcomes.contains e.outcome &&
  (e.score.withinPlaces 4 3 && e.score.inUnit) &&
  (decide (e.rationale ≠ "") && decide (e.rationale.length ≤ 1000) && safeSummary t e.rationale) &&
  (decide (e.labels ≠ []) && decide (e.labels.length ≤ 20) && decide e.labels.Nodup &&
    decide (e.labels ⊆ allowedLabels)) &&
  (decide (0 ≤ e.inputTokens) && decide (0 ≤ e.outputTokens) && decide (0 ≤ e.latencyMs) &&
    decide (e.latencyMs ≤ 3600000))

/-! ### A call of the judge -/

/-- `PROFILE_ID`. -/
def judgeProfileId : String := "launchloop_openai_judge"

/-- `PROFILE_REVISION`. -/
def judgeProfileRevision : ℤ := 2

/-- `DATASET_ID`. -/
def datasetId : String := "launchloop_synthetic_v1"

/-- `DATASET_VERSION`. -/
def datasetVersion : ℤ := 3

/-- `FIXTURE_MANIFEST_DIGEST`. -/
def fixtureManifestDigest : String := "815d14762306d96bdc6449eb58a3e5739fb0ad95e08dc70b9025bd2cc8099d5f"

/-- What the evaluation raises: there is no healthy connection, an error of the output or of a value, an error of
the provider or of the secret store, or an exception that is not caught. -/
inductive JudgeError
  | connectionMissing
  | invalidOutput
  | unavailable
  | unhandled
deriving DecidableEq, Repr

/-- The category that the handlers of the call give to an exception, if one of them catches it. -/
def JudgeError.category : JudgeError → Option FailureCategory
  | connectionMissing => some .dependencyUnavailable
  | invalidOutput => some .invalidOutput
  | unavailable => some .providerUnavailable
  | unhandled => none

/-- The outcome of the evaluation: the response of the client, or an exception. -/
inductive JudgeOutcome
  | returns (response : JudgeResponse)
  | raises (error : JudgeError)

/-- The next transaction of a call. -/
inductive JudgePhase
  | reserving
  | starting
  | evaluating
  | settling (e : Evaluation)
  | recording (e : Evaluation) (costMicrousd : ℤ)
  | succeeding (e : Evaluation) (costMicrousd : ℤ)
  | releasing (category : FailureCategory)
  | failing (category : FailureCategory)

/-- A call of the judge, with its copy of the row of the run. -/
structure JudgeProcess (D : Type) where
  runId : Uuid
  run : AgentRun D
  phase : JudgePhase

variable {D : Type} [DecidableEq D]

/-- `_new_run`, after the checks of `run_fixed_judge` on the workflow. -/
def Db.newJudgeRun (runId workflowId : Uuid) (db : Db D) : Except HermesError (AgentRun D × Db D) := do
  let workflow ← fetch (db.world.workflows.get? workflowId) .doesNotExist
  let revision ← fetch (db.world.revisions.get? workflow.revision) .doesNotExist
  ensure ((workflow.package matches .null | .obj []) = false ∧ workflow.packageHash ≠ .lit "") .unhandled
  ensure (revision.snapshot.isTrue "synthetic") .unhandled
  let profile ← fetch (db.world.catalog.profiles.get? (judgeProfileId, judgeProfileRevision)) .doesNotExist
  let policy ← fetch (db.world.catalog.policies.find? fun _ policy =>
    policy.modelProfile == (profile.profileId, profile.revision) && policy.purpose == profile.purpose) .doesNotExist
  let run : AgentRun D :=
    { workflow := workflowId
      eventRevision := workflow.revision
      packageHash := workflow.packageHash
      hermesLane := false
      routingPolicy := policy.2
      modelProfile := profile
      fixtureManifestId := some datasetId
      fixtureManifestRevision := some datasetVersion
      fixtureManifestDigest := some fixtureManifestDigest
      privacyMode := if revision.sourceSnapshot.isSome then .pilotMinimized else .syntheticFull
      status := .queued
      startedAt := none
      finishedAt := none
      failureCategory := none
      inputTokens := 0
      outputTokens := 0
      costMicrousd := 0 }
  ensure (run.clean db.world) .unhandled
  let runs ← fetch (db.runs.insert? runId run) .unhandled
  return (run, { db with runs })

/-- The category of a reservation that fails, if it is one of the budget errors. -/
def reserveFailure : BudgetError → Option FailureCategory
  | .budgetExhausted _ => some .budgetExhausted
  | .unknownModelPrice _ | .budgetRequestConflict _ => some .dependencyUnavailable
  | .integrityError | .doesNotExist => none

/-- The row of a run whose evaluation is stored. -/
def judgedRun (now : Time) (run : AgentRun D) (e : Evaluation) (costMicrousd : ℤ) : AgentRun D :=
  { run with
    status := .succeeded
    finishedAt := some now
    inputTokens := e.inputTokens
    outputTokens := e.outputTokens
    costMicrousd := costMicrousd }

/-- The row that `_fail` writes. -/
def failedRun (now : Time) (run : AgentRun D) (category : FailureCategory) : AgentRun D :=
  { run with
    status := .failed
    startedAt := some (run.startedAt.getD now)
    finishedAt := some now
    failureCategory := some category }

namespace Agents

/-- The next transaction of a call: the database, and the call unless it has ended. The evaluation has its own
action. -/
def advance (t : CharTables) (now : Time) (p : JudgeProcess D) (db : Db D) : Db D × Option (JudgeProcess D) :=
  match p.phase with
  | .reserving =>
    match db.budget.reserveBudget db.world.catalog db.held now
        ⟨p.runId, judgeProfileId, judgeProfileRevision, 4096, 256, none⟩ with
    | .ok (_, budget) => ({ db with budget }, some { p with phase := .starting })
    | .error e => (db, (reserveFailure e).map fun category => { p with phase := .releasing category })
  | .starting =>
    match db.saveRun p.runId (startedRun now p.run) with
    | .ok db => (db, some { p with run := startedRun now p.run, phase := .evaluating })
    | .error _ => (db, none)
  | .evaluating => (db, some p)
  | .settling e =>
    match db.budget.settleBudget p.runId e.inputTokens e.outputTokens with
    | .ok (reservation, budget) =>
      ({ db with budget }, some { p with phase := .recording e (reservation.settledCostMicrousd.getD 0) })
    | .error _ => (db, none)
  | .recording e costMicrousd =>
    (db, some { p with phase := if e.recordable t then .succeeding e costMicrousd else .releasing .invalidOutput })
  | .succeeding e costMicrousd =>
    match db.saveRun p.runId (judgedRun now p.run e costMicrousd) with
    | .ok db => (db, none)
    | .error _ => (db, none)
  | .releasing category =>
    match db.budget.releaseBudget p.runId with
    | .ok (_, budget) => ({ db with budget }, some { p with phase := .failing category })
    | .error _ => (db, none)
  | .failing category =>
    match db.saveRun p.runId (failedRun now p.run category) with
    | .ok db => (db, none)
    | .error _ => (db, none)

/-- The evaluation of a call. -/
def evaluate (outcome : JudgeOutcome) (p : JudgeProcess D) : Option (JudgeProcess D) :=
  match p.phase, outcome with
  | .evaluating, .returns response =>
    match validatedResponse response with
    | some e => some { p with phase := .settling e }
    | none => some { p with phase := .releasing .invalidOutput }
  | .evaluating, .raises error => error.category.map fun category => { p with phase := .releasing category }
  | _, _ => some p

/-! ### The service with calls of the judge -/

structure JudgeState (D : Type) where
  service : State D
  judges : Table ℕ (JudgeProcess D)

inductive JudgeAction (D : Type)
  | service (a : Action D)
  | call (judge : ℕ) (runId workflowId : Uuid)
  | advance (judge : ℕ) (now : Time)
  | evaluate (judge : ℕ) (outcome : JudgeOutcome)
  | crash (judge : ℕ)

/-- Move a call on, or end it. -/
def setJudge (judge : ℕ) (next : Option (JudgeProcess D)) (judges : Table ℕ (JudgeProcess D)) :
    Table ℕ (JudgeProcess D) :=
  match next with
  | some p => judges.set judge p
  | none => judges.erase judge

/-- One step of the service, of a call of the judge, or of their environment. -/
def judgeStep (H : Hash D) (E : Engine D) (t : CharTables) (s : JudgeState D) (a : JudgeAction D) : JudgeState D :=
  match a with
  | .service a => { s with service := step H E s.service a }
  | .call judge runId workflowId =>
    match s.service.db.newJudgeRun runId workflowId with
    | .error _ => s
    | .ok (run, db) =>
      match s.judges.insert? judge ⟨runId, run, .reserving⟩ with
      | none => s
      | some judges => ⟨{ s.service with db }, judges⟩
  | .advance judge now =>
    match s.judges.get? judge with
    | none => s
    | some p =>
      let next := advance t now p s.service.db
      ⟨{ s.service with db := next.1 }, setJudge judge next.2 s.judges⟩
  | .evaluate judge outcome =>
    match s.judges.get? judge with
    | none => s
    | some p => { s with judges := setJudge judge (evaluate outcome p) s.judges }
  | .crash judge => { s with judges := s.judges.erase judge }

end Agents

end CivicLoop
