import CivicLoop.Budget.Ledger
import CivicLoop.Hermes.RunRequest

/-!
# The client of the worker

The worker asks the adapter for a run within the budgets of the reservation, adds the price of the profile to
a usage that comes without a cost, and accepts only a result of the closed form.

## Main definitions

* `clientBudgets` : the budgets of a request.
* `priceUsage` : the cost that the worker adds.
* `clientUsageOk`, `clientAccepts` : the checks of a result.

## Main results

* `clientBudgets_eq_ok` : the budgets of a request.
* `clientUsageOk_iff` : the check of the usage.
-/

namespace CivicLoop

namespace Json

variable {D : Type}

/-- `items[key] = value`. -/
def setItem (key : String) (value : Json D) : List (String × Json D) → List (String × Json D)
  | [] => [(key, value)]
  | item :: items => if item.1 = key then (key, value) :: items else item :: setItem key value items

/-- The dictionary with a value for a key. -/
def setKey (j : Json D) (key : String) (value : Json D) : Json D :=
  match j with
  | .obj items => .obj (setItem key value items)
  | j => j

end Json

namespace Hermes

/-! ### Budgets -/

/-- The budgets of a request for a run. -/
structure RunBudgets where
  maxInputTokens : ℤ
  maxOutputTokens : ℤ
  maxCostMicrousd : ℤ
  timeoutSeconds : ℤ

/-- The budgets as they stand in the request. -/
def RunBudgets.message (budgets : RunBudgets) : Message :=
  .obj [("max_input_tokens", .int budgets.maxInputTokens), ("max_output_tokens", .int budgets.maxOutputTokens),
    ("max_cost_microusd", .int budgets.maxCostMicrousd), ("timeout_seconds", .int budgets.timeoutSeconds)]

/-- The budgets that `execute` takes from the reservation of the run, which has the profile and the policy of
the run, with the category of the failure. -/
def clientBudgets (reservation : BudgetReservation) (timeoutSeconds : ℤ) : Except String RunBudgets := do
  ensure (0 < reservation.reservedCostMicrousd) "budget_exhausted"
  let budgets : RunBudgets :=
    { maxInputTokens := reservation.modelProfile.maxInputTokens
      maxOutputTokens := reservation.modelProfile.maxOutputTokens
      maxCostMicrousd := min (reservation.routingPolicy.perRunLimitMicrousd : ℤ) reservation.reservedCostMicrousd
      timeoutSeconds }
  ensure ((1 ≤ budgets.maxInputTokens ∧ budgets.maxInputTokens ≤ 1000000) ∧
    (1 ≤ budgets.maxOutputTokens ∧ budgets.maxOutputTokens ≤ 100000) ∧
    (1 ≤ budgets.maxCostMicrousd ∧ budgets.maxCostMicrousd ≤ 1000000000) ∧
    1 ≤ budgets.timeoutSeconds ∧ budgets.timeoutSeconds ≤ 300) "dependency_unavailable"
  return budgets

theorem clientBudgets_eq_ok {reservation : BudgetReservation} {timeoutSeconds : ℤ} {budgets : RunBudgets}
    (h : clientBudgets reservation timeoutSeconds = .ok budgets) :
    budgets.maxInputTokens = reservation.modelProfile.maxInputTokens ∧
      budgets.maxOutputTokens = reservation.modelProfile.maxOutputTokens ∧
      budgets.maxCostMicrousd =
        min (reservation.routingPolicy.perRunLimitMicrousd : ℤ) reservation.reservedCostMicrousd := by
  simp only [clientBudgets, bind_eq_ok, ensure_eq_ok, pure_eq_ok] at h
  obtain ⟨_, _, _, _, rfl⟩ := h
  exact ⟨rfl, rfl, rfl⟩

/-! ### Usage -/

/-- The keys of a usage, with the budgets that bound them. -/
def usageBudgets : List (String × String) :=
  [("input_tokens", "max_input_tokens"), ("output_tokens", "max_output_tokens"),
    ("cost_microusd", "max_cost_microusd")]

/-- The check of the usage in `_validate_result`; a budget that is missing is an error too. -/
def clientUsageOk (budgets usage : Message) : Bool :=
  usage.hasKeys (usageBudgets.map Prod.fst) &&
    usageBudgets.all fun (key, budget) => (budgets.int? budget).any fun maximum => usageOk usage key maximum

/-- A usage with a cost. -/
def usageMessage (inputTokens outputTokens costMicrousd : ℤ) : Message :=
  .obj [("input_tokens", .int inputTokens), ("output_tokens", .int outputTokens),
    ("cost_microusd", .int costMicrousd)]

/-- The check of a usage against the budgets of a request. -/
theorem clientUsageOk_iff (budgets : RunBudgets) (inputTokens outputTokens costMicrousd : ℤ) :
    clientUsageOk budgets.message (usageMessage inputTokens outputTokens costMicrousd) = true ↔
      (0 ≤ inputTokens ∧ inputTokens ≤ budgets.maxInputTokens) ∧
        (0 ≤ outputTokens ∧ outputTokens ≤ budgets.maxOutputTokens) ∧
        0 ≤ costMicrousd ∧ costMicrousd ≤ budgets.maxCostMicrousd := by
  simp [clientUsageOk, usageBudgets, usageMessage, RunBudgets.message, Json.hasKeys, Json.int?, Json.get?, usageOk,
    List.lookup]

/-- The cost that `execute` adds to a usage without one. -/
def priceUsage (profile : ModelProfile) (value : Message) : Except String Message :=
  let usage := (value.get? "usage").getD .null
  if usage.hasKeys ["input_tokens", "output_tokens"] then
    match usage.int? "input_tokens", usage.int? "output_tokens" with
    | some inputTokens, some outputTokens =>
      if 0 ≤ inputTokens ∧ 0 ≤ outputTokens then
        match Budget.cost profile inputTokens outputTokens with
        | .ok cost => .ok (value.setKey "usage" (usage.setKey "cost_microusd" (.int cost)))
        | .error _ => .error "invalid_output"
      else .error "invalid_output"
    | _, _ => .error "invalid_output"
  else .ok value

/-! ### Results -/

/-- `_CATEGORIES`, and the rejected capability. -/
def clientCategories : List String :=
  ["budget_exhausted", "cancelled", "dependency_unavailable", "invalid_output", "provider_unavailable", "timeout",
    "capability_rejected"]

/-- The checks of a failure: no references, and a category that goes with the status. -/
def clientFailureOk (status : String) (references failureCategory : Option Message) : Bool :=
  match failureCategory with
  | some (.str t) =>
    references == some (.arr []) && clientCategories.contains t.plain &&
      !(status == "cancelled" && t.plain != "cancelled") && !(status == "failed" && t.plain == "cancelled")
  | _ => false

/-- The ID of a reference that is accepted beside those with the IDs `ids`. -/
def clientReference (ids : List String) (reference : Message) : Option String := do
  guard (reference.hasKeys ["proposal_id", "schema_id", "proposal_digest"] = true)
  let proposalId ← (reference.text? "proposal_id").map Text.plain
  let parsed ← uuidOfText proposalId
  guard (uuidText parsed = proposalId ∧ proposalId ∉ ids)
  let schemaId ← (reference.text? "schema_id").map Text.plain
  let digest ← (reference.text? "proposal_digest").map Text.plain
  guard (isSchemaId schemaId = true ∧ isDigestHex digest = true)
  return proposalId

/-- The loop over the references. -/
def clientReferencesOk : List String → List Message → Bool
  | _, [] => true
  | ids, reference :: references =>
    match clientReference ids reference with
    | some proposalId => clientReferencesOk (proposalId :: ids) references
    | none => false

/-- The checks of a success. -/
def clientSuccessOk (references failureCategory : Option Message) : Bool :=
  match references with
  | some (.arr items) =>
    failureCategory == some .null && decide (1 ≤ items.length ∧ items.length ≤ 20) && clientReferencesOk [] items
  | _ => false

/-- `HermesClient._validate_result`: whether a result of a request is accepted. -/
def clientAccepts (uuid5 : String → Uuid) (request value : Message) : Bool :=
  value.hasKeys resultFields &&
    value.get? "schema_version" == some (.lit "1.0") &&
    (value.text? "run_id").map Text.plain == some (uuidText (runIdOf uuid5 request)) &&
    value.get? "workflow_id" == request.get? "workflow_id" &&
    (value.int? "revision_id").isSome && value.get? "revision_id" == request.get? "revision_id" &&
    match (value.text? "status").map Text.plain with
    | none => false
    | some status =>
      ["succeeded", "failed", "cancelled"].contains status &&
        clientUsageOk ((request.get? "budgets").getD .null) ((value.get? "usage").getD .null) &&
        if status = "succeeded" then
          clientSuccessOk (value.get? "proposal_references") (value.get? "failure_category")
        else clientFailureOk status (value.get? "proposal_references") (value.get? "failure_category")

end Hermes

end CivicLoop
