import CivicLoop.Foundation.Checked
import CivicLoop.Foundation.DateTime
import Mathlib

/-!
# Requests for a run, and results

A run is asked for by a message of eight fields, one of them a capability. Between the adapter and the
controller it travels without the capability, in an envelope with an expiry. The identifier of the run
is made of the correlation ID, as it was written. The result of a run is a message too; the controller
lets only the closed form of it through.

## Main definitions

* `uuidOfText` : how a UUID is read.
* `validateRunRequest`, `validateEnvelope` : what is accepted.
* `runIdOf` : the identifier of a run.
* `validResult` : the closed form of a result.

## Main results

* `status_of_validResult` : a valid result has one of three statuses.
-/

namespace CivicLoop.Hermes

/-! ### UUIDs as they are written -/

/-- The text without the occurrences of `pattern`; the next `skip` characters belong to one. -/
def removeAll (pattern : List Char) : ℕ → List Char → List Char
  | _, [] => []
  | skip + 1, _ :: cs => removeAll pattern skip cs
  | 0, c :: cs =>
    if pattern.isPrefixOf (c :: cs) then removeAll pattern (pattern.length - 1) cs
    else c :: removeAll pattern 0 cs

/-- A digit in base 16; the decimal digits of every script count. -/
def hexDigitValue (c : Char) : Option ℕ :=
  match decimalValue c with
  | some n => some n
  | none =>
    if 'a' ≤ c ∧ c ≤ 'f' then some (c.toNat - 87)
    else if 'A' ≤ c ∧ c ≤ 'F' then some (c.toNat - 55)
    else none

/-- Digits in base 16, with single underscores between them. -/
def hexNumber : Bool → ℕ → List Char → Option ℕ
  | afterDigit, n, [] => if afterDigit then some n else none
  | afterDigit, n, c :: cs =>
    if c = '_' then if afterDigit then hexNumber false n cs else none
    else
      match hexDigitValue c with
      | some d => hexNumber true (16 * n + d) cs
      | none => none

/-- `int(text, 16)`, of a text without a minus sign. -/
def intOfHex (text : List Char) : Option ℕ :=
  let cs := (text.dropWhile isSpace).rdropWhile isSpace
  let cs := if cs.head? = some '+' then cs.drop 1 else cs
  match cs with
  | '0' :: x :: rest =>
    if x = 'x' ∨ x = 'X' then hexNumber false 0 (if rest.head? = some '_' then rest.drop 1 else rest)
    else hexNumber false 0 cs
  | _ => hexNumber false 0 cs

/-- `uuid.UUID`. -/
def uuidOfText (s : String) : Option Uuid :=
  let cs := removeAll "uuid:".toList 0 (removeAll "urn:".toList 0 s.toList)
  let brace (c : Char) : Bool := c.toNat = 123 || c.toNat = 125
  let cs := ((cs.dropWhile brace).rdropWhile brace).filter (· != '-')
  if cs.length = 32 then intOfHex cs else none

/-! ### The request -/

/-- `_uuid`. -/
def uuidField (value : Option Message) (label : String) : Except String Uuid :=
  match value with
  | some (.str t) =>
    if t.plain.length ≤ 36 then fetch (uuidOfText t.plain) (label ++ " is invalid")
    else .error (label ++ " is invalid")
  | _ => .error (label ++ " is invalid")

/-- `_integer`. -/
def integerField (value : Option Message) (label : String) (minimum maximum : ℤ) : Except String ℤ :=
  match value with
  | some (.int n) => if minimum ≤ n ∧ n ≤ maximum then .ok n else .error (label ++ " is invalid")
  | _ => .error (label ++ " is invalid")

/-- The text of a key, when it has the form `pattern`. -/
def textField (value : Option Message) (pattern : String → Bool) (error : String) : Except String String :=
  match value with
  | some (.str t) => if pattern t.plain then .ok t.plain else .error error
  | _ => .error error

/-- `REQUEST_FIELDS` without the capability. -/
def envelopeFields : List String :=
  ["schema_version", "workflow_id", "revision_id", "actor_id", "correlation_id", "model_alias", "budgets"]

/-- `REQUEST_FIELDS`. -/
def requestFields : List String := "capability_token" :: envelopeFields

/-- `BUDGET_FIELDS`. -/
def budgetFields : List String :=
  ["max_input_tokens", "max_output_tokens", "max_cost_microusd", "timeout_seconds"]

/-- `MODEL_ALIAS`. -/
def modelAlias : String := "civicloop-default"

/-- `MAX_BODY_BYTES`. -/
def maxBodyBytes : ℕ := 32768

def isActor (s : String) : Bool := isRepeat isTokenChar 1 50 s.toList

/-- `CAPABILITY_TOKEN`. -/
def isCapabilityToken (s : String) : Bool := isPrefixed "cap_" isTokenChar 43 125 s.toList

/-- The checks of the budgets. -/
def validateBudgets (budgets : Option Message) (maximumTimeout : ℤ) : Except String ℤ := do
  let budgets := budgets.getD .null
  ensure (budgets.hasKeys budgetFields) "budget fields are invalid"
  let _ ← integerField (budgets.get? "max_input_tokens") "input token budget" 1 1000000
  let _ ← integerField (budgets.get? "max_output_tokens") "output token budget" 1 100000
  let _ ← integerField (budgets.get? "max_cost_microusd") "cost budget" 1 1000000000
  integerField (budgets.get? "timeout_seconds") "timeout budget" 1 maximumTimeout

/-- `validate_run_request`; returned is the timeout. -/
def validateRunRequest (body : Message) (alias_ : String) (maximumTimeout : ℤ) : Except String ℤ := do
  ensure (body.hasKeys requestFields) "request fields are invalid"
  let _ ← textField (body.get? "schema_version") (· == "1.0") "schema version is invalid"
  let _ ← uuidField (body.get? "workflow_id") "workflow id"
  let _ ← uuidField (body.get? "correlation_id") "correlation id"
  let _ ← integerField (body.get? "revision_id") "revision id" 1 (2 ^ 63 - 1)
  let _ ← textField (body.get? "actor_id") isActor "actor id is invalid"
  let _ ← textField (body.get? "capability_token") isCapabilityToken "capability token is invalid"
  let _ ← textField (body.get? "model_alias") (· == alias_) "model alias is not allowed"
  validateBudgets (body.get? "budgets") maximumTimeout

/-- `map_upstream_result(request, _)["run_id"]`. -/
def runIdOf (uuid5 : String → Uuid) (request : Message) : Uuid :=
  uuid5 ("urn:civicloop:run:" ++ ((request.text? "correlation_id").map Text.plain).getD "")

/-! ### The envelope -/

/-- The items of a dictionary. -/
def itemsOf : Message → List (String × Message)
  | .obj items => items
  | _ => []

/-- The capability that the validation is given in place of the one that stays behind. -/
def sampleCapability : Message := .lit ("cap_" ++ String.ofList (List.replicate 43 'x'))

/-- The expiry of an envelope. -/
def envelopeExpiry (body : Message) : Except String Time :=
  match body.get? "expires_at" with
  | some (.str t) => if t.plain.length ≤ 40 then fetch (parseDateTime t.plain) "" else .error ""
  | _ => .error ""

/-- `validate_envelope`, on the two clocks; returned are the request and the deadline. -/
def validateEnvelope (now monotonic : Time) (body : Message) : Except String (Message × Time) := do
  ensure (body.hasKeys ["request", "expires_at"]) ""
  let request := (body.get? "request").getD .null
  ensure (request.hasKeys envelopeFields) ""
  let timeout ← validateRunRequest (.obj (itemsOf request ++ [("capability_token", sampleCapability)]))
    modelAlias 600
  let date ← envelopeExpiry body
  ensure (date - now ≤ seconds timeout) ""
  return (request, monotonic + (date - now))

/-! ### Results -/

/-- `SCHEMA_ID`. -/
def isSchemaId (s : String) : Bool := isPrefixed "urn:civicloop:schema:" isRunIdChar 1 135 s.toList

def isDigestHex (s : String) : Bool := isRepeat isHexDigit 64 64 s.toList

/-- One reference of `_proposal_references`. -/
def proposalReference (value : Message) : Except String (Uuid × String × String) := do
  ensure (value.hasKeys ["proposal_id", "schema_id", "proposal_digest"])
    "Hermes proposal reference is invalid"
  let proposalId ← uuidField (value.get? "proposal_id") "proposal ID"
  let schemaId ← textField (value.get? "schema_id") isSchemaId "proposal schema ID is invalid"
  let digest ← textField (value.get? "proposal_digest") isDigestHex "proposal digest is invalid"
  return (proposalId, schemaId, digest)

/-- `_proposal_references`, of the output that holds `values`. -/
def proposalReferences (values : Message) : Except String (List (Uuid × String × String)) :=
  match values with
  | .arr items => do
    ensure ((Json.obj [("proposal_references", values)]).encodedLengthWith Json.asciiLength 1 ≤ maxBodyBytes)
      "Hermes output is invalid"
    ensure (1 ≤ items.length ∧ items.length ≤ 20) "Hermes proposal references are invalid"
    let references ← items.mapM proposalReference
    ensure references.Nodup "duplicate proposal reference"
    return references
  | _ => .error "Hermes proposal references are invalid"

/-- The keys of a result. -/
def resultFields : List String :=
  ["schema_version", "run_id", "workflow_id", "revision_id", "status", "proposal_references", "usage",
    "failure_category"]

/-- One usage within its ceiling. -/
def usageOk (usage : Message) (key : String) (ceiling : ℤ) : Bool :=
  match usage.get? key with
  | some (.int n) => 0 ≤ n && n ≤ ceiling
  | _ => false

/-- The usage of a result, with a cost or without one. -/
def validUsage (usage : Message) : Bool :=
  let tokens := usageOk usage "input_tokens" 1000000 && usageOk usage "output_tokens" 100000
  (usage.hasKeys ["input_tokens", "output_tokens"] && tokens) ||
    (usage.hasKeys ["input_tokens", "output_tokens", "cost_microusd"] && tokens &&
      usageOk usage "cost_microusd" 1000000000)

/-- The categories of a failure. -/
def failureCategories : List Message :=
  [.lit "invalid_output", .lit "cancelled", .lit "provider_unavailable", .lit "capability_rejected",
    .lit "timeout", .lit "dependency_unavailable"]

/-- Whether `validate_result` accepts a result of a request. -/
def validResult (uuid5 : String → Uuid) (request result : Message) : Bool :=
  let status := (result.text? "status").map Text.plain
  let references := (result.get? "proposal_references").getD .null
  let failureCategory := (result.get? "failure_category").getD .null
  result.hasKeys resultFields &&
    result.get? "schema_version" == some (.lit "1.0") &&
    result.uuid? "run_id" == some (runIdOf uuid5 request) &&
    result.get? "workflow_id" == request.get? "workflow_id" &&
    result.get? "revision_id" == request.get? "revision_id" &&
    [some "succeeded", some "failed", some "cancelled"].contains status &&
    validUsage ((result.get? "usage").getD .null) &&
    (if status = some "succeeded" then (proposalReferences references).isOk && failureCategory == .null
      else references == .arr [] && failureCategories.contains failureCategory) &&
    result.encodedLengthWith Json.asciiLength 1 ≤ maxBodyBytes

/-- A valid result has one of three statuses. -/
theorem status_of_validResult {uuid5 : String → Uuid} {request result : Message}
    (h : validResult uuid5 request result = true) :
    (result.text? "status").map Text.plain ∈ [some "succeeded", some "failed", some "cancelled"] := by
  simp only [validResult, Bool.and_eq_true, List.contains_iff_mem] at h
  exact h.1.1.1.2

end CivicLoop.Hermes
