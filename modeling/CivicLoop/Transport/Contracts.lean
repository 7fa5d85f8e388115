import CivicLoop.Foundation.Checked
import CivicLoop.Foundation.DateTime

/-!
# The authority that crosses the transport boundary

A scope binding is the run-scoped authority that the control plane installs under a scope token: one
run at one revision, a capability and a model alias, an expiry, and four limits. It is read from a
message, and a binding that is handed over in memory is written as a message and read again.

## Main definitions

* `ScopeBinding`, `ScopeBinding.fromDict` : the binding, and how it is read.
* `validateBinding` : the second reading, by the registry.

## Main results

* `ScopeBinding.fromDict_eq_ok` : what a binding that was read satisfies.
-/

namespace CivicLoop.Transport

/-! ### Fields -/

def isRunId (s : String) : Bool := isHeaded Char.isAlphanum isRunIdChar 0 127 s.toList

def isDigestText (s : String) : Bool := isRepeat isHexDigit 64 64 s.toList

def isActorId (s : String) : Bool := isRepeat isTokenChar 1 50 s.toList

def isCapability (s : String) : Bool := isPrefixed "cap_" isTokenChar 43 125 s.toList

def isModelAlias (s : String) : Bool :=
  isHeaded Char.isLower (fun c => c.isLower || c.isDigit || c == '_' || c == '-') 2 63 s.toList

/-- The value of a hexadecimal digit. -/
def hexValue (c : Char) : ℕ := if c.isDigit then c.toNat - 48 else c.toNat - 87

/-- The UUID of a canonical text. -/
def Text.uuidOf : Text Empty → Option Uuid
  | .uuid u => some u
  | .lit s =>
    if isUuidText s.toList then
      some ((s.toList.filter (· != '-')).foldl (fun n c => 16 * n + hexValue c) 0)
    else none

/-- `_bounded_integer`. -/
def boundedInteger (value : Message) (label : String) (maximum : ℤ) : Except String ℤ :=
  match value with
  | .int n => if 1 ≤ n ∧ n ≤ maximum then .ok n else .error (label ++ " is invalid")
  | _ => .error (label ++ " is invalid")

/-- `_matched`. -/
def matched (value : Message) (pattern : String → Bool) (label : String) : Except String String :=
  match value with
  | .str t => if pattern t.plain then .ok t.plain else .error (label ++ " is invalid")
  | _ => .error (label ++ " is invalid")

/-! ### The binding -/

/-- `ScopeBinding`. The expiry is the instant; the offset in which it was written is not kept. -/
structure ScopeBinding where
  runId : String
  workflowId : Uuid
  revisionId : ℤ
  revisionDigest : String
  actorId : String
  capability : String
  modelAlias : String
  expiresAt : Time
  maxInferences : ℤ
  maxInputTokens : ℤ
  maxOutputTokens : ℤ
  maxCostMicrousd : ℤ
deriving DecidableEq

/-- `_FIELDS`. -/
def scopeFields : List String :=
  ["run_id", "workflow_id", "revision_id", "revision_digest", "actor_id", "capability",
    "model_alias", "expires_at", "max_inferences", "max_input_tokens", "max_output_tokens",
    "max_cost_microusd"]

/-- The workflow ID of a message. -/
def workflowIdOf (value : Message) : Except String Uuid :=
  match value.get? "workflow_id" with
  | some (.str t) => fetch (Text.uuidOf t) "workflow ID is invalid"
  | _ => .error "workflow ID is invalid"

/-- The expiry of a message. -/
def expiryOf (value : Message) : Except String Time :=
  match value.get? "expires_at" with
  | some (.str t) =>
    if t.plain.length ≤ 40 then fetch (parseDateTime t.plain) "scope expiry is invalid"
    else .error "scope expiry is invalid"
  | _ => .error "scope expiry is invalid"

/-- The value of a key; the keys have been checked. -/
def item (value : Message) (key : String) : Message := (value.get? key).getD .null

/-- `ScopeBinding.from_dict`. -/
def ScopeBinding.fromDict (value : Message) (now : Time) : Except String ScopeBinding := do
  ensure (value.hasKeys scopeFields) "transport scope fields are invalid"
  let workflowId ← workflowIdOf value
  let expiresAt ← expiryOf value
  ensure (now < expiresAt ∧ expiresAt ≤ now + minutes 10) "scope lifetime is invalid"
  let runId ← matched (item value "run_id") isRunId "run ID"
  let revisionId ← boundedInteger (item value "revision_id") "revision ID" (2 ^ 63 - 1)
  let revisionDigest ← matched (item value "revision_digest") isDigestText "revision digest"
  let actorId ← matched (item value "actor_id") isActorId "actor ID"
  let capability ← matched (item value "capability") isCapability "capability"
  let modelAlias ← matched (item value "model_alias") isModelAlias "model alias"
  let maxInferences ← boundedInteger (item value "max_inferences") "inference budget" 1000
  let maxInputTokens ← boundedInteger (item value "max_input_tokens") "input token budget" 1000000
  let maxOutputTokens ← boundedInteger (item value "max_output_tokens") "output token budget" 100000
  let maxCostMicrousd ← boundedInteger (item value "max_cost_microusd") "cost budget" 1000000000
  return {
    runId, workflowId, revisionId, revisionDigest, actorId, capability, modelAlias, expiresAt,
    maxInferences, maxInputTokens, maxOutputTokens, maxCostMicrousd }

/-- `binding_payload`, the metadata of a binding. -/
def bindingPayload (b : ScopeBinding) : List (String × Message) :=
  [("run_id", .lit b.runId), ("workflow_id", .str (.uuid b.workflowId)),
    ("revision_id", .int b.revisionId), ("revision_digest", .lit b.revisionDigest),
    ("actor_id", .lit b.actorId), ("model_alias", .lit b.modelAlias),
    ("expires_at", .lit (isoformat b.expiresAt)), ("max_inferences", .int b.maxInferences),
    ("max_input_tokens", .int b.maxInputTokens), ("max_output_tokens", .int b.maxOutputTokens),
    ("max_cost_microusd", .int b.maxCostMicrousd)]

/-- `TransportError`. -/
structure TransportError where
  message : String
  status : ℕ
deriving DecidableEq

/-- `TransportError()`. -/
def TransportError.rejected : TransportError := ⟨"Transport authorization rejected", 403⟩

/-- `_validate_binding`. -/
def validateBinding (b : ScopeBinding) (now : Time) : Except TransportError ScopeBinding :=
  match ScopeBinding.fromDict (.obj (bindingPayload b ++ [("capability", .lit b.capability)])) now with
  | .ok checked => .ok checked
  | .error _ => .error .rejected

/-! ### What has been checked -/

theorem boundedInteger_eq_ok {value : Message} {label : String} {maximum n : ℤ}
    (h : boundedInteger value label maximum = .ok n) : 1 ≤ n ∧ n ≤ maximum := by
  unfold boundedInteger at h
  split at h
  · split_ifs at h with hn
    obtain rfl := Except.ok.inj h
    exact hn
  · cases h

theorem matched_eq_ok {value : Message} {pattern : String → Bool} {label s : String}
    (h : matched value pattern label = .ok s) : pattern s = true := by
  unfold matched at h
  split at h
  · split_ifs at h with hs
    obtain rfl := Except.ok.inj h
    exact hs
  · cases h

/-- The checks of a binding at the time of its reading. -/
structure ScopeBinding.Valid (b : ScopeBinding) (now : Time) : Prop where
  alive : now < b.expiresAt
  lifetime : b.expiresAt ≤ now + minutes 10
  runId : isRunId b.runId = true
  modelAlias : isModelAlias b.modelAlias = true
  maxInferences : 1 ≤ b.maxInferences ∧ b.maxInferences ≤ 1000
  maxInputTokens : 1 ≤ b.maxInputTokens ∧ b.maxInputTokens ≤ 1000000
  maxOutputTokens : 1 ≤ b.maxOutputTokens ∧ b.maxOutputTokens ≤ 100000
  maxCostMicrousd : 1 ≤ b.maxCostMicrousd ∧ b.maxCostMicrousd ≤ 1000000000

/-- **A binding that was read is valid.** -/
theorem ScopeBinding.fromDict_eq_ok {value : Message} {now : Time} {b : ScopeBinding}
    (h : ScopeBinding.fromDict value now = .ok b) : b.Valid now := by
  simp only [ScopeBinding.fromDict, bind_eq_ok, ensure_eq_ok, pure_eq_ok] at h
  obtain ⟨⟨⟩, -, _, -, _, -, ⟨⟩, hlifetime, _, hrun, _, -, _, -, _, -, _, -, _, halias, _, hi, _,
    hin, _, hout, _, hcost, rfl⟩ := h
  exact ⟨hlifetime.1, hlifetime.2, matched_eq_ok hrun, matched_eq_ok halias,
    boundedInteger_eq_ok hi, boundedInteger_eq_ok hin, boundedInteger_eq_ok hout,
    boundedInteger_eq_ok hcost⟩

theorem validateBinding_eq_ok {b checked : ScopeBinding} {now : Time}
    (h : validateBinding b now = .ok checked) : checked.Valid now := by
  unfold validateBinding at h
  split at h
  · rename_i read hread
    obtain rfl := Except.ok.inj h
    exact ScopeBinding.fromDict_eq_ok hread
  · cases h

end CivicLoop.Transport
