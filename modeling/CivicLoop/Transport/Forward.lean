import CivicLoop.Gateway.Assertion
import CivicLoop.Transport.Registry

/-!
# Forwarding

What the handler does under the registry lock before it sends a request upstream: it authorizes the
token, refuses a body that carries authority, and gives an MCP request the capability of the binding or
an inference request a budget assertion. The readings of the clock and the replies of the callbacks
are given from outside, in the order in which they are made.

## Main definitions

* `Pricing.worstCaseCost` : the cost that is reserved for an inference.
* `containsAuthority` : the search for authority in a value.
* `inferenceAssertion`, `prepareForward` : what is sent.
-/

namespace CivicLoop

mutual

/-- Whether a text of the value, or a key, satisfies `p`. -/
def Json.anyText (p : String → Bool) : Message → Bool
  | .str t => p t.plain
  | .arr items => anyTextList p items
  | .obj items => anyTextItems p items
  | _ => false

def Json.anyTextList (p : String → Bool) : List Message → Bool
  | [] => false
  | j :: items => Json.anyText p j || Json.anyTextList p items

def Json.anyTextItems (p : String → Bool) : List (String × Message) → Bool
  | [] => false
  | (key, j) :: items => p key || Json.anyText p j || Json.anyTextItems p items

end

namespace Transport

open Gateway

variable {D : Type} [DecidableEq D]

/-! ### Configuration -/

/-- `TransportPricing`. -/
structure Pricing where
  inputMicrousdPerMillion : ℤ
  outputMicrousdPerMillion : ℤ
  input_rate : 1 ≤ inputMicrousdPerMillion ∧ inputMicrousdPerMillion ≤ 10 ^ 12
  output_rate : 1 ≤ outputMicrousdPerMillion ∧ outputMicrousdPerMillion ≤ 10 ^ 12

/-- `worst_case_cost`. -/
def Pricing.worstCaseCost (p : Pricing) (inputBytes maxOutputTokens : ℤ) : Except String ℤ := do
  ensure (0 < inputBytes ∧ 0 < maxOutputTokens) "Transport reservation is invalid"
  return (inputBytes * p.inputMicrousdPerMillion + maxOutputTokens * p.outputMicrousdPerMillion +
    999999) / 1000000

/-- `_credential`. -/
def isCredential (s : String) : Bool :=
  isRepeat (fun c => 33 ≤ c.toNat && c.toNat ≤ 126) 16 512 s.toList

/-- What the server is constructed with. -/
structure ServerConfig where
  capacity : Capacity
  controlToken : String
  clientToken : String
  mcpToken : String
  gatewayToken : String
  assertionKey : List UInt8
  pricing : Pricing
  credentials : ∀ s ∈ [controlToken, clientToken, mcpToken, gatewayToken], isCredential s = true
  distinct : [controlToken, clientToken, mcpToken, gatewayToken].Nodup
  key_length : 32 ≤ assertionKey.length

/-! ### Authority in a value -/

/-- `_AUTHORITY` matches at the beginning of the characters. -/
def startsAuthority (cs : List Char) : Bool :=
  let secret (beginning : String) :=
    beginning.toList.isPrefixOf cs && 43 ≤ ((cs.drop beginning.length).takeWhile isTokenChar).length
  let payload := cs.takeWhile isTokenChar
  let signed :=
    match cs.drop payload.length with
    | '.' :: rest => 80 ≤ payload.length && 43 ≤ (rest.takeWhile isTokenChar).length
    | _ => false
  secret "scope_" || secret "cap_" || signed

/-- `part in whole`. -/
def isInfix (part whole : String) : Bool := whole.toList.tails.any part.toList.isPrefixOf

/-- `_contains_authority`. -/
def containsAuthority (secrets : List String) (value : Message) : Bool :=
  value.anyText fun s => s.toList.tails.any startsAuthority || secrets.any (isInfix · s)

/-! ### Requests -/

inductive Path
  | mcp
  | inference
deriving DecidableEq

/-- A data request: its scope token, its path, the length of its body, and the body as it is read. -/
structure Request where
  token : String
  path : Path
  length : ℕ
  body : Message

/-- What the handler is told while it prepares a request. -/
structure Readings where
  enabled : Bool
  lease : LeaseReply
  leaseAgain : LeaseReply
  nonce : Uuid
  authorizeAt : Time
  reserveAt : Time
  issueAt : Time
  sendAt : Time

/-- What is sent upstream beside the body: the capability of the binding, or a budget assertion. -/
structure Upstream where
  path : Path
  capability : String
  assertion : Option String

/-- `TransportError(status=400)`, which is also the reply to a `ValueError`. -/
def badRequest : TransportError := ⟨"Transport authorization rejected", 400⟩

/-- The `max_tokens` of an inference request that may be reserved for. -/
def maxTokensOf (b : ScopeBinding) (body : Message) : Except TransportError ℤ := do
  ensure ((body.text? "model").map Text.plain = some b.modelAlias) badRequest
  let maximum ← fetch (body.int? "max_tokens") badRequest
  ensure (1 ≤ maximum ∧ maximum ≤ 100000) badRequest
  ensure ((body.get? "stream").all (· = .bool false)) badRequest
  return maximum

section Prepare

variable (digest : String → D) (P : Primitives) (cfg : ServerConfig)

/-- What is reserved for an inference. -/
def ceilingsOf (b : ScopeBinding) (q : Request) : Except TransportError Ceilings := do
  let maximum ← maxTokensOf b q.body
  match cfg.pricing.worstCaseCost q.length maximum with
  | .ok cost => return ⟨q.length, maximum, cost⟩
  | .error _ => .error badRequest

/-- The assertion of an inference: reserve, and sign. -/
def inferenceAssertion (v : Readings) (q : Request) (b : ScopeBinding) (r : Registry D) :
    Except TransportError String × Registry D :=
  match ceilingsOf cfg b q with
  | .error e => (.error e, r)
  | .ok ceilings =>
    match reserveInference digest cfg.capacity v.reserveAt v.leaseAgain v.nonce q.token ceilings r with
    | (.error e, r) => (.error e, r)
    | (.ok nonce, r) =>
      match issueBudgetAssertion P cfg.assertionKey b.runId b.modelAlias b.maxOutputTokens
        (min b.expiresAt (v.issueAt + seconds 300)) (uuidText nonce) with
      | .ok assertion => (.ok assertion, r)
      | .error _ => (.error badRequest, r)

/-- The credentials that no body may carry. -/
def secretsOf (token capability : String) : List String :=
  [token, capability, cfg.controlToken, cfg.clientToken, cfg.mcpToken, cfg.gatewayToken]

/-- What is sent, once the body has been checked. -/
def upstreamOf (v : Readings) (q : Request) (b : ScopeBinding) (r : Registry D) :
    Except TransportError Upstream × Registry D :=
  match q.path with
  | .mcp => (.ok ⟨.mcp, b.capability, none⟩, r)
  | .inference =>
    match inferenceAssertion digest P cfg v q b r with
    | (.ok assertion, r) => (.ok ⟨.inference, b.capability, some assertion⟩, r)
    | (.error e, r) => (.error e, r)

/-- `_forward`, up to the request upstream. -/
def prepareForward (v : Readings) (q : Request) (r : Registry D) :
    Except TransportError Upstream × Registry D :=
  match authorize digest cfg.capacity v.authorizeAt v.lease q.token r with
  | (.error e, r) => (.error e, r)
  | (.ok b, r) =>
    if v.enabled = false then (.error .rejected, (revoke digest cfg.capacity q.token r).2)
    else if containsAuthority (secretsOf cfg q.token b.capability) q.body then (.error badRequest, r)
    else
      match upstreamOf digest P cfg v q b r with
      | (.error e, r) => (.error e, r)
      | (.ok u, r) => if b.expiresAt ≤ v.sendAt then (.error .rejected, r) else (.ok u, r)

end Prepare

end Transport

end CivicLoop
