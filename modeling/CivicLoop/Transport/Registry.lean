import CivicLoop.Foundation.Table
import CivicLoop.Foundation.Transition
import CivicLoop.Transport.Contracts

/-!
# The scope registry

A bounded store of leases. A token is known by its digest. Its record holds the binding while the lease
is live and stays behind as a tombstone for ever; the registry also remembers the digest of every run
that has been bound. Every operation runs under one lock, so that it is one step.

An operation that raises may still have changed the registry: it has marked expired leases. So each
operation gives its outcome beside the registry after it.

## Main definitions

* `Capacity`, `Scope`, `Registry` : the configuration, a record, and the store.
* `register`, `authorize`, `reserveInference`, `revoke` : the operations.
* `Action`, `perform`, `step` : one call, with the time that passes before it.
-/

namespace CivicLoop.Transport

variable {D : Type} [DecidableEq D]

/-! ### Records -/

/-- The configuration, as the constructor checks it. -/
structure Capacity where
  maximumActive : ℕ
  maximumRecords : ℕ
  leaseCheck : Bool
  active_pos : 1 ≤ maximumActive
  active_le : maximumActive ≤ maximumRecords
  records_le : maximumRecords ≤ 1000000

/-- What has been reserved for a token. -/
structure Counters where
  inferences : ℤ
  inputTokens : ℤ
  outputTokens : ℤ
  costMicrousd : ℤ
deriving DecidableEq

def Counters.zero : Counters := ⟨0, 0, 0, 0⟩

/-- What one inference may use. -/
structure Ceilings where
  input : ℤ
  output : ℤ
  cost : ℤ

/-- The counters after one more inference. -/
def Counters.add (n : Counters) (v : Ceilings) : Counters :=
  ⟨n.inferences + 1, n.inputTokens + v.input, n.outputTokens + v.output, n.costMicrousd + v.cost⟩

/-- The counters are within the limits of a binding. -/
def Counters.within (n : Counters) (b : ScopeBinding) : Prop :=
  n.inferences ≤ b.maxInferences ∧ n.inputTokens ≤ b.maxInputTokens ∧
    n.outputTokens ≤ b.maxOutputTokens ∧ n.costMicrousd ≤ b.maxCostMicrousd

instance (n : Counters) (b : ScopeBinding) : Decidable (n.within b) :=
  inferInstanceAs (Decidable (_ ∧ _))

/-- `_Scope`. -/
structure Scope extends Counters where
  binding : Option ScopeBinding

/-- A record as it is made. -/
def Scope.fresh (binding : Option ScopeBinding) : Scope := ⟨.zero, binding⟩

/-- The record without its lease. -/
def Scope.dropped (e : Scope) : Scope := { e with binding := none }

/-- The record after one more inference. -/
def Scope.spend (v : Ceilings) (e : Scope) : Scope := { e with toCounters := e.toCounters.add v }

/-- The record at the time `now`. -/
def Scope.expire (now : Time) (e : Scope) : Scope :=
  match e.binding with
  | some b => if b.expiresAt ≤ now then e.dropped else e
  | none => e

/-- `ScopeRegistry`: the records by the digest of the token, and the digests of the runs. -/
structure Registry (D : Type) where
  scopes : Table D Scope
  runs : List D

namespace Registry

def empty : Registry D := ⟨.empty, []⟩

/-- The number of live leases. -/
def live (r : Registry D) : ℕ := r.scopes.countWhere fun e => e.binding.isSome

/-- The live lease of a token. -/
def binding? (r : Registry D) (d : D) : Option ScopeBinding := (r.scopes.get? d).bind Scope.binding

/-- `_expire`. -/
def expire (r : Registry D) (now : Time) : Registry D :=
  { r with scopes := r.scopes.mapValues (Scope.expire now) }

/-- End the lease of a token. -/
def drop (r : Registry D) (d : D) : Registry D :=
  { r with scopes := r.scopes.modify d Scope.dropped }

end Registry

/-! ### Operations -/

/-- What the lease callback does: it returns `True`, or something else, or raises. -/
inductive LeaseReply
  | isTrue
  | other
  | raises
deriving DecidableEq

def isScope (s : String) : Bool := isPrefixed "scope_" isTokenChar 43 43 s.toList

section Operations

variable (digest : String → D)

/-- `_digest`. -/
def digestOf (token : String) : Except TransportError D :=
  if isScope token then .ok (digest token) else .error .rejected

def capacityExhausted : TransportError := ⟨"Transport capacity exhausted", 503⟩

def budgetExhausted : TransportError := ⟨"Transport budget exhausted", 429⟩

/-- `register`, with its two readings of the clock. -/
def register (c : Capacity) (expireAt checkAt : Time) (token : String) (binding : ScopeBinding)
    (r : Registry D) : Except TransportError Unit × Registry D :=
  match digestOf digest token with
  | .error e => (.error e, r)
  | .ok d =>
    let r := r.expire expireAt
    match validateBinding binding checkAt with
    | .error e => (.error e, r)
    | .ok checked =>
      match r.scopes.get? d with
      | some entry =>
        if entry.binding = some checked then (.ok (), r) else (.error .rejected, r)
      | none =>
        if digest checked.runId ∈ r.runs then (.error .rejected, r)
        else if c.maximumRecords ≤ r.scopes.count ∨ c.maximumActive ≤ r.live then
          (.error capacityExhausted, r)
        else
          (.ok (), ⟨r.scopes.put d (.fresh (some checked)), digest checked.runId :: r.runs⟩)

/-- The lease is not expired, and its check passes if there is one. -/
def leaseOk (c : Capacity) (now : Time) (lease : LeaseReply) (b : ScopeBinding) : Prop :=
  now < b.expiresAt ∧ (c.leaseCheck = true → lease = .isTrue)

instance (c : Capacity) (now : Time) (lease : LeaseReply) (b : ScopeBinding) :
    Decidable (leaseOk c now lease b) := inferInstanceAs (Decidable (_ ∧ _))

/-- `authorize`. -/
def authorize (c : Capacity) (now : Time) (lease : LeaseReply) (token : String) (r : Registry D) :
    Except TransportError ScopeBinding × Registry D :=
  match digestOf digest token with
  | .error e => (.error e, r)
  | .ok d =>
    match r.binding? d with
    | some b => if leaseOk c now lease b then (.ok b, r) else (.error .rejected, r.drop d)
    | none => (.error .rejected, r)

/-- `reserve_inference`; the nonce is the fresh one of `uuid4`. -/
def reserveInference (c : Capacity) (now : Time) (lease : LeaseReply) (nonce : Uuid)
    (token : String) (v : Ceilings) (r : Registry D) : Except TransportError Uuid × Registry D :=
  if v.input ≤ 0 ∨ v.output ≤ 0 ∨ v.cost ≤ 0 then (.error budgetExhausted, r)
  else
    match authorize digest c now lease token r with
    | (.error e, r) => (.error e, r)
    | (.ok b, r) =>
      match r.scopes.get? (digest token) with
      | some entry =>
        if (entry.toCounters.add v).within b then
          (.ok nonce, { r with scopes := r.scopes.set (digest token) (entry.spend v) })
        else (.error budgetExhausted, r)
      | none => (.error budgetExhausted, r)

/-- `revoke`. -/
def revoke (c : Capacity) (token : String) (r : Registry D) :
    Except TransportError Unit × Registry D :=
  match digestOf digest token with
  | .error e => (.error e, r)
  | .ok d =>
    match r.scopes.get? d with
    | some _ => (.ok (), r.drop d)
    | none =>
      if c.maximumRecords ≤ r.scopes.count then (.error capacityExhausted, r)
      else (.ok (), { r with scopes := r.scopes.put d (.fresh none) })

/-! ### Calls -/

/-- One call. `wait` is the time that passes before it, and `lag` the time between the two readings of
the clock that `register` makes. -/
inductive Action
  | register (wait lag : ℕ) (token : String) (binding : ScopeBinding)
  | authorize (wait : ℕ) (lease : LeaseReply) (token : String)
  | reserve (wait : ℕ) (lease : LeaseReply) (nonce : Uuid) (token : String) (v : Ceilings)
  | revoke (wait : ℕ) (token : String)

/-- The registry and the clock. -/
structure State (D : Type) where
  registry : Registry D
  now : Time

/-- Whether a call raises, and the state after it. -/
def perform (c : Capacity) (s : State D) : Action → Except TransportError Unit × State D
  | .register wait lag token binding =>
    let checkAt := s.now + wait + lag
    let (result, registry) := register digest c (s.now + wait) checkAt token binding s.registry
    (result, ⟨registry, checkAt⟩)
  | .authorize wait lease token =>
    let (result, registry) := authorize digest c (s.now + wait) lease token s.registry
    (result.map fun _ => (), ⟨registry, s.now + wait⟩)
  | .reserve wait lease nonce token v =>
    let (result, registry) := reserveInference digest c (s.now + wait) lease nonce token v s.registry
    (result.map fun _ => (), ⟨registry, s.now + wait⟩)
  | .revoke wait token =>
    let (result, registry) := revoke digest c token s.registry
    (result, ⟨registry, s.now + wait⟩)

/-- The transition function. -/
def step (c : Capacity) (s : State D) (a : Action) : State D := (perform digest c s a).2

end Operations

end CivicLoop.Transport
