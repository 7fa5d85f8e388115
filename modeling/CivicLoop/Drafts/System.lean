import CivicLoop.Drafts.Service

/-!
# The draft service as a transition system

The state is the one of the agent service, the platform, the two tables, and the calls of `execute_*`
and `reconcile_*` that are under way. Submissions and approvals are one transaction each. A call takes
many steps: it reads the provider, the flag and the session, claims the row (or reads it again, to
reconcile), leases the secret, checks the row once more, calls the adapter, reads the stored row in
`save` and writes the new one; on an exception after the claim a handler writes the row. A call may
stop after any step, and everything else may happen between two of its steps.

The secret store and the adapters are the environment: a lease may fail, and an adapter may return any
receipt or raise anything. The reads of one function outside a transaction (`_session`, `_reference`
and `validate_execution`) are taken together.

## Main definitions

* `CallPhase`, `Call` : where a call stands.
* `State`, `Action`, `step` : the transition system.
* `ProviderRequest`, `requestOf` : what a call asks an adapter for.
* `Event`, `events` : the approvals, the claims and the adapter calls of a run.
* `CallStep`, `callStep_spec` : what a step of a call can do.

## References

Source: `backend/integrations/draft_operations.py`, lines 351–452 and 638–717.
-/

namespace CivicLoop.Drafts

variable {D : Type} [DecidableEq D]

/-- Where a call stands: at its next step. -/
inductive CallPhase (D : Type)
  | opening
  | gating
  | referencing
  | claiming
  | connecting (op : Operation D)
  | leasing (op : Operation D)
  | rechecking (op : Operation D)
  | validating (op : Operation D)
  | calling (op : Operation D)
  | storing (op : Operation D) (receipt : Option (DraftReceipt D))
  | saving (op : Operation D) (row : Execution D)
  | handling (op : Operation D) (failure : Failure)

/-- The row in memory, once the row is claimed or read again. -/
def CallPhase.op? : CallPhase D → Option (Operation D)
  | opening | gating | referencing | claiming => none
  | connecting op | leasing op | rechecking op | validating op | calling op | storing op _
  | saving op _ | handling op _ => some op

/-- The row is claimed and the adapter is not called yet. -/
def CallPhase.dispatching : CallPhase D → Bool
  | connecting _ | leasing _ | rechecking _ | validating _ | calling _ => true
  | _ => false

/-- A call of `execute_*` or `reconcile_*` on a row. The path is the provider whose code it runs. -/
structure Call (D : Type) where
  user : RequestUser
  sessionId : Uuid
  ref : ExecutionRef
  reconcile : Bool
  path : DraftProvider
  phase : CallPhase D

/-- The state of the service. -/
structure State (D : Type) where
  agents : Agents.State D
  platform : Platform D
  executions : Executions D
  calls : Table ℕ (Call D)

def State.ledger (s : State D) : Ledger D := ⟨s.agents.db, s.platform, s.executions⟩

/-- A new installation. -/
def start (world : World D) (platform : Platform D) : State D where
  agents := ⟨.initial world, .empty⟩
  platform := platform
  executions := .empty
  calls := .empty

/-- What an adapter does: it returns a receipt, or something else, or raises an error of its own with
a category, or any other exception. -/
inductive AdapterOutcome (D : Type)
  | returns (receipt : Option (DraftReceipt D))
  | raises (category : Option String)

/-- What the environment chooses for a step of a call: a reading of the clock, whether the secret
store or the database serves it, and what the adapter does. -/
structure CallInput (D : Type) where
  now : Time
  ok : Bool
  outcome : AdapterOutcome D

/-- One step of the service or of its environment. -/
inductive Action (D : Type)
  | agents (action : Agents.Action D)
  | changePlatform (platform : Platform D)
  | submitDraft (input : TransactionInput) (user : RequestUser) (request : SubmitRequest D)
  | submitTemplate (input : TransactionInput) (user : RequestUser) (intentId runId : Uuid)
      (sender region : Json D)
  | approve (input : TransactionInput) (user : RequestUser) (sessionId : Uuid)
      (ref : ExecutionRef) (reviewDigest : Text D) (revisionId : ℤ)
  | call (id : ℕ) (user : RequestUser) (sessionId : Uuid) (ref : ExecutionRef) (reconcile : Bool)
  | advance (id : ℕ) (input : CallInput D)
  | crash (id : ℕ)

/-! ### The steps of a call -/

/-- A call as it begins; on a template it runs the code of Iterable. -/
def newCall (user : RequestUser) (sessionId : Uuid) (ref : ExecutionRef) (reconcile : Bool) :
    Call D where
  user
  sessionId
  ref
  reconcile
  path := .iterable
  phase := if ref.1 = .draft then .opening else .gating

/-- The call in another phase. -/
def Call.at (call : Call D) (phase : CallPhase D) : Option (Call D) := some { call with phase }

/-- The call after an exception behind the claim: it has a handler, unless it is a reconciliation at
Eventbrite. -/
def Call.raise (call : Call D) (op : Operation D) (failure : Failure) : Option (Call D) :=
  if call.path = .eventbrite ∧ call.reconcile then none else call.at (.handling op failure)

/-- The call goes on if `x` does not raise, and ends otherwise. -/
def orEnd {α : Type} (x : Except DraftError α) (next : α → Option (Call D)) : Option (Call D) :=
  match x with
  | .ok a => next a
  | .error _ => none

/-- The call goes on if `x` does not raise, and is handled otherwise. -/
def orHandle {α : Type} (call : Call D) (op : Operation D) (x : Except DraftError α)
    (next : α → Option (Call D)) : Option (Call D) :=
  match x with
  | .ok a => next a
  | .error _ => call.raise op .unconfirmed

/-- `DraftExecution.objects.get(pk=operation_id).intent.provider`. -/
def providerOf (s : State D) (ref : ExecutionRef) : Except DraftError DraftProvider := do
  let row ← fetch (s.executions.get? ref) .doesNotExist
  let operation ← fetch (s.agents.db.operations.get? row.intent) .doesNotExist
  return operation.provider

/-- The flag and the session of a path. -/
def gate (s : State D) (now : Time) (call : Call D) : Except DraftError Unit := do
  enabled s.platform call.path
  session s.agents.db.world now call.user call.sessionId

/-- The checks of a claimed call inside the lease. -/
def recheck (s : State D) (now : Time) (call : Call D) : Except DraftError Unit :=
  match call.path with
  | .eventbrite => enabled s.platform .eventbrite
  | .iterable => gate s now call

/-- The environment's choices for a transaction of a call, which creates no row. -/
def CallInput.transaction (input : CallInput D) : TransactionInput := ⟨input.now, 0, !input.ok⟩

/-- The phase after a claim; the connection of Eventbrite was read before it. -/
def claimedPhase (path : DraftProvider) (op : Operation D) : CallPhase D :=
  match path with
  | .eventbrite => .leasing op
  | .iterable => .connecting op

/-- The transaction in which a call claims its row, or the checks with which it reads it again. -/
def claimStep (H : Hash D) (zones : String → Bool) (s : State D) (call : Call D)
    (input : CallInput D) : Executions D × Option (Call D) :=
  if call.reconcile then
    (s.executions, orEnd (reopen input.transaction H zones call.path call.user call.ref s.ledger)
      fun op => call.at (.connecting op))
  else
    match claim input.transaction H zones call.path call.user call.ref s.ledger with
    | .ok (op, e) => (e, call.at (claimedPhase call.path op))
    | .error _ => (s.executions, none)

/-- The write of `save`. -/
def saveStep (s : State D) (call : Call D) (input : CallInput D) (op : Operation D)
    (row : Execution D) : Executions D × Option (Call D) :=
  if input.ok ∧ row.constraintsOk then (s.executions.set op.ref row, none)
  else (s.executions, call.raise op .unconfirmed)

/-- The write of a handler. -/
def handleStep (s : State D) (input : CallInput D) (op : Operation D) (failure : Failure) :
    Executions D × Option (Call D) :=
  match s.executions.get? op.ref with
  | some row =>
    if input.ok ∧ (failedRow row failure input.now).constraintsOk then
      (s.executions.set op.ref (failedRow row failure input.now), none)
    else (s.executions, none)
  | none => (s.executions, none)

/-- The next step of a call: the tables, and the call unless it ends. -/
def callStep (H : Hash D) (zones : String → Bool) (s : State D) (call : Call D)
    (input : CallInput D) : Executions D × Option (Call D) :=
  match call.phase with
  | .opening =>
    (s.executions, orEnd (providerOf s call.ref) fun path =>
      some { call with path, phase := .gating })
  | .gating =>
    (s.executions, orEnd (gate s input.now call) fun _ =>
      call.at (if call.path = .eventbrite ∧ call.reconcile = false then .referencing
        else .claiming))
  | .referencing =>
    (s.executions, orEnd (reference s.platform .eventbrite) fun _ => call.at .claiming)
  | .claiming => claimStep H zones s call input
  | .connecting op =>
    (s.executions, orHandle call op (connect s.platform call.path op) fun _ =>
      call.at (.leasing op))
  | .leasing op =>
    (s.executions, if input.ok then
      call.at (if call.path = .eventbrite ∧ call.reconcile then .calling op else .rechecking op)
    else call.raise op .unconfirmed)
  | .rechecking op =>
    (s.executions, orHandle call op (recheck s input.now call) fun _ => call.at (.validating op))
  | .validating op =>
    (s.executions, orHandle call op
      (validateExecution H zones s.agents.db s.executions input.now (!call.reconcile) op)
      fun _ => call.at (.calling op))
  | .calling op =>
    (s.executions, match input.outcome with
    | .returns receipt => call.at (.storing op receipt)
    | .raises category => call.raise op (failureOf call.path category))
  | .storing op receipt =>
    (s.executions, orHandle call op (storeReceipt input.now call.path op receipt s.executions)
      fun row => call.at (.saving op row))
  | .saving op row => saveStep s call input op row
  | .handling op failure => handleStep s input op failure

/-- Move a call to its next phase, or end it. -/
def setCall (id : ℕ) (call : Option (Call D)) (calls : Table ℕ (Call D)) : Table ℕ (Call D) :=
  match call with
  | some call => calls.set id call
  | none => calls.erase id

/-- The transition function. -/
def step (H : Hash D) (E : Engine D) (zones : String → Bool) (s : State D) (a : Action D) :
    State D :=
  match a with
  | .agents action => { s with agents := Agents.step H E s.agents action }
  | .changePlatform platform => { s with platform }
  | .submitDraft input user request =>
    { s with executions := commit s.executions (submitDraft input H zones user request s.ledger) }
  | .submitTemplate input user intentId runId sender region =>
    { s with
      executions := commit s.executions
        (submitTemplate input H user intentId runId sender region s.ledger) }
  | .approve input user sessionId ref reviewDigest revisionId =>
    match approve input H zones user sessionId ref reviewDigest revisionId s.ledger with
    | .ok executions => { s with executions }
    | .error _ => s
  | .call id user sessionId ref reconcile =>
    match s.calls.insert? id (newCall user sessionId ref reconcile) with
    | some calls => { s with calls }
    | none => s
  | .advance id input =>
    match s.calls.get? id with
    | some call =>
      let (executions, call) := callStep H zones s call input
      { s with executions, calls := setCall id call s.calls }
    | none => s
  | .crash id => { s with calls := s.calls.erase id }

/-! ### What a run puts out -/

/-- What a call asks an adapter for. -/
inductive ProviderRequest (D : Type)
  | createEvent (organizationId : Text D) (payload : Json D)
  | updateEvent (organizationId eventId : Text D) (payload : Json D)
      (expectedReadbackDigest : Text D)
  | reconcileEvent (organizationId eventId : Text D) (payload : Json D) (requestDigest : D)
      (action : DraftAction)
  | createCampaign (payload region expectedTemplateDigest : Json D)
  | reconcileCampaign (payload region expectedTemplateDigest : Json D) (campaignId : Text D)
      (requestDigest : D)
  | createTemplate (payload region : Json D)
  | reconcileTemplate (payload region : Json D) (providerId : Option (Text D)) (requestDigest : D)

/-- The request is a create or an update. -/
def ProviderRequest.isWrite : ProviderRequest D → Bool
  | createEvent .. | updateEvent .. | createCampaign .. | createTemplate .. => true
  | _ => false

/-- A value of the provider configuration, which the checks of the row have found there. -/
def configured (row : Execution D) (key : String) : Json D :=
  (row.providerConfiguration.get? key).getD .null

/-- The arguments of an adapter call for a row. -/
def providerRequest (path : DraftProvider) (model : ExecutionModel) (reconcile : Bool)
    (row : Execution D) : ProviderRequest D :=
  match path, model, reconcile, row.action with
  | .eventbrite, _, false, .create => .createEvent row.organizationId row.payload
  | .eventbrite, _, false, .update =>
    .updateEvent row.organizationId row.eventId row.payload row.expectedReadbackDigest
  | .eventbrite, _, true, action =>
    .reconcileEvent row.organizationId row.providerId row.payload row.requestDigest action
  | .iterable, .draft, false, _ =>
    .createCampaign row.payload (configured row "region")
      (configured row "expected_template_digest")
  | .iterable, .draft, true, _ =>
    .reconcileCampaign row.payload (configured row "region")
      (configured row "expected_template_digest") row.providerId row.requestDigest
  | .iterable, .template, false, _ => .createTemplate row.payload (configured row "region")
  | .iterable, .template, true, _ =>
    .reconcileTemplate row.payload (configured row "region") (orNone row.providerId)
      row.requestDigest

/-- What a call asks its adapter for. -/
def requestOf (call : Call D) (op : Operation D) : ProviderRequest D :=
  providerRequest call.path call.ref.1 call.reconcile op.row

/-- An approval, a claim, or a call of an adapter. -/
inductive Event (D : Type)
  | approved (ref : ExecutionRef) (user : ℕ) (sessionId : Uuid)
  | claimed (ref : ExecutionRef) (user : ℕ)
  | called (ref : ExecutionRef) (user : ℕ) (reconcile : Bool) (request : ProviderRequest D)

/-- An event, with the state and the time in which it happens. -/
structure Occurrence (D : Type) where
  state : State D
  now : Time
  event : Event D

/-- The event of a step of a call. -/
def callEvent (H : Hash D) (zones : String → Bool) (s : State D) (call : Call D)
    (input : CallInput D) : Option (Event D) :=
  match call.phase with
  | .claiming =>
    if call.reconcile then none
    else
      match claim input.transaction H zones call.path call.user call.ref s.ledger with
      | .ok _ => some (.claimed call.ref call.user.pk)
      | .error _ => none
  | .calling op => some (.called call.ref call.user.pk call.reconcile (requestOf call op))
  | _ => none

/-- What a step puts out. -/
def events (H : Hash D) (zones : String → Bool) (s : State D) (a : Action D) :
    List (Occurrence D) :=
  match a with
  | .approve input user sessionId ref reviewDigest revisionId =>
    match approve input H zones user sessionId ref reviewDigest revisionId s.ledger with
    | .ok _ => [⟨s, input.now, .approved ref user.pk sessionId⟩]
    | .error _ => []
  | .advance id input =>
    match s.calls.get? id with
    | some call => ((callEvent H zones s call input).map fun event => ⟨s, input.now, event⟩).toList
    | none => []
  | _ => []

end CivicLoop.Drafts
