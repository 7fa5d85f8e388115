import CivicLoop.Transport.Forward

/-!
# The transport server

Requests, worker threads and revocations that run side by side. A forward holds the registry lock from
its authorization to its end. Its request upstream takes the only I/O slot, records its I/O under the
digest of the token, and is carried out by a worker thread, which frees the slot and removes the record
when it ends; the forward waits for it no longer than its deadline. A revocation first marks the digest,
then revokes the token in the registry, and at last looks whether the I/O it found has ended.

A step is one critical section. A step of a call that is elsewhere, or that waits for the lock, leaves
the state as it is.

## Main definitions

* `Phase`, `Call` : a request and where it stands.
* `RevokePhase`, `Revocation` : a call of `revoke_scope` and where it stands.
* `Io`, `ServerState` : what the sections share.
* `ServerAction`, `serve` : the steps, and what they do.
-/

namespace CivicLoop.Transport

open Gateway

variable {D : Type} [DecidableEq D]

/-- Where a request stands. -/
inductive Phase
  /-- Before the registry lock. -/
  | waiting
  /-- Holding the lock, before the I/O slot. -/
  | acquiring (u : Upstream)
  /-- Holding the slot, before the section that records the I/O. -/
  | registering (u : Upstream)
  /-- Recorded, before the worker is started. -/
  | starting (u : Upstream)
  /-- Waiting for the worker. -/
  | awaiting (u : Upstream)
  /-- Holding the lock, with the result. -/
  | leaving (result : Except TransportError ℕ)
  | left (result : Except TransportError ℕ)

structure Call where
  request : Request
  phase : Phase

/-- A response from upstream: its status, its length, and its body if that is JSON without a repeated
key. -/
structure Response where
  status : ℕ
  length : ℕ
  body : Option Message

/-- Where a call of `revoke_scope` stands; `active` is the I/O that the first section found. -/
inductive RevokePhase
  | marking
  | revoking (active : Option ℕ)
  | checking (active : Option ℕ)
  | ended (result : Except TransportError Unit)

structure Revocation where
  token : String
  phase : RevokePhase

/-- What the sections under the I/O lock share. The I/O of a request has the number of the request:
`slot` is the holder of the I/O slot, `workers` the threads that have not ended, with the token whose
authority they carry, and `done` the events that are set, with what the worker has left. -/
structure Io (D : Type) where
  slot : Option ℕ
  scopeIo : Table D ℕ
  revokedScopes : List D
  workers : Table ℕ String
  done : Table ℕ (Option Response)

/-- The server. -/
structure ServerState (D : Type) extends Io D where
  registry : Registry D
  lockHolder : Option ℕ
  calls : Table ℕ Call
  revocations : Table ℕ Revocation

def ServerState.init : ServerState D :=
  ⟨⟨none, .empty, [], .empty, .empty⟩, .empty, none, .empty, .empty⟩

/-- The section in which an I/O ends: free the slot, set the event, remove the record. -/
def Io.close (io : Io D) (id : ℕ) (d : D) (response : Option Response) : Io D :=
  { io with slot := none, done := io.done.put id response, scopeIo := io.scopeIo.erase d }

/-- The calls when the call `id` goes on to `phase`. -/
def advance (calls : Table ℕ Call) (id : ℕ) (phase : Phase) : Table ℕ Call :=
  calls.modify id fun call => { call with phase }

namespace ServerState

/-- The call `id` goes on to `phase`. -/
def goto (s : ServerState D) (id : ℕ) (phase : Phase) : ServerState D :=
  { s with calls := advance s.calls id phase }

/-- The revocation `id` goes on to `phase`. -/
def gotoRevoke (s : ServerState D) (id : ℕ) (phase : RevokePhase) : ServerState D :=
  { s with revocations := s.revocations.modify id fun call => { call with phase } }

/-- A step of the call `id`. -/
def onCall (s : ServerState D) (id : ℕ) (f : Call → ServerState D) : ServerState D :=
  match s.calls.get? id with
  | some call => f call
  | none => s

/-- A step of the revocation `id`. -/
def onRevoke (s : ServerState D) (id : ℕ) (f : Revocation → ServerState D) : ServerState D :=
  match s.revocations.get? id with
  | some call => f call
  | none => s

end ServerState

/-- One step, with the number of the request or revocation; a new one takes a number that is free.
`inTime` is whether the deadline has not
passed and the I/O was not cancelled. -/
inductive ServerAction
  | request (id : ℕ) (q : Request) (now : Time) (lease : LeaseReply)
  | enter (id : ℕ) (v : Readings)
  | acquire (id : ℕ)
  | record (id : ℕ)
  | spawn (id : ℕ) (starts : Bool)
  | finish (id : ℕ) (response : Option Response)
  | collect (id : ℕ) (inTime : Bool)
  | leave (id : ℕ)
  | revoke (id : ℕ) (token : String)
  | mark (id : ℕ)
  | revokeRegistry (id : ℕ)
  | check (id : ℕ)
  | registry (now : Time) (a : Action)

def dependencyUnavailable : TransportError := ⟨"Transport dependency unavailable", 502⟩

/-- `TransportError(status=503)`. -/
def undrained : TransportError := ⟨"Transport authorization rejected", 503⟩

section Serve

variable (digest : String → D) (P : Primitives) (cfg : ServerConfig)

/-- What the forward makes of a response; every error of the request upstream is replaced. -/
def resultOf (q : Request) (u : Upstream) (response : Option Response) : Except TransportError ℕ :=
  match response with
  | none => .error dependencyUnavailable
  | some r =>
    let accepted := if u.path = .mcp then [200, 202] else [200]
    let secrets := secretsOf cfg q.token u.capability ++ u.assertion.toList
    match r.body with
    | some body =>
      if r.status ∈ accepted ∧ r.length ≤ 262144 ∧ body.isObj = true ∧
          containsAuthority secrets body = false then .ok r.status
      else .error dependencyUnavailable
    | none => .error dependencyUnavailable

/-- A new call. -/
def ServerState.begin (s : ServerState D) (id : ℕ) (call : Call) : ServerState D :=
  match s.calls.insert? id call with
  | some calls => { s with calls }
  | none => s

/-- A new revocation. -/
def ServerState.beginRevoke (s : ServerState D) (id : ℕ) (call : Revocation) : ServerState D :=
  match s.revocations.insert? id call with
  | some revocations => { s with revocations }
  | none => s

/-- `do_POST`, up to the forward: the token is authorized a first time. -/
def receive (s : ServerState D) (id : ℕ) (q : Request) (now : Time) (lease : LeaseReply) :
    ServerState D :=
  if s.lockHolder ≠ none then s
  else
    match authorize digest cfg.capacity now lease q.token s.registry with
    | (.ok _, r) => { s with registry := r }.begin id ⟨q, .waiting⟩
    | (.error e, r) => { s with registry := r }.begin id ⟨q, .left (.error e)⟩

/-- The forward takes the registry lock. -/
def enter (s : ServerState D) (id : ℕ) (v : Readings) (call : Call) : ServerState D :=
  match call.phase with
  | .waiting =>
    if s.lockHolder ≠ none then s
    else
      match prepareForward digest P cfg v call.request s.registry with
      | (.ok u, r) => { s with registry := r, lockHolder := some id }.goto id (.acquiring u)
      | (.error e, r) => { s with registry := r, lockHolder := some id }.goto id (.leaving (.error e))
  | _ => s

/-- `_io_slot.acquire(blocking=False)`. -/
def acquire (s : ServerState D) (id : ℕ) (call : Call) : ServerState D :=
  match call.phase with
  | .acquiring u =>
    if s.slot = none then { s with slot := some id }.goto id (.registering u)
    else s.goto id (.leaving (.error dependencyUnavailable))
  | _ => s

/-- The section of `upstream_request` that records the I/O. -/
def record (s : ServerState D) (id : ℕ) (call : Call) : ServerState D :=
  match call.phase with
  | .registering u =>
    if digest call.request.token ∈ s.revokedScopes then
      { s with slot := none }.goto id (.leaving (.error dependencyUnavailable))
    else
      { s with scopeIo := s.scopeIo.put (digest call.request.token) id }.goto id (.starting u)
  | _ => s

/-- `worker.start()`, which may raise. -/
def spawn (s : ServerState D) (id : ℕ) (starts : Bool) (call : Call) : ServerState D :=
  match call.phase with
  | .starting u =>
    if starts then { s with workers := s.workers.put id call.request.token }.goto id (.awaiting u)
    else
      { s with toIo := s.toIo.close id (digest call.request.token) none }.goto id
        (.leaving (.error dependencyUnavailable))
  | _ => s

/-- The section in which the worker `id` ends. -/
def finish (s : ServerState D) (id : ℕ) (response : Option Response) : ServerState D :=
  match s.workers.get? id with
  | some token =>
    let io := s.toIo.close id (digest token) response
    { s with toIo := { io with workers := io.workers.erase id } }
  | none => s

/-- The forward stops waiting for its worker. -/
def collect (s : ServerState D) (id : ℕ) (inTime : Bool) (call : Call) : ServerState D :=
  match call.phase with
  | .awaiting u =>
    -- The event may not be set, or be set without a result.
    let response := if inTime then (s.done.get? id).join else none
    s.goto id (.leaving (resultOf cfg call.request u response))
  | _ => s

/-- The forward releases the registry lock. -/
def leave (s : ServerState D) (id : ℕ) (call : Call) : ServerState D :=
  match call.phase with
  | .leaving result => { s with lockHolder := none }.goto id (.left result)
  | _ => s

/-- The first section of `revoke_scope`. -/
def mark (s : ServerState D) (id : ℕ) (call : Revocation) : ServerState D :=
  match call.phase with
  | .marking =>
    let d := digest call.token
    if d ∈ s.revokedScopes then s.gotoRevoke id (.revoking (s.scopeIo.get? d))
    else if cfg.capacity.maximumRecords ≤ s.revokedScopes.length then
      s.gotoRevoke id (.ended (.error undrained))
    else
      { s with revokedScopes := d :: s.revokedScopes }.gotoRevoke id (.revoking (s.scopeIo.get? d))
  | _ => s

/-- `registry.revoke`, which waits for the registry lock. -/
def revokeRegistry (s : ServerState D) (id : ℕ) (call : Revocation) : ServerState D :=
  match call.phase with
  | .revoking active =>
    if s.lockHolder ≠ none then s
    else
      match Transport.revoke digest cfg.capacity call.token s.registry with
      | (.ok (), r) => { s with registry := r }.gotoRevoke id (.checking active)
      | (.error e, r) => { s with registry := r }.gotoRevoke id (.ended (.error e))
  | _ => s

/-- The end of `revoke_scope`. -/
def check (s : ServerState D) (id : ℕ) (call : Revocation) : ServerState D :=
  match call.phase with
  | .checking active =>
    if active.all fun io => (s.done.get? io).isSome then s.gotoRevoke id (.ended (.ok ()))
    else s.gotoRevoke id (.ended (.error undrained))
  | _ => s

/-- `revoke_scope`, before its first section. -/
def receiveRevoke (s : ServerState D) (id : ℕ) (token : String) : ServerState D :=
  match digestOf digest token with
  | .ok _ => s.beginRevoke id ⟨token, .marking⟩
  | .error e => s.beginRevoke id ⟨token, .ended (.error e)⟩

/-- Another call of the registry, which waits for its lock. -/
def callRegistry (s : ServerState D) (now : Time) (a : Action) : ServerState D :=
  if s.lockHolder ≠ none then s
  else { s with registry := (step digest cfg.capacity ⟨s.registry, now⟩ a).registry }

/-- One step. -/
def serve (s : ServerState D) : ServerAction → ServerState D
  | .request id q now lease => receive digest cfg s id q now lease
  | .enter id v => s.onCall id (enter digest P cfg s id v)
  | .acquire id => s.onCall id (acquire s id)
  | .record id => s.onCall id (record digest s id)
  | .spawn id starts => s.onCall id (spawn digest s id starts)
  | .finish id response => finish digest s id response
  | .collect id inTime => s.onCall id (collect cfg s id inTime)
  | .leave id => s.onCall id (leave s id)
  | .revoke id token => receiveRevoke digest s id token
  | .mark id => s.onRevoke id (mark digest cfg s id)
  | .revokeRegistry id => s.onRevoke id (revokeRegistry digest cfg s id)
  | .check id => s.onRevoke id (check s id)
  | .registry now a => callRegistry digest cfg s now a

end Serve

end CivicLoop.Transport
