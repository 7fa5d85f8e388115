import CivicLoop.Foundation.Calendar
import CivicLoop.Foundation.PyText
import CivicLoop.Foundation.Table
import CivicLoop.Foundation.Transition

/-!
# The child of the process controller

The process controller starts one child at a time and owns it, with the bridge and the home it has given
it. A run comes to its end where it is asked for its status, where it is stopped, where its execution
finishes it, and where its start fails. On each of these paths the run is retired: the child is made to
exit, the bridge is drained and closed, the scope is revoked if there is a client to revoke it with, and
the home is removed. If anything of this fails the controller is quarantined, and keeps the run.

The parts of the controller that run under its lock are atomic. An execution takes them in turn, with
calls of the child between them. What the child, the bridge, the drain, the revocation and the clock do
is decided by the environment. A child is named by the number of its run.

## Main definitions

* `ProcessController` : the controller, with a log of what was done to the children.
* `retire`, `admit`, `status`, `stop`, `finish` : the parts under the lock.
* `Execution.advance` : the next step of `execute`.
* `ControllerSound` : what holds of the children and the history in every run.

## Main results

* `controllerSound` : it does.
* `not_alwaysRevoked` : a controller without a transport client retires a child and leaves its scope.
-/

namespace CivicLoop.Hermes

/-! ### Runs -/

/-- How a run ends. -/
inductive RunEnd
  | succeeded
  | failed
  | cancelled
deriving DecidableEq

/-- The status of a `ControllerRun`. -/
inductive RunStatus
  | running
  | over (how : RunEnd)
deriving DecidableEq

/-- `_OwnedRun`. The child is there once it was started. -/
structure OwnedRun (D : Type) where
  requestDigest : D
  scopeDigest : D
  scopeToken : String
  runId : String
  child : Option ℕ
  deadline : Time

/-- An entry of the history: the digests, and the run. -/
structure HistoryEntry (D : Type) where
  requestDigest : D
  scopeDigest : D
  run : RunStatus

/-- What was done to a child. -/
inductive ChildEvent
  | started (i : ℕ)
  | exited (i : ℕ)
  | drained (i : ℕ)
  | closed (i : ℕ)
  | revoked (i : ℕ)
deriving DecidableEq

/-- `ProcessController`, with the number of the runs it has made and the log of what was done. -/
structure ProcessController (D : Type) where
  quarantined : Bool
  active : Option (OwnedRun D)
  history : Table String (HistoryEntry D)
  hold : List (OwnedRun D)
  made : ℕ
  log : List ChildEvent

def ProcessController.initial (D : Type) : ProcessController D := ⟨false, none, .empty, [], 0, []⟩

/-! ### Retirement -/

/-- What happens in a retirement: whether the bridge closes its admissions; whether the child has exited
when it is polled, exits when it is terminated, exits when it is killed; what the drain and the closing
of the bridge return, if they do; whether the requests to the child are drained; whether the revocation
and the removal of the home return. -/
structure RetireOutcome where
  admissions : Bool
  poll : Option Bool
  terminate : Bool
  kill : Bool
  drain : Option Bool
  close : Option Bool
  apiDrain : Bool
  revoke : Bool
  cleanup : Bool

/-- The child has exited. -/
def RetireOutcome.exited (r : RetireOutcome) : Bool :=
  match r.poll with
  | none => false
  | some true => true
  | some false => r.terminate || r.kill

/-- The bridge is closed, which is tried once the drain has returned. -/
def RetireOutcome.closed (r : RetireOutcome) : Bool := r.drain.isSome && r.close == some true

section Controller

variable {D : Type} (hasClient : Bool)

/-- `_retire`: whether the run was retired safely, and what was done. -/
def retire (child : Option ℕ) (r : RetireOutcome) : Bool × List ChildEvent :=
  let safe := r.admissions
  let safe := safe && (child.isNone || r.exited)
  let safe := safe && r.drain == some true && r.closed
  let safe := safe && r.apiDrain
  let safe := safe && (!hasClient || r.revoke)
  let safe := safe && r.cleanup
  let events := match child with
    | none => []
    | some i =>
      (if r.exited then [.exited i] else []) ++ (if r.drain == some true then [.drained i] else []) ++
        (if r.closed then [.closed i] else []) ++ (if hasClient && r.revoke then [.revoked i] else [])
  (safe, events)

/-- The retirement of the active run, and its entry in the history. -/
def ProcessController.retireActive (s : ProcessController D) (owned : OwnedRun D)
    (prior : HistoryEntry D) (state : RunStatus) (r : RetireOutcome) :
    RunStatus × ProcessController D :=
  let q := retire hasClient owned.child r
  let result := if q.1 then state else .over .failed
  (result, { s with
    quarantined := s.quarantined || !q.1
    hold := if q.1 then s.hold else s.hold ++ [owned]
    active := none
    history := s.history.set owned.runId { prior with run := result }
    log := s.log ++ q.2 })

/-- What `status` meets: the exit code, whether the deadline is over, and the retirement. -/
structure StatusInput where
  poll : Option Bool
  late : Bool
  retire : RetireOutcome

/-- `status`. -/
def status (runId : String) (i : StatusInput) (s : ProcessController D) :
    Except Unit RunStatus × ProcessController D :=
  match s.history.get? runId with
  | none => (.error (), s)
  | some prior =>
    match s.active with
    | none => (.ok prior.run, s)
    | some owned =>
      if owned.runId ≠ runId then (.ok prior.run, s)
      else
        match i.poll with
        -- the poll of the child has raised
        | none => (.error (), s)
        | some exited =>
          if !exited && !i.late then (.ok .running, s)
          else
            let q := s.retireActive hasClient owned prior (.over (if exited then .failed else .cancelled))
              i.retire
            (.ok q.1, q.2)

/-- `stop`. -/
def stop (runId : String) (r : RetireOutcome) (s : ProcessController D) :
    Except Unit RunStatus × ProcessController D :=
  match s.history.get? runId with
  | none => (.error (), s)
  | some prior =>
    match s.active with
    | none => (.ok prior.run, s)
    | some owned =>
      if owned.runId ≠ runId then (.ok prior.run, s)
      else
        let q := s.retireActive hasClient owned prior (.over .cancelled) r
        (.ok q.1, q.2)

/-- `_finish`. -/
def finish (runId : String) (state : RunEnd) (r : RetireOutcome) (s : ProcessController D) :
    Except Unit Unit × ProcessController D :=
  match s.history.get? runId, s.active with
  | some prior, some owned =>
    if owned.runId ≠ runId then (.error (), s)
    else
      let q := s.retireActive hasClient owned prior (.over state) r
      (if (retire hasClient owned.child r).1 then .ok () else .error (), q.2)
  | _, _ => (.error (), s)

/-! ### Admission -/

variable (uuid5 : Message → String) (requestDigest : Message → D) (scopeDigest : String → D)
  (maximumRecords : ℕ)

/-- How a start goes on after its timeout is known: the bridge or the home is not made, the run fails
before its child is started, or after that, or it is ready. -/
inductive StartOutcome
  | unmade
  | unstarted (r : RetireOutcome)
  | unready (r : RetireOutcome)
  | ready

/-- The input of `admit`: the request, the token and the deadline of the scope; the two readings of the
clock and what happens in the start; and what a `status` meets. -/
structure AdmitInput where
  request : Message
  scopeToken : String
  deadline : Option Time
  now : Time
  later : Time
  start : StartOutcome
  status : StatusInput

/-- The same request, and the same scope. -/
def AdmitInput.Same (i j : AdmitInput) : Prop :=
  i.request.canon = j.request.canon ∧ i.scopeToken = j.scopeToken

/-- The run ID of a request. -/
def AdmitInput.runId (i : AdmitInput) : Option String :=
  let runId := match i.request.get? "run_id" with
    | none | some .null => (i.request.get? "correlation_id").map uuid5
    | some (.str t) => some t.plain
    | some _ => none
  runId.filter fun s => 0 < s.length && s.length ≤ 128

/-- The timeout of a request, in seconds. -/
def AdmitInput.timeout (i : AdmitInput) : Option ℤ :=
  let budgets := (i.request.get? "budgets").getD .null
  let timeout := match i.request.get? "timeout_seconds" with
    | none | some .null => budgets.int? "timeout_seconds"
    | some (.int n) => some n
    | some _ => none
  timeout.filter fun n => 0 < n && n ≤ 600

/-- The deadline of a run. A scope deadline of zero counts as none. -/
def AdmitInput.runDeadline (i : AdmitInput) (timeout : ℤ) : Time :=
  match i.deadline with
  | some d => if d = 0 then i.now + seconds timeout else min (i.now + seconds timeout) d
  | none => i.now + seconds timeout

/-- A run that has failed in its start is retired, and held if that is not safe. -/
def ProcessController.abandon (s : ProcessController D) (owned : OwnedRun D) (r : RetireOutcome) :
    ProcessController D :=
  let q := retire hasClient owned.child r
  { s with
    quarantined := s.quarantined || !q.1
    hold := if q.1 then s.hold else s.hold ++ [owned]
    made := s.made + 1
    log := s.log ++ (owned.child.toList.map .started ++ q.2) }

/-- `_start_owned_run`, and the rest of `admit`. -/
def startOwnedRun (runId : String) (i : AdmitInput) (s : ProcessController D) :
    Except Unit RunStatus × ProcessController D :=
  match i.timeout with
  | none => (.error (), s)
  | some timeout =>
    if i.runDeadline timeout ≤ i.later then (.error (), s)
    else
      let owned : OwnedRun D := ⟨requestDigest i.request.canon, scopeDigest i.scopeToken, i.scopeToken, runId,
        none, i.runDeadline timeout⟩
      match i.start with
      | .unmade => (.error (), s)
      | .unstarted r => (.error (), s.abandon hasClient owned r)
      | .unready r => (.error (), s.abandon hasClient { owned with child := some s.made } r)
      | .ready =>
        (.ok .running, { s with
          active := some { owned with child := some s.made }
          history := s.history.put runId ⟨owned.requestDigest, owned.scopeDigest, .running⟩
          made := s.made + 1
          log := s.log ++ [.started s.made] })

/-- `admit`. -/
def admitRun [DecidableEq D] (i : AdmitInput) (s : ProcessController D) :
    Except Unit RunStatus × ProcessController D :=
  match i.runId uuid5 with
  | none => (.error (), s)
  | some runId =>
    match s.history.get? runId with
    | some prior =>
      if prior.requestDigest ≠ requestDigest i.request.canon ∨ prior.scopeDigest ≠ scopeDigest i.scopeToken then
        (.error (), s)
      else if s.active.isNone then (.ok prior.run, s)
      else status hasClient runId i.status s
    | none =>
      if s.quarantined = true ∨ s.active.isSome = true ∨ maximumRecords ≤ s.history.count then (.error (), s)
      else startOwnedRun hasClient requestDigest scopeDigest runId i s

/-! ### Execution -/

/-- What a call of the child comes to. -/
inductive ChildReply
  | raised
  | terminal (how : RunEnd)
  | waitingForApproval
  | other

/-- Where an execution is. -/
inductive ExecutionPhase
  | admitting
  | checking (runId : String)
  | creating (runId : String)
  | looping (runId : String)
  | fetching (runId : String)
  | finishing (runId : String) (how : RunEnd)
  | stopping (runId : String) (returns : Bool)
  | ended (returned : Bool)

/-- What an execution meets in its next step. -/
structure ExecutionInput where
  admitRun : AdmitInput
  status : StatusInput
  late : Bool
  child : ChildReply
  retire : RetireOutcome

variable [DecidableEq D]

/-- The next step of `execute`. -/
def ExecutionPhase.advance (p : ExecutionPhase) (i : ExecutionInput) (s : ProcessController D) :
    ExecutionPhase × ProcessController D :=
  match p with
  | .admitting =>
    let q := admitRun hasClient uuid5 requestDigest scopeDigest maximumRecords i.admitRun s
    match q.1, i.admitRun.runId uuid5 with
    | .ok _, some runId => (.checking runId, q.2)
    | _, _ => (.ended false, q.2)
  | .checking runId => (if s.active.any (·.runId = runId) then .creating runId else .ended false, s)
  | .creating runId =>
    (match i.child with
      | .raised => .stopping runId false
      | _ => .looping runId, s)
  | .looping runId =>
    if i.late then (.finishing runId .failed, s)
    else
      let q := status hasClient runId i.status s
      (if q.1 = .ok .running then .fetching runId else .stopping runId false, q.2)
  | .fetching runId =>
    (match i.child with
      | .raised => .stopping runId false
      | .terminal how => .finishing runId how
      | .waitingForApproval => .finishing runId .failed
      | .other => .looping runId, s)
  | .finishing runId how =>
    let q := finish hasClient runId how i.retire s
    (.stopping runId q.1.isOk, q.2)
  | .stopping runId returns =>
    let q := stop hasClient runId i.retire s
    (.ended (returns && !(q.1 = .ok (.over .failed) && q.2.quarantined)), q.2)
  | .ended returned => (.ended returned, s)

/-! ### The system -/

/-- The controller, and its executions. -/
structure ControllerSystem (D : Type) where
  controller : ProcessController D
  executions : List ExecutionPhase

/-- A step of the system. -/
inductive ControllerAction
  | admitRun (i : AdmitInput)
  | status (runId : String) (i : StatusInput)
  | stop (runId : String) (r : RetireOutcome)
  | finish (runId : String) (state : RunEnd) (r : RetireOutcome)
  | execute
  | execution (k : ℕ) (i : ExecutionInput)

/-- One step. -/
def controllerStep (s : ControllerSystem D) : ControllerAction → ControllerSystem D
  | .admitRun i =>
    { s with controller := (admitRun hasClient uuid5 requestDigest scopeDigest maximumRecords i s.controller).2 }
  | .status runId i => { s with controller := (status hasClient runId i s.controller).2 }
  | .stop runId r => { s with controller := (stop hasClient runId r s.controller).2 }
  | .finish runId state r => { s with controller := (finish hasClient runId state r s.controller).2 }
  | .execute => { s with executions := s.executions ++ [.admitting] }
  | .execution k i =>
    match s.executions[k]? with
    | some p =>
      let q := p.advance hasClient uuid5 requestDigest scopeDigest maximumRecords i s.controller
      ⟨q.2, s.executions.set k q.1⟩
    | none => s

/-- The system after a run from the start. -/
def controllerRun (as : List ControllerAction) : ControllerSystem D :=
  Transition.run (controllerStep hasClient uuid5 requestDigest scopeDigest maximumRecords)
    ⟨.initial D, []⟩ as

/-- The step admits a run, in `admit` or in an execution. -/
def Admits (s : ControllerSystem D) (i : AdmitInput) : ControllerAction → Prop
  | .admitRun j => j = i
  | .execution k j => s.executions[k]? = some .admitting ∧ j.admitRun = i
  | _ => False

/-- A child was retired safely. -/
def RetiredSafely (log : List ChildEvent) (i : ℕ) : Prop :=
  ChildEvent.exited i ∈ log ∧ ChildEvent.drained i ∈ log ∧ ChildEvent.closed i ∈ log ∧
    (hasClient = true → ChildEvent.revoked i ∈ log)

/-- **What holds of the children and of the history in every run.** -/
structure ControllerSound : Prop where
  /-- A child is the active one, was retired safely, or is held in quarantine. -/
  children : ∀ as i,
    let s := (controllerRun hasClient uuid5 requestDigest scopeDigest maximumRecords as).controller
    ChildEvent.started i ∈ s.log →
      (∃ o, s.active = some o ∧ o.child = some i) ∨ RetiredSafely hasClient s.log i ∨
        s.quarantined = true ∧ ∃ o ∈ s.hold, o.child = some i
  quarantined : ∀ as bs,
    (controllerRun hasClient uuid5 requestDigest scopeDigest maximumRecords as).controller.quarantined =
      true →
    (controllerRun hasClient uuid5 requestDigest scopeDigest maximumRecords
      (as ++ bs)).controller.quarantined = true
  /-- A child is started when there is no other and no quarantine. -/
  starts : ∀ as a i,
    let s := (controllerRun hasClient uuid5 requestDigest scopeDigest maximumRecords as).controller
    ChildEvent.started i ∉ s.log →
    ChildEvent.started i ∈
      (controllerRun hasClient uuid5 requestDigest scopeDigest maximumRecords (as ++ [a])).controller.log →
    s.quarantined = false ∧ s.active = none
  /-- The entry of a run that is over does not change. -/
  history : ∀ as bs runId e,
    (controllerRun hasClient uuid5 requestDigest scopeDigest maximumRecords as).controller.history.get?
      runId = some e →
    e.run ≠ .running →
    (controllerRun hasClient uuid5 requestDigest scopeDigest maximumRecords
      (as ++ bs)).controller.history.get? runId = some e
  /-- A run that was admitted is not started again, and its admission with another request or scope is
  refused. -/
  admitted : Function.Injective requestDigest → Function.Injective scopeDigest → ∀ as a bs i j,
    let s := controllerRun hasClient uuid5 requestDigest scopeDigest maximumRecords as
    let t := (controllerRun hasClient uuid5 requestDigest scopeDigest maximumRecords
      (as ++ a :: bs)).controller
    Admits s i a →
    (admitRun hasClient uuid5 requestDigest scopeDigest maximumRecords i s.controller).1.isOk = true →
    i.runId uuid5 = j.runId uuid5 →
    (∀ k, ChildEvent.started k ∈
        (admitRun hasClient uuid5 requestDigest scopeDigest maximumRecords j t).2.log →
      ChildEvent.started k ∈ t.log) ∧
    (¬ i.Same j → admitRun hasClient uuid5 requestDigest scopeDigest maximumRecords j t = (.error (), t))

/-! ### What the parts under the lock can do -/

section Parts

omit [DecidableEq D]

/-- A safe retirement has done all that there is to do. -/
theorem retiredSafely_of_retire {i : ℕ} {r : RetireOutcome} (h : (retire hasClient (some i) r).1 = true)
    (log : List ChildEvent) : RetiredSafely hasClient (log ++ (retire hasClient (some i) r).2) i := by
  simp only [retire, Option.isNone_some, Bool.false_or, Bool.and_eq_true, Bool.or_eq_true,
    Bool.not_eq_true'] at h
  obtain ⟨⟨⟨⟨⟨⟨-, hexited⟩, hdrained⟩, hclosed⟩, -⟩, hrevoked⟩, -⟩ := h
  refine ⟨?_, ?_, ?_, fun hclient => ?_⟩
  · simp [retire, hexited]
  · simp [retire, hdrained]
  · simp [retire, hclosed]
  · have hrevoke : r.revoke = true := hrevoked.resolve_left (by simp [hclient])
    simp [retire, hclient, hrevoke]

theorem not_started_of_retire {i : ℕ} {child : Option ℕ} {r : RetireOutcome} :
    ChildEvent.started i ∉ (retire hasClient child r).2 := by
  cases child with
  | none => simp [retire]
  | some k =>
    simp only [retire, List.mem_append, not_or]
    refine ⟨⟨⟨?_, ?_⟩, ?_⟩, ?_⟩ <;> split_ifs <;> simp

theorem RetiredSafely.mono {log log' : List ChildEvent} {i : ℕ} (h : RetiredSafely hasClient log i)
    (hlog : ∀ e ∈ log, e ∈ log') : RetiredSafely hasClient log' i :=
  ⟨hlog _ h.1, hlog _ h.2.1, hlog _ h.2.2.1, fun hclient => hlog _ (h.2.2.2 hclient)⟩

/-- What a part under the lock can do. -/
inductive PartEffect (s s' : ProcessController D) : Prop
  | still (h : s' = s)
  | abandoned (owned : OwnedRun D) (r : RetireOutcome) (hfree : s.active = none)
    (hquarantined : s.quarantined = false) (hchild : ∀ i, owned.child = some i → i = s.made)
    (h : s' = s.abandon hasClient owned r)
  | started (owned : OwnedRun D) (hfree : s.active = none) (hquarantined : s.quarantined = false)
    (hnew : s.history.get? owned.runId = none) (hchild : owned.child = some s.made)
    (h : s' = { s with
      active := some owned
      history := s.history.put owned.runId ⟨owned.requestDigest, owned.scopeDigest, .running⟩
      made := s.made + 1
      log := s.log ++ [.started s.made] })
  | retired (owned : OwnedRun D) (prior : HistoryEntry D) (how : RunEnd) (r : RetireOutcome)
    (hactive : s.active = some owned) (hget : s.history.get? owned.runId = some prior)
    (h : s' = (s.retireActive hasClient owned prior (.over how) r).2)

theorem status_effect (runId : String) (i : StatusInput) (s : ProcessController D) :
    PartEffect hasClient s (status hasClient runId i s).2 := by
  rw [status]
  cases hget : s.history.get? runId with
  | none => exact .still rfl
  | some prior =>
    cases hactive : s.active with
    | none => exact .still rfl
    | some owned =>
      simp only
      split_ifs with hrun
      · exact .still rfl
      · obtain rfl := not_ne_iff.1 hrun
        cases i.poll with
        | none => exact .still rfl
        | some exited =>
          simp only
          split_ifs
          · exact .still rfl
          · exact .retired owned prior .failed i.retire hactive hget rfl
          · exact .retired owned prior .cancelled i.retire hactive hget rfl

theorem stop_effect (runId : String) (r : RetireOutcome) (s : ProcessController D) :
    PartEffect hasClient s (stop hasClient runId r s).2 := by
  rw [stop]
  cases hget : s.history.get? runId with
  | none => exact .still rfl
  | some prior =>
    cases hactive : s.active with
    | none => exact .still rfl
    | some owned =>
      simp only
      split_ifs with hrun
      · exact .still rfl
      · obtain rfl := not_ne_iff.1 hrun
        exact .retired owned prior .cancelled r hactive hget rfl

theorem finish_effect (runId : String) (state : RunEnd) (r : RetireOutcome) (s : ProcessController D) :
    PartEffect hasClient s (finish hasClient runId state r s).2 := by
  rw [finish]
  cases hget : s.history.get? runId with
  | none => exact .still rfl
  | some prior =>
    cases hactive : s.active with
    | none => exact .still rfl
    | some owned =>
      simp only
      by_cases hrun : owned.runId = runId
      · subst hrun
        rw [if_neg (not_not.2 rfl)]
        exact .retired owned prior state r hactive hget rfl
      · rw [if_pos hrun]
        exact .still rfl

theorem startOwnedRun_effect {runId : String} (i : AdmitInput) {s : ProcessController D}
    (hnew : s.history.get? runId = none) (hfree : s.active = none) (hquarantined : s.quarantined = false) :
    PartEffect hasClient s (startOwnedRun hasClient requestDigest scopeDigest runId i s).2 := by
  rw [startOwnedRun]
  cases i.timeout with
  | none => exact .still rfl
  | some timeout =>
    simp only
    split_ifs with hlate
    · exact .still rfl
    · cases i.start with
      | unmade => exact .still rfl
      | unstarted r => exact .abandoned _ r hfree hquarantined (fun _ h => (by cases h)) rfl
      | unready r =>
        exact .abandoned _ r hfree hquarantined (fun _ h => (Option.some.inj h).symm) rfl
      | ready => exact .started _ hfree hquarantined hnew rfl rfl

end Parts

theorem admit_effect (i : AdmitInput) (s : ProcessController D) :
    PartEffect hasClient s (admitRun hasClient uuid5 requestDigest scopeDigest maximumRecords i s).2 := by
  rw [admitRun]
  cases i.runId uuid5 with
  | none => exact .still rfl
  | some runId =>
    cases hget : s.history.get? runId with
    | some prior =>
      simp only [hget]
      split_ifs
      · exact .still rfl
      · exact .still rfl
      · exact status_effect hasClient runId i.status s
    | none =>
      simp only [hget]
      split_ifs with hbusy
      · exact .still rfl
      · rw [not_or, not_or, Bool.not_eq_true, Bool.not_eq_true, Option.isSome_eq_false_iff,
          Option.isNone_iff_eq_none] at hbusy
        exact startOwnedRun_effect hasClient requestDigest scopeDigest i hget hbusy.2.1 hbusy.1

theorem execution_effect (p : ExecutionPhase) (i : ExecutionInput) (s : ProcessController D) :
    PartEffect hasClient s
      (p.advance hasClient uuid5 requestDigest scopeDigest maximumRecords i s).2 := by
  cases p with
  | admitting =>
    have h := admit_effect hasClient uuid5 requestDigest scopeDigest maximumRecords i.admitRun s
    simp only [ExecutionPhase.advance]
    split <;> exact h
  | checking runId => exact .still rfl
  | creating runId => exact .still rfl
  | looping runId =>
    simp only [ExecutionPhase.advance]
    split_ifs
    · exact .still rfl
    · exact status_effect hasClient runId i.status s
    · exact status_effect hasClient runId i.status s
  | fetching runId => exact .still rfl
  | finishing runId how => exact finish_effect hasClient runId how i.retire s
  | stopping runId returns => exact stop_effect hasClient runId i.retire s
  | ended returned => exact .still rfl

theorem controllerStep_effect (s : ControllerSystem D) (a : ControllerAction) :
    PartEffect hasClient s.controller
      (controllerStep hasClient uuid5 requestDigest scopeDigest maximumRecords s a).controller := by
  cases a with
  | admitRun i => exact admit_effect hasClient uuid5 requestDigest scopeDigest maximumRecords i s.controller
  | status runId i => exact status_effect hasClient runId i s.controller
  | stop runId r => exact stop_effect hasClient runId r s.controller
  | finish runId state r => exact finish_effect hasClient runId state r s.controller
  | execute => exact .still rfl
  | execution k i =>
    simp only [controllerStep]
    cases s.executions[k]? with
    | none => exact .still rfl
    | some p => exact execution_effect hasClient uuid5 requestDigest scopeDigest maximumRecords p i s.controller

/-! ### The invariant -/

section Invariant

omit [DecidableEq D]

/-- The invariant of the controller. -/
structure ProcessController.Inv (s : ProcessController D) : Prop where
  children : ∀ i, ChildEvent.started i ∈ s.log →
    (∃ o, s.active = some o ∧ o.child = some i) ∨ RetiredSafely hasClient s.log i ∨
      ∃ o ∈ s.hold, o.child = some i
  held : s.hold ≠ [] → s.quarantined = true
  live : ∀ runId e, s.history.get? runId = some e →
    (e.run = .running ↔ ∃ o, s.active = some o ∧ o.runId = runId)

theorem ProcessController.inv_initial : (ProcessController.initial D).Inv hasClient where
  children i h := by cases h
  held h := absurd rfl h
  live runId e h := by cases h

variable {hasClient}
variable {s s' : ProcessController D}

/-- A run that was retired is safe or held. -/
theorem retired_or_held (hold : List (OwnedRun D)) (log : List ChildEvent) (owned : OwnedRun D)
    (r : RetireOutcome) {i : ℕ} (hi : owned.child = some i) :
    RetiredSafely hasClient (log ++ (retire hasClient owned.child r).2) i ∨
      ∃ o ∈ if (retire hasClient owned.child r).1 then hold else hold ++ [owned], o.child = some i := by
  by_cases hsafe : (retire hasClient owned.child r).1 = true
  · left
    rw [hi] at hsafe ⊢
    exact retiredSafely_of_retire hasClient hsafe log
  · right
    rw [if_neg hsafe]
    exact ⟨owned, List.mem_append_right _ (List.mem_singleton_self owned), hi⟩

theorem mem_hold_of_mem {hold : List (OwnedRun D)} {owned o : OwnedRun D} {safe : Bool} (h : o ∈ hold) :
    o ∈ if safe then hold else hold ++ [owned] := by
  split_ifs
  · exact h
  · exact List.mem_append_left _ h

/-- The hold is empty, or the controller is quarantined, also after a run that was not retired safely is
held. -/
theorem held_or_safe {hold : List (OwnedRun D)} {owned : OwnedRun D} {safe quarantined : Bool}
    (hs : hold ≠ [] → quarantined = true) (h : (if safe then hold else hold ++ [owned]) ≠ []) :
    (quarantined || !safe) = true := by
  cases safe with
  | true => rw [hs h, Bool.true_or]
  | false => rw [Bool.not_false, Bool.or_true]

theorem PartEffect.inv (h : PartEffect hasClient s s') (hs : s.Inv hasClient) : s'.Inv hasClient := by
  cases h with
  | still h => exact h ▸ hs
  | abandoned owned r hfree hquarantined hchild h =>
    subst h
    refine ⟨fun i hi => ?_, held_or_safe hs.held, hs.live⟩
    have hlog : ∀ e ∈ s.log, e ∈ (s.abandon hasClient owned r).log := fun e he =>
      List.mem_append_left _ he
    simp only [ProcessController.abandon, List.mem_append, Option.mem_toList, List.mem_map] at hi
    rcases hi with hi | ⟨k, hk, heq⟩ | hi
    · rcases hs.children i hi with ⟨o, ho, -⟩ | hsafe | ⟨o, ho, hchild⟩
      · rw [hfree] at ho
        cases ho
      · exact .inr (.inl (hsafe.mono hasClient hlog))
      · exact .inr (.inr ⟨o, mem_hold_of_mem ho, hchild⟩)
    · obtain rfl : k = i := by simpa using heq
      simp only [ProcessController.abandon, ← List.append_assoc]
      exact .inr (retired_or_held s.hold (s.log ++ owned.child.toList.map .started) owned r hk)
    · exact absurd hi (not_started_of_retire hasClient)
  | started owned hfree hquarantined hnew hchild h =>
    subst h
    refine ⟨fun i hi => ?_, hs.held, fun runId e he => ?_⟩
    · rcases List.mem_append.1 hi with hi | hi
      · rcases hs.children i hi with ⟨o, ho, -⟩ | hsafe | hheld
        · rw [hfree] at ho
          cases ho
        · exact .inr (.inl (hsafe.mono hasClient fun e he => List.mem_append_left _ he))
        · exact .inr (.inr hheld)
      · obtain rfl : i = s.made := by simpa using hi
        exact .inl ⟨owned, rfl, hchild⟩
    · simp only [Table.get?_put] at he
      simp only [Option.some.injEq, exists_eq_left']
      split_ifs at he with hrun
      · rw [← Option.some.inj he]
        exact ⟨fun _ => hrun.symm, fun _ => rfl⟩
      · rw [hs.live runId e he, hfree]
        simp [Ne.symm hrun]
  | retired owned prior how r hactive hget h =>
    subst h
    refine ⟨fun i hi => ?_, held_or_safe hs.held, fun runId e he => ?_⟩
    · simp only [ProcessController.retireActive, List.mem_append] at hi
      rcases hi with hi | hi
      · rcases hs.children i hi with ⟨o, ho, hchild⟩ | hsafe | ⟨o, ho, hchild⟩
        · obtain rfl : owned = o := Option.some.inj (hactive.symm.trans ho)
          exact .inr (retired_or_held s.hold s.log owned r hchild)
        · exact .inr (.inl (hsafe.mono hasClient fun e he => List.mem_append_left _ he))
        · exact .inr (.inr ⟨o, mem_hold_of_mem ho, hchild⟩)
      · exact absurd hi (not_started_of_retire hasClient)
    · have hover : e.run ≠ .running := by
        simp only [ProcessController.retireActive, Table.get?_set, hget, Option.map_some] at he
        split_ifs at he with hrun hsafe
        · rw [← Option.some.inj he]
          intro hrunning
          cases hrunning
        · rw [← Option.some.inj he]
          intro hrunning
          cases hrunning
        · rw [ne_eq, hs.live runId e he, hactive]
          simp [Ne.symm hrun]
      refine ⟨fun h => absurd h hover, ?_⟩
      rintro ⟨_, ho, -⟩
      cases ho

/-- What stays: the quarantine, the digests of an entry, and an entry that is over. -/
theorem PartEffect.keeps (h : PartEffect hasClient s s') (hs : s.Inv hasClient) :
    (s.quarantined = true → s'.quarantined = true) ∧ ∀ runId e, s.history.get? runId = some e →
      ∃ e', s'.history.get? runId = some e' ∧ e'.requestDigest = e.requestDigest ∧
        e'.scopeDigest = e.scopeDigest ∧ (e.run ≠ .running → e' = e) := by
  have hsame : ∀ runId e, s.history.get? runId = some e → s'.history.get? runId = s.history.get? runId →
      ∃ e', s'.history.get? runId = some e' ∧ e'.requestDigest = e.requestDigest ∧
        e'.scopeDigest = e.scopeDigest ∧ (e.run ≠ .running → e' = e) :=
    fun runId e he heq => ⟨e, heq.trans he, rfl, rfl, fun _ => rfl⟩
  cases h with
  | still h => exact h ▸ ⟨id, fun runId e he => ⟨e, he, rfl, rfl, fun _ => rfl⟩⟩
  | abandoned owned r hfree hquarantined hchild h =>
    subst h
    exact ⟨fun hq => absurd hq (by simp [hquarantined]), fun runId e he => hsame runId e he rfl⟩
  | started owned hfree hquarantined hnew hchild h =>
    subst h
    refine ⟨id, fun runId e he => hsame runId e he (Table.get?_put_of_ne _ _ ?_)⟩
    rintro rfl
    rw [hnew] at he
    cases he
  | retired owned prior how r hactive hget h =>
    subst h
    refine ⟨fun hq => ?_, fun runId e he => ?_⟩
    · simp only [ProcessController.retireActive, hq, Bool.true_or]
    · by_cases hrun : runId = owned.runId
      · subst hrun
        obtain rfl : prior = e := Option.some.inj (hget.symm.trans he)
        refine ⟨_, Table.get?_set_self hget _, rfl, rfl, fun hover => ?_⟩
        exact absurd ((hs.live _ prior hget).2 ⟨owned, hactive, rfl⟩) hover
      · exact hsame runId e he (Table.get?_set_of_ne _ _ hrun)

/-- A child is started when there is no other and no quarantine. -/
theorem PartEffect.starts (h : PartEffect hasClient s s') {i : ℕ} (hold : ChildEvent.started i ∉ s.log)
    (hnew : ChildEvent.started i ∈ s'.log) : s.quarantined = false ∧ s.active = none := by
  cases h with
  | still h =>
    rw [h] at hnew
    exact absurd hnew hold
  | abandoned owned r hfree hquarantined hchild h => exact ⟨hquarantined, hfree⟩
  | started owned hfree hquarantined hnew' hchild h => exact ⟨hquarantined, hfree⟩
  | retired owned prior how r hactive hget h =>
    subst h
    simp only [ProcessController.retireActive, List.mem_append] at hnew
    rcases hnew with hnew | hnew
    · exact absurd hnew hold
    · exact absurd hnew (not_started_of_retire hasClient)

/-- A status starts no child. -/
theorem started_of_status {runId : String} {i : StatusInput} {k : ℕ}
    (h : ChildEvent.started k ∈ (status hasClient runId i s).2.log) : ChildEvent.started k ∈ s.log := by
  have hretired : ∀ (owned : OwnedRun D) (prior : HistoryEntry D) (state : RunStatus) (r : RetireOutcome),
      ChildEvent.started k ∈ (s.retireActive hasClient owned prior state r).2.log →
      ChildEvent.started k ∈ s.log := by
    intro owned prior state r h
    rcases List.mem_append.1 h with h | h
    · exact h
    · exact absurd h (not_started_of_retire hasClient)
  rw [status] at h
  cases hget : s.history.get? runId with
  | none => rwa [hget] at h
  | some prior =>
    cases hactive : s.active with
    | none =>
      rw [hget, hactive] at h
      exact h
    | some owned =>
      rw [hget, hactive] at h
      simp only at h
      split_ifs at h
      · exact h
      · cases hpoll : i.poll with
        | none =>
          rw [hpoll] at h
          exact h
        | some exited =>
          rw [hpoll] at h
          simp only at h
          split_ifs at h
          · exact h
          · exact hretired owned prior _ _ h
          · exact hretired owned prior _ _ h

end Invariant

/-! ### Runs -/

variable (s : ProcessController D)

/-- An admission that returned has an entry with its digests. -/
theorem admit_recorded (hs : s.Inv hasClient) {i : AdmitInput}
    (h : (admitRun hasClient uuid5 requestDigest scopeDigest maximumRecords i s).1.isOk = true) :
    ∃ runId e, i.runId uuid5 = some runId ∧
      (admitRun hasClient uuid5 requestDigest scopeDigest maximumRecords i s).2.history.get? runId = some e ∧
      e.requestDigest = requestDigest i.request.canon ∧ e.scopeDigest = scopeDigest i.scopeToken := by
  rw [admitRun] at h ⊢
  cases hrun : i.runId uuid5 with
  | none =>
    rw [hrun] at h
    cases h
  | some runId =>
    rw [hrun] at h
    cases hget : s.history.get? runId with
    | some prior =>
      simp only [hget] at h ⊢
      split_ifs at h ⊢ with hother hfree
      · cases h
      · rw [not_or, not_ne_iff, not_ne_iff] at hother
        exact ⟨runId, prior, rfl, hget, hother⟩
      · rw [not_or, not_ne_iff, not_ne_iff] at hother
        obtain ⟨e, he, hrequest, hscope, -⟩ :=
          ((status_effect hasClient runId i.status s).keeps hs).2 runId prior hget
        exact ⟨runId, e, rfl, he, hrequest.trans hother.1, hscope.trans hother.2⟩
    | none =>
      simp only [hget] at h ⊢
      split_ifs at h ⊢
      · cases h
      · rw [startOwnedRun] at h ⊢
        cases htimeout : i.timeout with
        | none =>
          rw [htimeout] at h
          cases h
        | some timeout =>
          rw [htimeout] at h
          simp only at h ⊢
          split_ifs at h ⊢
          · cases h
          · cases hstart : i.start with
            | ready => exact ⟨runId, _, rfl, Table.get?_put_self _ _ _, rfl, rfl⟩
            | _ =>
              rw [hstart] at h
              cases h

/-- An admission for which there is an entry starts no child, and is refused if its digests differ. -/
theorem admit_again {i : AdmitInput} {runId : String} (hrun : i.runId uuid5 = some runId)
    {e : HistoryEntry D} (he : s.history.get? runId = some e) :
    (∀ k, ChildEvent.started k ∈
        (admitRun hasClient uuid5 requestDigest scopeDigest maximumRecords i s).2.log →
      ChildEvent.started k ∈ s.log) ∧
    (¬ (e.requestDigest = requestDigest i.request.canon ∧ e.scopeDigest = scopeDigest i.scopeToken) →
      admitRun hasClient uuid5 requestDigest scopeDigest maximumRecords i s = (.error (), s)) := by
  simp only [admitRun, hrun, he]
  constructor
  · intro k hk
    split_ifs at hk
    · exact hk
    · exact hk
    · exact started_of_status hk
  · intro hother
    rw [if_pos (not_and_or.1 hother)]

theorem controllerStep_inv (s : ControllerSystem D) (a : ControllerAction)
    (hs : s.controller.Inv hasClient) :
    (controllerStep hasClient uuid5 requestDigest scopeDigest maximumRecords s a).controller.Inv hasClient :=
  (controllerStep_effect hasClient uuid5 requestDigest scopeDigest maximumRecords s a).inv hs

theorem controllerRun_inv (as : List ControllerAction) :
    (controllerRun hasClient uuid5 requestDigest scopeDigest maximumRecords as).controller.Inv hasClient :=
  Transition.run_induction (P := fun s : ControllerSystem D => s.controller.Inv hasClient)
    (controllerStep_inv hasClient uuid5 requestDigest scopeDigest maximumRecords)
    (ProcessController.inv_initial hasClient) as

/-- What a step keeps, a run keeps. -/
theorem controllerRun_keeps {s : ControllerSystem D} (hs : s.controller.Inv hasClient)
    (bs : List ControllerAction) :
    let t := Transition.run (controllerStep hasClient uuid5 requestDigest scopeDigest maximumRecords) s bs
    (s.controller.quarantined = true → t.controller.quarantined = true) ∧
      ∀ runId e, s.controller.history.get? runId = some e →
        ∃ e', t.controller.history.get? runId = some e' ∧ e'.requestDigest = e.requestDigest ∧
          e'.scopeDigest = e.scopeDigest ∧ (e.run ≠ .running → e' = e) := by
  induction bs generalizing s with
  | nil => exact ⟨id, fun runId e he => ⟨e, he, rfl, rfl, fun _ => rfl⟩⟩
  | cons a bs ih =>
    obtain ⟨hq, hhistory⟩ :=
      (controllerStep_effect hasClient uuid5 requestDigest scopeDigest maximumRecords s a).keeps hs
    obtain ⟨hq', hhistory'⟩ :=
      ih (controllerStep_inv hasClient uuid5 requestDigest scopeDigest maximumRecords s a hs)
    refine ⟨fun h => hq' (hq h), fun runId e he => ?_⟩
    obtain ⟨e', he', hrequest, hscope, hover⟩ := hhistory runId e he
    obtain ⟨e'', he'', hrequest', hscope', hover'⟩ := hhistory' runId e' he'
    refine ⟨e'', he'', hrequest'.trans hrequest, hscope'.trans hscope, fun h => ?_⟩
    obtain rfl := hover h
    exact hover' h

/-- A step that admits leaves what the admission leaves. -/
theorem controller_of_admits {s : ControllerSystem D} {i : AdmitInput} {a : ControllerAction}
    (h : Admits s i a) :
    (controllerStep hasClient uuid5 requestDigest scopeDigest maximumRecords s a).controller =
      (admitRun hasClient uuid5 requestDigest scopeDigest maximumRecords i s.controller).2 := by
  cases a with
  | admitRun j =>
    obtain rfl : j = i := h
    rfl
  | execution k j =>
    obtain ⟨hk, rfl⟩ := h
    simp only [controllerStep, hk, ExecutionPhase.advance]
    split <;> rfl
  | _ => exact absurd h not_false

/-- **The children and the history of the controller are sound.** -/
theorem controllerSound : ControllerSound hasClient uuid5 requestDigest scopeDigest maximumRecords where
  children as i := by
    intro s hi
    have hs := controllerRun_inv hasClient uuid5 requestDigest scopeDigest maximumRecords as
    rcases hs.children i hi with hactive | hsafe | ⟨o, ho, hchild⟩
    · exact .inl hactive
    · exact .inr (.inl hsafe)
    · exact .inr (.inr ⟨hs.held (List.ne_nil_of_mem ho), o, ho, hchild⟩)
  quarantined as bs h := by
    have hs := controllerRun_inv hasClient uuid5 requestDigest scopeDigest maximumRecords as
    rw [controllerRun, Transition.run_append]
    exact (controllerRun_keeps hasClient uuid5 requestDigest scopeDigest maximumRecords hs bs).1 h
  starts as a i := by
    intro s hold hnew
    rw [controllerRun, Transition.run_concat] at hnew
    exact (controllerStep_effect hasClient uuid5 requestDigest scopeDigest maximumRecords _ a).starts hold hnew
  history as bs runId e he hover := by
    have hs := controllerRun_inv hasClient uuid5 requestDigest scopeDigest maximumRecords as
    obtain ⟨e', he', -, -, hsame⟩ :=
      (controllerRun_keeps hasClient uuid5 requestDigest scopeDigest maximumRecords hs bs).2 runId e he
    rw [controllerRun, Transition.run_append, ← hsame hover]
    exact he'
  admitted hrequest hscope as a bs i j := by
    intro s t hadmits hok hrun
    have hs := controllerRun_inv hasClient uuid5 requestDigest scopeDigest maximumRecords as
    obtain ⟨runId, e, hi, he, hdigests⟩ :=
      admit_recorded hasClient uuid5 requestDigest scopeDigest maximumRecords s.controller hs hok
    rw [← controller_of_admits hasClient uuid5 requestDigest scopeDigest maximumRecords hadmits] at he
    obtain ⟨e', he', hrequest', hscope', -⟩ :=
      (controllerRun_keeps hasClient uuid5 requestDigest scopeDigest maximumRecords
        (controllerStep_inv hasClient uuid5 requestDigest scopeDigest maximumRecords s a hs) bs).2 runId e he
    have ht : t.history.get? runId = some e' := by
      simp only [t, controllerRun, Transition.run_append]
      exact he'
    obtain ⟨hstarts, hrefused⟩ := admit_again hasClient uuid5 requestDigest scopeDigest maximumRecords t
      (hrun ▸ hi) ht
    refine ⟨hstarts, fun hother => hrefused ?_⟩
    rw [hrequest', hscope', hdigests.1, hdigests.2]
    exact fun hsame => hother ⟨hrequest hsame.1, hscope hsame.2⟩

/-- Every child that is neither active nor held had its scope revoked. -/
def AlwaysRevoked : Prop :=
  ∀ as i,
    let s := (controllerRun hasClient uuid5 requestDigest scopeDigest maximumRecords as).controller
    ChildEvent.started i ∈ s.log → (∃ o, s.active = some o ∧ o.child = some i) ∨
      (RetiredSafely hasClient s.log i ∧ ChildEvent.revoked i ∈ s.log) ∨
      s.quarantined = true ∧ ∃ o ∈ s.hold, o.child = some i

end Controller

/-- A retirement in which all goes well. -/
def smoothRetire : RetireOutcome := ⟨true, some true, true, true, some true, some true, true, true, true⟩

/-- An admission that starts a child. -/
def sampleAdmit : AdmitInput :=
  ⟨.obj [("run_id", .lit "run"), ("timeout_seconds", .int 60)], "scope", none, 0, 0, .ready,
    ⟨some true, false, smoothRetire⟩⟩

/-- A run that is admitted and stopped by a controller without a transport client is neither active nor
held, and its scope was not revoked. -/
theorem not_alwaysRevoked :
    ¬ AlwaysRevoked (D := ℕ) false (fun _ => "") (fun _ => 0) (fun _ => 0) 1 := by
  intro h
  have hend : ∀ s, s = (controllerRun (D := ℕ) false (fun _ => "") (fun _ => 0) (fun _ => 0) 1
      [.admitRun sampleAdmit, .stop "run" smoothRetire]).controller →
      s.log = [.started 0, .exited 0, .drained 0, .closed 0] ∧ s.active.isNone = true ∧
        s.quarantined = false := by
    rintro s rfl
    decide +kernel
  obtain ⟨hlog, hactive, hquarantined⟩ := hend _ rfl
  rcases h [.admitRun sampleAdmit, .stop "run" smoothRetire] 0 (by rw [hlog]; decide) with
    ⟨o, ho, -⟩ | ⟨-, hrevoked⟩ | ⟨hq, -⟩
  · rw [ho] at hactive
    cases hactive
  · rw [hlog] at hrevoked
    revert hrevoked
    decide
  · rw [hquarantined] at hq
    cases hq

end CivicLoop.Hermes
