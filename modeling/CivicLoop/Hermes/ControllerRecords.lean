import CivicLoop.Foundation.Transition
import CivicLoop.Hermes.RunRequest
import CivicLoop.Transport.Registry

/-!
# The records of the controller service

The controller service keeps one record for every run it was asked for, and at most one run is active.
A thread of its own executes the run: it calls the controller, outside the lock, and between the calls
looks at the record once, to see whether the run was cancelled. A cancellation may come before that, or
after it; what the record says at the end is decided under the lock, by the mark of the cancellation.

A controller call returns or raises at the will of the environment, which also decides whether the
controller is quarantined.

## Main definitions

* `ControllerService`, `start`, `cancel`, `payload` : the service and its requests.
* `ControllerService.advance` : the next step of a thread.
* `step` : one step of the system.
* `RecordsSound` : what the records and the threads do in every run.

## Main results

* `recordsSound` : they do.
* `not_alwaysConflict` : a different envelope is not always told apart from an invalid one.
-/

namespace CivicLoop.Hermes

/-! ### Records and threads -/

/-- The status of a record. -/
inductive Status
  | running
  | cancelling
  | succeeded
  | failed
  | cancelled
deriving DecidableEq

/-- The run is not over. -/
def Status.live : Status → Bool
  | .running | .cancelling => true
  | _ => false

def Status.ofText (text : String) : Option Status :=
  [("running", Status.running), ("cancelling", .cancelling), ("succeeded", .succeeded),
    ("failed", .failed), ("cancelled", .cancelled)].lookup text

/-- `Record`. -/
structure Record (D : Type) where
  digest : D
  status : Status
  cancelled : Bool
  result : Option Message

/-- `Record(digest)`. -/
def Record.new {D : Type} (digest : D) : Record D := ⟨digest, .running, false, none⟩

/-- Where a thread is in `_execute`: before each of the controller calls, before it reads the mark of a
cancellation, and before it completes the record. -/
inductive Phase
  | admitting
  | checking
  | executing
  | stopping (result : Option Message)
  | completing (result : Option Message)
  | done

/-- A thread that executes a run. -/
structure Thread where
  runId : Uuid
  request : Message
  scope : String
  deadline : Time
  phase : Phase

/-- `ControllerService`, with the threads it has started. -/
structure ControllerService (D : Type) where
  records : Table Uuid (Record D)
  active : Option Uuid
  quarantined : Bool
  threads : List Thread

/-- The service when it starts. -/
def ControllerService.initial (D : Type) : ControllerService D := ⟨.empty, none, false, []⟩

inductive StartError
  | valueError (message : String)
  | admissionConflict
  | runtimeError
deriving DecidableEq

/-- The input of `start`: the message, the two readings of the clocks in its validation, the one under
the lock, and whether the thread starts. -/
structure StartInput where
  envelope : Message
  scope : String
  now : Time
  validated : Time
  locked : Time
  threadStarts : Bool

/-- The request of an envelope. -/
def StartInput.request (i : StartInput) : Message := (i.envelope.get? "request").getD .null

/-- What `start` asks of its input before it looks at the records. -/
def StartInput.Valid (i : StartInput) : Prop :=
  Transport.isScope i.scope = true ∧ (validateEnvelope i.now i.validated i.envelope).isOk = true

/-- The same envelope, and the same scope. -/
def StartInput.Same (i j : StartInput) : Prop :=
  i.envelope.canon = j.envelope.canon ∧ i.scope = j.scope

instance (i j : StartInput) : Decidable (i.Same j) := inferInstanceAs (Decidable (_ ∧ _))

section Service

variable {D : Type} (uuid5 : String → Uuid) (sha256 : Message × String → D)
  (maximumRecords : ℕ)

/-- The part of `start` under the lock. -/
def startLocked [DecidableEq D] (i : StartInput) (request : Message) (deadline : Time) (s : ControllerService D) :
    Except StartError Uuid × ControllerService D :=
  let runId := runIdOf uuid5 request
  let digest := sha256 (i.envelope.canon, i.scope)
  match s.records.get? runId with
  | some prior => if prior.digest = digest then (.ok runId, s) else (.error .admissionConflict, s)
  | none =>
    if deadline ≤ i.locked then (.error (.valueError ""), s)
    else if s.active ≠ none ∨ s.quarantined = true ∨ maximumRecords ≤ s.records.count then
      (.error .admissionConflict, s)
    else if i.threadStarts then
      (.ok runId, { s with
        records := s.records.put runId (.new digest),
        active := some runId,
        threads := s.threads ++ [⟨runId, request, i.scope, deadline, .admitting⟩] })
    else
      (.error .runtimeError, { s with
        records := s.records.put runId { Record.new digest with status := .failed }, active := none })

/-- `start`. -/
def start [DecidableEq D] (i : StartInput) (s : ControllerService D) : Except StartError Uuid × ControllerService D :=
  if Transport.isScope i.scope = false then (.error (.valueError ""), s)
  else
    match validateEnvelope i.now i.validated i.envelope with
    | .error e => (.error (.valueError e), s)
    | .ok (request, deadline) => startLocked uuid5 sha256 maximumRecords i request deadline s

/-- The part of `cancel` under the lock; a run without a record is a `KeyError`. -/
def cancel (runId : Uuid) (s : ControllerService D) : Except Unit Unit × ControllerService D :=
  match s.records.get? runId with
  | none => (.error (), s)
  | some r =>
    if s.active ≠ some runId then (.ok (), s)
    else (.ok (), { s with
      records := s.records.set runId { r with cancelled := true, status := .cancelling } })

/-- `payload`: the status of a run, and its result. -/
def payload (runId : Uuid) (s : ControllerService D) : Option (Status × Option Message) :=
  (s.records.get? runId).map fun r => (r.status, r.result)

/-! ### The threads -/

/-- How a call of the controller ends. When it raises, `_active` may still be a child. -/
inductive CallOutcome
  | returned (value : Message)
  | raised (childActive : Bool)

/-- `result["status"]`. -/
def resultStatus (result : Message) : Option Status :=
  ((result.text? "status").map Text.plain).bind Status.ofText

/-- The last block of `_execute`, on the record. -/
def Record.complete (quarantined : Bool) (result : Option Message) (r : Record D) : Record D :=
  if r.cancelled then { r with status := .cancelled }
  else
    match result with
    | some value =>
      if quarantined then { r with status := .failed }
      else { r with status := (resultStatus value).getD r.status, result := some value }
    | none => { r with status := .failed }

/-- The thread `i` is at another place. -/
def ControllerService.setPhase (s : ControllerService D) (i : ℕ) (t : Thread) (p : Phase) :
    ControllerService D :=
  { s with threads := s.threads.set i { t with phase := p } }

/-- The next step of `_execute`, for the thread `i`. The outcome is that of the controller call of the
step, if it has one. -/
def ControllerService.advance (i : ℕ) (t : Thread) (outcome : CallOutcome) (s : ControllerService D) :
    ControllerService D :=
  match t.phase with
  | .admitting =>
    s.setPhase i t (match outcome with
      | .returned _ => .checking
      | .raised _ => .stopping none)
  | .checking =>
    s.setPhase i t (if (s.records.get? t.runId).any (·.cancelled) then .stopping none else .executing)
  | .executing =>
    s.setPhase i t (.stopping (match outcome with
      | .returned value => if validResult uuid5 t.request value then some value else none
      | .raised _ => none))
  | .stopping result =>
    { s.setPhase i t (.completing result) with
      quarantined := match outcome with
        | .returned _ => s.quarantined
        | .raised childActive => s.quarantined || childActive }
  | .completing result =>
    { s.setPhase i t .done with
      records := s.records.modify t.runId (Record.complete s.quarantined result),
      active := none }
  | .done => s

/-! ### The system -/

/-- A step of the system. -/
inductive ServiceAction
  | start (i : StartInput)
  | cancel (runId : Uuid)
  | payload (runId : Uuid)
  | thread (i : ℕ) (outcome : CallOutcome)
  | controller (quarantined : Bool)

/-- One step. -/
def step [DecidableEq D] (s : ControllerService D) : ServiceAction → ControllerService D
  | .start i => (start uuid5 sha256 maximumRecords i s).2
  | .cancel runId => (cancel runId s).2
  | .payload _ => s
  | .thread i outcome =>
    match s.threads[i]? with
    | some t => s.advance uuid5 i t outcome
    | none => s
  | .controller quarantined => { s with quarantined }

/-- The state after a run from the start. -/
def runFrom [DecidableEq D] (as : List ServiceAction) : ControllerService D :=
  Transition.run (step uuid5 sha256 maximumRecords) (.initial D) as

/-- The number of steps that the thread `i` takes. -/
def stepsOf (i : ℕ) (as : List ServiceAction) : ℕ :=
  as.countP fun a => match a with
    | .thread j _ => i = j
    | _ => false

/-- `start` has made a record, for a thread that has started or has failed to. -/
def MadeRecord (reply : Except StartError Uuid) : Prop :=
  reply.isOk = true ∨ reply = .error .runtimeError

/-- **What the records and the threads do in every run.** -/
structure RecordsSound [DecidableEq D] : Prop where
  /-- The active run is live, and no other. -/
  live : ∀ as runId r, (runFrom uuid5 sha256 maximumRecords as).records.get? runId = some r →
    (r.status.live = true ↔ (runFrom uuid5 sha256 maximumRecords as).active = some runId)
  /-- The active run has a record. -/
  named : ∀ as runId, (runFrom uuid5 sha256 maximumRecords as).active = some runId →
    ∃ r, (runFrom uuid5 sha256 maximumRecords as).records.get? runId = some r
  /-- A record that is over does not change, nor does what is read of it. -/
  terminal : ∀ as bs runId r, (runFrom uuid5 sha256 maximumRecords as).records.get? runId = some r →
    r.status.live = false →
    (runFrom uuid5 sha256 maximumRecords (as ++ bs)).records.get? runId = some r ∧
      payload runId (runFrom uuid5 sha256 maximumRecords (as ++ bs)) = some (r.status, r.result)
  /-- A cancellation of the active run ends in `cancelled`, once the thread has come to its end, with no
  result. -/
  cancelled : ∀ as bs runId, (runFrom uuid5 sha256 maximumRecords as).active = some runId →
    ∃ r i t, (runFrom uuid5 sha256 maximumRecords (as ++ .cancel runId :: bs)).records.get? runId = some r ∧
      (runFrom uuid5 sha256 maximumRecords as).threads[i]? = some t ∧ t.runId = runId ∧
      r.result = none ∧ (r.status = .cancelling ∨ r.status = .cancelled) ∧
      (5 ≤ stepsOf i bs → r.status = .cancelled)
  /-- A run has one thread at most. -/
  single : ∀ as, ((runFrom uuid5 sha256 maximumRecords as).threads.map Thread.runId).Nodup
  /-- A later `start` for a run that has a record changes nothing. With the same envelope and scope it
  does not conflict, with others it does, unless it is invalid. -/
  replay : Function.Injective sha256 → ∀ as bs i j,
    MadeRecord (start uuid5 sha256 maximumRecords i (runFrom uuid5 sha256 maximumRecords as)).1 →
    runIdOf uuid5 i.request = runIdOf uuid5 j.request →
    let s := runFrom uuid5 sha256 maximumRecords (as ++ .start i :: bs)
    (start uuid5 sha256 maximumRecords j s).2 = s ∧
      (j.Valid → (start uuid5 sha256 maximumRecords j s).1 =
        if j.Same i then .ok (runIdOf uuid5 i.request) else .error .admissionConflict) ∧
      (¬ j.Valid → ∃ e, (start uuid5 sha256 maximumRecords j s).1 = .error (.valueError e))

/-! ### What a step can do -/

/-- A record in the states a run goes through. -/
structure Record.Sound (r : Record D) : Prop where
  unfinished : r.status.live = true → r.result = none
  marked : r.cancelled = true → r.result = none ∧ (r.status = .cancelling ∨ r.status = .cancelled)
  unmarked : r.status = .cancelling → r.cancelled = true

/-- A place of a thread with a valid result, if it holds one. -/
def Phase.Valid (t : Thread) : Phase → Prop
  | .stopping (some value) | .completing (some value) => validResult uuid5 t.request value = true
  | _ => True

/-- The number of steps before the thread is done. -/
def Phase.rank : Phase → ℕ
  | .admitting => 5
  | .checking => 4
  | .executing => 3
  | .stopping _ => 2
  | .completing _ => 1
  | .done => 0

/-- What a step can do. -/
inductive Effect (s s' : ControllerService D) : Prop
  | still (hr : s'.records = s.records) (ha : s'.active = s.active) (ht : s'.threads = s.threads)
  | moved (i : ℕ) (t : Thread) (p : Phase) (hi : s.threads[i]? = some t) (hp : p.rank < t.phase.rank)
    (hne : 0 < p.rank) (hvalid : t.phase.Valid uuid5 t → p.Valid uuid5 t)
    (hr : s'.records = s.records) (ha : s'.active = s.active)
    (ht : s'.threads = s.threads.set i { t with phase := p })
  | spawned (t : Thread) (digest : D) (hnew : s.records.get? t.runId = none) (hfree : s.active = none)
    (hp : t.phase = .admitting) (hr : s'.records = s.records.put t.runId (.new digest))
    (ha : s'.active = some t.runId) (ht : s'.threads = s.threads ++ [t])
  | refused (runId : Uuid) (digest : D) (hnew : s.records.get? runId = none) (hfree : s.active = none)
    (hr : s'.records = s.records.put runId { Record.new digest with status := .failed })
    (ha : s'.active = none) (ht : s'.threads = s.threads)
  | marked (runId : Uuid) (r : Record D) (hactive : s.active = some runId)
    (hget : s.records.get? runId = some r)
    (hr : s'.records = s.records.set runId { r with cancelled := true, status := .cancelling })
    (ha : s'.active = s.active) (ht : s'.threads = s.threads)
  | completed (i : ℕ) (t : Thread) (result : Option Message) (hi : s.threads[i]? = some t)
    (hp : t.phase = .completing result)
    (hr : s'.records = s.records.modify t.runId (Record.complete s.quarantined result))
    (ha : s'.active = none) (ht : s'.threads = s.threads.set i { t with phase := .done })

theorem start_effect [DecidableEq D] (i : StartInput) (s : ControllerService D) :
    Effect uuid5 s (start uuid5 sha256 maximumRecords i s).2 := by
  rw [start]
  split_ifs with hscope
  · exact .still rfl rfl rfl
  · cases henvelope : validateEnvelope i.now i.validated i.envelope with
    | error e => exact .still rfl rfl rfl
    | ok q =>
      obtain ⟨request, deadline⟩ := q
      simp only [startLocked]
      cases hget : s.records.get? (runIdOf uuid5 request) with
      | some prior =>
        simp only
        split_ifs <;> exact .still rfl rfl rfl
      | none =>
        simp only
        split_ifs with hlate hfull hthread
        · exact .still rfl rfl rfl
        · exact .still rfl rfl rfl
        · rw [not_or, not_ne_iff] at hfull
          exact .spawned ⟨_, request, i.scope, deadline, .admitting⟩ _ hget hfull.1 rfl rfl rfl rfl
        · rw [not_or, not_ne_iff] at hfull
          exact .refused _ _ hget hfull.1 rfl rfl rfl

theorem cancel_effect (runId : Uuid) (s : ControllerService D) :
    Effect uuid5 s (cancel runId s).2 := by
  rw [cancel]
  cases hget : s.records.get? runId with
  | none => exact .still rfl rfl rfl
  | some r =>
    simp only
    split_ifs with hactive
    · exact .still rfl rfl rfl
    · exact .marked runId r (not_ne_iff.1 hactive) hget rfl rfl rfl

theorem advance_effect {s : ControllerService D} {i : ℕ} {t : Thread} (hi : s.threads[i]? = some t)
    (outcome : CallOutcome) : Effect uuid5 s (s.advance uuid5 i t outcome) := by
  have hmoved : ∀ p q : Phase, t.phase = p → q.rank < p.rank → 0 < q.rank →
      (p.Valid uuid5 t → q.Valid uuid5 t) → ∀ s' : ControllerService D, s'.records = s.records →
      s'.active = s.active → s'.threads = s.threads.set i { t with phase := q } → Effect uuid5 s s' := by
    intro p q hp hrank hpos hvalid s' hr ha ht
    exact .moved i t q hi (hp ▸ hrank) hpos (hp ▸ hvalid) hr ha ht
  unfold ControllerService.advance
  split
  next hp =>
    cases outcome with
    | returned value => exact hmoved _ .checking hp (by decide) (by decide) (fun _ => trivial) _ rfl rfl rfl
    | raised child =>
      exact hmoved _ (.stopping none) hp (by decide) (by decide) (fun _ => trivial) _ rfl rfl rfl
  next hp =>
    split_ifs
    · exact hmoved _ (.stopping none) hp (by decide) (by decide) (fun _ => trivial) _ rfl rfl rfl
    · exact hmoved _ .executing hp (by decide) (by decide) (fun _ => trivial) _ rfl rfl rfl
  next hp =>
    cases outcome with
    | returned value =>
      by_cases hvalid : validResult uuid5 t.request value = true
      · refine hmoved _ (.stopping (some value)) hp (by simp [Phase.rank]) (by simp [Phase.rank])
          (fun _ => hvalid) _ rfl rfl ?_
        simp only [ControllerService.setPhase, if_pos hvalid]
      · refine hmoved _ (.stopping none) hp (by decide) (by decide) (fun _ => trivial) _ rfl rfl ?_
        simp only [ControllerService.setPhase, if_neg hvalid]
    | raised child =>
      exact hmoved _ (.stopping none) hp (by decide) (by decide) (fun _ => trivial) _ rfl rfl rfl
  next result hp =>
    refine hmoved _ (.completing result) hp (by simp [Phase.rank]) (by simp [Phase.rank]) ?_ _ rfl rfl rfl
    intro h
    cases result with
    | none => trivial
    | some value => exact h
  next result hp => exact .completed i t result hi hp rfl rfl rfl
  next => exact .still rfl rfl rfl

theorem step_effect [DecidableEq D] (s : ControllerService D) (a : ServiceAction) :
    Effect uuid5 s (step uuid5 sha256 maximumRecords s a) := by
  cases a with
  | start i => exact start_effect uuid5 sha256 maximumRecords i s
  | cancel runId => exact cancel_effect uuid5 runId s
  | payload runId => exact .still rfl rfl rfl
  | controller quarantined => exact .still rfl rfl rfl
  | thread i outcome =>
    simp only [step]
    cases hi : s.threads[i]? with
    | none => exact .still rfl rfl rfl
    | some t => exact advance_effect uuid5 hi outcome

/-! ### The invariant -/

/-- The invariant of the service. -/
structure ControllerService.Inv (s : ControllerService D) : Prop where
  nodup : (s.threads.map Thread.runId).Nodup
  ofThread : ∀ (i : ℕ) (t : Thread), s.threads[i]? = some t → t.phase ≠ .done → s.active = some t.runId
  ofActive : ∀ runId, s.active = some runId →
    ∃ (i : ℕ) (t : Thread), s.threads[i]? = some t ∧ t.runId = runId ∧ t.phase ≠ .done
  recorded : ∀ (i : ℕ) (t : Thread), s.threads[i]? = some t → ∃ r, s.records.get? t.runId = some r
  live : ∀ runId r, s.records.get? runId = some r → (r.status.live = true ↔ s.active = some runId)
  sound : ∀ runId r, s.records.get? runId = some r → r.Sound
  valid : ∀ (i : ℕ) (t : Thread), s.threads[i]? = some t → t.phase.Valid uuid5 t

theorem ControllerService.inv_initial : (ControllerService.initial D).Inv uuid5 where
  nodup := List.nodup_nil
  ofThread i t h := by simp [initial] at h
  ofActive runId h := by cases h
  recorded i t h := by simp [initial] at h
  live runId r h := by cases h
  sound runId r h := by cases h
  valid i t h := by simp [initial] at h

/-- A valid result has the status of a run that is over. -/
theorem resultStatus_of_valid {request value : Message} (h : validResult uuid5 request value = true) :
    ∃ status, resultStatus value = some status ∧ status.live = false ∧ status ≠ .cancelling := by
  have hstatus := status_of_validResult h
  simp only [List.mem_cons, List.not_mem_nil, or_false] at hstatus
  rw [resultStatus]
  rcases hstatus with hstatus | hstatus | hstatus <;> rw [hstatus]
  · exact ⟨.succeeded, by decide, rfl, by decide⟩
  · exact ⟨.failed, by decide, rfl, by decide⟩
  · exact ⟨.cancelled, by decide, rfl, by decide⟩

/-- The completion of a live record ends its run. -/
theorem Record.complete_spec {r : Record D} (hr : r.Sound) (hlive : r.status.live = true)
    (quarantined : Bool) (result : Option Message) {request : Message}
    (hvalid : ∀ value, result = some value → validResult uuid5 request value = true) :
    (r.complete quarantined result).Sound ∧ (r.complete quarantined result).status.live = false ∧
      (r.complete quarantined result).digest = r.digest ∧
      (r.cancelled = true → (r.complete quarantined result).status = .cancelled) := by
  have hnone := hr.unfinished hlive
  unfold Record.complete
  by_cases hc : r.cancelled = true
  · rw [if_pos hc]
    refine ⟨⟨fun h => (by cases h), fun _ => ⟨hnone, .inr rfl⟩, fun h => (by cases h)⟩, rfl, rfl, fun _ => rfl⟩
  · rw [if_neg hc]
    have hfailed : ({ r with status := .failed } : Record D).Sound :=
      ⟨fun h => (by cases h), fun h => absurd h hc, fun h => (by cases h)⟩
    cases result with
    | none => exact ⟨hfailed, rfl, rfl, fun h => absurd h hc⟩
    | some value =>
      simp only
      split_ifs
      · exact ⟨hfailed, rfl, rfl, fun h => absurd h hc⟩
      · obtain ⟨status, hstatus, hover, hne⟩ := resultStatus_of_valid uuid5 (hvalid value rfl)
        simp only [hstatus, Option.getD_some]
        refine ⟨⟨fun h => ?_, fun h => absurd h hc, fun h => absurd h hne⟩, hover, trivial, fun h => absurd h hc⟩
        rw [hover] at h
        cases h

theorem getElem?_setPhase {l : List Thread} {i : ℕ} {t : Thread} (hi : l[i]? = some t) (p : Phase)
    (j : ℕ) : (l.set i { t with phase := p })[j]? = if j = i then some { t with phase := p } else l[j]? := by
  obtain ⟨hlt, -⟩ := List.getElem?_eq_some_iff.1 hi
  rw [List.getElem?_set]
  by_cases h : i = j
  · rw [if_pos h, if_pos h.symm, if_pos hlt]
  · rw [if_neg h, if_neg (Ne.symm h)]

theorem runIds_setPhase {l : List Thread} {i : ℕ} {t : Thread} (hi : l[i]? = some t) (p : Phase) :
    (l.set i { t with phase := p }).map Thread.runId = l.map Thread.runId := by
  refine List.ext_getElem? fun j => ?_
  rw [List.getElem?_map, List.getElem?_map, getElem?_setPhase hi]
  split_ifs with h
  · rw [h, hi]
    rfl
  · rfl

/-- Two threads of one run are one. -/
theorem index_unique {l : List Thread} (hl : (l.map Thread.runId).Nodup) {i j : ℕ} {t u : Thread}
    (hi : l[i]? = some t) (hj : l[j]? = some u) (h : t.runId = u.runId) : i = j := by
  obtain ⟨hlt, -⟩ := List.getElem?_eq_some_iff.1 hi
  refine (List.getElem?_inj (by rwa [List.length_map]) hl).1 ?_
  rw [List.getElem?_map, List.getElem?_map, hi, hj, Option.map_some, Option.map_some, h]

theorem Phase.ne_done_iff {p : Phase} : p ≠ .done ↔ 0 < p.rank := by
  cases p <;> simp [Phase.rank]

variable {uuid5}

theorem inv_moved {s s' : ControllerService D} (hs : s.Inv uuid5) {i : ℕ} {t : Thread} {p : Phase}
    (hi : s.threads[i]? = some t) (hp : p.rank < t.phase.rank) (hne : 0 < p.rank)
    (hvalid : t.phase.Valid uuid5 t → p.Valid uuid5 t) (hr : s'.records = s.records)
    (ha : s'.active = s.active) (ht : s'.threads = s.threads.set i { t with phase := p }) :
    s'.Inv uuid5 := by
  have hactive := hs.ofThread i t hi (Phase.ne_done_iff.2 (by omega))
  have hread : ∀ (j : ℕ) (u : Thread), s'.threads[j]? = some u →
      u = { t with phase := p } ∨ s.threads[j]? = some u := by
    intro j u hj
    rw [ht, getElem?_setPhase hi] at hj
    split_ifs at hj with h
    · exact .inl (Option.some.inj hj).symm
    · exact .inr hj
  refine ⟨?_, ?_, ?_, ?_, ?_, ?_, ?_⟩
  · rw [ht, runIds_setPhase hi]
    exact hs.nodup
  · intro j u hj hu
    rw [ha]
    rcases hread j u hj with rfl | hj
    · exact hactive
    · exact hs.ofThread j u hj hu
  · intro runId hrun
    rw [ha, hactive] at hrun
    refine ⟨i, { t with phase := p }, ?_, Option.some.inj hrun, Phase.ne_done_iff.2 hne⟩
    rw [ht, getElem?_setPhase hi, if_pos rfl]
  · intro j u hj
    rw [hr]
    rcases hread j u hj with rfl | hj
    · exact hs.recorded i t hi
    · exact hs.recorded j u hj
  · rw [hr, ha]
    exact hs.live
  · rw [hr]
    exact hs.sound
  · intro j u hj
    rcases hread j u hj with rfl | hj
    · exact hvalid (hs.valid i t hi)
    · exact hs.valid j u hj

theorem inv_spawned {s s' : ControllerService D} (hs : s.Inv uuid5) {t : Thread} {digest : D}
    (hnew : s.records.get? t.runId = none) (hfree : s.active = none) (hp : t.phase = .admitting)
    (hr : s'.records = s.records.put t.runId (.new digest)) (ha : s'.active = some t.runId)
    (ht : s'.threads = s.threads ++ [t]) : s'.Inv uuid5 := by
  have hother : ∀ (j : ℕ) (u : Thread), s.threads[j]? = some u → u.runId ≠ t.runId := by
    intro j u hj heq
    obtain ⟨r, hget⟩ := hs.recorded j u hj
    rw [heq, hnew] at hget
    cases hget
  have hread : ∀ (j : ℕ) (u : Thread), s'.threads[j]? = some u → u = t ∨ s.threads[j]? = some u := by
    intro j u hj
    rw [ht] at hj
    rcases List.mem_append.1 (List.mem_of_getElem? hj) with hmem | hmem
    · by_cases hlt : j < s.threads.length
      · rw [List.getElem?_append_left hlt] at hj
        exact .inr hj
      · rw [List.getElem?_append_right (by omega)] at hj
        exact .inl (List.mem_singleton.1 (List.mem_of_getElem? hj))
    · exact .inl (List.mem_singleton.1 hmem)
  refine ⟨?_, ?_, ?_, ?_, ?_, ?_, ?_⟩
  · rw [ht, List.map_append, List.map_singleton, ← List.concat_eq_append, List.nodup_concat]
    refine ⟨fun hmem => ?_, hs.nodup⟩
    obtain ⟨u, hu, heq⟩ := List.mem_map.1 hmem
    obtain ⟨j, hj⟩ := List.mem_iff_getElem?.1 hu
    exact hother j u hj heq
  · intro j u hj hu
    rcases hread j u hj with rfl | hj
    · exact ha
    · have hbusy := hs.ofThread j u hj hu
      rw [hfree] at hbusy
      cases hbusy
  · intro runId hrun
    rw [ha] at hrun
    refine ⟨s.threads.length, t, ?_, Option.some.inj hrun, ?_⟩
    · rw [ht, List.getElem?_concat_length]
    · rw [hp]
      nofun
  · intro j u hj
    rw [hr]
    rcases hread j u hj with rfl | hj
    · exact ⟨_, Table.get?_put_self _ _ _⟩
    · rw [Table.get?_put_of_ne _ _ (hother j u hj)]
      exact hs.recorded j u hj
  · intro runId r hget
    rw [hr, Table.get?_put] at hget
    rw [ha]
    split_ifs at hget with h
    · obtain rfl := Option.some.inj hget
      simp [Record.new, Status.live, h]
    · rw [hs.live runId r hget, hfree]
      simp [Ne.symm h]
  · intro runId r hget
    rw [hr, Table.get?_put] at hget
    split_ifs at hget with h
    · obtain rfl := Option.some.inj hget
      exact ⟨fun _ => rfl, fun h => (by cases h), fun h => (by cases h)⟩
    · exact hs.sound runId r hget
  · intro j u hj
    rcases hread j u hj with rfl | hj
    · rw [hp]
      trivial
    · exact hs.valid j u hj

theorem inv_refused {s s' : ControllerService D} (hs : s.Inv uuid5) {runId : Uuid} {digest : D}
    (hnew : s.records.get? runId = none) (hfree : s.active = none)
    (hr : s'.records = s.records.put runId { Record.new digest with status := .failed })
    (ha : s'.active = none) (ht : s'.threads = s.threads) : s'.Inv uuid5 := by
  refine ⟨?_, ?_, ?_, ?_, ?_, ?_, ?_⟩
  · rw [ht]
    exact hs.nodup
  · rw [ht, ha, ← hfree]
    exact hs.ofThread
  · intro runId' hrun
    rw [ha] at hrun
    cases hrun
  · intro j u hj
    rw [ht] at hj
    obtain ⟨r, hget⟩ := hs.recorded j u hj
    rw [hr, Table.get?_put_of_ne _ _ (fun h => by rw [h, hnew] at hget; cases hget)]
    exact ⟨r, hget⟩
  · intro runId' r hget
    rw [hr, Table.get?_put] at hget
    rw [ha]
    split_ifs at hget with h
    · obtain rfl := Option.some.inj hget
      simp [Status.live]
    · rw [hs.live runId' r hget, hfree]
  · intro runId' r hget
    rw [hr, Table.get?_put] at hget
    split_ifs at hget with h
    · obtain rfl := Option.some.inj hget
      exact ⟨fun _ => rfl, fun h => (by cases h), fun h => (by cases h)⟩
    · exact hs.sound runId' r hget
  · rw [ht]
    exact hs.valid

theorem inv_marked {s s' : ControllerService D} (hs : s.Inv uuid5) {runId : Uuid} {r : Record D}
    (hactive : s.active = some runId) (hget : s.records.get? runId = some r)
    (hr : s'.records = s.records.set runId { r with cancelled := true, status := .cancelling })
    (ha : s'.active = s.active) (ht : s'.threads = s.threads) : s'.Inv uuid5 := by
  have hnone := (hs.sound runId r hget).unfinished ((hs.live runId r hget).2 hactive)
  have hread : ∀ runId' r', s'.records.get? runId' = some r' →
      (runId' = runId ∧ r' = { r with cancelled := true, status := .cancelling }) ∨
        s.records.get? runId' = some r' := by
    intro runId' r' hget'
    rw [hr, Table.get?_set, hget] at hget'
    split_ifs at hget' with h
    · exact .inl ⟨h, (Option.some.inj hget').symm⟩
    · exact .inr hget'
  refine ⟨?_, ?_, ?_, ?_, ?_, ?_, ?_⟩
  · rw [ht]
    exact hs.nodup
  · rw [ht, ha]
    exact hs.ofThread
  · rw [ht, ha]
    exact hs.ofActive
  · intro j u hj
    rw [ht] at hj
    obtain ⟨r', hget'⟩ := hs.recorded j u hj
    rw [hr, Table.get?_set]
    split_ifs
    · exact ⟨_, by rw [hget]; rfl⟩
    · exact ⟨r', hget'⟩
  · intro runId' r' hget'
    rw [ha]
    rcases hread runId' r' hget' with ⟨rfl, rfl⟩ | hget'
    · simp [Status.live, hactive]
    · exact hs.live runId' r' hget'
  · intro runId' r' hget'
    rcases hread runId' r' hget' with ⟨rfl, rfl⟩ | hget'
    · exact ⟨fun _ => hnone, fun _ => ⟨hnone, .inl rfl⟩, fun _ => rfl⟩
    · exact hs.sound runId' r' hget'
  · rw [ht]
    exact hs.valid

/-- The record of a thread that completes: what it is before, and after. -/
theorem complete_record {s s' : ControllerService D} (hs : s.Inv uuid5) {i : ℕ} {t : Thread}
    {result : Option Message} (hi : s.threads[i]? = some t) (hp : t.phase = .completing result)
    (hr : s'.records = s.records.modify t.runId (Record.complete s.quarantined result)) :
    s.active = some t.runId ∧
      ∃ r r', s.records.get? t.runId = some r ∧ s'.records.get? t.runId = some r' ∧ r'.Sound ∧
        r'.status.live = false ∧ r'.digest = r.digest ∧ (r.cancelled = true → r'.status = .cancelled) := by
  have hactive := hs.ofThread i t hi (by rw [hp]; nofun)
  obtain ⟨r, hget⟩ := hs.recorded i t hi
  have hvalid := hs.valid i t hi
  rw [hp] at hvalid
  obtain ⟨hsound, hover, hdigest, hcancelled⟩ := Record.complete_spec uuid5 (hs.sound _ r hget)
    ((hs.live _ r hget).2 hactive) s.quarantined result
    (show ∀ value, result = some value → validResult uuid5 t.request value = true from fun value hvalue => by
      subst hvalue
      exact hvalid)
  refine ⟨hactive, r, _, hget, ?_, hsound, hover, hdigest, hcancelled⟩
  rw [hr, Table.get?_modify_self, hget, Option.map_some]

theorem inv_completed {s s' : ControllerService D} (hs : s.Inv uuid5) {i : ℕ} {t : Thread}
    {result : Option Message} (hi : s.threads[i]? = some t) (hp : t.phase = .completing result)
    (hr : s'.records = s.records.modify t.runId (Record.complete s.quarantined result))
    (ha : s'.active = none) (ht : s'.threads = s.threads.set i { t with phase := .done }) :
    s'.Inv uuid5 := by
  obtain ⟨hactive, r, r', hget, hget', hsound, hover, -, -⟩ := complete_record hs hi hp hr
  have hkeep : ∀ runId, runId ≠ t.runId → s'.records.get? runId = s.records.get? runId := by
    intro runId hne
    rw [hr, Table.get?_modify_of_ne _ _ hne]
  have hread : ∀ (j : ℕ) (u : Thread), s'.threads[j]? = some u →
      u = { t with phase := .done } ∨ j ≠ i ∧ s.threads[j]? = some u := by
    intro j u hj
    rw [ht, getElem?_setPhase hi] at hj
    split_ifs at hj with h
    · exact .inl (Option.some.inj hj).symm
    · exact .inr ⟨h, hj⟩
  refine ⟨?_, ?_, ?_, ?_, ?_, ?_, ?_⟩
  · rw [ht, runIds_setPhase hi]
    exact hs.nodup
  · intro j u hj hu
    rcases hread j u hj with rfl | ⟨hne, hj⟩
    · exact absurd rfl hu
    · -- a thread that is not done has the active run, which is that of `t`
      have hbusy := hs.ofThread j u hj hu
      rw [hactive] at hbusy
      exact absurd (index_unique hs.nodup hi hj (Option.some.inj hbusy)).symm hne
  · intro runId hrun
    rw [ha] at hrun
    cases hrun
  · intro j u hj
    rcases hread j u hj with rfl | ⟨-, hj⟩
    · exact ⟨r', hget'⟩
    · obtain ⟨q, hq⟩ := hs.recorded j u hj
      by_cases h : u.runId = t.runId
      · exact ⟨r', by rw [h, hget']⟩
      · exact ⟨q, by rw [hkeep _ h, hq]⟩
  · intro runId q hq
    rw [ha]
    by_cases h : runId = t.runId
    · rw [h, hget'] at hq
      rw [← Option.some.inj hq, hover]
      simp
    · rw [hkeep _ h] at hq
      rw [hs.live runId q hq, hactive]
      simp [Ne.symm h]
  · intro runId q hq
    by_cases h : runId = t.runId
    · rw [h, hget'] at hq
      exact Option.some.inj hq ▸ hsound
    · rw [hkeep _ h] at hq
      exact hs.sound runId q hq
  · intro j u hj
    rcases hread j u hj with rfl | ⟨-, hj⟩
    · trivial
    · exact hs.valid j u hj

theorem Effect.inv {s s' : ControllerService D} (h : Effect uuid5 s s') (hs : s.Inv uuid5) :
    s'.Inv uuid5 := by
  cases h with
  | still hr ha ht =>
    obtain ⟨h₁, h₂, h₃, h₄, h₅, h₆, h₇⟩ := hs
    rw [← hr, ← ha, ← ht] at *
    exact ⟨h₁, h₂, h₃, h₄, h₅, h₆, h₇⟩
  | moved i t p hi hp hne hvalid hr ha ht => exact inv_moved hs hi hp hne hvalid hr ha ht
  | spawned t digest hnew hfree hp hr ha ht => exact inv_spawned hs hnew hfree hp hr ha ht
  | refused runId digest hnew hfree hr ha ht => exact inv_refused hs hnew hfree hr ha ht
  | marked runId r hactive hget hr ha ht => exact inv_marked hs hactive hget hr ha ht
  | completed i t result hi hp hr ha ht => exact inv_completed hs hi hp hr ha ht

/-! ### What stays -/

theorem Record.complete_cancelled (quarantined : Bool) (result : Option Message) (r : Record D) :
    (r.complete quarantined result).cancelled = r.cancelled := by
  unfold Record.complete
  split
  · rfl
  · split
    · split <;> rfl
    · rfl

/-- A record keeps its digest and its mark, and one that is over stays as it is. -/
theorem Effect.record {s s' : ControllerService D} (h : Effect uuid5 s s') (hs : s.Inv uuid5)
    {runId : Uuid} {r : Record D} (hget : s.records.get? runId = some r) :
    ∃ r', s'.records.get? runId = some r' ∧ r'.digest = r.digest ∧
      (r.cancelled = true → r'.cancelled = true) ∧ (r.status.live = false → r' = r) := by
  have hsame : s'.records.get? runId = s.records.get? runId →
      ∃ r', s'.records.get? runId = some r' ∧ r'.digest = r.digest ∧
        (r.cancelled = true → r'.cancelled = true) ∧ (r.status.live = false → r' = r) :=
    fun heq => ⟨r, heq.trans hget, rfl, id, fun _ => rfl⟩
  have hnot : ∀ runId', s.records.get? runId' = none → runId ≠ runId' := by
    rintro runId' hnew rfl
    rw [hget] at hnew
    cases hnew
  cases h with
  | still hr ha ht => exact hsame (by rw [hr])
  | moved i t p hi hp hne hvalid hr ha ht => exact hsame (by rw [hr])
  | spawned t digest hnew hfree hp hr ha ht =>
    exact hsame (by rw [hr, Table.get?_put_of_ne _ _ (hnot _ hnew)])
  | refused runId' digest hnew hfree hr ha ht =>
    exact hsame (by rw [hr, Table.get?_put_of_ne _ _ (hnot _ hnew)])
  | marked runId' q hactive hq hr ha ht =>
    by_cases heq : runId = runId'
    · subst heq
      obtain rfl : q = r := Option.some.inj (hq.symm.trans hget)
      refine ⟨{ q with cancelled := true, status := .cancelling }, ?_, rfl, fun _ => rfl, fun hover => ?_⟩
      · rw [hr, Table.get?_set_self hq]
      · rw [(hs.live runId q hget).2 hactive] at hover
        cases hover
    · exact hsame (by rw [hr, Table.get?_set_of_ne _ _ heq])
  | completed i t result hi hp hr ha ht =>
    by_cases heq : runId = t.runId
    · subst heq
      obtain ⟨hactive, q, q', hq, hq', -, -, hdigest, -⟩ := complete_record hs hi hp hr
      obtain rfl : q = r := Option.some.inj (hq.symm.trans hget)
      have hq'' : q' = q.complete s.quarantined result := by
        rw [hr, Table.get?_modify_self, hget, Option.map_some] at hq'
        exact (Option.some.inj hq').symm
      refine ⟨q', hq', hdigest, fun hc => ?_, fun hover => ?_⟩
      · rw [hq'', Record.complete_cancelled, hc]
      · rw [(hs.live _ q hget).2 hactive] at hover
        cases hover
    · exact hsame (by rw [hr, Table.get?_modify_of_ne _ _ heq])

/-- A thread goes forward only. -/
theorem Effect.thread {s s' : ControllerService D} (h : Effect uuid5 s s') {i : ℕ} {t : Thread}
    (hi : s.threads[i]? = some t) :
    ∃ t', s'.threads[i]? = some t' ∧ t'.runId = t.runId ∧ t'.phase.rank ≤ t.phase.rank := by
  have hset : ∀ (j : ℕ) (u : Thread) (p : Phase), s.threads[j]? = some u → p.rank ≤ u.phase.rank →
      s'.threads = s.threads.set j { u with phase := p } →
      ∃ t', s'.threads[i]? = some t' ∧ t'.runId = t.runId ∧ t'.phase.rank ≤ t.phase.rank := by
    intro j u p hj hp ht
    rw [ht, getElem?_setPhase hj]
    split_ifs with heq
    · subst heq
      obtain rfl : u = t := Option.some.inj (hj.symm.trans hi)
      exact ⟨_, rfl, rfl, hp⟩
    · exact ⟨t, hi, rfl, le_refl _⟩
  have hsame : s'.threads = s.threads →
      ∃ t', s'.threads[i]? = some t' ∧ t'.runId = t.runId ∧ t'.phase.rank ≤ t.phase.rank :=
    fun ht => ⟨t, by rw [ht, hi], rfl, le_refl _⟩
  cases h with
  | still hr ha ht => exact hsame ht
  | moved j u p hj hp hne hvalid hr ha ht => exact hset j u p hj (by omega) ht
  | spawned u digest hnew hfree hp hr ha ht =>
    obtain ⟨hlt, -⟩ := List.getElem?_eq_some_iff.1 hi
    exact ⟨t, by rw [ht, List.getElem?_append_left hlt, hi], rfl, le_refl _⟩
  | refused runId digest hnew hfree hr ha ht => exact hsame ht
  | marked runId r hactive hget hr ha ht => exact hsame ht
  | completed j u result hj hp hr ha ht => exact hset j u .done hj (by simp [Phase.rank]) ht

variable (uuid5)

/-- A step of a thread brings it nearer to its end. -/
theorem advance_rank {s : ControllerService D} {i : ℕ} {t : Thread} (hi : s.threads[i]? = some t)
    (outcome : CallOutcome) :
    ∃ t', (s.advance uuid5 i t outcome).threads[i]? = some t' ∧ t'.runId = t.runId ∧
      t'.phase.rank ≤ t.phase.rank - 1 := by
  have hset : ∀ p q : Phase, t.phase = p → q.rank ≤ p.rank - 1 → ∀ s' : ControllerService D,
      s'.threads = s.threads.set i { t with phase := q } →
      ∃ t', s'.threads[i]? = some t' ∧ t'.runId = t.runId ∧ t'.phase.rank ≤ t.phase.rank - 1 := by
    intro p q hp hrank s' ht
    refine ⟨{ t with phase := q }, ?_, rfl, by rwa [hp]⟩
    rw [ht, getElem?_setPhase hi, if_pos rfl]
  unfold ControllerService.advance
  split
  next hp =>
    cases outcome with
    | returned value => exact hset _ .checking hp (by decide) _ rfl
    | raised child => exact hset _ (.stopping none) hp (by decide) _ rfl
  next hp =>
    split
    · exact hset _ (.stopping none) hp (by decide) _ rfl
    · exact hset _ .executing hp (by decide) _ rfl
  next hp =>
    exact hset _ (.stopping _) hp (by simp [Phase.rank]) _ rfl
  next result hp => exact hset _ (.completing result) hp (by simp [Phase.rank]) _ rfl
  next result hp => exact hset _ .done hp (by simp [Phase.rank]) _ rfl
  next hp => exact ⟨t, hi, rfl, by simp [hp, Phase.rank]⟩

/-! ### Runs -/

variable (sha256 : Message × String → D) (maximumRecords : ℕ) [DecidableEq D]

theorem step_inv (s : ControllerService D) (a : ServiceAction) (hs : s.Inv uuid5) :
    (step uuid5 sha256 maximumRecords s a).Inv uuid5 :=
  (step_effect uuid5 sha256 maximumRecords s a).inv hs

theorem runFrom_inv (as : List ServiceAction) : (runFrom uuid5 sha256 maximumRecords as).Inv uuid5 :=
  Transition.run_induction (step_inv uuid5 sha256 maximumRecords) (ControllerService.inv_initial uuid5) as

theorem runFrom_append (as bs : List ServiceAction) :
    runFrom uuid5 sha256 maximumRecords (as ++ bs) =
      Transition.run (step uuid5 sha256 maximumRecords) (runFrom uuid5 sha256 maximumRecords as) bs :=
  Transition.run_append _ _ _ _

/-- What a step keeps of a record, a run keeps. -/
theorem run_record {s : ControllerService D} (hs : s.Inv uuid5) {runId : Uuid} {r : Record D}
    (hget : s.records.get? runId = some r) (bs : List ServiceAction) :
    ∃ r', (Transition.run (step uuid5 sha256 maximumRecords) s bs).records.get? runId = some r' ∧
      r'.digest = r.digest ∧ (r.cancelled = true → r'.cancelled = true) ∧
      (r.status.live = false → r' = r) := by
  induction bs generalizing s r with
  | nil => exact ⟨r, hget, rfl, id, fun _ => rfl⟩
  | cons a bs ih =>
    obtain ⟨q, hq, hdigest, hmark, hover⟩ :=
      (step_effect uuid5 sha256 maximumRecords s a).record hs hget
    obtain ⟨r', hr', hdigest', hmark', hover'⟩ := ih (step_inv uuid5 sha256 maximumRecords s a hs) hq
    refine ⟨r', hr', hdigest'.trans hdigest, fun h => hmark' (hmark h), fun h => ?_⟩
    obtain rfl := hover h
    exact hover' h

theorem step_rank {s : ControllerService D} {i : ℕ} {t : Thread} (hi : s.threads[i]? = some t)
    (a : ServiceAction) :
    ∃ t', (step uuid5 sha256 maximumRecords s a).threads[i]? = some t' ∧ t'.runId = t.runId ∧
      t'.phase.rank ≤ t.phase.rank - stepsOf i [a] := by
  by_cases h : stepsOf i [a] = 0
  · rw [h, Nat.sub_zero]
    exact (step_effect uuid5 sha256 maximumRecords s a).thread hi
  · cases a with
    | thread j outcome =>
      have hj : i = j := by
        by_contra hne
        exact h (by simp [stepsOf, hne])
      subst hj
      have hone : stepsOf i [.thread i outcome] = 1 := by simp [stepsOf]
      rw [hone]
      simp only [step, hi]
      exact advance_rank uuid5 hi outcome
    | _ => exact absurd rfl h

/-- A thread that has taken enough steps is done. -/
theorem run_rank {s : ControllerService D} {i : ℕ} {t : Thread} (hi : s.threads[i]? = some t)
    (bs : List ServiceAction) :
    ∃ t', (Transition.run (step uuid5 sha256 maximumRecords) s bs).threads[i]? = some t' ∧
      t'.runId = t.runId ∧ t'.phase.rank ≤ t.phase.rank - stepsOf i bs := by
  induction bs generalizing s t with
  | nil => exact ⟨t, hi, rfl, le_refl _⟩
  | cons a bs ih =>
    obtain ⟨u, hu, hrun, hrank⟩ := step_rank uuid5 sha256 maximumRecords hi a
    obtain ⟨t', ht', hrun', hrank'⟩ := ih hu
    have hsum : stepsOf i (a :: bs) = stepsOf i [a] + stepsOf i bs := by
      rw [stepsOf, stepsOf, stepsOf, ← List.countP_append]
      rfl
    exact ⟨t', ht', hrun'.trans hrun, by omega⟩

theorem Phase.rank_le (p : Phase) : p.rank ≤ 5 := by
  cases p <;> simp [Phase.rank]

/-- A cancelled run whose thread is done ends in `cancelled`. -/
theorem cancelled_of_run {s : ControllerService D} (hs : s.Inv uuid5) {runId : Uuid}
    (hactive : s.active = some runId) (bs : List ServiceAction) :
    ∃ r i t, (Transition.run (step uuid5 sha256 maximumRecords) s (.cancel runId :: bs)).records.get?
        runId = some r ∧
      s.threads[i]? = some t ∧ t.runId = runId ∧ r.result = none ∧
      (r.status = .cancelling ∨ r.status = .cancelled) ∧ (5 ≤ stepsOf i bs → r.status = .cancelled) := by
  obtain ⟨i, t, hi, hrun, -⟩ := hs.ofActive runId hactive
  obtain ⟨q, hq⟩ := hs.recorded i t hi
  rw [hrun] at hq
  -- the record after the cancellation is marked, and so it is at the end of the run
  have hmarked : (step uuid5 sha256 maximumRecords s (.cancel runId)).records.get? runId =
      some { q with cancelled := true, status := .cancelling } := by
    simp only [step, cancel, hq, hactive, ne_eq, not_true_eq_false, if_false]
    exact Table.get?_set_self hq _
  have hinv := step_inv uuid5 sha256 maximumRecords s (.cancel runId) hs
  have hend := Transition.run_induction (step_inv uuid5 sha256 maximumRecords) hinv bs
  obtain ⟨r, hr, -, hmark, -⟩ := run_record uuid5 sha256 maximumRecords hinv hmarked bs
  obtain ⟨hnone, hstatus⟩ := (hend.sound runId r hr).marked (hmark rfl)
  refine ⟨r, i, t, hr, hi, hrun, hnone, hstatus, fun hsteps => ?_⟩
  obtain ⟨t', hi', hrun', hrank⟩ := step_rank uuid5 sha256 maximumRecords hi (.cancel runId)
  obtain ⟨t'', hi'', hrun'', hrank'⟩ := run_rank uuid5 sha256 maximumRecords hi' bs
  rcases hstatus with hstatus | hstatus
  · -- the run would be live, and its thread, which is done, would not be
    have hlive := (hend.live runId r hr).1 (by rw [hstatus]; rfl)
    obtain ⟨j, u, hj, hu, hbusy⟩ := hend.ofActive runId hlive
    have hij := index_unique hend.nodup hi'' hj (by rw [hrun'', hrun', hrun, hu])
    subst hij
    obtain rfl : t'' = u := Option.some.inj (hi''.symm.trans hj)
    have hpos := Phase.ne_done_iff.1 hbusy
    have hle := Phase.rank_le t'.phase
    omega
  · exact hstatus

/-! ### Repeated requests -/

theorem validateEnvelope_request {i : StartInput} {request : Message} {deadline : Time}
    (h : validateEnvelope i.now i.validated i.envelope = .ok (request, deadline)) :
    request = i.request := by
  simp only [validateEnvelope, bind_eq_ok, pure_eq_ok, Prod.mk.injEq] at h
  obtain ⟨-, -, -, -, -, -, -, -, -, -, hrequest, -⟩ := h
  exact hrequest.symm

/-- A `start` for a run that has a record. -/
theorem start_known {s : ControllerService D} {i : StartInput} {r : Record D}
    (hget : s.records.get? (runIdOf uuid5 i.request) = some r) :
    (start uuid5 sha256 maximumRecords i s).2 = s ∧
      (i.Valid → (start uuid5 sha256 maximumRecords i s).1 =
        if r.digest = sha256 (i.envelope.canon, i.scope) then .ok (runIdOf uuid5 i.request)
        else .error .admissionConflict) ∧
      (¬ i.Valid → ∃ e, (start uuid5 sha256 maximumRecords i s).1 = .error (.valueError e)) := by
  rw [start, StartInput.Valid]
  cases hscope : Transport.isScope i.scope with
  | false => exact ⟨rfl, fun h => absurd h.1 (by simp), fun _ => ⟨_, rfl⟩⟩
  | true =>
    rw [if_neg (by simp)]
    cases henvelope : validateEnvelope i.now i.validated i.envelope with
    | error e => exact ⟨rfl, fun h => absurd h.2 (by simp [Except.isOk, Except.toBool]), fun _ => ⟨e, rfl⟩⟩
    | ok q =>
      obtain ⟨request, deadline⟩ := q
      obtain rfl := validateEnvelope_request henvelope
      simp only [startLocked, hget]
      refine ⟨?_, fun _ => ?_, fun h => absurd ⟨trivial, rfl⟩ h⟩
      · split_ifs <;> rfl
      · split_ifs <;> rfl

/-- A `start` that has made a record, or has found one. -/
theorem start_made {s : ControllerService D} {i : StartInput}
    (h : MadeRecord (start uuid5 sha256 maximumRecords i s).1) :
    ∃ r, (start uuid5 sha256 maximumRecords i s).2.records.get? (runIdOf uuid5 i.request) = some r ∧
      r.digest = sha256 (i.envelope.canon, i.scope) := by
  rw [start] at h ⊢
  split_ifs at h ⊢ with hscope
  · rcases h with h | h <;> cases h
  · cases henvelope : validateEnvelope i.now i.validated i.envelope with
    | error e =>
      rw [henvelope] at h
      rcases h with h | h <;> cases h
    | ok q =>
      obtain ⟨request, deadline⟩ := q
      obtain rfl := validateEnvelope_request henvelope
      rw [henvelope] at h
      simp only [startLocked] at h ⊢
      cases hget : s.records.get? (runIdOf uuid5 i.request) with
      | some prior =>
        rw [hget] at h
        simp only at h ⊢
        split_ifs at h ⊢ with hdigest
        · exact ⟨prior, hget, hdigest⟩
        · rcases h with h | h <;> cases h
      | none =>
        rw [hget] at h
        simp only at h ⊢
        split_ifs at h ⊢ with hlate hfull hthread
        · rcases h with h | h <;> cases h
        · rcases h with h | h <;> cases h
        · exact ⟨_, Table.get?_put_self _ _ _, rfl⟩
        · exact ⟨_, Table.get?_put_self _ _ _, rfl⟩

/-- **The records of the controller service are sound.** -/
theorem recordsSound : RecordsSound uuid5 sha256 maximumRecords where
  live as runId r hget := (runFrom_inv uuid5 sha256 maximumRecords as).live runId r hget
  named as runId hactive := by
    have hs := runFrom_inv uuid5 sha256 maximumRecords as
    obtain ⟨i, t, hi, rfl, -⟩ := hs.ofActive runId hactive
    exact hs.recorded i t hi
  terminal as bs runId r hget hover := by
    have hs := runFrom_inv uuid5 sha256 maximumRecords as
    obtain ⟨r', hget', -, -, hsame⟩ := run_record uuid5 sha256 maximumRecords hs hget bs
    obtain rfl := hsame hover
    rw [runFrom_append, payload, hget']
    exact ⟨rfl, rfl⟩
  cancelled as bs runId hactive := by
    rw [runFrom_append]
    exact cancelled_of_run uuid5 sha256 maximumRecords (runFrom_inv uuid5 sha256 maximumRecords as)
      hactive bs
  single as := (runFrom_inv uuid5 sha256 maximumRecords as).nodup
  replay hsha as bs i j hmade hsame := by
    intro s
    have hs := runFrom_inv uuid5 sha256 maximumRecords as
    obtain ⟨q, hq, hdigest⟩ := start_made uuid5 sha256 maximumRecords hmade
    obtain ⟨r, hr, hkept, -, -⟩ := run_record uuid5 sha256 maximumRecords
      (step_inv uuid5 sha256 maximumRecords _ (.start i) hs) hq bs
    have hget : s.records.get? (runIdOf uuid5 j.request) = some r := by
      rw [← hsame, show s = _ from runFrom_append uuid5 sha256 maximumRecords as (.start i :: bs)]
      exact hr
    obtain ⟨hstate, hvalid, hinvalid⟩ := start_known uuid5 sha256 maximumRecords hget
    refine ⟨hstate, fun h => ?_, hinvalid⟩
    rw [hvalid h, hkept, hdigest, hsame]
    by_cases heq : j.Same i
    · rw [if_pos heq, if_pos (by rw [heq.1, heq.2])]
    · rw [if_neg heq, if_neg]
      intro hcollision
      obtain ⟨h₁, h₂⟩ := Prod.mk.inj (hsha hcollision)
      exact heq ⟨h₁.symm, h₂.symm⟩

/-- A later `start` with another envelope or scope always conflicts. -/
def AlwaysConflicts : Prop :=
  ∀ as bs i j, MadeRecord (start uuid5 sha256 maximumRecords i (runFrom uuid5 sha256 maximumRecords as)).1 →
    runIdOf uuid5 i.request = runIdOf uuid5 j.request → ¬ j.Same i →
    (start uuid5 sha256 maximumRecords j (runFrom uuid5 sha256 maximumRecords (as ++ .start i :: bs))).1 =
      .error .admissionConflict

end Service

/-- An envelope of a run. -/
def sampleEnvelope : Message :=
  .obj [
    ("request", .obj [
      ("schema_version", .lit "1.0"),
      ("workflow_id", .lit "00000000-0000-0000-0000-000000000001"),
      ("revision_id", .int 1),
      ("actor_id", .lit "maya"),
      ("correlation_id", .lit "00000000-0000-0000-0000-000000000002"),
      ("model_alias", .lit "civicloop-default"),
      ("budgets", .obj [("max_input_tokens", .int 10), ("max_output_tokens", .int 10),
        ("max_cost_microusd", .int 10), ("timeout_seconds", .int 60)])]),
    ("expires_at", .lit "1970-01-01T00:00:30+00:00")]

/-- A request to start the run. -/
def sampleStart : StartInput :=
  ⟨sampleEnvelope, "scope_" ++ String.ofList (List.replicate 43 'a'), 0, 0, 0, true⟩

/-- The same envelope with an empty scope is refused as invalid, not as a conflict. -/
theorem not_alwaysConflict :
    ¬ AlwaysConflicts (D := Message × String) (fun _ => 0) id 1 := by
  intro h
  have hmade : MadeRecord (start (fun _ => 0) id 1 sampleStart
      (runFrom (D := Message × String) (fun _ => 0) id 1 [])).1 := .inl (by decide +kernel)
  have hconflict := h [] [] sampleStart { sampleStart with scope := "" } hmade rfl
    (fun hsame => absurd hsame.2 (by decide +kernel))
  rw [start, if_pos (by decide)] at hconflict
  cases hconflict

end CivicLoop.Hermes
