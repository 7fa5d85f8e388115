import CivicLoop.Foundation.Log
import CivicLoop.Foundation.PyText
import CivicLoop.Foundation.Transition

/-!
# The transport scopes of the adapter

The adapter executes one run at a time, under a lock that a request takes or is sent away. For the run
it draws a token, registers a scope under it, lets the controller execute the run, and revokes the
scope, whatever has happened before. A revocation that fails poisons the adapter, which then registers
nothing more.

A run may be cancelled from another thread, which marks the record of the run, asks the controller to
stop, and waits for the end of the run. It reports success only for a run that has come to a clean end.

Registration, execution, revocation and cancellation return or raise at the will of the environment.
A token is named by the position of its record.

## Main definitions

* `HermesAdapter`, `RunPhase`, `CancelPhase` : the adapter, with its run and the cancellations on their
  way.
* `HermesAdapter.advance`, `HermesAdapter.advanceCancel` : their next steps.
* `ScopeHygiene` : in which order scopes are registered and revoked, and runs are reported.

## Main results

* `scopeHygiene` : the order is kept in every run.
-/

namespace CivicLoop.Hermes

/-! ### The adapter -/

/-- The record of a run. -/
structure RunRecord where
  runId : Uuid
  cancelled : Bool
  done : Bool
  clean : Bool

/-- What a request is answered with: the mapped result of a cancelled run, the result of the controller,
or the result of a run whose dependency was unavailable. -/
inductive Reply
  | cancelled
  | result (value : Message)
  | unavailable

/-- Where the request that has the run lock is. A call that is on its way has a place of its own. -/
inductive RunPhase
  | entered
  | admitting
  | registering (i : ℕ)
  | registered (i : ℕ)
  | checking (i : ℕ)
  | executing (i : ℕ)
  | executed (i : ℕ) (value : Message)
  | revoking (i : ℕ) (reply : Reply)
  | revoked (i : ℕ) (reply : Reply)
  | observing (i : ℕ) (reply : Reply)
  | assessing (i : ℕ) (reply : Reply) (healthy : Bool)
  | finishing (i : ℕ) (reply : Reply)
  | responding (run : Option ℕ) (reply : Reply)
  | releasing

/-- Where a call of `cancel` is. -/
inductive CancelPhase
  | arrived (runId : Uuid)
  | marked (runId : Uuid) (i : ℕ)
  | calling (runId : Uuid) (i : ℕ)
  | waiting (runId : Uuid) (i : ℕ)
  | verifying (runId : Uuid) (i : ℕ)
  | poisoning
  | returned (success : Bool)

/-- What the adapter does. -/
inductive AdapterEvent
  | register (i : ℕ)
  | revoke (i : ℕ)
  | revoked (i : ℕ)
  | observed (i : ℕ) (healthy quarantined : Bool)
  | ended (i : ℕ) (runId : Uuid)
  | response (run : Option ℕ) (reply : Reply)
  | confirmed (i : ℕ) (runId : Uuid)

/-- `HermesAdapter`. The request in `current` has the run lock. -/
structure HermesAdapter where
  healthy : Bool
  quarantined : Bool
  records : List RunRecord
  activeRun : Option ℕ
  current : Option (Uuid × RunPhase)
  cancels : List CancelPhase
  log : List AdapterEvent

def HermesAdapter.initial : HermesAdapter := ⟨true, false, [], none, none, [], []⟩

/-- How a call ends. -/
inductive Outcome
  | returned (value : Message)
  | raised

namespace HermesAdapter

variable (s : HermesAdapter)

/-- The request goes on. -/
def goTo (runId : Uuid) (p : RunPhase) : HermesAdapter := { s with current := some (runId, p) }

/-- Something is done. -/
def write (e : AdapterEvent) : HermesAdapter := { s with log := s.log ++ [e] }

/-- The record of a run is changed. -/
def modifyRecord (i : ℕ) (f : RunRecord → RunRecord) : HermesAdapter :=
  { s with records := s.records.modify i f }

/-- A record of which it is known that a field is set. -/
def has (i : ℕ) (p : RunRecord → Bool) : Bool := (s.records[i]?).any p

variable (hasClient hasController : Bool)

/-- The next step of `execute`, and of the request around it. The outcome is that of the call of the
step, if it has one; for the admission it says whether the binding is valid. -/
def advance (runId : Uuid) (p : RunPhase) (outcome : Outcome) : HermesAdapter :=
  match p with
  | .entered => s.goTo runId (if hasClient && s.healthy then .admitting else .responding none .unavailable)
  | .admitting =>
    match outcome with
    | .raised => s.goTo runId (.responding none .unavailable)
    | .returned _ =>
      if s.activeRun.any fun i => !s.has i (·.done) then s.goTo runId (.responding none .unavailable)
      else { s.goTo runId (.registering s.records.length) with
        records := s.records ++ [⟨runId, false, false, false⟩], activeRun := some s.records.length }
  | .registering i => (s.write (.register i)).goTo runId (.registered i)
  | .registered i =>
    s.goTo runId (match outcome with
      | .returned _ => .checking i
      | .raised => .revoking i .unavailable)
  | .checking i => s.goTo runId (if s.has i (·.cancelled) then .revoking i .cancelled else .executing i)
  | .executing i =>
    s.goTo runId (match outcome with
      | .returned value => .executed i value
      | .raised => .revoking i .unavailable)
  | .executed i value =>
    s.goTo runId (.revoking i (if s.has i (·.cancelled) then .cancelled else .result value))
  | .revoking i reply => (s.write (.revoke i)).goTo runId (.revoked i reply)
  | .revoked i reply =>
    match outcome with
    | .returned _ => (s.write (.revoked i)).goTo runId (.observing i reply)
    | .raised => { s.goTo runId (.finishing i .unavailable) with healthy := false }
  | .observing i reply =>
    (s.write (.observed i s.healthy s.quarantined)).goTo runId (.assessing i reply s.healthy)
  | .assessing i reply healthy =>
    (s.modifyRecord i fun r =>
      { r with clean := healthy && !(hasController && s.quarantined) }).goTo runId (.finishing i reply)
  | .finishing i reply =>
    ((s.modifyRecord i fun r => { r with done := true }).write (.ended i runId)).goTo runId
      (.responding (some i) reply)
  | .responding run reply => (s.write (.response run reply)).goTo runId .releasing
  | .releasing => { s with current := none }

/-- The call `k` of `cancel` goes on. -/
def goToCancel (k : ℕ) (c : CancelPhase) : HermesAdapter := { s with cancels := s.cancels.set k c }

/-- The next step of `cancel`. The outcome is that of the call of the controller; `late` says whether
the deadline is over. -/
def advanceCancel (k : ℕ) (c : CancelPhase) (outcome : Outcome) (late : Bool) : HermesAdapter :=
  match c with
  | .arrived runId =>
    match s.activeRun with
    | none => s.goToCancel k (.returned false)
    | some i =>
      if s.has i fun r => r.runId = runId then
        (s.modifyRecord i fun r => { r with cancelled := true }).goToCancel k (.marked runId i)
      else s.goToCancel k (.returned false)
  | .marked runId i => s.goToCancel k (if s.has i (·.done) then .waiting runId i else .calling runId i)
  | .calling runId i =>
    s.goToCancel k (match outcome with
      | .returned (.bool true) => if hasController then .waiting runId i else .poisoning
      | _ => .poisoning)
  | .waiting runId i =>
    if s.has i (·.done) then s.goToCancel k (.verifying runId i)
    else if late then s.goToCancel k .poisoning
    else s
  | .verifying runId i =>
    if s.has i (·.clean) then (s.write (.confirmed i runId)).goToCancel k (.returned true)
    else s.goToCancel k .poisoning
  | .poisoning => { s.goToCancel k (.returned false) with healthy := false }
  | .returned _ => s

end HermesAdapter

/-! ### The system -/

/-- A step of the system. -/
inductive AdapterAction
  | request (runId : Uuid)
  | run (outcome : Outcome)
  | cancelRequest (runId : Uuid)
  | cancel (k : ℕ) (outcome : Outcome) (late : Bool)
  | quarantine

section System

variable (hasClient hasController : Bool)

/-- One step. A request that does not get the run lock is answered with 429. -/
def adapterStep (s : HermesAdapter) : AdapterAction → HermesAdapter
  | .request runId => if s.current.isSome then s else s.goTo runId .entered
  | .run outcome =>
    match s.current with
    | some (runId, p) => s.advance hasClient hasController runId p outcome
    | none => s
  | .cancelRequest runId => { s with cancels := s.cancels ++ [.arrived runId] }
  | .cancel k outcome late =>
    match s.cancels[k]? with
    | some c => s.advanceCancel hasController k c outcome late
    | none => s
  | .quarantine => { s with quarantined := true }

/-- The adapter after a run of the system from the start. -/
def adapterRun (as : List AdapterAction) : HermesAdapter :=
  Transition.run (adapterStep hasClient hasController) .initial as

/-- The order of the events: which event may come after which others. -/
def InOrder (before : List AdapterEvent) : AdapterEvent → Prop
  | .register i =>
    AdapterEvent.register i ∉ before ∧
      ∀ j, AdapterEvent.register j ∈ before → AdapterEvent.revoked j ∈ before
  | .revoked i => AdapterEvent.revoke i ∈ before
  | .observed i _ _ => AdapterEvent.revoked i ∈ before
  | .response _ _ => ∀ j, AdapterEvent.register j ∈ before → AdapterEvent.revoke j ∈ before
  | .confirmed i runId =>
    AdapterEvent.ended i runId ∈ before ∧
      ∃ quarantined, AdapterEvent.observed i true quarantined ∈ before ∧
        (hasController = true → quarantined = false)
  | _ => True

/-- **The hygiene of scopes.** A scope is registered after every earlier one was revoked, it is revoked
before the request is answered, a poisoned adapter stays poisoned, and a cancellation is confirmed only
for a run that has ended, after its scope was revoked while the adapter was healthy and the controller
not quarantined. -/
structure ScopeHygiene : Prop where
  order : ∀ as, Guarded (InOrder hasController) (adapterRun hasClient hasController as).log
  poisoned : ∀ as bs, (adapterRun hasClient hasController as).healthy = false →
    (adapterRun hasClient hasController (as ++ bs)).healthy = false

/-! ### The invariant -/

/-- A record with this run ID. -/
def HermesAdapter.Has (s : HermesAdapter) (i : ℕ) (runId : Uuid) : Prop :=
  ∃ r, s.records[i]? = some r ∧ r.runId = runId

/-- Every scope was revoked. -/
def HermesAdapter.AllRevoked (s : HermesAdapter) : Prop :=
  ∀ j, AdapterEvent.register j ∈ s.log → AdapterEvent.revoked j ∈ s.log

/-- The run that is yet to revoke its scope. -/
def RunPhase.open? : RunPhase → Option ℕ
  | .registered i | .checking i | .executing i | .executed i _ | .revoking i _ => some i
  | _ => none

/-- The run whose revocation is on its way. -/
def RunPhase.closing? : RunPhase → Option ℕ
  | .revoked i _ => some i
  | _ => none

/-- What is known at a place of `execute`. -/
def RunPhase.Known (s : HermesAdapter) (runId : Uuid) : RunPhase → Prop
  | .entered | .responding _ _ | .releasing => True
  | .admitting => s.AllRevoked
  | .registering i => s.AllRevoked ∧ AdapterEvent.register i ∉ s.log ∧ s.Has i runId
  | .registered i | .checking i | .executing i | .executed i _ | .revoking i _ => s.Has i runId
  | .revoked i _ => s.Has i runId ∧ AdapterEvent.revoke i ∈ s.log
  | .observing i _ => s.Has i runId ∧ AdapterEvent.revoked i ∈ s.log
  | .assessing i _ healthy => s.Has i runId ∧
      (healthy = true → ∃ quarantined, AdapterEvent.observed i true quarantined ∈ s.log ∧
        (quarantined = true → s.quarantined = true))
  | .finishing i _ => s.Has i runId

/-- What is known at a place of `cancel`. -/
def CancelPhase.Known (s : HermesAdapter) : CancelPhase → Prop
  | .marked runId i | .calling runId i | .waiting runId i => s.Has i runId
  | .verifying runId i => s.Has i runId ∧ AdapterEvent.ended i runId ∈ s.log
  | _ => True

/-- What is known of a record. -/
structure RunRecord.Known (log : List AdapterEvent) (i : ℕ) (r : RunRecord) : Prop where
  ended : r.done = true → AdapterEvent.ended i r.runId ∈ log
  clean : r.clean = true → ∃ quarantined, AdapterEvent.observed i true quarantined ∈ log ∧
    (hasController = true → quarantined = false)

/-- The invariant of the adapter. -/
structure HermesAdapter.Inv (s : HermesAdapter) : Prop where
  order : Guarded (InOrder hasController) s.log
  index : ∀ j, AdapterEvent.register j ∈ s.log → j < s.records.length
  revoke : ∀ j, AdapterEvent.register j ∈ s.log → AdapterEvent.revoke j ∈ s.log ∨
    ∃ runId p, s.current = some (runId, p) ∧ p.open? = some j
  revoked : s.healthy = true → ∀ j, AdapterEvent.register j ∈ s.log →
    AdapterEvent.revoked j ∈ s.log ∨
      ∃ runId p, s.current = some (runId, p) ∧ (p.open? = some j ∨ p.closing? = some j)
  current : ∀ runId p, s.current = some (runId, p) → p.Known s runId
  records : ∀ (i : ℕ) (r : RunRecord), s.records[i]? = some r → RunRecord.Known hasController s.log i r
  cancels : ∀ (k : ℕ) (c : CancelPhase), s.cancels[k]? = some c → c.Known s

theorem HermesAdapter.inv_initial : HermesAdapter.initial.Inv hasController where
  order := guarded_nil
  index j h := by cases h
  revoke j h := by cases h
  revoked _ j h := by cases h
  current runId p h := by cases h
  records i r h := by simp [initial] at h
  cancels k c h := by simp [initial] at h

/-! ### What is known stays known -/

/-- The adapter has done more, and has more records. -/
structure HermesAdapter.Grows (s s' : HermesAdapter) : Prop where
  log : ∀ e ∈ s.log, e ∈ s'.log
  length : s.records.length ≤ s'.records.length
  has : ∀ i runId, s.Has i runId → s'.Has i runId

variable {s s' : HermesAdapter}

theorem HermesAdapter.Grows.of_eq (hlog : ∀ e ∈ s.log, e ∈ s'.log) (hrecords : s'.records = s.records) :
    s.Grows s' where
  log := hlog
  length := by rw [hrecords]
  has i runId h := by
    rw [HermesAdapter.Has, hrecords]
    exact h

/-- A change of a record that keeps its run ID. -/
theorem HermesAdapter.Grows.of_modify {k : ℕ} {f : RunRecord → RunRecord}
    (hlog : ∀ e ∈ s.log, e ∈ s'.log) (hrecords : s'.records = s.records.modify k f)
    (hf : ∀ r, (f r).runId = r.runId) : s.Grows s' where
  log := hlog
  length := by rw [hrecords, List.length_modify]
  has i runId := by
    rintro ⟨r, hr, hrun⟩
    rw [HermesAdapter.Has, hrecords, List.getElem?_modify, hr]
    refine ⟨_, rfl, ?_⟩
    split_ifs
    · rw [hf, hrun]
    · exact hrun

theorem CancelPhase.Known.mono {c : CancelPhase} (h : c.Known s) (hgrow : s.Grows s') : c.Known s' := by
  cases c with
  | marked runId i => exact hgrow.has i runId h
  | calling runId i => exact hgrow.has i runId h
  | waiting runId i => exact hgrow.has i runId h
  | verifying runId i => exact ⟨hgrow.has i runId h.1, hgrow.log _ h.2⟩
  | _ => trivial

theorem RunRecord.Known.mono {i : ℕ} {r : RunRecord}
    (h : RunRecord.Known hasController s.log i r) (hlog : ∀ e ∈ s.log, e ∈ s'.log) :
    RunRecord.Known hasController s'.log i r where
  ended hr := hlog _ (h.ended hr)
  clean hr := by
    obtain ⟨q, hq, hcontroller⟩ := h.clean hr
    exact ⟨q, hlog _ hq, hcontroller⟩

theorem RunPhase.Known.mono {runId : Uuid} {p : RunPhase} (h : p.Known s runId) (hgrow : s.Grows s')
    (hregs : ∀ j, AdapterEvent.register j ∈ s'.log → AdapterEvent.register j ∈ s.log)
    (hq : s.quarantined = true → s'.quarantined = true) : p.Known s' runId := by
  have hall : s.AllRevoked → s'.AllRevoked := fun h j hj => hgrow.log _ (h j (hregs j hj))
  cases p with
  | admitting => exact hall h
  | registering i => exact ⟨hall h.1, fun hi => h.2.1 (hregs i hi), hgrow.has _ _ h.2.2⟩
  | registered i => exact hgrow.has _ _ h
  | checking i => exact hgrow.has _ _ h
  | executing i => exact hgrow.has _ _ h
  | executed i value => exact hgrow.has _ _ h
  | revoking i reply => exact hgrow.has _ _ h
  | revoked i reply => exact ⟨hgrow.has _ _ h.1, hgrow.log _ h.2⟩
  | observing i reply => exact ⟨hgrow.has _ _ h.1, hgrow.log _ h.2⟩
  | assessing i reply healthy =>
    refine ⟨hgrow.has _ _ h.1, fun hh => ?_⟩
    obtain ⟨q, hmem, hcontroller⟩ := h.2 hh
    exact ⟨q, hgrow.log _ hmem, fun hquarantined => hq (hcontroller hquarantined)⟩
  | finishing i reply => exact hgrow.has _ _ h
  | _ => trivial

/-! ### Steps of the cancellations -/

/-- A step that is not one of the run. -/
theorem HermesAdapter.Inv.other (hs : s.Inv hasController) (hgrow : s.Grows s')
    (horder : Guarded (InOrder hasController) s'.log) (hcurrent : s'.current = s.current)
    (hregs : ∀ j, AdapterEvent.register j ∈ s'.log → AdapterEvent.register j ∈ s.log)
    (hhealthy : s'.healthy = true → s.healthy = true)
    (hq : s.quarantined = true → s'.quarantined = true)
    (hrecords : ∀ (i : ℕ) (r : RunRecord), s'.records[i]? = some r →
      RunRecord.Known hasController s'.log i r)
    (hcancels : ∀ (k : ℕ) (c : CancelPhase), s'.cancels[k]? = some c → c.Known s') :
    s'.Inv hasController where
  order := horder
  index j hj := lt_of_lt_of_le (hs.index j (hregs j hj)) hgrow.length
  revoke j hj := by
    rw [hcurrent]
    exact (hs.revoke j (hregs j hj)).imp_left (hgrow.log _)
  revoked hh j hj := by
    rw [hcurrent]
    exact (hs.revoked (hhealthy hh) j (hregs j hj)).imp_left (hgrow.log _)
  current runId p hp := by
    rw [hcurrent] at hp
    exact (hs.current runId p hp).mono hgrow hregs hq
  records := hrecords
  cancels := hcancels

/-- The places of the cancellations after one of them has gone on. -/
theorem known_set (hs : s.Inv hasController) (hgrow : s.Grows s') {k : ℕ} {c : CancelPhase}
    (hcancels : s'.cancels = s.cancels.set k c) (hc : c.Known s') :
    ∀ (j : ℕ) (c' : CancelPhase), s'.cancels[j]? = some c' → c'.Known s' := by
  intro j c' hj
  rw [hcancels, List.getElem?_set] at hj
  split_ifs at hj with heq hlt
  · exact Option.some.inj hj ▸ hc
  · exact (hs.cancels j c' hj).mono hgrow

/-- A cancellation goes on, and nothing else happens, but that the adapter may be poisoned. -/
theorem inv_goToCancel (hs : s.Inv hasController) {k : ℕ} {c : CancelPhase} (hc : c.Known s)
    (healthy : Bool) (hhealthy : healthy = true → s.healthy = true) :
    ({ s.goToCancel k c with healthy } : HermesAdapter).Inv hasController := by
  have hgrow : s.Grows { s.goToCancel k c with healthy } := .of_eq (fun _ he => he) rfl
  exact hs.other hasController hgrow hs.order rfl (fun _ hj => hj) hhealthy id hs.records
    (known_set hasController hs hgrow rfl (hc.mono hgrow))

theorem getElem?_modifyRecord {i j : ℕ} {f : RunRecord → RunRecord} {r : RunRecord}
    (h : (s.modifyRecord i f).records[j]? = some r) :
    ∃ r', s.records[j]? = some r' ∧ r = if i = j then f r' else r' := by
  rw [HermesAdapter.modifyRecord, List.getElem?_modify] at h
  obtain ⟨r', hr', rfl⟩ := Option.map_eq_some_iff.1 h
  exact ⟨r', hr', rfl⟩

theorem has_eq_true {i : ℕ} {p : RunRecord → Bool} (h : s.has i p = true) :
    ∃ r, s.records[i]? = some r ∧ p r = true := by
  simpa [HermesAdapter.has, Option.any_eq_true] using h

theorem advanceCancel_inv (hs : s.Inv hasController) {k : ℕ} {c : CancelPhase}
    (hk : s.cancels[k]? = some c) (outcome : Outcome) (late : Bool) :
    (s.advanceCancel hasController k c outcome late).Inv hasController := by
  have hknown := hs.cancels k c hk
  have hgo : ∀ c' : CancelPhase, c'.Known s → (s.goToCancel k c').Inv hasController := fun c' hc' =>
    inv_goToCancel hasController hs hc' s.healthy id
  cases c with
  | arrived runId =>
    simp only [HermesAdapter.advanceCancel]
    cases s.activeRun with
    | none => exact hgo _ trivial
    | some i =>
      simp only
      split_ifs with hhas
      · obtain ⟨r, hr, hrun⟩ := has_eq_true hhas
        -- the record is marked as cancelled, which changes nothing that is known of it
        have hgrow : s.Grows ((s.modifyRecord i fun r => { r with cancelled := true }).goToCancel k
            (.marked runId i)) := .of_modify (fun _ he => he) rfl fun _ => rfl
        refine hs.other hasController hgrow hs.order rfl (fun _ hj => hj) id id ?_
          (known_set hasController hs hgrow rfl (hgrow.has i runId ⟨r, hr, by simpa using hrun⟩))
        intro j q hq
        obtain ⟨q', hq', rfl⟩ := getElem?_modifyRecord hq
        have hrecord := hs.records j q' hq'
        split_ifs
        · exact ⟨hrecord.ended, hrecord.clean⟩
        · exact hrecord
      · exact hgo _ trivial
  | marked runId i =>
    simp only [HermesAdapter.advanceCancel]
    split_ifs
    · exact hgo _ hknown
    · exact hgo _ hknown
  | calling runId i =>
    simp only [HermesAdapter.advanceCancel]
    split
    · split_ifs
      · exact hgo _ hknown
      · exact hgo _ trivial
    · exact hgo _ trivial
  | waiting runId i =>
    simp only [HermesAdapter.advanceCancel]
    split_ifs with hdone hlate
    · obtain ⟨r, hr, hdone⟩ := has_eq_true hdone
      obtain ⟨r', hr', hrun⟩ := hknown
      obtain rfl : r = r' := Option.some.inj (hr.symm.trans hr')
      have hended := (hs.records i r hr).ended hdone
      exact hgo _ ⟨⟨r, hr, hrun⟩, hrun ▸ hended⟩
    · exact hgo _ trivial
    · exact hs
  | verifying runId i =>
    simp only [HermesAdapter.advanceCancel]
    split_ifs with hclean
    · obtain ⟨r, hr, hclean⟩ := has_eq_true hclean
      have hgrow : s.Grows ((s.write (.confirmed i runId)).goToCancel k (.returned true)) :=
        .of_eq (fun _ he => List.mem_append_left _ he) rfl
      refine hs.other hasController hgrow (guarded_concat.2 ⟨hs.order, hknown.2,
        (hs.records i r hr).clean hclean⟩) rfl (fun j hj => ?_) id id ?_
        (known_set hasController hs hgrow rfl trivial)
      · rcases List.mem_append.1 hj with hj | hj
        · exact hj
        · simp at hj
      · exact fun j q hq => (hs.records j q hq).mono hasController hgrow.log
    · exact hgo _ trivial
  | poisoning =>
    have hc : (CancelPhase.returned false).Known s := trivial
    exact inv_goToCancel hasController hs hc false (by simp)
  | returned success => exact hs

/-! ### Steps of the run -/

variable {runId : Uuid} {p q : RunPhase}

/-- A step of the run. -/
theorem HermesAdapter.Inv.runStep (hs : s.Inv hasController) (hp : s.current = some (runId, p))
    (hq : s'.current = some (runId, q)) (hgrow : s.Grows s') (hcancels : s'.cancels = s.cancels)
    (horder : Guarded (InOrder hasController) s'.log)
    (hregs : ∀ j, AdapterEvent.register j ∈ s'.log →
      AdapterEvent.register j ∈ s.log ∨ j < s'.records.length ∧ q.open? = some j)
    (hopen : ∀ j, p.open? = some j → q.open? = some j ∨ AdapterEvent.revoke j ∈ s'.log)
    (hhealthy : s'.healthy = true → s.healthy = true)
    (hclosing : s'.healthy = true → ∀ j, p.open? = some j ∨ p.closing? = some j →
      (q.open? = some j ∨ q.closing? = some j) ∨ AdapterEvent.revoked j ∈ s'.log)
    (hknown : q.Known s' runId)
    (hrecords : ∀ (i : ℕ) (r : RunRecord), s'.records[i]? = some r →
      RunRecord.Known hasController s'.log i r) : s'.Inv hasController where
  order := horder
  index j hj := by
    rcases hregs j hj with hj | ⟨hj, -⟩
    · exact lt_of_lt_of_le (hs.index j hj) hgrow.length
    · exact hj
  revoke j hj := by
    rcases hregs j hj with hj | ⟨-, hj⟩
    · rcases hs.revoke j hj with hj | ⟨runId', p', hp', hj⟩
      · exact .inl (hgrow.log _ hj)
      · obtain ⟨rfl, rfl⟩ := Prod.mk.inj (Option.some.inj (hp.symm.trans hp'))
        rcases hopen j hj with hj | hj
        · exact .inr ⟨_, _, hq, hj⟩
        · exact .inl hj
    · exact .inr ⟨_, _, hq, hj⟩
  revoked hh j hj := by
    rcases hregs j hj with hj | ⟨-, hj⟩
    · rcases hs.revoked (hhealthy hh) j hj with hj | ⟨runId', p', hp', hj⟩
      · exact .inl (hgrow.log _ hj)
      · obtain ⟨rfl, rfl⟩ := Prod.mk.inj (Option.some.inj (hp.symm.trans hp'))
        rcases hclosing hh j hj with hj | hj
        · exact .inr ⟨_, _, hq, hj⟩
        · exact .inl hj
    · exact .inr ⟨_, _, hq, .inl hj⟩
  current runId' q' hq' := by
    obtain ⟨rfl, rfl⟩ := Prod.mk.inj (Option.some.inj (hq.symm.trans hq'))
    exact hknown
  records := hrecords
  cancels k c hk := by
    rw [hcancels] at hk
    exact (hs.cancels k c hk).mono hgrow

/-- The run goes on, and nothing else happens. -/
theorem inv_goTo (hs : s.Inv hasController) (hp : s.current = some (runId, p))
    (hopen : q.open? = p.open?) (hclosing : q.closing? = p.closing?) (hknown : q.Known s runId) :
    (s.goTo runId q).Inv hasController := by
  have hgrow : s.Grows (s.goTo runId q) := .of_eq (fun _ he => he) rfl
  refine hs.runStep hasController hp rfl hgrow rfl hs.order (fun _ hj => .inl hj) (fun j hj => ?_) id
    (fun _ j hj => ?_) (hknown.mono hgrow (fun _ hj => hj) id) hs.records
  · exact .inl (hopen.trans hj)
  · rw [hopen, hclosing]
    exact .inl hj

/-- The run goes on after something is done that is not a registration. -/
theorem inv_write (hs : s.Inv hasController) (hp : s.current = some (runId, p)) {e : AdapterEvent}
    (horder : InOrder hasController s.log e) (he : ∀ j, e ≠ .register j)
    (hopen : ∀ j, p.open? = some j → q.open? = some j ∨ e = .revoke j)
    (hclosing : ∀ j, p.open? = some j ∨ p.closing? = some j →
      (q.open? = some j ∨ q.closing? = some j) ∨ e = .revoked j)
    (hknown : q.Known ((s.write e).goTo runId q) runId) :
    ((s.write e).goTo runId q).Inv hasController := by
  have hgrow : s.Grows ((s.write e).goTo runId q) := .of_eq (fun _ he => List.mem_append_left _ he) rfl
  have hlast : ∀ e', e = e' → e' ∈ ((s.write e).goTo runId q).log := by
    rintro e' rfl
    exact List.mem_append_right _ (List.mem_singleton_self e)
  refine hs.runStep hasController hp rfl hgrow rfl (guarded_concat.2 ⟨hs.order, horder⟩) (fun j hj => ?_)
    (fun j hj => (hopen j hj).imp_right (hlast _)) id
    (fun _ j hj => (hclosing j hj).imp_right (hlast _)) hknown ?_
  · rcases List.mem_append.1 hj with hj | hj
    · exact .inl hj
    · exact absurd (List.mem_singleton.1 hj).symm (he j)
  · exact fun j q hq => (hs.records j q hq).mono hasController hgrow.log

theorem allRevoked_of_healthy (hs : s.Inv hasController) (hp : s.current = some (runId, p))
    (hhealthy : s.healthy = true) (hopen : p.open? = none) (hclosing : p.closing? = none) :
    s.AllRevoked := by
  intro j hj
  rcases hs.revoked hhealthy j hj with hj | ⟨runId', p', hp', hj⟩
  · exact hj
  · obtain ⟨rfl, rfl⟩ := Prod.mk.inj (Option.some.inj (hp.symm.trans hp'))
    rw [hopen, hclosing] at hj
    simp at hj

variable (hasClient : Bool)

theorem advance_inv (hs : s.Inv hasController) (hp : s.current = some (runId, p)) (outcome : Outcome) :
    (s.advance hasClient hasController runId p outcome).Inv hasController := by
  have hknown := hs.current runId p hp
  cases p with
  | entered =>
    simp only [HermesAdapter.advance]
    split_ifs with hready
    · rw [Bool.and_eq_true] at hready
      exact inv_goTo hasController hs hp rfl rfl
        (allRevoked_of_healthy hasController hs hp hready.2 rfl rfl)
    · exact inv_goTo hasController hs hp rfl rfl trivial
  | admitting =>
    cases outcome with
    | raised => exact inv_goTo hasController hs hp rfl rfl trivial
    | returned value =>
      simp only [HermesAdapter.advance]
      split_ifs with hbusy
      · exact inv_goTo hasController hs hp rfl rfl trivial
      · -- the new record is known by its position
        have hnew : ∀ (i : ℕ) (r : RunRecord), s.records[i]? = some r →
            (s.records ++ [⟨runId, false, false, false⟩])[i]? = some r := by
          intro i r hr
          rw [List.getElem?_append_left (List.getElem?_eq_some_iff.1 hr).1, hr]
        refine hs.runStep hasController hp rfl ⟨fun _ he => he, by simp, ?_⟩ rfl hs.order
          (fun _ hj => .inl hj) (fun _ hj => by cases hj) id
          (fun _ _ hj => by rcases hj with hj | hj <;> cases hj) ⟨hknown, ?_, ?_⟩ ?_
        · rintro i runId' ⟨r, hr, hrun⟩
          exact ⟨r, hnew i r hr, hrun⟩
        · exact fun hi => lt_irrefl _ (hs.index _ hi)
        · exact ⟨_, List.getElem?_concat_length, rfl⟩
        · intro i r hr
          by_cases hi : i < s.records.length
          · rw [List.getElem?_append_left hi] at hr
            exact hs.records i r hr
          · rw [List.getElem?_append_right (by omega)] at hr
            obtain rfl := List.mem_singleton.1 (List.mem_of_getElem? hr)
            exact ⟨fun h => (by cases h), fun h => (by cases h)⟩
  | registering i =>
    obtain ⟨hall, hfresh, hhas⟩ := hknown
    have hgrow : s.Grows ((s.write (.register i)).goTo runId (.registered i)) :=
      .of_eq (fun _ he => List.mem_append_left _ he) rfl
    refine hs.runStep hasController hp rfl hgrow rfl (guarded_concat.2 ⟨hs.order, hfresh, hall⟩)
      (fun j hj => ?_) (fun _ hj => by cases hj) id
      (fun _ _ hj => by rcases hj with hj | hj <;> cases hj) (hgrow.has _ _ hhas) ?_
    · rcases List.mem_append.1 hj with hj | hj
      · exact .inl hj
      · obtain rfl : j = i := by simpa using hj
        obtain ⟨r, hr, -⟩ := hhas
        exact .inr ⟨(List.getElem?_eq_some_iff.1 hr).1, rfl⟩
    · exact fun j q hq => (hs.records j q hq).mono hasController hgrow.log
  | registered i =>
    cases outcome with
    | returned value => exact inv_goTo hasController hs hp rfl rfl hknown
    | raised => exact inv_goTo hasController hs hp rfl rfl hknown
  | checking i =>
    simp only [HermesAdapter.advance]
    split_ifs
    · exact inv_goTo hasController hs hp rfl rfl hknown
    · exact inv_goTo hasController hs hp rfl rfl hknown
  | executing i =>
    cases outcome with
    | returned value => exact inv_goTo hasController hs hp rfl rfl hknown
    | raised => exact inv_goTo hasController hs hp rfl rfl hknown
  | executed i value => exact inv_goTo hasController hs hp rfl rfl hknown
  | revoking i reply =>
    refine inv_write hasController hs hp trivial (fun j => nofun) (fun j hj => ?_) (fun j hj => ?_)
      ⟨hknown, List.mem_append_right _ (List.mem_singleton_self _)⟩
    · exact .inr (congrArg _ (Option.some.inj hj))
    · exact .inl (.inr (hj.resolve_right nofun))
  | revoked i reply =>
    cases outcome with
    | returned value =>
      refine inv_write hasController hs hp hknown.2 (fun j => nofun) (fun j hj => nomatch hj)
        (fun j hj => ?_) ⟨hknown.1, List.mem_append_right _ (List.mem_singleton_self _)⟩
      exact .inr (congrArg _ (Option.some.inj (hj.resolve_left nofun)))
    | raised =>
      refine hs.runStep hasController hp rfl (.of_eq (fun _ he => he) rfl) rfl hs.order
        (fun _ hj => .inl hj) (fun _ hj => by cases hj) (fun h => by cases h) (fun h => by cases h)
        hknown.1 hs.records
  | observing i reply =>
    refine inv_write hasController hs hp hknown.2 (fun j => nofun) (fun j hj => nomatch hj)
      (fun j hj => by rcases hj with hj | hj <;> cases hj) ⟨hknown.1, fun hh => ?_⟩
    refine ⟨s.quarantined, List.mem_append_right _ ?_, id⟩
    rw [hh]
    exact List.mem_singleton_self _
  | assessing i reply healthy =>
    obtain ⟨hhas, hobserved⟩ := hknown
    have hgrow : s.Grows (s.advance hasClient hasController runId (.assessing i reply healthy) outcome) :=
      .of_modify (fun _ he => he) rfl fun _ => rfl
    refine hs.runStep hasController hp rfl hgrow rfl hs.order (fun _ hj => .inl hj)
      (fun _ hj => by cases hj) id (fun _ _ hj => by rcases hj with hj | hj <;> cases hj)
      (hgrow.has _ _ hhas) (fun j r hr => ?_)
    obtain ⟨r', hr', rfl⟩ := getElem?_modifyRecord hr
    have hrecord := hs.records j r' hr'
    split_ifs with hj
    · subst hj
      refine ⟨hrecord.ended, fun hclean => ?_⟩
      -- it was healthy when it was observed, and it is not quarantined now, so it was not then
      simp only [Bool.and_eq_true, Bool.not_eq_true', Bool.and_eq_false_iff] at hclean
      obtain ⟨hh, hcontroller⟩ := hclean
      obtain ⟨quarantined, hmem, hmono⟩ := hobserved hh
      refine ⟨quarantined, hmem, fun hc => ?_⟩
      rw [hc] at hcontroller
      cases quarantined with
      | false => rfl
      | true => simp [hmono rfl] at hcontroller
    · exact hrecord
  | finishing i reply =>
    obtain ⟨r, hr, hrun⟩ := hknown
    have hgrow : s.Grows (s.advance hasClient hasController runId (.finishing i reply) outcome) :=
      .of_modify (fun _ he => List.mem_append_left _ he) rfl fun _ => rfl
    refine hs.runStep hasController hp rfl hgrow rfl (guarded_concat.2 ⟨hs.order, trivial⟩)
      (fun j hj => ?_) (fun _ hj => by cases hj) id
      (fun _ _ hj => by rcases hj with hj | hj <;> cases hj) trivial (fun j q hq => ?_)
    · rcases List.mem_append.1 hj with hj | hj
      · exact .inl hj
      · simp at hj
    · obtain ⟨q', hq', rfl⟩ := getElem?_modifyRecord hq
      have hrecord := (hs.records j q' hq').mono hasController hgrow.log
      split_ifs with hj
      · subst hj
        obtain rfl : q' = r := Option.some.inj (hq'.symm.trans hr)
        refine ⟨fun _ => List.mem_append_right _ ?_, hrecord.clean⟩
        rw [← hrun]
        exact List.mem_singleton_self _
      · exact hrecord
  | responding run reply =>
    refine inv_write hasController hs hp (fun j hj => ?_) (fun j => nofun) (fun j hj => nomatch hj)
      (fun j hj => by rcases hj with hj | hj <;> cases hj) trivial
    rcases hs.revoke j hj with hj | ⟨runId', p', hp', hj⟩
    · exact hj
    · obtain ⟨rfl, rfl⟩ := Prod.mk.inj (Option.some.inj (hp.symm.trans hp'))
      cases hj
  | releasing =>
    have hnone : ∀ j, ¬ ∃ runId' p', s.current = some (runId', p') ∧
        (p'.open? = some j ∨ p'.closing? = some j) := by
      rintro j ⟨runId', p', hp', hj⟩
      obtain ⟨rfl, rfl⟩ := Prod.mk.inj (Option.some.inj (hp.symm.trans hp'))
      rcases hj with hj | hj <;> cases hj
    refine ⟨hs.order, hs.index, fun j hj => .inl ?_, fun hh j hj => .inl ?_, fun _ _ h => (by cases h),
      hs.records, fun k c hk => (hs.cancels k c hk).mono (.of_eq (fun _ he => he) rfl)⟩
    · refine (hs.revoke j hj).resolve_right fun ⟨runId', p', hp', hj⟩ => ?_
      exact hnone j ⟨runId', p', hp', .inl hj⟩
    · exact (hs.revoked hh j hj).resolve_right (hnone j)

/-! ### Runs -/

theorem adapterStep_inv (s : HermesAdapter) (a : AdapterAction) (hs : s.Inv hasController) :
    (adapterStep hasClient hasController s a).Inv hasController := by
  cases a with
  | request runId =>
    simp only [adapterStep]
    cases hcurrent : s.current with
    | some c => exact hs
    | none =>
      have hnone : ∀ (j : ℕ) (P : RunPhase → Prop), ¬ ∃ runId' p', s.current = some (runId', p') ∧ P p' := by
        rintro j P ⟨runId', p', hp', -⟩
        rw [hcurrent] at hp'
        cases hp'
      refine ⟨hs.order, hs.index, fun j hj => .inl ((hs.revoke j hj).resolve_right (hnone j _)),
        fun hh j hj => .inl ((hs.revoked hh j hj).resolve_right (hnone j _)), ?_, hs.records,
        fun k c hk => (hs.cancels k c hk).mono (.of_eq (fun _ he => he) rfl)⟩
      intro runId' p' hp'
      obtain ⟨-, rfl⟩ := Prod.mk.inj (Option.some.inj hp')
      trivial
  | run outcome =>
    simp only [adapterStep]
    cases hcurrent : s.current with
    | none => exact hs
    | some c => exact advance_inv hasController hasClient hs hcurrent outcome
  | cancelRequest runId =>
    have hgrow : s.Grows { s with cancels := s.cancels ++ [.arrived runId] } := .of_eq (fun _ he => he) rfl
    refine hs.other hasController hgrow hs.order rfl (fun _ hj => hj) id id hs.records fun k c hk => ?_
    rcases List.mem_append.1 (List.mem_of_getElem? hk) with hmem | hmem
    · obtain ⟨k', hk'⟩ := List.mem_iff_getElem?.1 hmem
      exact (hs.cancels k' c hk').mono hgrow
    · obtain rfl := List.mem_singleton.1 hmem
      trivial
  | cancel k outcome late =>
    simp only [adapterStep]
    cases hk : s.cancels[k]? with
    | none => exact hs
    | some c => exact advanceCancel_inv hasController hs hk outcome late
  | quarantine =>
    exact hs.other hasController (.of_eq (fun _ he => he) rfl) hs.order rfl (fun _ hj => hj) id
      (fun _ => rfl) hs.records fun k c hk => (hs.cancels k c hk).mono (.of_eq (fun _ he => he) rfl)

/-- A poisoned adapter stays poisoned. -/
theorem adapterStep_poisoned (s : HermesAdapter) (a : AdapterAction) (h : s.healthy = false) :
    (adapterStep hasClient hasController s a).healthy = false := by
  cases a with
  | request runId =>
    simp only [adapterStep]
    split_ifs <;> exact h
  | run outcome =>
    simp only [adapterStep]
    split
    next runId p hp =>
      cases p <;> cases outcome <;> simp only [HermesAdapter.advance] <;> try exact h
      all_goals split_ifs <;> exact h
    next => exact h
  | cancelRequest runId => exact h
  | cancel k outcome late =>
    simp only [adapterStep]
    split
    next c hc =>
      cases c <;> simp only [HermesAdapter.advanceCancel] <;> try exact h
      all_goals (try split) <;> (try split_ifs) <;> exact h
    next => exact h
  | quarantine => exact h

/-- **The adapter keeps the hygiene of scopes.** -/
theorem scopeHygiene : ScopeHygiene hasClient hasController where
  order as :=
    (Transition.run_induction (adapterStep_inv hasController hasClient)
      (HermesAdapter.inv_initial hasController) as).order
  poisoned as bs h := by
    rw [adapterRun, Transition.run_append]
    exact Transition.run_induction (adapterStep_poisoned hasController hasClient) h bs

end System

end CivicLoop.Hermes
