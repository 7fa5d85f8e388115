import CivicLoop.Agents.LaneRefinement

/-!
# What the Hermes lane guarantees

The guarantees of the lane protocol, read off the tables of the database, for every interleaving of
admissions, worker steps, duplicate deliveries, failed dispatches, cancellations, expiry and tool
calls.

## Main definitions

* `Db.LaneExact` : lane, runs and reservations fit together.
* `Db.Settles` : what a later database can no longer undo.

## Main results

* `Agents.lane_exact_of_run` : every reachable database is exact.
* `Agents.settles_of_run` : no run of the service undoes what is settled.

## References

Source: `backend/agents/tasks.py`, `backend/agents/budgets.py`, lines 239–267.
-/

namespace CivicLoop

variable {D : Type} [DecidableEq D]

/-- The run is a Hermes run that is queued or running. -/
def Db.Active (db : Db D) (id : Uuid) : Prop :=
  db.statusOf id = some .queued ∨ db.statusOf id = some .running

/-- The run is a Hermes run that has failed or was cancelled. -/
def Db.Ended (db : Db D) (id : Uuid) : Prop :=
  db.statusOf id = some .failed ∨ db.statusOf id = some .cancelled

/-- Lane, runs and reservations fit together. -/
structure Db.LaneExact (db : Db D) : Prop where
  /-- At most one Hermes run is active. -/
  one_active : ∀ id id', db.Active id → db.Active id' → id = id'
  /-- The lane names exactly the active run. -/
  active_run : ∀ id, db.lane.activeRun = some id ↔ db.Active id
  /-- The reservation of an active run is reserved. -/
  active_reserved : ∀ id, db.Active id → db.budget.statusOf id = some .reserved
  /-- The reservation of a succeeded run is settled. -/
  succeeded_settled : ∀ id, db.statusOf id = some .succeeded →
    db.budget.statusOf id = some .settled
  /-- The reservation of an ended run is settled or released, or reserved while its control has
  admission disabled. -/
  ended_accounted : ∀ id, db.Ended id →
    db.budget.statusOf id = some .settled ∨ db.budget.statusOf id = some .released ∨
      db.budget.statusOf id = some .reserved ∧ db.controlDisabled id = true

theorem Db.laneExact_of_sound {db : Db D} (h : db.laneView.Sound) : db.LaneExact where
  one_active _ _ hid hid' := h.active_unique hid hid'
  active_run := h.active
  active_reserved := h.reserved
  succeeded_settled id hs := (h.settled id hs).1
  ended_accounted := h.ended

/-- What the database settles for every later one. -/
structure Db.Settles (db db' : Db D) : Prop where
  /-- A run that was asked to cancel does not succeed. -/
  cancel_wins : ∀ id, db.cancelRequested id = true → db'.statusOf id ≠ some .succeeded
  /-- A closed lane stays closed. -/
  quarantine : db.lane.admissionDisabled = true → db'.lane.admissionDisabled = true
  /-- No run is queued, starts to run or succeeds once the lane is closed. -/
  quarantine_blocks : db.lane.admissionDisabled = true → ∀ id status,
    status = .queued ∨ status = .running ∨ status = .succeeded →
      db'.statusOf id = some status → db.statusOf id = some status
  /-- A final status never changes. -/
  final : ∀ id status, status.active = false → db.statusOf id = some status →
    db'.statusOf id = some status
  /-- The reservation of a run that was running is never released. -/
  not_released : ∀ id, db.statusOf id = some .running → db'.budget.statusOf id ≠ some .released

theorem RunView.Spent.not_released {v : LaneView} (h : v.Sound) {id : Uuid}
    (hs : (v.run id).Spent) : (v.run id).reservation ≠ some .released := by
  rcases hs with hr | ⟨-, -, hs | ⟨hs, -⟩⟩
  · simp [h.reserved id (.inr hr)]
  · simp [hs]
  · simp [hs]

theorem Db.settles_of_later {db db' : Db D} (h' : db'.laneView.Sound)
    (hlater : db.laneView.Later db'.laneView) : db.Settles db' where
  cancel_wins id hc hs := by
    have hc' : db'.cancelRequested id = true := hlater.cancel id hc
    have hn : db'.cancelRequested id = false := (h'.settled id hs).2
    simp [hc'] at hn
  quarantine := hlater.disabled
  quarantine_blocks hd id status hstatus hs :=
    hlater.closed hd id status (by rcases hstatus with rfl | rfl | rfl <;> decide)
      (by rcases hstatus with rfl | rfl | rfl <;> decide) hs
  final := hlater.final
  not_released id hr := (hlater.spent id (.inl hr)).not_released h'

namespace Agents

/-- The state of a new installation. -/
def start (world : World D) : State D := ⟨.initial world, .empty⟩

theorem sound_start (world : World D) : (start world).db.laneView.Sound := by
  constructor <;> intro id <;>
    simp [start, Db.initial, Db.laneView, Db.statusOf, RunView.Active, RunView.Ended,
      Budget.initial, Budget.statusOf]

theorem sound_of_run (H : Hash D) (E : Engine D) (world : World D) (as : List (Action D)) :
    (Transition.run (step H E) (start world) as).db.laneView.Sound :=
  Transition.run_induction (P := fun s : State D => s.db.laneView.Sound)
    (fun s a h => (h.chain (step_refines H E s a h)).1) (sound_start world) as

/-- **The lane, its run and its reservation fit together in every reachable state**, whatever the
order of admissions, worker steps, deliveries, failed dispatches, cancellations and expiry. -/
theorem lane_exact_of_run (H : Hash D) (E : Engine D) (world : World D) (as : List (Action D)) :
    (Transition.run (step H E) (start world) as).db.LaneExact :=
  Db.laneExact_of_sound (sound_of_run H E world as)

/-- **A cancellation wins, a closed lane stays closed, and a final status stays.** From every
reachable state, whatever happens next, a run that was asked to cancel does not succeed, a closed
lane lets no run be queued, started or accepted, final statuses do not change, and the reservation of
a run that was running is not released. -/
theorem settles_of_run (H : Hash D) (E : Engine D) (world : World D) (as bs : List (Action D)) :
    (Transition.run (step H E) (start world) as).db.Settles
      (Transition.run (step H E) (start world) (as ++ bs)).db := by
  rw [Transition.run_append]
  have hsound := sound_of_run H E world as
  have hchain := Transition.run_refines (T := LaneStep) (P := LaneView.Sound)
    (fun s : State D => s.db.laneView) (fun _ _ h hstep => hstep.sound h) (step_refines H E) hsound
    bs
  obtain ⟨hsound', hlater⟩ := hsound.chain hchain
  exact Db.settles_of_later hsound' hlater

end Agents

end CivicLoop
