import CivicLoop.Agents.Db
import CivicLoop.Foundation.Transition
import Mathlib

/-!
# The lane protocol

What the Hermes lane is for, without its tables: a lane with at most one active run and a switch that
closes it, and for each run its status, the status of its reservation and two flags. The steps are
the moves of the protocol: admit a run, start it, accept its result, ask for its cancellation, end
it, let a reservation expire, and close the lane.

## Main definitions

* `RunView`, `LaneView` : the abstract state.
* `LaneStep` : one move.
* `LaneView.Sound` : the invariant of the protocol.
* `LaneView.Later` : what can never be undone.

## Main results

* `LaneStep.sound` : a move keeps the invariant.
* `LaneStep.later`, `LaneView.Later.trans` : a move undoes nothing, and so no chain of moves does.
-/

namespace CivicLoop

/-- What the protocol knows of a run. A run that was never admitted has no status. -/
structure RunView where
  status : Option RunStatus
  reservation : Option ReservationStatus
  cancelRequested : Bool
  disabled : Bool
deriving DecidableEq, Repr

/-- The run is queued or running. -/
def RunView.Active (r : RunView) : Prop := r.status = some .queued ∨ r.status = some .running

/-- The run has failed or was cancelled. -/
def RunView.Ended (r : RunView) : Prop := r.status = some .failed ∨ r.status = some .cancelled

/-- The reservation of the run must not expire. -/
def RunView.Held (r : RunView) : Prop := r.Active ∨ r.status.isSome ∧ r.disabled

/-- The abstract state of the lane. -/
structure LaneView where
  active : Option Uuid
  disabled : Bool
  run : Uuid → RunView

namespace LaneView

/-- The state with another view of one run. -/
def setRun (v : LaneView) (id : Uuid) (r : RunView) : LaneView :=
  { v with run := Function.update v.run id r }

@[simp] theorem setRun_active (v : LaneView) (id : Uuid) (r : RunView) :
    (v.setRun id r).active = v.active := rfl

@[simp] theorem setRun_disabled (v : LaneView) (id : Uuid) (r : RunView) :
    (v.setRun id r).disabled = v.disabled := rfl

theorem setRun_run (v : LaneView) (id : Uuid) (r : RunView) (k : Uuid) :
    (v.setRun id r).run k = if k = id then r else v.run k := by
  simp [setRun, Function.update_apply]

end LaneView

/-- How the reservation of an ended run is accounted for. -/
inductive Accounting
  | charged
  | released
  | kept
deriving DecidableEq, Repr

def Accounting.reservation (r : RunView) : Accounting → Option ReservationStatus
  | charged => some .settled
  | released => some .released
  | kept => r.reservation

/-- One move of the lane protocol. -/
inductive LaneStep (v : LaneView) : LaneView → Prop
  | expire (id : Uuid) (hres : (v.run id).reservation = some .reserved)
      (hheld : ¬(v.run id).Held) :
      LaneStep v (v.setRun id { v.run id with reservation := some .released })
  | admitRun (id : Uuid) (hopen : v.disabled = false) (hfree : v.active = none)
      (hnew : (v.run id).status = none) (hcancel : (v.run id).cancelRequested = false) :
      LaneStep v { v.setRun id ⟨some .queued, some .reserved, false, false⟩ with active := some id }
  | start (id : Uuid) (hopen : v.disabled = false) (hactive : v.active = some id)
      (hqueued : (v.run id).status = some .queued) :
      LaneStep v (v.setRun id { v.run id with status := some .running })
  | succeed (id : Uuid) (hopen : v.disabled = false) (hactive : v.active = some id)
      (hrunning : (v.run id).status = some .running)
      (hcancel : (v.run id).cancelRequested = false) :
      LaneStep v
        { v.setRun id
            { v.run id with status := some .succeeded, reservation := some .settled } with
          active := none }
  | requestCancel (id : Uuid) (hactive : (v.run id).Active) :
      LaneStep v (v.setRun id { v.run id with cancelRequested := true })
  | finish (id : Uuid) (status : RunStatus) (accounting : Accounting)
      (hactive : (v.run id).Active) (hstatus : status = .failed ∨ status = .cancelled)
      (hreleased : accounting = .released → (v.run id).status = some .queued) :
      LaneStep v
        { v.setRun id
            { v.run id with
              status := some status
              reservation := accounting.reservation (v.run id)
              disabled := (v.run id).disabled || accounting = .kept } with
          active := if v.active = some id then none else v.active
          disabled := v.disabled || accounting = .kept }
  | close : LaneStep v { v with disabled := true }
  | closeRun (id : Uuid) :
      LaneStep v { v.setRun id { v.run id with disabled := true } with disabled := true }

namespace LaneView

/-- **The invariant of the protocol.** The lane names the active run; the reservation of an active
run is reserved, of a succeeded run settled, and of an ended run settled or released, or reserved
only while its control is closed; and a succeeded run was not asked to cancel. -/
structure Sound (v : LaneView) : Prop where
  active : ∀ id, v.active = some id ↔ (v.run id).Active
  reserved : ∀ id, (v.run id).Active → (v.run id).reservation = some .reserved
  settled : ∀ id, (v.run id).status = some .succeeded →
    (v.run id).reservation = some .settled ∧ (v.run id).cancelRequested = false
  ended : ∀ id, (v.run id).Ended →
    (v.run id).reservation = some .settled ∨ (v.run id).reservation = some .released ∨
      (v.run id).reservation = some .reserved ∧ (v.run id).disabled
  absent : ∀ id, (v.run id).status = none → (v.run id).reservation = none

/-- Two runs that are both active are one. -/
theorem Sound.active_unique {v : LaneView} (h : v.Sound) {id id' : Uuid}
    (hid : (v.run id).Active) (hid' : (v.run id').Active) : id = id' :=
  Option.some.inj (((h.active id).2 hid).symm.trans ((h.active id').2 hid'))

/-- The invariant after a change of one run and of the lane, from the invariant for that run. -/
theorem Sound.of_setRun {v : LaneView} (h : v.Sound) {id : Uuid} {r : RunView}
    {active : Option Uuid} {disabled : Bool}
    (hactive : ∀ k, active = some k ↔ if k = id then r.Active else (v.run k).Active)
    (hreserved : r.Active → r.reservation = some .reserved)
    (hsettled : r.status = some .succeeded →
      r.reservation = some .settled ∧ r.cancelRequested = false)
    (hended : r.Ended → r.reservation = some .settled ∨ r.reservation = some .released ∨
      r.reservation = some .reserved ∧ r.disabled)
    (habsent : r.status = none → r.reservation = none) :
    Sound { v.setRun id r with active, disabled } := by
  constructor
  · intro k
    simp only [setRun_run]
    rw [hactive k]
    split_ifs <;> rfl
  all_goals
    intro k
    simp only [setRun_run]
    split_ifs
  · exact hreserved
  · exact h.reserved k
  · exact hsettled
  · exact h.settled k
  · exact hended
  · exact h.ended k
  · exact habsent
  · exact h.absent k

end LaneView

/-- **A move keeps the invariant.** -/
theorem LaneStep.sound {v v' : LaneView} (hstep : LaneStep v v') (h : v.Sound) : v'.Sound := by
  cases hstep with
  | expire id hres hheld =>
    have hactive : ¬(v.run id).Active := fun ha => hheld (.inl ha)
    refine h.of_setRun (fun k => ?_) (fun ha => absurd ha hactive) (fun hs => ?_)
      (fun _ => .inr (.inl rfl)) fun hn => ?_
    · rw [h.active]
      split_ifs with hk
      · rw [hk]
        rfl
      · rfl
    · simp [(h.settled id hs).1] at hres
    · simp [h.absent id hn] at hres
  | admitRun id hopen hfree hnew hcancel =>
    have hnone : ∀ k, ¬(v.run k).Active := fun k hk => by simp [(h.active k).2 hk] at hfree
    refine h.of_setRun (fun k => ?_) (fun _ => rfl) (by simp) (by simp [RunView.Ended]) (by simp)
    split_ifs with hk
    · simp [hk, RunView.Active]
    · simp [hnone k, Ne.symm hk]
  | start id hopen hactive hqueued =>
    have hreserved := h.reserved id (.inl hqueued)
    refine h.of_setRun (fun k => ?_) (fun _ => hreserved) (by simp) (by simp [RunView.Ended])
      (by simp)
    rw [hactive]
    split_ifs with hk
    · simp [hk, RunView.Active]
    · rw [← h.active, hactive]
  | succeed id hopen hactive hrunning hcancel =>
    refine h.of_setRun (fun k => ?_) (by simp [RunView.Active]) (fun _ => ⟨rfl, hcancel⟩)
      (by simp [RunView.Ended]) (by simp)
    split_ifs with hk
    · simp [RunView.Active]
    · simp [← h.active, hactive, Ne.symm hk]
  | requestCancel id hactive =>
    refine h.of_setRun (fun k => ?_) (fun _ => h.reserved id hactive) (fun hs => ?_) (fun he => ?_)
      (fun hn => h.absent id hn)
    · rw [h.active]
      split_ifs with hk
      · rw [hk]
        rfl
      · rfl
    · rcases hactive with ha | ha <;> rw [ha] at hs <;> cases hs
    · rcases hactive with ha | ha <;> rcases he with he | he <;> rw [ha] at he <;> cases he
  | finish id status accounting hactive hstatus hreleased =>
    have hid := (h.active id).2 hactive
    have hreserved := h.reserved id hactive
    refine h.of_setRun (fun k => ?_) (fun ha => ?_) (fun hs => ?_) (fun _ => ?_) (by simp)
    · rw [if_pos hid]
      split_ifs with hk
      · rcases hstatus with rfl | rfl <;> simp [RunView.Active]
      · simp [← h.active, hid, Ne.symm hk]
    · rcases hstatus with rfl | rfl <;> simp [RunView.Active] at ha
    · rcases hstatus with rfl | rfl <;> simp at hs
    · cases accounting with
      | charged => exact .inl rfl
      | released => exact .inr (.inl rfl)
      | kept => exact .inr (.inr ⟨hreserved, by simp⟩)
  | closeRun id =>
    refine h.of_setRun (fun k => ?_) (h.reserved id) (h.settled id) (fun he => ?_) (h.absent id)
    · rw [LaneView.setRun_active, h.active]
      split_ifs with hk
      · rw [hk]
        rfl
      · rfl
    · rcases h.ended id he with hs | hr | ⟨hr, -⟩
      · exact .inl hs
      · exact .inr (.inl hr)
      · exact .inr (.inr ⟨hr, rfl⟩)
  | close => exact ⟨h.active, h.reserved, h.settled, h.ended, h.absent⟩

/-! ### What can never be undone -/

/-- The run has been running: it still is, or it is over and its reservation was not given back. -/
def RunView.Spent (r : RunView) : Prop :=
  r.status = some .running ∨
    r.status ≠ none ∧ ¬r.Active ∧
      (r.reservation = some .settled ∨ r.reservation = some .reserved ∧ r.disabled)

/-- Nothing that `v` settles is undone in `v'`: a closed lane stays closed and lets no run be queued,
started or accepted, a request to cancel stays, a final status stays, and a run that has been running
keeps or spends its reservation. -/
structure LaneView.Later (v v' : LaneView) : Prop where
  disabled : v.disabled = true → v'.disabled = true
  closed : v.disabled = true → ∀ id status, status ≠ .failed → status ≠ .cancelled →
    (v'.run id).status = some status → (v.run id).status = some status
  cancel : ∀ id, (v.run id).cancelRequested = true → (v'.run id).cancelRequested = true
  final : ∀ id status, status.active = false → (v.run id).status = some status →
    (v'.run id).status = some status
  spent : ∀ id, (v.run id).Spent → (v'.run id).Spent

theorem LaneView.Later.refl (v : LaneView) : v.Later v :=
  ⟨id, fun _ _ _ _ _ h => h, fun _ h => h, fun _ _ _ h => h, fun _ h => h⟩

theorem LaneView.Later.trans {v v' v'' : LaneView} (h : v.Later v') (h' : v'.Later v'') :
    v.Later v'' where
  disabled hd := h'.disabled (h.disabled hd)
  closed hd id status hf hc hs :=
    h.closed hd id status hf hc (h'.closed (h.disabled hd) id status hf hc hs)
  cancel id hc := h'.cancel id (h.cancel id hc)
  final id status ha hs := h'.final id status ha (h.final id status ha hs)
  spent id hs := h'.spent id (h.spent id hs)

/-- A change of one run undoes nothing if that run does not go back. -/
theorem LaneView.later_setRun {v : LaneView} {id : Uuid} {r : RunView} {active : Option Uuid}
    {disabled : Bool} (hdisabled : v.disabled = true → disabled = true)
    (hclosed : v.disabled = true → ∀ status, status ≠ .failed → status ≠ .cancelled →
      r.status = some status → (v.run id).status = some status)
    (hcancel : (v.run id).cancelRequested = true → r.cancelRequested = true)
    (hfinal : ∀ status, status.active = false → (v.run id).status = some status →
      r.status = some status)
    (hspent : (v.run id).Spent → r.Spent) :
    v.Later { v.setRun id r with active, disabled } := by
  refine ⟨hdisabled, fun hd k => ?_, fun k => ?_, fun k => ?_, fun k => ?_⟩
  all_goals
    simp only [LaneView.setRun_run]
    split_ifs with hk
  · exact hk ▸ hclosed hd
  · exact fun _ _ _ h => h
  · exact hk ▸ hcancel
  · exact fun h => h
  · exact hk ▸ hfinal
  · exact fun _ _ h => h
  · exact hk ▸ hspent
  · exact fun h => h

/-- An active run with a final status is none. -/
theorem RunView.Active.not_final {r : RunView} (h : r.Active) {status : RunStatus}
    (hs : r.status = some status) : status.active = true := by
  rcases h with h | h <;> rw [h] at hs <;> cases hs <;> rfl

/-- **A move undoes nothing.** -/
theorem LaneStep.later {v v' : LaneView} (hstep : LaneStep v v') (h : v.Sound) : v.Later v' := by
  cases hstep with
  | expire id hres hheld =>
    refine LaneView.later_setRun (fun hd => hd) (fun _ _ _ _ hs => hs) (fun hc => hc)
      (fun _ _ hs => hs) ?_
    rintro (hr | ⟨hne, -, hs | ⟨-, hd⟩⟩)
    · exact absurd (.inl (.inr hr)) hheld
    · simp [hs] at hres
    · exact absurd (.inr ⟨Option.isSome_iff_ne_none.2 hne, hd⟩) hheld
  | admitRun id hopen hfree hnew hcancel =>
    exact LaneView.later_setRun (fun hd => hd) (by simp [hopen]) (by simp [hcancel])
      (by simp [hnew]) (by simp [RunView.Spent, hnew])
  | start id hopen hactive hqueued =>
    refine LaneView.later_setRun (fun hd => hd) (by simp [hopen]) (fun hc => hc)
      (fun status ha hs => ?_) (fun _ => .inl rfl)
    rw [hqueued] at hs
    cases hs
    cases ha
  | succeed id hopen hactive hrunning hcancel =>
    refine LaneView.later_setRun (fun hd => hd) (by simp [hopen]) (fun hc => hc)
      (fun status ha hs => ?_) fun _ => .inr ⟨by simp, by simp [RunView.Active], .inl rfl⟩
    rw [hrunning] at hs
    cases hs
    cases ha
  | requestCancel id hactive =>
    refine LaneView.later_setRun (fun hd => hd) (fun _ _ _ _ hs => hs) (fun _ => rfl)
      (fun _ _ hs => hs) ?_
    rintro (hr | ⟨-, hna, -⟩)
    · exact .inl hr
    · exact absurd hactive hna
  | finish id status accounting hactive hstatus hreleased =>
    refine LaneView.later_setRun (fun hd => by simp [hd]) (fun _ st hf hc hs => ?_) (fun hc => hc)
      (fun st ha hs => ?_) ?_
    · obtain rfl := Option.some.inj hs
      rcases hstatus with rfl | rfl <;> contradiction
    · rw [hactive.not_final hs] at ha
      cases ha
    · rintro (hr | ⟨-, hna, -⟩)
      · refine .inr ⟨by simp, ?_, ?_⟩
        · rcases hstatus with rfl | rfl <;> simp [RunView.Active]
        · -- A running run is never released.
          cases accounting with
          | charged => exact .inl rfl
          | released => simp [hr] at hreleased
          | kept => exact .inr ⟨h.reserved id hactive, by simp⟩
      · exact absurd hactive hna
  | closeRun id =>
    refine LaneView.later_setRun (fun _ => rfl) (fun _ _ _ _ hs => hs) (fun hc => hc)
      (fun _ _ hs => hs) ?_
    rintro (hr | ⟨hne, hna, hs | ⟨hs, -⟩⟩)
    · exact .inl hr
    · exact .inr ⟨hne, hna, .inl hs⟩
    · exact .inr ⟨hne, hna, .inr ⟨hs, rfl⟩⟩
  | close => exact ⟨fun _ => rfl, fun _ _ _ _ _ h => h, fun _ h => h, fun _ _ _ h => h, fun _ h => h⟩

/-- Chains of moves from a sound state are sound and undo nothing. -/
theorem LaneView.Sound.chain {v v' : LaneView} (h : v.Sound)
    (hchain : Relation.ReflTransGen LaneStep v v') : v'.Sound ∧ v.Later v' := by
  induction hchain with
  | refl => exact ⟨h, .refl v⟩
  | tail _ hstep ih => exact ⟨hstep.sound ih.1, ih.2.trans (hstep.later ih.1)⟩

/-- A set of reservations that nothing holds expires in a chain of moves. -/
theorem LaneView.chain_expire {v v' : LaneView} {expired : List Uuid}
    (hexp : ∀ x ∈ expired, (v.run x).reservation = some .reserved ∧ ¬(v.run x).Held)
    (hactive : v'.active = v.active) (hdisabled : v'.disabled = v.disabled)
    (hrun : ∀ k, v'.run k = if k ∈ expired then { v.run k with reservation := some .released }
      else v.run k) : Relation.ReflTransGen LaneStep v v' := by
  induction expired generalizing v with
  | nil =>
    have hv : v' = v := by
      cases v
      cases v'
      simp only [LaneView.mk.injEq] at hactive hdisabled hrun ⊢
      exact ⟨hactive, hdisabled, funext fun k => by simpa using hrun k⟩
    exact hv ▸ .refl
  | cons x expired ih =>
    obtain ⟨hres, hheld⟩ := hexp x List.mem_cons_self
    by_cases hx : x ∈ expired
    · -- Listed twice: the later occurrence is the one that counts.
      refine ih (fun y hy => hexp y (List.mem_cons_of_mem _ hy)) hactive hdisabled fun k => ?_
      rw [hrun]
      refine if_congr ⟨fun hk => ?_, fun hk => List.mem_cons_of_mem _ hk⟩ rfl rfl
      rcases List.mem_cons.1 hk with rfl | hk
      · exact hx
      · exact hk
    · refine .head (.expire x hres hheld) (ih (fun y hy => ?_) hactive hdisabled fun k => ?_)
      · have hne : y ≠ x := fun e => hx (e ▸ hy)
        rw [LaneView.setRun_run, if_neg hne]
        exact hexp y (List.mem_cons_of_mem _ hy)
      · rw [hrun, LaneView.setRun_run]
        by_cases hk : k = x
        · simp [hk]
        · simp [hk]

end CivicLoop
