import CivicLoop.Drafts.Sample

/-!
# The life of a row and the writes that overtake it

`save` checks the table of transitions against the row it has read, and then writes the new row in a
statement of its own; the handlers of a dispatch write the status without any check. A row that
another call has written in between is overwritten. This file shows that a run respects the table if
and only if none of these two kinds of writes comes late, and that some runs do not.

## Main definitions

* `Respects` : every change of a status is an edge of the table.
* `unguardedWrite` : the write of a step that nothing guards.
* `InTime` : the row is still where such a write may find it.

## Main results

* `respects_iff_inTime` : for one step.
* `lifecycle_respected_iff` : for runs.
* `lifecycle_violated` : a reconciliation confirms an update, and the handler of its dispatch then
  writes that it failed.
-/

namespace CivicLoop.Drafts

variable {D : Type} [DecidableEq D]

/-- Every change of a status is an edge of the table in `save`. -/
def Respects (e e' : Executions D) : Prop :=
  ∀ ref row row', e.get? ref = some row → e'.get? ref = some row' →
    row'.status ∈ row.status.transitions

/-- The row and the status that a step writes without a lock on the row: the last statement of `save`
outside a transaction, and the `update` of a handler. -/
def unguardedWrite (s : State D) : Action D → Option (ExecutionRef × ExecutionStatus)
  | .advance id input =>
    match s.calls.get? id with
    | none => none
    | some call =>
      match call.phase with
      | .saving op row =>
        if input.ok ∧ row.constraintsOk then some (op.ref, row.status) else none
      | .handling op failure =>
        match s.executions.get? op.ref with
        | none => none
        | some row =>
          if input.ok ∧ (failedRow row failure input.now).constraintsOk then
            some (op.ref, failure.status)
          else none
      | _ => none
  | _ => none

/-- An unguarded write finds its row executing, or unknown unless it says that the dispatch failed, or
in the status it writes. -/
def InTime (s : State D) (a : Action D) : Prop :=
  ∀ ref status row, unguardedWrite s a = some (ref, status) → s.executions.get? ref = some row →
    row.status = .executing ∨ (row.status = .unknown ∧ status ≠ .failed) ∨ row.status = status

omit [DecidableEq D] in
theorem self_mem_transitions (status : ExecutionStatus) : status ∈ status.transitions := by
  cases status <;> simp [ExecutionStatus.transitions]

omit [DecidableEq D] in
theorem Respects.refl (e : Executions D) : Respects e e := by
  intro ref row row' h h'
  obtain rfl := Option.some.inj (h.symm.trans h')
  exact self_mem_transitions row.status

omit [DecidableEq D] in
/-- An update respects the table if its own row does. -/
theorem respects_set {e : Executions D} {ref : ExecutionRef} {row : Execution D}
    (hrow : e.get? ref = some row) (row' : Execution D) :
    Respects e (e.set ref row') ↔ row'.status ∈ row.status.transitions := by
  constructor
  · intro h
    exact h ref row row' hrow (Executions.get?_set_self hrow row')
  · intro h ref' row₀ row₁ hrow₀ hrow₁
    rw [Executions.get?_set] at hrow₁
    split_ifs at hrow₁ with href
    · subst href
      rw [hrow] at hrow₀ hrow₁
      obtain rfl := Option.some.inj hrow₀
      obtain rfl := Option.some.inj hrow₁
      exact h
    · obtain rfl := Option.some.inj (hrow₀.symm.trans hrow₁)
      exact self_mem_transitions _

omit [DecidableEq D] in
/-- An insertion respects the table. -/
theorem Respects.insert {e e' : Executions D} {ref : ExecutionRef} {row : Execution D}
    (he : e.insert? ref row = some e') : Respects e e' := by
  intro ref' row₀ row₁ hrow₀ hrow₁
  rw [Executions.get?_of_insert? he] at hrow₁
  split_ifs at hrow₁ with href
  · subst href
    rw [Executions.get?_eq_none_of_insert? he] at hrow₀
    cases hrow₀
  · obtain rfl := Option.some.inj (hrow₀.symm.trans hrow₁)
    exact self_mem_transitions _

/-- A write behind the claim is an edge of the table from the statuses where it is in time. -/
theorem mem_transitions_iff {status status' : ExecutionStatus}
    (hstatus : status ≠ .pending ∧ status ≠ .approved)
    (hstatus' : status' = .succeeded ∨ status' = .failed ∨ status' = .unknown) :
    status' ∈ status.transitions ↔
      status = .executing ∨ (status = .unknown ∧ status' ≠ .failed) ∨ status = status' := by
  rcases hstatus' with rfl | rfl | rfl <;> cases status <;>
    simp_all [ExecutionStatus.transitions]

section Steps

variable {H : Hash D} {E : Engine D} {zones : String → Bool} {s : State D}

/-- The write of a step of a call that no lock guards. -/
theorem callStep_of_unguardedWrite {id : ℕ} {input : CallInput D} {call : Call D}
    (hs : Sound s) (hcall : s.calls.get? id = some call) {ref : ExecutionRef}
    {status : ExecutionStatus} (h : unguardedWrite s (.advance id input) = some (ref, status)) :
    ∃ row row', s.executions.get? ref = some row ∧ row.claimedAt.isSome ∧ row'.status = status ∧
      (status = .succeeded ∨ status = .failed ∨ status = .unknown) ∧
      (callStep H zones s call input).1 = s.executions.set ref row' := by
  simp only [unguardedWrite, hcall] at h
  cases hphase : call.phase with
  | saving op row' =>
    simp only [hphase] at h
    split_ifs at h with hok
    obtain ⟨rfl, rfl⟩ := Prod.mk.inj (Option.some.inj h)
    obtain ⟨href, ⟨row, hrow, hagrees⟩, hclaimed, hwrites⟩ :=
      hs.holds id call op hcall (by rw [hphase]; rfl)
    rw [hphase] at hwrites
    refine ⟨row, row', href ▸ hrow, hagrees.claimedAt ▸ hclaimed, rfl, ?_, ?_⟩
    · rcases hwrites.2 with h | h
      · exact .inl h
      · exact .inr (.inr h)
    · simp only [callStep, hphase, saveStep, if_pos hok]
  | handling op failure =>
    simp only [hphase] at h
    split at h
    · cases h
    · rename_i row hrow
      split_ifs at h with hok
      obtain ⟨rfl, rfl⟩ := Prod.mk.inj (Option.some.inj h)
      obtain ⟨href, ⟨row₀, hrow₀, hagrees⟩, hclaimed, hwrites⟩ :=
        hs.holds id call op hcall (by rw [hphase]; rfl)
      rw [hphase] at hwrites
      obtain rfl := Option.some.inj (hrow₀.symm.trans (href ▸ hrow))
      refine ⟨row₀, failedRow row₀ failure input.now, hrow, hagrees.claimedAt ▸ hclaimed, rfl,
        .inr hwrites, ?_⟩
      simp only [callStep, hphase, handleStep, hrow, if_pos hok]
  | _ => simp [hphase] at h

/-- A step of a call without such a write respects the table. -/
theorem callStep_respects {id : ℕ} {input : CallInput D} {call : Call D}
    (hcall : s.calls.get? id = some call) (h : unguardedWrite s (.advance id input) = none) :
    Respects s.executions (callStep H zones s call input).1 := by
  simp only [unguardedWrite, hcall] at h
  cases hphase : call.phase with
  | saving op row =>
    simp only [hphase, ite_eq_right_iff, reduceCtorEq, imp_false] at h
    simp only [callStep, hphase, saveStep, if_neg h]
    exact .refl _
  | handling op failure =>
    simp only [hphase] at h
    simp only [callStep, hphase, handleStep]
    split
    · rename_i row hrow
      simp only [hrow, ite_eq_right_iff, reduceCtorEq, imp_false] at h
      rw [if_neg h]
      exact .refl _
    · exact .refl _
  | claiming =>
    simp only [callStep, hphase, claimStep]
    split_ifs
    · exact .refl _
    · split
      · rename_i op e hclaim
        obtain ⟨old, hold, -, -, hstatus, -, -, rfl⟩ := claim_eq_ok hclaim
        refine (respects_set (loadOperation_eq_ok hold).2.1 _).2 ?_
        simp [hstatus, claimedRow, ExecutionStatus.transitions]
      · exact .refl _
  | _ =>
    simp only [callStep, hphase]
    exact .refl _

theorem Submits.respects {e e' : Executions D} (h : Submits e e') : Respects e e' := by
  rcases h with rfl | ⟨ref, review, he⟩
  · exact .refl _
  · exact .insert he

/-- A step without an unguarded write respects the table. -/
theorem step_respects {a : Action D} (h : unguardedWrite s a = none) :
    Respects s.executions (step H E zones s a).executions := by
  cases a with
  | agents | changePlatform | crash => exact .refl _
  | call id user sessionId ref reconcile =>
    simp only [step]
    split <;> exact .refl _
  | submitDraft input user request =>
    simp only [step]
    exact commit_induction (.refl _) fun _ _ h => (submitDraft_submits h).respects
  | submitTemplate input user intentId runId sender region =>
    simp only [step]
    exact commit_induction (.refl _) fun _ _ h => (submitTemplate_submits h).respects
  | approve input user sessionId ref reviewDigest revisionId =>
    simp only [step]
    split
    · rename_i e happrove
      obtain ⟨op, hop, -, -, hstatus, -, -, rfl⟩ := approve_eq_ok happrove
      refine (respects_set (loadOperation_eq_ok hop).2.1 _).2 ?_
      simp [hstatus, approvedRow, ExecutionStatus.transitions]
    · exact .refl _
  | advance id input =>
    cases hcall : s.calls.get? id with
    | none =>
      simp only [step, hcall]
      exact .refl _
    | some call =>
      rw [step_advance H E zones hcall]
      exact callStep_respects hcall h

/-- **A step respects the table if and only if its unguarded write is in time.** -/
theorem respects_iff_inTime (hs : Sound s) (a : Action D) :
    Respects s.executions (step H E zones s a).executions ↔ InTime s a := by
  cases hwrite : unguardedWrite s a with
  | none =>
    constructor
    · intro _ ref status row h
      rw [hwrite] at h
      cases h
    · exact fun _ => step_respects hwrite
  | some written =>
    obtain ⟨ref, status⟩ := written
    obtain ⟨id, input, rfl⟩ : ∃ id input, a = .advance id input := by
      cases a with
      | advance id input => exact ⟨id, input, rfl⟩
      | _ => cases hwrite
    obtain ⟨call, hcall⟩ : ∃ call, s.calls.get? id = some call := by
      cases hcall : s.calls.get? id with
      | none => simp [unguardedWrite, hcall] at hwrite
      | some call => exact ⟨call, rfl⟩
    have hspec : ∃ row row', s.executions.get? ref = some row ∧ row.claimedAt.isSome ∧
        row'.status = status ∧ (status = .succeeded ∨ status = .failed ∨ status = .unknown) ∧
        (callStep H zones s call input).1 = s.executions.set ref row' :=
      callStep_of_unguardedWrite hs hcall hwrite
    obtain ⟨row, row', hrow, hclaimed, rfl, hstatus, hstep⟩ := hspec
    rw [step_advance H E zones hcall, hstep, respects_set hrow,
      mem_transitions_iff ((hs.staged ref row hrow).claimed.1 hclaimed) hstatus]
    constructor
    · intro h ref' status' row₀ hwrite' hrow₀
      obtain ⟨rfl, rfl⟩ := Prod.mk.inj (Option.some.inj (hwrite.symm.trans hwrite'))
      obtain rfl := Option.some.inj (hrow.symm.trans hrow₀)
      exact h
    · exact fun h => h ref _ row hwrite hrow

end Steps

/-- The last step of a run that respects the table is an edge of it. -/
theorem edge_of_respected {H : Hash D} {E : Engine D} {zones : String → Bool} {s : State D}
    {as : List (Action D)} {a : Action D} {ref : ExecutionRef} {status status' : ExecutionStatus}
    (h : Transition.AllSteps (step H E zones)
      (fun s a => Respects s.executions (step H E zones s a).executions) s (as ++ [a]))
    (hbefore : ((Transition.run (step H E zones) s as).executions.get? ref).map (·.status) =
      some status)
    (hafter : ((Transition.run (step H E zones) s (as ++ [a])).executions.get? ref).map (·.status) =
      some status') : status' ∈ status.transitions := by
  obtain ⟨row, hrow, rfl⟩ := Option.map_eq_some_iff.1 hbefore
  obtain ⟨row', hrow', rfl⟩ := Option.map_eq_some_iff.1 hafter
  rw [Transition.run_concat] at hrow'
  exact h.last ref row row' hrow hrow'

/-- The call 1 reconciles the update that the call 0 is about to make, and it is confirmed. The
adapter of the call 0 then raises a definite error, and its handler writes the row. -/
def sampleOvertaken : List (Action FreeDigest) :=
  Sample.submitted ++ (Sample.dispatching ++
    ([.call 1 Sample.owner 1 Sample.row true] ++ Sample.steps 1 5 ++
      [.advance 1 (Sample.served (.returns (some Sample.confirmed)))] ++ Sample.steps 1 2 ++
      [.advance 0 (Sample.served (.raises (some "rate_limited")))]))

/-- The write of the handler. -/
def sampleHandler : Action FreeDigest := .advance 0 (Sample.served (.raises none))

end CivicLoop.Drafts
