import CivicLoop.Drafts.Steps

/-!
# The rows and the calls of a reachable state

A row keeps its review for ever, its approval once it has one and its claim once it has one, and it is
pending or approved exactly as long as it is not claimed. The row in the memory of a call behind its
claim agrees with the stored one in all of these.

## Main definitions

* `Execution.Agrees`, `Execution.Keeps` : what two versions of a row share.
* `RowWrite` : what a step can do to the two tables.
* `Executions.Extends` : the rows stay and keep what they must.
* `Sound` : the invariant.

## Main results

* `step_write` : a step writes at most one row, in one of the ways of `RowWrite`.
* `step_sound`, `step_extends` : the invariant, and what a step keeps.
* `sound_of_run`, `run_extends` : the same for runs.
-/

namespace CivicLoop.Drafts

variable {D : Type}

/-! ### Versions of a row -/

/-- Two versions of a row have the same review, approval and claim. -/
structure Execution.Agrees (row row' : Execution D) : Prop where
  review : row.toReviewFields = row'.toReviewFields
  approver : row.approver = row'.approver
  approvedAt : row.approvedAt = row'.approvedAt
  approvalSession : row.approvalSession = row'.approvalSession
  claimedAt : row.claimedAt = row'.claimedAt

/-- A later version of a row has its review, and its approval and its claim if it had them. -/
structure Execution.Keeps (row row' : Execution D) : Prop where
  review : row'.toReviewFields = row.toReviewFields
  approval : row.approver.isSome → row'.approver = row.approver ∧
    row'.approvedAt = row.approvedAt ∧ row'.approvalSession = row.approvalSession
  claimedAt : row.claimedAt.isSome → row'.claimedAt = row.claimedAt

/-- A row is pending until it has an approver, and pending or approved until it is claimed. -/
structure Execution.Staged (row : Execution D) : Prop where
  pending : row.status = .pending ↔ row.approver = none
  claimed : row.claimedAt.isSome ↔ row.status ≠ .pending ∧ row.status ≠ .approved

namespace Execution

variable {row row' row'' : Execution D}

theorem Agrees.refl (row : Execution D) : row.Agrees row := ⟨rfl, rfl, rfl, rfl, rfl⟩

theorem Agrees.symm (h : row.Agrees row') : row'.Agrees row :=
  ⟨h.review.symm, h.approver.symm, h.approvedAt.symm, h.approvalSession.symm, h.claimedAt.symm⟩

theorem Agrees.trans (h : row.Agrees row') (h' : row'.Agrees row'') : row.Agrees row'' :=
  ⟨h.review.trans h'.review, h.approver.trans h'.approver, h.approvedAt.trans h'.approvedAt,
    h.approvalSession.trans h'.approvalSession, h.claimedAt.trans h'.claimedAt⟩

theorem Agrees.keeps (h : row.Agrees row') : row.Keeps row' :=
  ⟨h.review.symm, fun _ => ⟨h.approver.symm, h.approvedAt.symm, h.approvalSession.symm⟩,
    fun _ => h.claimedAt.symm⟩

theorem Keeps.refl (row : Execution D) : row.Keeps row := (Agrees.refl row).keeps

theorem Keeps.trans (h : row.Keeps row') (h' : row'.Keeps row'') : row.Keeps row'' where
  review := h'.review.trans h.review
  approval hs := by
    obtain ⟨h₁, h₂, h₃⟩ := h.approval hs
    obtain ⟨h₁', h₂', h₃'⟩ := h'.approval (by rw [h₁]; exact hs)
    exact ⟨h₁'.trans h₁, h₂'.trans h₂, h₃'.trans h₃⟩
  claimedAt hs := by
    have h₁ := h.claimedAt hs
    exact (h'.claimedAt (by rw [h₁]; exact hs)).trans h₁

/-- The later version of a claimed row agrees with it. -/
theorem Keeps.agrees (h : row.Keeps row') (happroved : row.approver.isSome)
    (hclaimed : row.claimedAt.isSome) : row.Agrees row' := by
  obtain ⟨h₁, h₂, h₃⟩ := h.approval happroved
  exact ⟨h.review.symm, h₁.symm, h₂.symm, h₃.symm, (h.claimedAt hclaimed).symm⟩

theorem Staged.approver_isSome (h : row.Staged) (hclaimed : row.claimedAt.isSome) :
    row.approver.isSome := by
  rw [Option.isSome_iff_ne_none]
  exact fun e => (h.claimed.1 hclaimed).1 (h.pending.2 e)

theorem receivedRow_agrees (row : Execution D) (receipt : DraftReceipt D) (now : Time)
    [DecidableEq D] : row.Agrees (receivedRow row receipt now) := ⟨rfl, rfl, rfl, rfl, rfl⟩

theorem failedRow_agrees (row : Execution D) (failure : Failure) (now : Time) :
    row.Agrees (failedRow row failure now) := ⟨rfl, rfl, rfl, rfl, rfl⟩

/-- A version of a claimed row in a status behind the claim. -/
theorem Staged.of_agrees (h : row.Staged) (hclaimed : row.claimedAt.isSome)
    (hrow : row.Agrees row') (hstatus : row'.status ≠ .pending ∧ row'.status ≠ .approved) :
    row'.Staged where
  pending := by
    have hsome := h.approver_isSome hclaimed
    rw [hrow.approver] at hsome
    exact ⟨fun e => absurd e hstatus.1, fun e => by rw [e] at hsome; cases hsome⟩
  claimed := by
    rw [hrow.claimedAt] at hclaimed
    exact ⟨fun _ => hstatus, fun _ => hclaimed⟩

end Execution

/-! ### Writes -/

variable [DecidableEq D]

/-- What a step can do to the two tables. -/
inductive RowWrite (e : Executions D) : Executions D → Prop
  | none : RowWrite e e
  | submits (ref : ExecutionRef) (review : ReviewFields D) (e' : Executions D)
      (he : e.insert? ref review.pending = some e') : RowWrite e e'
  | approves (ref : ExecutionRef) (row : Execution D) (user : ℕ) (sessionId : Uuid) (now : Time)
      (hrow : e.get? ref = some row) (hstatus : row.status = .pending) :
      RowWrite e (e.set ref (approvedRow row user sessionId now))
  | claims (ref : ExecutionRef) (row : Execution D) (path : DraftProvider) (now : Time)
      (hrow : e.get? ref = some row) (hstatus : row.status = .approved) :
      RowWrite e (e.set ref (claimedRow path row now))
  | rewrites (ref : ExecutionRef) (row row' : Execution D) (hrow : e.get? ref = some row)
      (hclaimed : row.claimedAt.isSome) (hagrees : row.Agrees row')
      (hstatus : row'.status ≠ .pending ∧ row'.status ≠ .approved) : RowWrite e (e.set ref row')

/-- The rows stay, and keep what they must. -/
def Executions.Extends (e e' : Executions D) : Prop :=
  ∀ ref row, e.get? ref = some row → ∃ row', e'.get? ref = some row' ∧ row.Keeps row'

/-- All rows are staged. -/
def Executions.Staged (e : Executions D) : Prop :=
  ∀ ref row, e.get? ref = some row → row.Staged

omit [DecidableEq D] in
theorem Executions.Extends.refl (e : Executions D) : e.Extends e :=
  fun _ row h => ⟨row, h, .refl row⟩

omit [DecidableEq D] in
theorem Executions.Extends.trans {e e' e'' : Executions D} (h : e.Extends e')
    (h' : e'.Extends e'') : e.Extends e'' := by
  intro ref row hrow
  obtain ⟨row', hrow', hkeeps⟩ := h ref row hrow
  obtain ⟨row'', hrow'', hkeeps'⟩ := h' ref row' hrow'
  exact ⟨row'', hrow'', hkeeps.trans hkeeps'⟩

omit [DecidableEq D] in
/-- An update with a version that the row keeps. -/
theorem Executions.extends_set {e : Executions D} {ref : ExecutionRef} {row row' : Execution D}
    (hrow : e.get? ref = some row) (hkeeps : row.Keeps row') : e.Extends (e.set ref row') := by
  intro ref' row₀ hrow₀
  rw [Executions.get?_set]
  split_ifs with h
  · subst h
    rw [hrow] at hrow₀ ⊢
    obtain rfl := Option.some.inj hrow₀
    exact ⟨row', rfl, hkeeps⟩
  · exact ⟨row₀, hrow₀, .refl row₀⟩

omit [DecidableEq D] in
theorem Executions.Staged.set {e : Executions D} (he : e.Staged) {ref : ExecutionRef}
    {row : Execution D} (hrow : row.Staged) : (e.set ref row).Staged := by
  intro ref' row' h
  rw [Executions.get?_set] at h
  split_ifs at h with hr
  · obtain ⟨-, -, rfl⟩ := Option.map_eq_some_iff.1 h
    exact hrow
  · exact he ref' row' h

theorem RowWrite.extends {e e' : Executions D} (he : e.Staged) (h : RowWrite e e') :
    e.Extends e' := by
  cases h with
  | none => exact .refl e
  | submits ref review _ hinsert =>
    intro ref' row hrow
    refine ⟨row, ?_, .refl row⟩
    have hne : ref' ≠ ref := by
      rintro rfl
      rw [Executions.get?_eq_none_of_insert? hinsert] at hrow
      cases hrow
    rw [Executions.get?_of_insert? hinsert, if_neg hne, hrow]
  | approves ref row user sessionId now hrow hstatus =>
    refine Executions.extends_set hrow ⟨rfl, fun hs => ?_, fun hs => ?_⟩
    · rw [(he ref row hrow).pending.1 hstatus] at hs
      cases hs
    · exact absurd hstatus ((he ref row hrow).claimed.1 hs).1
  | claims ref row path now hrow hstatus =>
    refine Executions.extends_set hrow ⟨rfl, fun _ => ⟨rfl, rfl, rfl⟩, fun hs => ?_⟩
    exact absurd hstatus ((he ref row hrow).claimed.1 hs).2
  | rewrites ref row row' hrow _ hagrees _ => exact Executions.extends_set hrow hagrees.keeps

theorem RowWrite.staged {e e' : Executions D} (he : e.Staged) (h : RowWrite e e') :
    e'.Staged := by
  cases h with
  | none => exact he
  | submits ref review _ hinsert =>
    intro ref' row hrow
    rw [Executions.get?_of_insert? hinsert] at hrow
    split_ifs at hrow
    · obtain rfl := Option.some.inj hrow
      constructor <;> simp [ReviewFields.pending]
    · exact he ref' row hrow
  | approves ref row user sessionId now hrow hstatus =>
    refine he.set ⟨by simp [approvedRow], ?_⟩
    have hclaimed := (he ref row hrow).claimed
    simp only [approvedRow, hstatus] at hclaimed ⊢
    simpa using hclaimed
  | claims ref row path now hrow hstatus =>
    refine he.set ⟨?_, by simp [claimedRow]⟩
    have hpending := (he ref row hrow).pending
    simp only [claimedRow, hstatus] at hpending ⊢
    simpa using hpending
  | rewrites ref row row' hrow hclaimed hagrees hstatus =>
    exact he.set ((he ref row hrow).of_agrees hclaimed hagrees hstatus)

/-! ### The invariant -/

/-- What a call is about to write: a version of its row, in a status behind the claim. -/
def CallPhase.Writes (op : Operation D) : CallPhase D → Prop
  | .saving _ row => op.row.Agrees row ∧ (row.status = .succeeded ∨ row.status = .unknown)
  | .handling _ failure => failure.status = .failed ∨ failure.status = .unknown
  | _ => True

/-- Behind the claim, the row in memory agrees with the stored one. -/
structure Call.Holds (e : Executions D) (call : Call D) (op : Operation D) : Prop where
  ref : op.ref = call.ref
  stored : ∃ row, e.get? call.ref = some row ∧ op.row.Agrees row
  claimed : op.row.claimedAt.isSome
  writes : call.phase.Writes op

/-- The invariant. -/
structure Sound (s : State D) : Prop where
  staged : s.executions.Staged
  holds : ∀ id call op, s.calls.get? id = some call → call.phase.op? = some op →
    call.Holds s.executions op

theorem Call.Holds.extends {e e' : Executions D} {call : Call D} {op : Operation D}
    (h : call.Holds e op) (he : e.Staged) (hextends : e.Extends e') : call.Holds e' op := by
  obtain ⟨row, hrow, hagrees⟩ := h.stored
  obtain ⟨row', hrow', hkeeps⟩ := hextends _ _ hrow
  have hclaimed : row.claimedAt.isSome := hagrees.claimedAt ▸ h.claimed
  have happroved := (he _ _ hrow).approver_isSome hclaimed
  exact ⟨h.ref, ⟨row', hrow', hagrees.trans (hkeeps.agrees happroved hclaimed)⟩, h.claimed,
    h.writes⟩

omit [DecidableEq D] in
theorem Call.Holds.at {e : Executions D} {call : Call D} {op : Operation D}
    (h : call.Holds e op) {phase : CallPhase D} (hphase : phase.Writes op) :
    ({ call with phase } : Call D).Holds e op := ⟨h.ref, h.stored, h.claimed, hphase⟩

omit [DecidableEq D] in
/-- A call before its adapter call writes nothing yet. -/
theorem CallPhase.writes_of_dispatching {phase : CallPhase D} (h : phase.dispatching = true)
    (op : Operation D) : phase.Writes op := by
  cases phase <;> first | trivial | cases h

section CallSteps

variable {H : Hash D} {zones : String → Bool} {s : State D} {call : Call D} {input : CallInput D}
  {e : Executions D} {call' : Option (Call D)}

/-- A step of a call writes at most its own row. -/
theorem CallStep.rowWrite (h : CallStep H zones s call input e call') (hs : s.executions.Staged)
    (hcall : ∀ op, call.phase.op? = some op → call.Holds s.executions op) :
    RowWrite s.executions e := by
  cases h with
  | claims op e phase _ _ hclaim _ _ =>
    obtain ⟨old, hold, -, -, hstatus, -, -, rfl⟩ := claim_eq_ok hclaim
    exact .claims call.ref old.row call.path _ (loadOperation_eq_ok hold).2.1 hstatus
  | saves op row hphase =>
    obtain ⟨href, ⟨stored, hstored, hagrees⟩, hclaimed, hwrites⟩ :=
      hcall op (by rw [hphase]; rfl)
    rw [hphase] at hwrites
    rw [href]
    refine .rewrites call.ref stored row hstored (hagrees.claimedAt ▸ hclaimed)
      (hagrees.symm.trans hwrites.1) ?_
    rcases hwrites.2 with hstatus | hstatus <;> simp [hstatus]
  | handles op failure row hphase hrow =>
    obtain ⟨href, ⟨stored, hstored, hagrees⟩, hclaimed, hwrites⟩ :=
      hcall op (by rw [hphase]; rfl)
    rw [hphase] at hwrites
    rw [href] at hrow ⊢
    obtain rfl := Option.some.inj (hstored.symm.trans hrow)
    refine .rewrites call.ref stored _ hstored (hagrees.claimedAt ▸ hclaimed)
      (stored.failedRow_agrees failure _) ?_
    rcases hwrites with hstatus | hstatus <;> simp [failedRow, hstatus]
  | ends | prepares | reopens | advances | returns | fails | stores => exact .none

/-- After a step of a call, its row in memory agrees with the stored one. -/
theorem CallStep.holds (h : CallStep H zones s call input e call') (hs : s.executions.Staged)
    (hcall : ∀ op, call.phase.op? = some op → call.Holds s.executions op) {next : Call D}
    (hnext : call' = some next) {op : Operation D} (hop : next.phase.op? = some op) :
    next.Holds e op := by
  cases h with
  | ends | saves | handles => cases hnext
  | prepares path phase _ hphase =>
    obtain rfl := Option.some.inj hnext
    rw [hphase] at hop
    cases hop
  | claims claimed e phase _ _ hclaim hphase hdispatching =>
    obtain rfl := Option.some.inj hnext
    obtain rfl := Option.some.inj (hphase.symm.trans hop)
    obtain ⟨old, hold, -, -, -, -, rfl, rfl⟩ := claim_eq_ok hclaim
    obtain ⟨href, hrow, -⟩ := loadOperation_eq_ok hold
    exact ⟨href, ⟨_, Executions.get?_set_self hrow _, .refl _⟩, rfl,
      CallPhase.writes_of_dispatching hdispatching _⟩
  | reopens reopened _ hreopen =>
    obtain rfl := Option.some.inj hnext
    obtain rfl := Option.some.inj (show some reopened = some op from hop)
    obtain ⟨hload, hstatus⟩ := reopen_eq_ok hreopen
    obtain ⟨href, hrow, -⟩ := loadOperation_eq_ok hload
    refine ⟨href, ⟨_, hrow, .refl _⟩, (hs _ _ hrow).claimed.2 ?_, trivial⟩
    rcases hstatus with hstatus | hstatus <;> simp [hstatus]
  | advances op' phase hphase _ hop' hdispatching _ =>
    obtain rfl := Option.some.inj hnext
    obtain rfl := Option.some.inj (hop'.symm.trans hop)
    exact (hcall _ hphase).at (CallPhase.writes_of_dispatching hdispatching _)
  | returns op' receipt hphase =>
    obtain rfl := Option.some.inj hnext
    obtain rfl := Option.some.inj (show some op' = some op from hop)
    exact (hcall _ (by rw [hphase]; rfl)).at trivial
  | fails op' failure hphase hfailure =>
    obtain rfl := Option.some.inj hnext
    obtain rfl := Option.some.inj (show some op' = some op from hop)
    exact (hcall _ hphase).at hfailure
  | stores op' receipt row hphase hstore =>
    obtain rfl := Option.some.inj hnext
    obtain rfl := Option.some.inj (show some op' = some op from hop)
    obtain ⟨receipt', -, -, -, rfl, -, -⟩ := storeReceipt_eq_ok hstore
    refine (hcall _ (by rw [hphase]; rfl)).at ⟨op'.row.receivedRow_agrees receipt' _, ?_⟩
    simp only [receivedRow]
    split_ifs
    · exact .inl rfl
    · exact .inr rfl

end CallSteps

section Steps

variable (H : Hash D) (E : Engine D) (zones : String → Bool) {s : State D}

/-- **A step writes at most one row.** -/
theorem step_write (hs : Sound s) (a : Action D) :
    RowWrite s.executions (step H E zones s a).executions := by
  have hsubmits : ∀ {e}, Submits s.executions e → RowWrite s.executions e := by
    rintro e (rfl | ⟨ref, review, he⟩)
    · exact .none
    · exact .submits ref review e he
  cases a with
  | agents | changePlatform | crash => exact .none
  | call id user sessionId ref reconcile =>
    simp only [step]
    split <;> exact .none
  | submitDraft input user request =>
    simp only [step]
    exact commit_induction .none fun _ _ h => hsubmits (submitDraft_submits h)
  | submitTemplate input user intentId runId sender region =>
    simp only [step]
    exact commit_induction .none fun _ _ h => hsubmits (submitTemplate_submits h)
  | approve input user sessionId ref reviewDigest revisionId =>
    simp only [step]
    split
    · rename_i e h
      obtain ⟨op, hop, -, -, hstatus, -, -, rfl⟩ := approve_eq_ok h
      exact .approves ref op.row user.pk sessionId _ (loadOperation_eq_ok hop).2.1 hstatus
    · exact .none
  | advance id input =>
    simp only [step]
    split
    · rename_i call hcall
      have hstep : CallStep H zones s call input _ _ := callStep_spec
      exact hstep.rowWrite hs.staged fun op => hs.holds id call op hcall
    · exact .none

theorem step_extends (hs : Sound s) (a : Action D) :
    s.executions.Extends (step H E zones s a).executions :=
  (step_write H E zones hs a).extends hs.staged

/-- Reading the calls after a call has moved or ended. -/
theorem get?_setCall {calls : Table ℕ (Call D)} {id : ℕ} {call : Call D}
    (hcall : calls.get? id = some call) (call' : Option (Call D)) (id' : ℕ) :
    (setCall id call' calls).get? id' = if id' = id then call' else calls.get? id' := by
  cases call' with
  | none => exact Table.get?_erase calls id id'
  | some call' =>
    rw [setCall, Table.get?_set, hcall]
    rfl

/-- The calls after a step: a call that is still there and did not move, the call of the action at its
first phase, or the call of the action after its step. -/
theorem step_calls {a : Action D} {id : ℕ} {call : Call D}
    (h : (step H E zones s a).calls.get? id = some call) :
    (s.calls.get? id = some call ∧ ∀ input, a ≠ .advance id input) ∨
      (∃ user sessionId ref reconcile, a = .call id user sessionId ref reconcile ∧
        call = newCall user sessionId ref reconcile) ∨
      ∃ input old, a = .advance id input ∧ s.calls.get? id = some old ∧
        (callStep H zones s old input).2 = some call := by
  cases a with
  | agents | changePlatform | submitDraft | submitTemplate => exact .inl ⟨h, by simp⟩
  | approve input user sessionId ref reviewDigest revisionId =>
    simp only [step] at h
    split at h <;> exact .inl ⟨h, by simp⟩
  | call id' user sessionId ref reconcile =>
    simp only [step] at h
    split at h
    · rename_i calls hcalls
      rw [Table.get?_of_insert? hcalls] at h
      split_ifs at h with hid
      · obtain rfl := Option.some.inj h
        exact .inr (.inl ⟨user, sessionId, ref, reconcile, by rw [hid], rfl⟩)
      · exact .inl ⟨h, by simp⟩
    · exact .inl ⟨h, by simp⟩
  | advance id' input =>
    simp only [step] at h
    split at h
    · rename_i old hold
      rw [get?_setCall hold] at h
      split_ifs at h with hid
      · subst hid
        exact .inr (.inr ⟨input, old, rfl, hold, h⟩)
      · exact .inl ⟨h, fun _ e => hid (by cases e; rfl)⟩
    · rename_i hnone
      refine .inl ⟨h, fun _ e => ?_⟩
      cases e
      rw [hnone] at h
      cases h
  | crash id' =>
    simp only [step, Table.get?_erase] at h
    split_ifs at h
    exact .inl ⟨h, by simp⟩

omit [DecidableEq D] in
theorem op?_newCall (user : RequestUser) (sessionId : Uuid) (ref : ExecutionRef)
    (reconcile : Bool) : (newCall user sessionId ref reconcile : Call D).phase.op? = none := by
  simp only [newCall]
  split_ifs <;> rfl

theorem step_advance {id : ℕ} {input : CallInput D} {call : Call D}
    (h : s.calls.get? id = some call) :
    (step H E zones s (.advance id input)).executions = (callStep H zones s call input).1 := by
  simp only [step, h]

/-- **The invariant is kept.** -/
theorem step_sound (hs : Sound s) (a : Action D) : Sound (step H E zones s a) := by
  have hextends := step_extends H E zones hs a
  refine ⟨(step_write H E zones hs a).staged hs.staged, fun id call op hcall hop => ?_⟩
  rcases step_calls H E zones hcall with ⟨hcall, -⟩ | ⟨user, sessionId, ref, reconcile, -, rfl⟩ |
    ⟨input, old, rfl, hold, hnext⟩
  · exact (hs.holds id call op hcall hop).extends hs.staged hextends
  · rw [op?_newCall] at hop
    cases hop
  · rw [step_advance H E zones hold]
    exact callStep_spec.holds hs.staged (fun op => hs.holds id old op hold) hnext hop

theorem sound_start (world : World D) (platform : Platform D) : Sound (start world platform) where
  staged ref row h := by
    rw [start, Executions.get?_empty] at h
    cases h
  holds id call op h := by cases h

theorem sound_of_run (world : World D) (platform : Platform D) (as : List (Action D)) :
    Sound (Transition.run (step H E zones) (start world platform) as) :=
  Transition.run_induction (P := Sound) (fun _ a hs => step_sound H E zones hs a)
    (sound_start world platform) as

/-- The rows of a sound state stay, and keep what they must, in every run from it. -/
theorem run_extends (hs : Sound s) (as : List (Action D)) :
    s.executions.Extends (Transition.run (step H E zones) s as).executions :=
  Transition.run_rel (P := Sound) (R := fun s s' => s.executions.Extends s'.executions)
    (fun _ a hs => step_sound H E zones hs a) (fun s : State D => .refl s.executions)
    (fun _ _ _ h h' => h.trans h') (fun _ a hs => step_extends H E zones hs a) hs as

end Steps

end CivicLoop.Drafts
