import CivicLoop.Drafts.System

/-!
# What a step of the draft service can do

One lemma for each transaction says what it read and wrote when it committed, and one relation says
what a step of a call can do. The invariants of the service follow from these.

## Main definitions

* `CallStep` : what a step of a call can do.

## Main results

* `callStep_spec` : a step of a call is one of `CallStep`.
* `checkSave_eq_ok`, `approve_eq_ok`, `claim_eq_ok`, `reopen_eq_ok`, `storeReceipt_eq_ok` : what a
  committed transaction has checked.
-/

namespace CivicLoop.Drafts

variable {D : Type} [DecidableEq D]

/-! ### Transactions that committed -/

theorem checkSave_eq_ok {model : ExecutionModel} {old row : Execution D} {u : Unit}
    (h : old.checkSave model row = .ok u) :
    old.toReviewFields.same row.toReviewFields = true ∧
      (old.approver.isNone ∨ old.approver = row.approver ∧ old.approvedAt = row.approvedAt ∧
        old.approvalSession = row.approvalSession) ∧
      row.status ∈ old.status.transitions ∧
      (old.claimedAt.isNone ∨ row.claimedAt = old.claimedAt) := by
  simp only [Execution.checkSave, bind_eq_ok, ensure_eq_ok] at h
  obtain ⟨-, ⟨hsame, happroval⟩, hstatus, hclaimed, -⟩ := h
  exact ⟨hsame, happroval, hstatus, hclaimed⟩

omit [DecidableEq D] in
theorem loadIntent_eq_ok {db : Db D} {id : Uuid} {intent : Intent D}
    (h : loadIntent db id = .ok intent) :
    intent.id = id ∧ db.operations.get? id = some intent.operation ∧
      db.submissions.get? intent.operation.proposal = some intent.proposal ∧
      db.capabilities.get? intent.proposal.capability = some intent.capability := by
  simp only [loadIntent, bind_eq_ok, fetch_eq_ok, pure_eq_ok] at h
  obtain ⟨operation, ho, proposal, hp, capability, hc, rfl⟩ := h
  exact ⟨rfl, ho, hp, hc⟩

omit [DecidableEq D] in
theorem loadRun_eq_ok {db : Db D} {id : Uuid} {run : Run D} (h : loadRun db id = .ok run) :
    run.id = id ∧ db.runs.get? id = some run.run ∧ run.binding = db.bindings.get? id ∧
      run.control = db.controls.get? id := by
  simp only [loadRun, bind_eq_ok, fetch_eq_ok, pure_eq_ok] at h
  obtain ⟨run, hr, rfl⟩ := h
  exact ⟨rfl, hr, rfl, rfl⟩

omit [DecidableEq D] in
theorem loadOperation_eq_ok {db : Db D} {e : Executions D} {ref : ExecutionRef}
    {op : Operation D} (h : loadOperation db e ref = .ok op) :
    op.ref = ref ∧ e.get? ref = some op.row ∧ loadIntent db op.row.intent = .ok op.intent ∧
      loadRun db op.row.run = .ok op.run := by
  simp only [loadOperation, bind_eq_ok, fetch_eq_ok, pure_eq_ok] at h
  obtain ⟨row, hrow, intent, hintent, run, hrun, submitter, -, rfl⟩ := h
  exact ⟨rfl, hrow, hintent, hrun⟩

theorem save_eq_ok {dbFails : Bool} {ref : ExecutionRef} {old row : Execution D}
    {e e' : Executions D} (h : save dbFails ref old row e = .ok e') :
    old.checkSave ref.1 row = .ok () ∧ e' = e.set ref row := by
  simp only [save, bind_eq_ok, ensure_eq_ok, pure_eq_ok] at h
  obtain ⟨⟨⟩, hcheck, -, -, rfl⟩ := h
  exact ⟨hcheck, rfl⟩

theorem approve_eq_ok {input : TransactionInput} {H : Hash D} {zones : String → Bool}
    {user : RequestUser} {sessionId : Uuid} {ref : ExecutionRef} {reviewDigest : Text D}
    {revisionId : ℤ} {l : Ledger D} {e : Executions D}
    (h : approve input H zones user sessionId ref reviewDigest revisionId l = .ok e) :
    ∃ op, loadOperation l.db l.executions ref = .ok op ∧
      session l.db.world input.now user sessionId = .ok () ∧
      validateExecution H zones l.db l.executions input.now true op = .ok () ∧
      op.row.status = .pending ∧ reviewDigest = .hex op.row.reviewDigest ∧
      op.row.checkSave ref.1 (approvedRow op.row user.pk sessionId input.now) = .ok () ∧
      e = l.executions.set ref (approvedRow op.row user.pk sessionId input.now) := by
  simp only [approve, bind_eq_ok, ensure_eq_ok] at h
  obtain ⟨⟨⟩, hsession, op, hop, ⟨⟩, hvalid, ⟨⟩, ⟨hpending, hdigest, -⟩, hsave⟩ := h
  obtain ⟨hcheck, rfl⟩ := save_eq_ok hsave
  exact ⟨op, hop, hsession, hvalid, hpending, hdigest, hcheck, rfl⟩

theorem claim_eq_ok {input : TransactionInput} {H : Hash D} {zones : String → Bool}
    {path : DraftProvider} {user : RequestUser} {ref : ExecutionRef} {l : Ledger D}
    {op : Operation D} {e : Executions D}
    (h : claim input H zones path user ref l = .ok (op, e)) :
    ∃ old, loadOperation l.db l.executions ref = .ok old ∧
      validateExecution H zones l.db l.executions input.now true old = .ok () ∧
      old.row.approver = some user.pk ∧ old.row.status = .approved ∧
      old.row.checkSave ref.1 (claimedRow path old.row input.now) = .ok () ∧
      op = { old with row := claimedRow path old.row input.now } ∧
      e = l.executions.set ref (claimedRow path old.row input.now) := by
  simp only [claim, bind_eq_ok, ensure_eq_ok, pure_eq_ok, Prod.mk.injEq] at h
  obtain ⟨old, hold, ⟨⟩, hvalid, ⟨⟩, huser, ⟨⟩, hstatus, e', hsave, rfl, rfl⟩ := h
  obtain ⟨hcheck, rfl⟩ := save_eq_ok hsave
  exact ⟨old, hold, hvalid, huser, hstatus, hcheck, rfl, rfl⟩

theorem reopen_eq_ok {input : TransactionInput} {H : Hash D} {zones : String → Bool}
    {path : DraftProvider} {user : RequestUser} {ref : ExecutionRef} {l : Ledger D}
    {op : Operation D} (h : reopen input H zones path user ref l = .ok op) :
    loadOperation l.db l.executions ref = .ok op ∧
      (op.row.status = .unknown ∨ op.row.status = .executing) := by
  simp only [reopen, bind_eq_ok] at h
  obtain ⟨op', hop, ⟨⟩, -, h⟩ := h
  cases path with
  | eventbrite =>
    simp only [bind_eq_ok, ensure_eq_ok, pure_eq_ok] at h
    obtain ⟨⟨⟩, -, ⟨⟩, ⟨hstatus, -⟩, rfl⟩ := h
    exact ⟨hop, hstatus⟩
  | iterable =>
    simp only [bind_eq_ok, ensure_eq_ok, pure_eq_ok] at h
    obtain ⟨⟨⟩, -, ⟨⟩, ⟨hstatus, -⟩, ⟨⟩, -, rfl⟩ := h
    exact ⟨hop, hstatus⟩

theorem storeReceipt_eq_ok {now : Time} {path : DraftProvider} {op : Operation D}
    {receipt : Option (DraftReceipt D)} {e : Executions D} {row : Execution D}
    (h : storeReceipt now path op receipt e = .ok row) :
    ∃ receipt' old, receipt = some receipt' ∧ receiptOk path op.ref.1 op.row receipt' = true ∧
      row = receivedRow op.row receipt' now ∧ e.get? op.ref = some old ∧
      old.checkSave op.ref.1 row = .ok () := by
  simp only [storeReceipt, bind_eq_ok, fetch_eq_ok, ensure_eq_ok, pure_eq_ok] at h
  obtain ⟨receipt', hreceipt, -, hok, old, hold, ⟨⟩, hcheck, rfl⟩ := h
  exact ⟨receipt', old, hreceipt, hok, rfl, hold, hcheck⟩

theorem insertOrReplay_eq_ok {input : TransactionInput} {model : ExecutionModel}
    {message : String} {review : ReviewFields D} {e e' : Executions D} {id : Uuid}
    (h : insertOrReplay input model message review e = .ok (id, e')) :
    e' = e ∨ e.insert? (model, input.fresh) review.pending = some e' := by
  unfold insertOrReplay at h
  split at h
  · simp only [bind_eq_ok, pure_eq_ok, Prod.mk.injEq] at h
    obtain ⟨-, -, -, rfl⟩ := h
    exact .inl rfl
  · simp only [bind_eq_ok, fetch_eq_ok, pure_eq_ok, Prod.mk.injEq] at h
    obtain ⟨-, -, e'', he, -, rfl⟩ := h
    exact .inr he

/-- A committed submission adds a pending row, or finds the one of an earlier submission. -/
def Submits (e e' : Executions D) : Prop :=
  e' = e ∨ ∃ ref review, e.insert? ref (review : ReviewFields D).pending = some e'

theorem newIterableOperation_submits {input : TransactionInput} {H : Hash D}
    {model : ExecutionModel} {user : RequestUser} {intentId runId : Uuid}
    {payload configuration : Json D} {l : Ledger D} {id : Uuid} {e' : Executions D}
    (h : newIterableOperation input H model user intentId runId payload configuration l =
      .ok (id, e')) : Submits l.executions e' := by
  simp only [newIterableOperation, bind_eq_ok] at h
  obtain ⟨_, _, _, _, _, _, _, _, ⟨_, _⟩, _, h⟩ := h
  exact (insertOrReplay_eq_ok h).imp_right fun h => ⟨_, _, h⟩

theorem submitDraft_submits {input : TransactionInput} {H : Hash D} {zones : String → Bool}
    {user : RequestUser} {request : SubmitRequest D} {l : Ledger D} {id : Uuid}
    {e' : Executions D} (h : submitDraft input H zones user request l = .ok (id, e')) :
    Submits l.executions e' := by
  simp only [submitDraft, bind_eq_ok] at h
  obtain ⟨operation, -, h⟩ := h
  cases hp : operation.provider with
  | eventbrite =>
    simp only [hp, submitEventbrite, bind_eq_ok] at h
    obtain ⟨_, _, _, _, _, _, _, _, _, _, _, _, _, _, _, _, ⟨_, _⟩, _, h⟩ := h
    exact (insertOrReplay_eq_ok h).imp_right fun h => ⟨_, _, h⟩
  | iterable =>
    simp only [hp, bind_eq_ok] at h
    obtain ⟨_, _, h⟩ := h
    exact newIterableOperation_submits h

theorem submitTemplate_submits {input : TransactionInput} {H : Hash D} {user : RequestUser}
    {intentId runId : Uuid} {sender region : Json D} {l : Ledger D} {id : Uuid}
    {e' : Executions D}
    (h : submitTemplate input H user intentId runId sender region l = .ok (id, e')) :
    Submits l.executions e' := by
  simp only [submitTemplate, bind_eq_ok] at h
  obtain ⟨_, _, _, _, h⟩ := h
  exact newIterableOperation_submits h

/-! ### The steps of a call -/

variable (H : Hash D) (zones : String → Bool)

/-- What a step of the call `call` in the state `s` can do: the tables and the call after it. -/
inductive CallStep (s : State D) (call : Call D) (input : CallInput D) :
    Executions D → Option (Call D) → Prop
  | ends : CallStep s call input s.executions none
  | prepares (path : DraftProvider) (phase : CallPhase D) (hcall : call.phase.op? = none)
      (hphase : phase.op? = none) :
      CallStep s call input s.executions (some { call with path, phase })
  | claims (op : Operation D) (e : Executions D) (phase : CallPhase D)
      (hcall : call.phase = .claiming) (hexecute : call.reconcile = false)
      (hclaim : claim input.transaction H zones call.path call.user call.ref s.ledger =
        .ok (op, e)) (hop : phase.op? = some op) (hphase : phase.dispatching = true) :
      CallStep s call input e (some { call with phase })
  | reopens (op : Operation D) (hreconcile : call.reconcile = true)
      (hreopen : reopen input.transaction H zones call.path call.user call.ref s.ledger = .ok op) :
      CallStep s call input s.executions (some { call with phase := .connecting op })
  | advances (op : Operation D) (phase : CallPhase D) (hcall : call.phase.op? = some op)
      (hdispatching : call.phase.dispatching = true) (hop : phase.op? = some op)
      (hphase : phase.dispatching = true) (hcalling : ∀ op', call.phase ≠ .calling op') :
      CallStep s call input s.executions (some { call with phase })
  | returns (op : Operation D) (receipt : Option (DraftReceipt D))
      (hcall : call.phase = .calling op) :
      CallStep s call input s.executions (some { call with phase := .storing op receipt })
  | fails (op : Operation D) (failure : Failure) (hcall : call.phase.op? = some op)
      (hfailure : failure.status = .failed ∨ failure.status = .unknown) :
      CallStep s call input s.executions (some { call with phase := .handling op failure })
  | stores (op : Operation D) (receipt : Option (DraftReceipt D)) (row : Execution D)
      (hcall : call.phase = .storing op receipt)
      (hstore : storeReceipt input.now call.path op receipt s.executions = .ok row) :
      CallStep s call input s.executions (some { call with phase := .saving op row })
  | saves (op : Operation D) (row : Execution D) (hcall : call.phase = .saving op row) :
      CallStep s call input (s.executions.set op.ref row) none
  | handles (op : Operation D) (failure : Failure) (row : Execution D)
      (hcall : call.phase = .handling op failure) (hrow : s.executions.get? op.ref = some row) :
      CallStep s call input (s.executions.set op.ref (failedRow row failure input.now)) none

variable {H zones} {s : State D} {call : Call D} {input : CallInput D}

/-- A call that raises behind the claim ends or is handled. -/
theorem CallStep.raise {op : Operation D} {failure : Failure} (hcall : call.phase.op? = some op)
    (hfailure : failure.status = .failed ∨ failure.status = .unknown) :
    CallStep H zones s call input s.executions (call.raise op failure) := by
  unfold Call.raise
  split_ifs
  · exact .ends
  · exact .fails op failure hcall hfailure

theorem CallStep.orEnd {α : Type} {x : Except DraftError α} {next : α → Option (Call D)}
    (h : ∀ a, x = .ok a → CallStep H zones s call input s.executions (next a)) :
    CallStep H zones s call input s.executions (orEnd x next) := by
  cases x with
  | ok a => exact h a rfl
  | error e => exact .ends

theorem CallStep.orHandle {α : Type} {op : Operation D} (hcall : call.phase.op? = some op)
    {x : Except DraftError α} {next : α → Option (Call D)}
    (h : ∀ a, x = .ok a → CallStep H zones s call input s.executions (next a)) :
    CallStep H zones s call input s.executions (orHandle call op x next) := by
  cases x with
  | ok a => exact h a rfl
  | error e => exact .raise hcall (.inr rfl)

theorem failureOf_status (path : DraftProvider) (category : Option String) :
    (failureOf path category).status = .failed ∨ (failureOf path category).status = .unknown := by
  unfold failureOf
  split
  · split_ifs
    · exact .inl rfl
    · exact .inr rfl
  · exact .inr rfl

omit [DecidableEq D] in
theorem op?_claimedPhase (path : DraftProvider) (op : Operation D) :
    (claimedPhase path op).op? = some op := by
  cases path <;> rfl

omit [DecidableEq D] in
theorem dispatching_claimedPhase (path : DraftProvider) (op : Operation D) :
    (claimedPhase path op).dispatching = true := by
  cases path <;> rfl

/-- **The steps of a call.** -/
theorem callStep_spec : CallStep H zones s call input (callStep H zones s call input).1
    (callStep H zones s call input).2 := by
  unfold callStep
  cases hphase : call.phase with
  | opening => exact .orEnd fun path _ => .prepares path .gating (by rw [hphase]; rfl) rfl
  | gating =>
    refine .orEnd fun _ _ => ?_
    split_ifs
    · exact .prepares call.path .referencing (by rw [hphase]; rfl) rfl
    · exact .prepares call.path .claiming (by rw [hphase]; rfl) rfl
  | referencing =>
    exact .orEnd fun _ _ => .prepares call.path .claiming (by rw [hphase]; rfl) rfl
  | claiming =>
    simp only [claimStep]
    cases hreconcile : call.reconcile with
    | true => exact .orEnd fun op hop => .reopens op hreconcile hop
    | false =>
      cases hclaim : claim input.transaction H zones call.path call.user call.ref s.ledger with
      | ok r =>
        have hop := op?_claimedPhase call.path r.1
        have hdispatching := dispatching_claimedPhase call.path r.1
        exact .claims r.1 r.2 (claimedPhase call.path r.1) hphase hreconcile hclaim hop hdispatching
      | error e => exact .ends
  | connecting op =>
    exact .orHandle (by rw [hphase]; rfl) fun _ _ =>
      .advances op (.leasing op) (by rw [hphase]; rfl) (by rw [hphase]; rfl) rfl rfl (by simp [hphase])
  | leasing op =>
    simp only
    have hop : call.phase.op? = some op := by rw [hphase]; rfl
    split_ifs
    · exact .advances op (.calling op) hop (by rw [hphase]; rfl) rfl rfl (by simp [hphase])
    · exact .advances op (.rechecking op) hop (by rw [hphase]; rfl) rfl rfl (by simp [hphase])
    · exact .raise hop (.inr rfl)
  | rechecking op =>
    exact .orHandle (by rw [hphase]; rfl) fun _ _ =>
      .advances op (.validating op) (by rw [hphase]; rfl) (by rw [hphase]; rfl) rfl rfl
        (by simp [hphase])
  | validating op =>
    exact .orHandle (by rw [hphase]; rfl) fun _ _ =>
      .advances op (.calling op) (by rw [hphase]; rfl) (by rw [hphase]; rfl) rfl rfl (by simp [hphase])
  | calling op =>
    simp only
    split
    · exact .returns op _ hphase
    · exact .raise (by rw [hphase]; rfl) (failureOf_status _ _)
  | storing op receipt =>
    exact .orHandle (by rw [hphase]; rfl) fun row hrow => .stores op receipt row hphase hrow
  | saving op row =>
    simp only [saveStep]
    split_ifs
    · exact .saves op row hphase
    · exact .raise (by rw [hphase]; rfl) (.inr rfl)
  | handling op failure =>
    simp only [handleStep]
    split
    · rename_i row hrow
      split_ifs
      · exact .handles op failure row hphase hrow
      · exact .ends
    · exact .ends

end CivicLoop.Drafts
