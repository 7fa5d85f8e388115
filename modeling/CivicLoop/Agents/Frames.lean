import CivicLoop.Agents.LaneRefinement

/-!
# What the lane leaves alone

The transactions of the Hermes lane write runs, controls, events and capabilities. They do not touch
start receipts, except for a start, nor the submissions, operations and invocations of the tool
broker.

## Main definitions

* `Db.KeepsRequests` : receipts, submissions, operations and invocations are unchanged.
* `Db.KeepsCalls` : the same without the receipts.

## Main results

* `Agents.step_keepsRequests` : what every step but a start and a tool call leaves alone.
* `Agents.step_keepsCalls` : what every step but a tool call leaves alone.
-/

namespace CivicLoop

variable {D : Type} [DecidableEq D]

/-- Receipts, submissions, operations and invocations are unchanged. -/
structure Db.KeepsRequests (db db' : Db D) : Prop where
  receipts : db'.receipts = db.receipts
  submissions : db'.submissions = db.submissions
  operations : db'.operations = db.operations
  invocations : db'.invocations = db.invocations

/-- Submissions, operations and invocations are unchanged. -/
structure Db.KeepsCalls (db db' : Db D) : Prop where
  submissions : db'.submissions = db.submissions
  operations : db'.operations = db.operations
  invocations : db'.invocations = db.invocations

namespace Db

omit [DecidableEq D] in
theorem KeepsRequests.keepsCalls {db db' : Db D} (h : db.KeepsRequests db') : db.KeepsCalls db' :=
  ⟨h.submissions, h.operations, h.invocations⟩

omit [DecidableEq D] in
theorem KeepsRequests.refl (db : Db D) : db.KeepsRequests db := ⟨rfl, rfl, rfl, rfl⟩

omit [DecidableEq D] in
theorem KeepsRequests.trans {db db' db'' : Db D} (h : db.KeepsRequests db')
    (h' : db'.KeepsRequests db'') : db.KeepsRequests db'' :=
  ⟨h'.receipts.trans h.receipts, h'.submissions.trans h.submissions,
    h'.operations.trans h.operations, h'.invocations.trans h.invocations⟩

theorem keepsRequests_issueWorkflowCapability {H : Hash D} {now : Time} {id : Uuid} {token : ℕ}
    {workflowId : Uuid} {revisionId : ℤ} {actorId : Text D} {tools : List Tool}
    {lifetimeSeconds : ℤ} {id' : Uuid} {db db' : Db D}
    (h : db.issueWorkflowCapability H now id token workflowId revisionId actorId tools
      lifetimeSeconds = .ok (id', db')) : db.KeepsRequests db' := by
  simp only [issueWorkflowCapability, bind_eq_ok, ensure_eq_ok, fetch_eq_ok, pure_eq_ok,
    Prod.mk.injEq] at h
  obtain ⟨-, -, workflow, -, revision, -, actor, -, -, -, digest, -, -, -, capabilities, -, -, rfl⟩ := h
  exact ⟨rfl, rfl, rfl, rfl⟩

theorem keepsRequests_revokeWorkflowCapability {H : Hash D} {now : Time} {token : ℕ} {u : Unit}
    {db db' : Db D} (h : db.revokeWorkflowCapability H now token = .ok (u, db')) :
    db.KeepsRequests db' := by
  simp only [revokeWorkflowCapability, bind_eq_ok, fetch_eq_ok, pure_eq_ok, Prod.exists,
    Prod.mk.injEq] at h
  obtain ⟨id, record, -, -, rfl⟩ := h
  exact ⟨rfl, rfl, rfl, rfl⟩

theorem keepsRequests_tryRevoke {revokeFails : Bool} {now : Time} {control : AgentRunControl}
    {db db' : Db D} (h : db.tryRevoke revokeFails now control = some db') :
    db.KeepsRequests db' := by
  unfold tryRevoke revokeRecord at h
  split_ifs at h
  split at h
  · rename_i db₁ hrevoke
    obtain rfl := Option.some.inj h
    split at hrevoke
    · cases hrevoke
      exact .refl db
    · simp only [bind_eq_ok, fetch_eq_ok] at hrevoke
      obtain ⟨record, -, hrevoke⟩ := hrevoke
      split_ifs at hrevoke <;> cases hrevoke
      · exact ⟨rfl, rfl, rfl, rfl⟩
      · exact .refl db
  · cases h

theorem keepsRequests_account (db : Db D) (accountingFails billable : Bool) (runId : Uuid) :
    db.KeepsRequests (db.account accountingFails billable runId).2 := by
  cases accountingFails with
  | true => exact ⟨rfl, rfl, rfl, rfl⟩
  | false =>
    cases billable with
    | true =>
      cases h : db.budget.chargeReservedBudget runId <;> constructor <;> simp [account, h]
    | false => cases h : db.budget.releaseBudget runId <;> constructor <;> simp [account, h]

theorem keepsRequests_terminal {H : Hash D} {now : Time} {accountingFails : Bool} {runId : Uuid}
    {run : AgentRun D} {category : FailureCategory} {billable : Bool} {db db' : Db D}
    (h : db.terminal H now accountingFails runId run category billable = .ok db') :
    db.KeepsRequests db' := by
  have haccount := keepsRequests_account db accountingFails billable runId
  obtain ⟨reservation, events, audits, -, rfl⟩ := terminal_eq_ok h
  exact ⟨haccount.receipts, haccount.submissions, haccount.operations, haccount.invocations⟩

theorem keepsRequests_finish {H : Hash D} {input : FinishInput} {runId : Uuid}
    {category : FailureCategory} {billable cleanupOk : Bool} {u : Unit} {db db' : Db D}
    (h : db.finish H input runId category billable cleanupOk = .ok (u, db')) :
    db.KeepsRequests db' := by
  obtain rfl | rfl | ⟨run, control, category', billable', db₁, db₂, -, -, -, -, -, hrevoke, hclose,
    hterminal⟩ := finish_cases h
  · exact .refl db'
  · exact ⟨rfl, rfl, rfl, rfl⟩
  · have h₁ : db.KeepsRequests db₁ := by
      rcases hrevoke with rfl | hrevoke
      · exact .refl db₁
      · exact keepsRequests_tryRevoke hrevoke
    have h₂ : db₁.KeepsRequests db₂ := by
      rcases hclose with rfl | rfl
      · exact .refl db₂
      · exact ⟨rfl, rfl, rfl, rfl⟩
    exact (h₁.trans h₂).trans (keepsRequests_terminal hterminal)

theorem keepsRequests_cancelHermesRun {H : Hash D} {input : FinishInput} {runId : Uuid} {u : Unit}
    {db db' : Db D} (h : db.cancelHermesRun H input runId = .ok (u, db')) :
    db.KeepsRequests db' := by
  obtain rfl | rfl | ⟨run, control, db₁, db₂, -, -, -, -, -, hrevoke, hevent, hend⟩ :=
    cancelHermesRun_cases h
  · exact .refl db'
  · exact ⟨rfl, rfl, rfl, rfl⟩
  · have h₁ : db.KeepsRequests db₁ := by
      rcases hrevoke with hrevoke | rfl
      · have hmark : db.KeepsRequests (db.markCancelled input.now runId control) :=
          ⟨rfl, rfl, rfl, rfl⟩
        exact hmark.trans (keepsRequests_tryRevoke hrevoke)
      · exact ⟨rfl, rfl, rfl, rfl⟩
    have h₂ : db₁.KeepsRequests db₂ := by
      obtain ⟨events, audits, rfl⟩ := event_eq_ok hevent
      exact ⟨rfl, rfl, rfl, rfl⟩
    rcases hend with ⟨-, rfl⟩ | ⟨-, hterminal⟩
    · exact h₁.trans h₂
    · exact (h₁.trans h₂).trans (keepsRequests_terminal hterminal)

theorem keepsRequests_queueHermesRun {H : Hash D} {E : Engine D} {input : QueueInput}
    {workflowId : Uuid} {revisionId : ℤ} {actorSlug : Text D} {ownerSessionId : Option Uuid}
    {id : Uuid} {db db' : Db D}
    (h : db.queueHermesRun H E input workflowId revisionId actorSlug ownerSessionId =
      .ok (id, db')) : db.KeepsRequests db' := by
  obtain ⟨-, -, request, reservation, run, binding, control, budget, runs, bindings, controls,
    events, audits, -, -, -, -, -, -, -, -, -, -, -, -, -, rfl⟩ := queueHermesRun_eq_ok h
  exact ⟨rfl, rfl, rfl, rfl⟩

theorem keepsCalls_startHermesRun {H : Hash D} {E : Engine D} {input : QueueInput}
    {q : StartRequest D} {id : Uuid} {db db' : Db D}
    (h : db.startHermesRun H E input q = .ok (id, db')) : db.KeepsCalls db' := by
  simp only [startHermesRun, bind_eq_ok] at h
  obtain ⟨-, -, actor, -, -, -, owner, -, h⟩ := h
  split at h
  · simp only [bind_eq_ok, pure_eq_ok, Prod.mk.injEq] at h
    obtain ⟨-, -, -, rfl⟩ := h
    exact ⟨rfl, rfl, rfl⟩
  · simp only [bind_eq_ok, pure_eq_ok, Prod.mk.injEq, Prod.exists] at h
    obtain ⟨runId, db₁, hqueue, receipts, -, -, rfl⟩ := h
    have hkeeps := keepsRequests_queueHermesRun hqueue
    exact ⟨hkeeps.submissions, hkeeps.operations, hkeeps.invocations⟩

theorem keepsRequests_claim {H : Hash D} {E : Engine D} {input : ClaimInput} {runId : Uuid}
    {token : Option ℕ} {db db' : Db D} (h : db.claim H E input runId = .ok (token, db')) :
    db.KeepsRequests db' := by
  obtain ⟨-, rfl | rfl⟩ | ⟨-, run, -, -, -, hbegin⟩ := claim_eq_ok h
  · exact .refl db'
  · exact ⟨rfl, rfl, rfl, rfl⟩
  · obtain ⟨control, binding, record, capabilities, events, audits, -, -, -, -, -, -, rfl⟩ :=
      beginRun_eq_ok hbegin
    exact ⟨rfl, rfl, rfl, rfl⟩

theorem keepsRequests_complete {H : Hash D} {E : Engine D} {input : CompleteInput} {runId : Uuid}
    {token : ℕ} {result : HermesResult D} {u : Unit} {db db' : Db D}
    (h : db.complete H E input runId token result = .ok (u, db')) : db.KeepsRequests db' := by
  obtain ⟨run, control, binding, capabilityId, capability, budget, settlement, revoked, events,
    audits, -, -, -, -, -, -, -, -, -, -, -, -, -, rfl⟩ := complete_eq_ok h
  exact ⟨rfl, rfl, rfl, rfl⟩

end Db

namespace Agents

theorem workerStep_keepsRequests {H : Hash D} {E : Engine D} {worker : Worker D} {db db' : Db D}
    {a : Action D} {phase : Option (WorkerPhase D)}
    (h : workerStep H E worker db a = some (db', phase)) : db.KeepsRequests db' := by
  cases a with
  | claim _ input =>
    simp only [workerStep] at h
    split at h
    · obtain rfl := congrArg Prod.fst (Option.some.inj h)
      unfold claimStep
      split
      · rename_i hclaim
        exact Db.keepsRequests_claim hclaim
      · rename_i hclaim
        exact Db.keepsRequests_claim hclaim
      · exact .refl db
    · cases h
  | clientCall _ outcome =>
    simp only [workerStep] at h
    split at h <;> cases h <;> exact .refl db
  | complete _ input =>
    simp only [workerStep] at h
    split at h
    · obtain rfl := congrArg Prod.fst (Option.some.inj h)
      unfold completeStep
      split
      · rename_i hcomplete
        exact Db.keepsRequests_complete hcomplete
      · exact .refl db
    · cases h
  | clientCancel _ ok =>
    simp only [workerStep] at h
    split at h <;> cases h
    exact .refl db
  | finish _ input =>
    simp only [workerStep] at h
    split at h <;> cases h
    exact commit_induction (P := fun db' : Db D => db.KeepsRequests db') (.refl db)
      fun _ _ h => Db.keepsRequests_finish h
  | _ => cases h

/-- A step of the service that is neither a start nor a tool call. -/
theorem serviceStep_keepsRequests (H : Hash D) (E : Engine D) (db : Db D) {a : Action D}
    (hstart : ∀ input q, a ≠ .start input q) (htool : ∀ call, a ≠ .tool call) :
    db.KeepsRequests (serviceStep H E db a) := by
  have hcommit : ∀ {α ε : Type} (x : Except ε (α × Db D)),
      (∀ a db', x = .ok (a, db') → db.KeepsRequests db') → db.KeepsRequests (commit db x) :=
    fun x h => commit_induction (P := fun db' : Db D => db.KeepsRequests db') (.refl db) h
  cases a with
  | queue input workflowId revisionId actorSlug ownerSessionId =>
    exact hcommit _ fun _ _ h => Db.keepsRequests_queueHermesRun h
  | start input request => exact absurd rfl (hstart input request)
  | dispatchFails input runId => exact hcommit _ fun _ _ h => Db.keepsRequests_finish h
  | cancel input runId => exact hcommit _ fun _ _ h => Db.keepsRequests_cancelHermesRun h
  | expire now =>
    simp only [serviceStep]
    split <;> exact ⟨rfl, rfl, rfl, rfl⟩
  | issueCapability now id token workflowId revisionId actorId tools lifetimeSeconds =>
    exact hcommit _ fun _ _ h => Db.keepsRequests_issueWorkflowCapability h
  | revokeCapability now token =>
    exact hcommit _ fun _ _ h => Db.keepsRequests_revokeWorkflowCapability h
  | tool call => exact absurd rfl (htool call)
  | changeWorld world => exact ⟨rfl, rfl, rfl, rfl⟩
  | deliver | claim | clientCall | complete | clientCancel | finish | crash => exact .refl db

omit [DecidableEq D] in
/-- Starts and tool calls are the actions that write requests. -/
theorem Action.start_or_tool_or_other (a : Action D) :
    (∃ input q, a = .start input q) ∨ (∃ call, a = .tool call) ∨
      (∀ input q, a ≠ .start input q) ∧ ∀ call, a ≠ .tool call := by
  cases a <;> simp

/-- A step other than a start and a tool call leaves receipts, submissions, operations and
invocations alone. -/
theorem step_keepsRequests (H : Hash D) (E : Engine D) (s : State D) {a : Action D}
    (hstart : ∀ input q, a ≠ .start input q) (htool : ∀ call, a ≠ .tool call) :
    s.db.KeepsRequests (step H E s a).db := by
  unfold step
  split
  · split <;> exact .refl s.db
  · exact .refl s.db
  · split
    · exact serviceStep_keepsRequests H E s.db hstart htool
    · split
      · exact .refl s.db
      · split
        · exact .refl s.db
        · rename_i h
          exact workerStep_keepsRequests h

/-- Only a tool call writes submissions, operations and invocations. -/
theorem step_keepsCalls (H : Hash D) (E : Engine D) (s : State D) {a : Action D}
    (htool : ∀ call, a ≠ .tool call) : s.db.KeepsCalls (step H E s a).db := by
  by_cases hstart : ∃ input q, a = .start input q
  · obtain ⟨input, q, rfl⟩ := hstart
    exact commit_induction (P := fun db => s.db.KeepsCalls db) (Db.KeepsRequests.refl s.db).keepsCalls
      fun id db' hok => Db.keepsCalls_startHermesRun hok
  · have hstart' : ∀ input q, a ≠ .start input q := fun input q e => hstart ⟨input, q, e⟩
    exact (step_keepsRequests H E s hstart' htool).keepsCalls

end Agents

end CivicLoop
