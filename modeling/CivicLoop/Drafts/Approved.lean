import CivicLoop.Agents.Operations
import CivicLoop.Drafts.Digests
import CivicLoop.Drafts.Sample

/-!
# What was approved is what is dispatched

Every write to a provider goes back to an approval of its row and to a claim of it. The approval was
given by the user who dispatches, in an active MFA-verified session, for a row with the same request;
the claim found the operation accepted, the run succeeded, and the workflow at the revision and with
the package of the run; and a campaign was claimed on the confirmed template of its operation.

## Main definitions

* `OwnerApproved`, `ClaimedBy` : an approval and a claim in the log.
* `Traced` : the invariant; every approved row and every call that may write has its past in the log.
* `Backing`, `Backs` : what stands behind a write.

## Main results

* `step_traced` : the invariant is kept.
* `dispatched_as_approved` : every write of every run has its backing.
-/

namespace CivicLoop.Drafts

variable {D : Type} [DecidableEq D]

/-- The occurrence is an approval of a row with this review, by an active MFA-verified session of the
user, who sent the review digest of the row. -/
structure OwnerApproved (H : Hash D) (zones : String → Bool) (o : Occurrence D)
    (ref : ExecutionRef) (user : ℕ) (review : ReviewFields D) : Prop where
  session : ∃ sessionId, o.event = .approved ref user sessionId ∧
    fullSession o.state.agents.db.world o.now user sessionId = true ∧
    ∃ input approver revisionId e, input.now = o.now ∧ approver.pk = user ∧
      approve input H zones approver sessionId ref (.hex review.reviewDigest) revisionId
        o.state.ledger = .ok e
  row : ∃ row, o.state.executions.get? ref = some row ∧ row.toReviewFields = review

/-- The provider whose code a call on a row runs: on a template, always Iterable. -/
def pathOf : ExecutionModel → DraftProvider → DraftProvider
  | .template, _ => .iterable
  | .draft, provider => provider

/-- The occurrence is a claim of the row by the user; `op` is the row in memory. -/
def ClaimedBy (H : Hash D) (zones : String → Bool) (o : Occurrence D) (ref : ExecutionRef)
    (user : RequestUser) (path : DraftProvider) (op : Operation D) : Prop :=
  o.event = .claimed ref user.pk ∧ path = pathOf ref.1 op.intent.operation.provider ∧
    ∃ input e, input.now = o.now ∧ claim input H zones path user ref o.state.ledger = .ok (op, e)

/-- The call runs the code of the provider of its operation, once it has read it. -/
def Call.OnPath (s : State D) (call : Call D) : Prop :=
  match call.ref.1 with
  | .template => call.phase ≠ .opening ∧ call.path = .iterable
  | .draft => call.phase = .opening ∨ ∃ row operation, s.executions.get? call.ref = some row ∧
      s.agents.db.operations.get? row.intent = some operation ∧ call.path = operation.provider

/-- What stands in a log behind a call that may write. -/
def Traces (H : Hash D) (zones : String → Bool) (log : List (Occurrence D)) (call : Call D)
    (op : Operation D) : Prop :=
  ∃ approval claimed, [approval, claimed].Sublist log ∧
    OwnerApproved H zones approval call.ref call.user.pk op.row.toReviewFields ∧
    ClaimedBy H zones claimed call.ref call.user call.path op

/-- The invariant: what the rows and the calls owe to the log. -/
structure Traced (H : Hash D) (zones : String → Bool) (s : State D)
    (log : List (Occurrence D)) : Prop where
  sound : Sound s
  approved : ∀ ref row user, s.executions.get? ref = some row → row.approver = some user →
    ∃ o ∈ log, OwnerApproved H zones o ref user row.toReviewFields
  path : ∀ id call, s.calls.get? id = some call → call.OnPath s
  traces : ∀ id call op, s.calls.get? id = some call → call.MayWrite →
    call.phase.op? = some op → Traces H zones log call op

theorem traced_start (H : Hash D) (zones : String → Bool) (world : World D)
    (platform : Platform D) : Traced H zones (start world platform) [] where
  sound := sound_start world platform
  approved ref row user h := by
    rw [start, Executions.get?_empty] at h
    cases h
  path _ _ h := by cases h
  traces _ _ _ h := by cases h

section Steps

variable {H : Hash D} {E : Engine D} {zones : String → Bool} {s : State D}

omit [DecidableEq D] in
theorem Traces.append {log : List (Occurrence D)} {call : Call D} {op : Operation D}
    [DecidableEq D] (h : Traces H zones log call op) (new : List (Occurrence D)) :
    Traces H zones (log ++ new) call op := by
  obtain ⟨approval, claimed, hsub, happroved, hclaimed⟩ := h
  exact ⟨approval, claimed, hsub.trans (List.sublist_append_left _ _), happroved, hclaimed⟩

/-! ### Rows -/

omit [DecidableEq D] in
/-- An update by a row with the same review and approver. -/
theorem approver_of_set {e : Executions D} {ref : ExecutionRef} {row row' : Execution D}
    (hrow : e.get? ref = some row) (hreview : row'.toReviewFields = row.toReviewFields)
    (happrover : row'.approver = row.approver) {ref' : ExecutionRef} {row₁ : Execution D}
    (h : (e.set ref row').get? ref' = some row₁) :
    ∃ row₀, e.get? ref' = some row₀ ∧ row₁.toReviewFields = row₀.toReviewFields ∧
      row₁.approver = row₀.approver := by
  rw [Executions.get?_set] at h
  split_ifs at h with href
  · subst href
    rw [hrow] at h
    obtain rfl := Option.some.inj h
    exact ⟨row, hrow, hreview, happrover⟩
  · exact ⟨row₁, h, rfl, rfl⟩

omit [DecidableEq D] in
/-- A claim keeps the review and the approver. -/
theorem claimedRow_agrees (path : DraftProvider) (row : Execution D) (now : Time) :
    (claimedRow path row now).toReviewFields = row.toReviewFields ∧
      (claimedRow path row now).approver = row.approver := ⟨rfl, rfl⟩

/-- A step of a call approves nothing. -/
theorem CallStep.approver {call : Call D} {input : CallInput D} {e : Executions D}
    {call' : Option (Call D)} (h : CallStep H zones s call input e call')
    (hcall : ∀ op, call.phase.op? = some op → call.Holds s.executions op) {ref : ExecutionRef}
    {row : Execution D} (hrow : e.get? ref = some row) :
    ∃ old, s.executions.get? ref = some old ∧ row.toReviewFields = old.toReviewFields ∧
      row.approver = old.approver := by
  cases h with
  | claims op e phase _ _ hclaim _ _ =>
    obtain ⟨old, hold, -, -, -, -, -, rfl⟩ := claim_eq_ok hclaim
    have hstored := (loadOperation_eq_ok hold).2.1
    exact approver_of_set hstored (claimedRow_agrees call.path old.row _).1
      (claimedRow_agrees call.path old.row _).2 hrow
  | saves op row' hphase =>
    obtain ⟨href, ⟨stored, hstored, hagrees⟩, -, hwrites⟩ := hcall op (by rw [hphase]; rfl)
    rw [hphase] at hwrites
    have hsame := hwrites.1.symm.trans hagrees
    exact approver_of_set (href ▸ hstored) hsame.review hsame.approver hrow
  | handles op failure row' hphase hrow' => 
    have hagrees := row'.failedRow_agrees failure input.now
    exact approver_of_set hrow' hagrees.review.symm hagrees.approver.symm hrow
  | ends | prepares | reopens | advances | returns | fails | stores => exact ⟨row, hrow, rfl, rfl⟩

theorem Submits.approver {e e' : Executions D} (h : Submits e e') {ref : ExecutionRef}
    {row : Execution D} (hrow : e'.get? ref = some row) {user : ℕ}
    (huser : row.approver = some user) :
    ∃ old, e.get? ref = some old ∧ row.toReviewFields = old.toReviewFields ∧
      row.approver = old.approver := by
  rcases h with rfl | ⟨ref', review, he⟩
  · exact ⟨row, hrow, rfl, rfl⟩
  · rw [Executions.get?_of_insert? he] at hrow
    split_ifs at hrow
    · obtain rfl := Option.some.inj hrow
      cases huser
    · exact ⟨row, hrow, rfl, rfl⟩

/-- An approved row after a step was approved before, or is approved in the step. -/
theorem step_approver (hs : Sound s) {a : Action D} {ref : ExecutionRef} {row : Execution D}
    {user : ℕ} (hrow : (step H E zones s a).executions.get? ref = some row)
    (huser : row.approver = some user) :
    (∃ old, s.executions.get? ref = some old ∧ row.toReviewFields = old.toReviewFields ∧
      row.approver = old.approver) ∨
    ∃ o ∈ events H zones s a, OwnerApproved H zones o ref user row.toReviewFields := by
  cases a with
  | agents | changePlatform | crash => exact .inl ⟨row, hrow, rfl, rfl⟩
  | call id user' sessionId ref' reconcile =>
    refine .inl ⟨row, ?_, rfl, rfl⟩
    simp only [step] at hrow
    split at hrow <;> exact hrow
  | submitDraft input user' request =>
    simp only [step] at hrow
    cases h : submitDraft input H zones user' request s.ledger with
    | error e => exact .inl ⟨row, by simpa [h] using hrow, rfl, rfl⟩
    | ok r =>
      rw [h, commit_ok] at hrow
      exact .inl ((submitDraft_submits h).approver hrow huser)
  | submitTemplate input user' intentId runId sender region =>
    simp only [step] at hrow
    cases h : submitTemplate input H user' intentId runId sender region s.ledger with
    | error e => exact .inl ⟨row, by simpa [h] using hrow, rfl, rfl⟩
    | ok r =>
      rw [h, commit_ok] at hrow
      exact .inl ((submitTemplate_submits h).approver hrow huser)
  | approve input user' sessionId ref' reviewDigest revisionId =>
    cases h : approve input H zones user' sessionId ref' reviewDigest revisionId s.ledger with
    | error e =>
      simp only [step, h] at hrow
      exact .inl ⟨row, hrow, rfl, rfl⟩
    | ok e =>
      simp only [step, h] at hrow
      obtain ⟨op, hop, hsession, -, -, hdigest, -, rfl⟩ := approve_eq_ok h
      have hstored : s.executions.get? ref' = some op.row := (loadOperation_eq_ok hop).2.1
      have hset := Executions.get?_set s.executions ref'
        (approvedRow op.row user'.pk sessionId input.now) ref
      rw [show (s.executions.set ref' _).get? ref = some row from hrow] at hset
      split_ifs at hset with href
      · subst href
        rw [hstored] at hset
        obtain rfl := Option.some.inj hset
        obtain rfl : user'.pk = user := Option.some.inj huser
        have hfull : fullSession s.agents.db.world input.now user'.pk sessionId = true := by
          simp only [session, bind_eq_ok, ensure_eq_ok] at hsession
          obtain ⟨-, -, hfull⟩ := hsession
          exact hfull
        rw [hdigest] at h
        refine .inr ⟨⟨s, input.now, .approved ref user'.pk sessionId⟩, ?_,
          ⟨sessionId, rfl, hfull, input, user', revisionId, _, rfl, rfl, h⟩, op.row, hstored, rfl⟩
        rw [hdigest]
        simp [events, h]
      · exact .inl ⟨row, hset.symm, rfl, rfl⟩
  | advance id input =>
    cases hcall : s.calls.get? id with
    | none =>
      simp only [step, hcall] at hrow
      exact .inl ⟨row, hrow, rfl, rfl⟩
    | some call =>
      rw [step_advance H E zones hcall] at hrow
      exact .inl (callStep_spec.approver (fun op => hs.holds id call op hcall) hrow)

/-! ### Paths -/

/-- A step keeps the operations of the broker. -/
theorem step_operations (a : Action D) {id : Uuid} {operation : DraftOperation D}
    (h : s.agents.db.operations.get? id = some operation) :
    (step H E zones s a).agents.db.operations.get? id = some operation := by
  cases a with
  | agents action => exact (Agents.step_keepsFiles H E s.agents action).operations id operation h
  | approve input user sessionId ref reviewDigest revisionId =>
    simp only [step]
    split <;> exact h
  | call id user sessionId ref reconcile =>
    simp only [step]
    split <;> exact h
  | advance id input =>
    simp only [step]
    split <;> exact h
  | _ => exact h

theorem Call.OnPath.step {call : Call D} (hs : Sound s) (h : call.OnPath s) (a : Action D) :
    call.OnPath (Drafts.step H E zones s a) := by
  unfold Call.OnPath at h ⊢
  split at h
  · exact h
  · rcases h with h | ⟨row, operation, hrow, hoperation, hpath⟩
    · exact .inl h
    · obtain ⟨row', hrow', hkeeps⟩ := step_extends H E zones hs a _ _ hrow
      refine .inr ⟨row', operation, hrow', step_operations a ?_, hpath⟩
      rw [show row'.intent = row.intent from congrArg ReviewFields.intent hkeeps.review]
      exact hoperation

omit [DecidableEq D] in
theorem orEnd_eq_some {α : Type} {x : Except DraftError α} {next : α → Option (Call D)}
    {call : Call D} (h : orEnd x next = some call) : ∃ a, x = .ok a ∧ next a = some call := by
  cases x with
  | ok a => exact ⟨a, rfl, h⟩
  | error e => cases h

/-- A call behind its first step keeps its row and its path. -/
theorem callStep_path {call next : Call D} {input : CallInput D} (hopening : call.phase ≠ .opening)
    (hnext : (callStep H zones s call input).2 = some next) :
    next.ref = call.ref ∧ next.path = call.path ∧ next.phase ≠ .opening := by
  cases hop : call.phase.op? with
  | none =>
    cases hphase : call.phase with
    | opening => exact absurd hphase hopening
    | gating =>
      simp only [callStep, hphase] at hnext
      obtain ⟨-, -, hnext⟩ := orEnd_eq_some hnext
      cases hnext
      refine ⟨rfl, rfl, ?_⟩
      simp only
      split_ifs <;> simp
    | referencing =>
      simp only [callStep, hphase] at hnext
      obtain ⟨-, -, hnext⟩ := orEnd_eq_some hnext
      cases hnext
      exact ⟨rfl, rfl, by simp⟩
    | claiming =>
      simp only [callStep, hphase, claimStep] at hnext
      split_ifs at hnext
      · obtain ⟨_, -, hnext⟩ := orEnd_eq_some hnext
        obtain rfl := Option.some.inj hnext
        exact ⟨rfl, rfl, by simp⟩
      · split at hnext
        · obtain rfl := Option.some.inj hnext
          refine ⟨rfl, rfl, ?_⟩
          simp only
          cases call.path <;> simp [claimedPhase]
        · cases hnext
    | _ =>
      rw [hphase] at hop
      cases hop
  | some op =>
    have hstep : CallStep H zones s call input (callStep H zones s call input).1 (some next) :=
      hnext ▸ callStep_spec
    generalize (callStep H zones s call input).1 = e at hstep
    have hne : ∀ {phase : CallPhase D} {op' : Operation D}, phase.op? = some op' →
        phase ≠ .opening := by
      rintro _ op' hphase rfl
      cases hphase
    cases hstep with
    | prepares path phase hcall _ =>
      rw [hop] at hcall
      cases hcall
    | claims op' e phase _ _ _ hphase _ => exact ⟨rfl, rfl, hne hphase⟩
    | advances op' phase _ _ hphase _ _ => exact ⟨rfl, rfl, hne hphase⟩
    | reopens | returns | fails | stores => exact ⟨rfl, rfl, by simp⟩

/-- A step of a call on its path ends on its path. -/
theorem callStep_onPath {call next : Call D} {input : CallInput D} (h : call.OnPath s)
    (hnext : (callStep H zones s call input).2 = some next) : next.OnPath s := by
  by_cases hopening : call.phase = .opening
  · simp only [callStep, hopening] at hnext
    obtain ⟨path, hpath, hnext⟩ := orEnd_eq_some hnext
    obtain rfl := Option.some.inj hnext
    simp only [providerOf, bind_eq_ok, fetch_eq_ok, pure_eq_ok] at hpath
    obtain ⟨row, hrow, operation, hoperation, rfl⟩ := hpath
    unfold Call.OnPath at h ⊢
    split at h
    · exact absurd hopening h.1
    · rename_i hdraft
      simp only [hdraft]
      exact .inr ⟨row, operation, hrow, hoperation, rfl⟩
  · obtain ⟨href, hpath, hphase⟩ := callStep_path hopening hnext
    unfold Call.OnPath at h ⊢
    rw [href, hpath]
    split at h
    · exact ⟨hphase, h.2⟩
    · exact .inr (h.resolve_left hopening)

omit [DecidableEq D] in
theorem newCall_onPath (user : RequestUser) (sessionId : Uuid) (ref : ExecutionRef)
    (reconcile : Bool) : (newCall user sessionId ref reconcile : Call D).OnPath s := by
  obtain ⟨model, id⟩ := ref
  cases model with
  | template => exact ⟨by simp [newCall], rfl⟩
  | draft => exact .inl rfl

/-! ### The invariant is kept -/

theorem mem_events_claimed {id : ℕ} {input : CallInput D} {call : Call D}
    (hcall : s.calls.get? id = some call) (hphase : call.phase = .claiming)
    (hexecute : call.reconcile = false) {op : Operation D} {e : Executions D}
    (hclaim : claim input.transaction H zones call.path call.user call.ref s.ledger = .ok (op, e)) :
    events H zones s (.advance id input) =
      [⟨s, input.now, .claimed call.ref call.user.pk⟩] := by
  simp [events, hcall, callEvent, hphase, hexecute, hclaim]

/-- A call that claims its row runs the code of the provider of the operation. -/
theorem Call.OnPath.of_claim {call : Call D} (h : call.OnPath s) (hphase : call.phase = .claiming)
    {old : Operation D} (hload : loadOperation s.agents.db s.executions call.ref = .ok old) :
    call.path = pathOf call.ref.1 old.intent.operation.provider := by
  obtain ⟨-, hrow, hintent, -⟩ := loadOperation_eq_ok hload
  obtain ⟨-, hoperation, -⟩ := loadIntent_eq_ok hintent
  unfold Call.OnPath at h
  split at h
  · rename_i htemplate
    rw [htemplate]
    exact h.2
  · rename_i hdraft
    rw [hdraft]
    rcases h with h | ⟨row, operation, hrow', hoperation', hpath⟩
    · rw [hphase] at h
      cases h
    · obtain rfl := Option.some.inj (hrow.symm.trans hrow')
      obtain rfl := Option.some.inj (hoperation.symm.trans hoperation')
      exact hpath

/-- **Every step keeps the past of the rows and the calls.** -/
theorem step_traced {log : List (Occurrence D)} (h : Traced H zones s log) (a : Action D) :
    Traced H zones (step H E zones s a) (log ++ events H zones s a) := by
  refine ⟨step_sound H E zones h.sound a, fun ref row user hrow huser => ?_,
    fun id call hcall => ?_, fun id call op hcall hmay hop => ?_⟩
  · rcases step_approver h.sound hrow huser with ⟨old, hold, hreview, happrover⟩ | ⟨o, ho, hnew⟩
    · obtain ⟨o, ho, happroved⟩ := h.approved ref old user hold (happrover ▸ huser)
      exact ⟨o, List.mem_append_left _ ho, hreview ▸ happroved⟩
    · exact ⟨o, List.mem_append_right _ ho, hnew⟩
  · rcases step_calls H E zones hcall with ⟨hold, -⟩ | ⟨user, sessionId, ref, reconcile, -, rfl⟩ |
      ⟨input, old, rfl, hold, hnext⟩
    · exact (h.path id call hold).step h.sound a
    · exact newCall_onPath user sessionId ref reconcile
    · exact (callStep_onPath (h.path id old hold) hnext).step h.sound _
  · rcases step_mayWrite hcall hmay with ⟨old, hold, holdMay, ⟨href, huser, hpath⟩, hsame, -⟩ |
      ⟨input, old, op', e, rfl, hold, hclaiming, hexecute, hop', ⟨href, huser, hpath⟩, hclaim⟩
    · have htraces := (h.traces id old op hold holdMay (hsame.trans hop)).append
        (events H zones s a)
      unfold Traces at htraces
      rw [href, huser, hpath] at htraces
      exact htraces
    · obtain rfl := Option.some.inj (hop'.symm.trans hop)
      obtain ⟨row, hload, -, happrover, -, -, rfl, -⟩ := claim_eq_ok hclaim
      obtain ⟨approval, happroval, hby⟩ := h.approved call.ref row.row call.user.pk
        (loadOperation_eq_ok hload).2.1 happrover
      have hevents : events H zones s (.advance id input) =
          [⟨s, input.now, .claimed call.ref call.user.pk⟩] := by
        rw [← href, ← huser, ← hpath] at hclaim
        rw [mem_events_claimed hold hclaiming hexecute hclaim, href, huser]
      have honPath := (h.path id old hold).of_claim hclaiming (href ▸ hload)
      rw [hevents]
      exact ⟨approval, _, (List.singleton_sublist.2 happroval).append (.refl _), hby, rfl,
        href ▸ hpath ▸ honPath, _, e, rfl, hclaim⟩

end Steps

/-! ### What stands behind a write -/

/-- What stands behind a write: the occurrences of the approval and of the claim, and what the claim has
found. The row is the stored one, before the claim. -/
structure Backing (D : Type) where
  approval : Occurrence D
  claim : Occurrence D
  row : Execution D
  intent : Intent D
  run : Run D
  workflow : Workflow D
  control : AgentRunControl

/-- The write `w` of the log, a call of an adapter with this request for the row, by the user, is backed. -/
structure Backs (H : Hash D) (zones : String → Bool) (log : List (Occurrence D)) (w : Occurrence D)
    (ref : ExecutionRef) (user : ℕ) (request : ProviderRequest D) (b : Backing D) : Prop where
  order : [b.approval, b.claim, w].Sublist log
  approved : OwnerApproved H zones b.approval ref user b.row.toReviewFields
  claimed : b.claim.event = .claimed ref user
  stored : b.claim.state.executions.get? ref = some b.row
  approver : b.row.approver = some user
  intent : loadIntent b.claim.state.agents.db b.row.intent = .ok b.intent
  run : loadRun b.claim.state.agents.db b.row.run = .ok b.run
  current : Current b.claim.state.agents.db.world b.intent b.run b.workflow b.control
  request : request =
    providerRequest (pathOf ref.1 b.intent.operation.provider) ref.1 false b.row
  reviewed : Reviewed H zones b.claim.state.agents.db.world b.intent b.run
    b.intent.operation.provider ref.1 b.row.toRequestFields
    (b.row.requestDigest, b.row.reviewDigest)
  exact : ∀ world' intent' run' provider' model' request' digests',
    Reviewed H zones world' intent' run' provider' model' request' digests' →
      digests'.2 = b.row.reviewDigest →
      intent'.id = b.intent.id ∧ run'.id = b.run.id ∧
        (content H zones provider' model' request').map Json.canon =
          (content H zones b.intent.operation.provider ref.1 b.row.toRequestFields).map
            Json.canon ∧
        request'.expectedReadbackDigest = b.row.expectedReadbackDigest
  campaign : ref.1 = .draft → b.intent.operation.provider = .iterable →
    ∃ id template, b.claim.state.executions.get? (.template, id) = some template ∧
      template.intent = b.row.intent ∧ OwnsTemplate b.row.toRequestFields template

variable {H : Hash D} {zones : String → Bool}

/-- A claim does not change what the adapter is asked for. -/
theorem providerRequest_claimedRow (path path' : DraftProvider) (model : ExecutionModel)
    (row : Execution D) (now : Time) :
    providerRequest path model false (claimedRow path' row now) =
      providerRequest path model false row := by
  obtain ⟨⟨⟨action, _, _, _, _, _⟩, _⟩, _⟩ := row
  cases path <;> cases model <;> cases action <;> rfl

/-- An approval and a claim back what the claimed call asks its adapter for. -/
theorem backs_of_claim (hH : H.CollisionFree) {log : List (Occurrence D)}
    {approval claimed w : Occurrence D} {call : Call D} {op : Operation D}
    (horder : [approval, claimed, w].Sublist log)
    (happroved : OwnerApproved H zones approval call.ref call.user.pk op.row.toReviewFields)
    (hclaimed : ClaimedBy H zones claimed call.ref call.user call.path op)
    (hexecute : call.reconcile = false) :
    ∃ b, Backs H zones log w call.ref call.user.pk (requestOf call op) b := by
  obtain ⟨hevent, hpath, input, e, -, hclaim⟩ := hclaimed
  obtain ⟨old, hload, hvalid, happrover, -, -, rfl, -⟩ := claim_eq_ok hclaim
  obtain ⟨href, hrow, hintent, hrun⟩ := loadOperation_eq_ok hload
  obtain ⟨hreviewed, hcampaign⟩ := validateExecution_eq_ok hvalid
  rw [href] at hreviewed hcampaign
  obtain ⟨workflow, control, hcurrent⟩ := hreviewed.current
  refine ⟨⟨approval, claimed, old.row, old.intent, old.run, workflow, control⟩, horder, happroved,
    hevent, hrow, happrover, hintent, hrun, hcurrent, ?_, hreviewed, ?_, fun hdraft hiterable => ?_⟩
  · unfold requestOf
    rw [hexecute, providerRequest_claimedRow, hpath]
  · intro world' intent' run' provider' model' request' digests' hreviewed' hdigest
    exact content_of_reviewDigest hH hreviewed' hreviewed hdigest
  · obtain ⟨id, template, htemplate, hsame, howns⟩ := hcampaign hiterable hdraft
    exact ⟨id, template, htemplate, hsame.trans (loadIntent_eq_ok hintent).1, howns⟩

/-- **What was approved is what is dispatched**: every create and every update of every run is backed. -/
theorem dispatched_as_approved (hH : H.CollisionFree) (E : Engine D) (world : World D)
    (platform : Platform D) (as : List (Action D)) {w : Occurrence D}
    (hw : w ∈ log H E zones (start world platform) as) {ref : ExecutionRef} {user : ℕ}
    {reconcile : Bool} {request : ProviderRequest D}
    (hevent : w.event = .called ref user reconcile request) (hwrite : request.isWrite = true) :
    ∃ b, Backs H zones (log H E zones (start world platform) as) w ref user request b := by
  obtain ⟨as₁, a, as₂, rfl, hmem⟩ := Transition.mem_outputs hw
  have htraced : Traced H zones (Transition.run (step H E zones) (start world platform) as₁)
      ([] ++ log H E zones (start world platform) as₁) :=
    Transition.outputs_induction (f := events H zones) (P := Traced H zones)
      (fun _ a _ hs => step_traced hs a) (traced_start H zones world platform) as₁
  obtain ⟨-, id, input, call, op, rfl, hcall, hphase, rfl, rfl, rfl, rfl⟩ :=
    mem_events_called hmem hevent
  have hexecute : call.reconcile = false := by
    rw [isWrite_requestOf] at hwrite
    simpa using hwrite
  obtain ⟨approval, claimed, hsub, happroved, hclaimed⟩ :=
    htraced.traces id call op hcall ⟨hexecute, by rw [hphase]; rfl⟩ (by rw [hphase]; rfl)
  refine backs_of_claim hH ?_ happroved hclaimed hexecute
  have hlog : log H E zones (start world platform) (as₁ ++ .advance id input :: as₂) =
      log H E zones (start world platform) as₁ ++ (events H zones _ (.advance id input) ++
        log H E zones _ as₂) := Transition.outputs_append ..
  rw [hlog]
  exact hsub.append ((List.singleton_sublist.2 hmem).trans (List.sublist_append_left _ _))

/-- The sample run up to its adapter call writes, and the write is backed. -/
theorem dispatched_as_approved_sample :
    ∃ w user request b,
      w ∈ log freeHash Sample.engine Sample.noZones (start Sample.world Sample.platform)
        (Sample.submitted ++ Sample.dispatching ++ Sample.steps 0 1) ∧
      Backs freeHash Sample.noZones
        (log freeHash Sample.engine Sample.noZones (start Sample.world Sample.platform)
          (Sample.submitted ++ Sample.dispatching ++ Sample.steps 0 1))
        w Sample.row user request b := by
  have hwrites : 0 < writesTo Sample.row (log freeHash Sample.engine Sample.noZones
      (start Sample.world Sample.platform)
      (Sample.submitted ++ Sample.dispatching ++ Sample.steps 0 1)) := by
    decide +kernel
  obtain ⟨w, hw, user, reconcile, request, hevent, hwrite⟩ := exists_write_of_writesTo hwrites
  obtain ⟨b, hb⟩ := dispatched_as_approved freeHash_collisionFree Sample.engine Sample.world
    Sample.platform _ hw hevent hwrite
  exact ⟨w, user, request, b, hw, hb⟩

end CivicLoop.Drafts
