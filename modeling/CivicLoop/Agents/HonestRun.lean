import CivicLoop.Agents.Operations
import CivicLoop.Agents.Sample

/-!
# The acceptance of an honest run

An honest run of an owner event submits one proposal, requests all drafts on it and returns its
reference. Its result is accepted if the operations it was given are its own. They are not if another
proposal with the same content has left operations with the same idempotency keys: a request returns
these, and the acceptance does not find the operations of the run.

## Main definitions

* `returnedOperations` : the operations in the answer to a request.
* `Db.Answered` : what a request has answered is there.
* `Agents.Honest` : an honest run; `Agents.HonestRun.Accepted` : its result is accepted, and its
  operations are its own.
* `Agents.HonestRun.NoForeign` : the operations with the keys of a request are on the proposal.

## Main results

* `Agents.honest_run_accepted_iff` : an honest run is accepted exactly if, before each of its requests,
  no other proposal had an operation with a key of the request.
* `Agents.honest_run_rejected` : an honest run that is not.

## References

Source: `backend/agents/mcp.py`, lines 256–270 and 372–404; `backend/agents/tasks.py`, lines 461–543.
-/

namespace CivicLoop

variable {D : Type} [DecidableEq D]

/-- The operations in the answer to a request. -/
def returnedOperations (answer : Json D) : List Uuid :=
  match answer.get? "operations" with
  | some (.arr items) => items.filterMap fun item => item.uuid? "operation_id"
  | _ => []

/-- Each member of a list has a partner in a list that it is related to. -/
theorem exists_mem_of_forall₂ {α β : Type} {R : α → β → Prop} {l : List α} {l' : List β}
    (h : List.Forall₂ R l l') {a : α} (ha : a ∈ l) : ∃ b ∈ l', R a b := by
  induction h with
  | nil => cases ha
  | @cons a' b' _ _ hab _ ih =>
    rcases List.mem_cons.1 ha with rfl | ha
    · exact ⟨b', List.mem_cons_self, hab⟩
    · obtain ⟨b, hb, hr⟩ := ih ha
      exact ⟨b, List.mem_cons_of_mem b' hb, hr⟩

/-- The key that the acceptance of a run expects of an operation on a proposal. -/
def expectedKey (H : Hash D) (run : AgentRun D) (binding : HermesRunBinding D) (digest : D)
    (pair : DraftProvider × OperationKind) : Option D :=
  (actionDigest H run.workflow run.eventRevision binding.revisionDigest pair.1 pair.2 digest).bind
    (operationKey H run.workflow run.eventRevision binding.actor pair.2)

theorem OperationKind.value_injective : Function.Injective OperationKind.value := by
  intro kind kind' h
  cases kind <;> cases kind' <;> first | rfl | exact absurd h (by decide)

omit [DecidableEq D] in
/-- The key of an operation identifies its kind. -/
theorem expectedKey_inj {H : Hash D} (hH : H.CollisionFree) {run : AgentRun D}
    {binding : HermesRunBinding D} {digest key : D} {pair pair' : DraftProvider × OperationKind}
    (h : expectedKey H run binding digest pair = some key)
    (h' : expectedKey H run binding digest pair' = some key) : pair.2 = pair'.2 := by
  obtain ⟨action, -, hkey⟩ := Option.bind_eq_some_iff.1 h
  obtain ⟨action', -, hkey'⟩ := Option.bind_eq_some_iff.1 h'
  have hcanon := hH.ofJson_inj.1 ((Hash.digest_eq_some.1 hkey).2.trans
    (Hash.digest_eq_some.1 hkey').2.symm)
  simp only [Json.canon, Json.canonList, Json.lit, Json.arr.injEq, List.cons.injEq, Json.str.injEq,
    Text.lit.injEq] at hcanon
  exact OperationKind.value_injective hcanon.2.2.2.1

/-- The kind of a required operation determines its provider. -/
theorem pair_of_kind {pair pair' : DraftProvider × OperationKind} (h : pair ∈ requiredOperations)
    (h' : pair' ∈ requiredOperations) (hkind : pair.2 = pair'.2) : pair = pair' := by
  simp only [requiredOperations, List.mem_cons, List.not_mem_nil, or_false] at h h'
  rcases h with rfl | rfl | rfl <;> rcases h' with rfl | rfl | rfl <;> first | rfl | cases hkind

theorem WorkflowCapability.ForRun.keyOf {H : Hash D} {record : WorkflowCapability D}
    {run : AgentRun D} {binding : HermesRunBinding D} (h : record.ForRun run binding) (digest : D)
    (pair : DraftProvider × OperationKind) :
    keyOf H record digest pair = expectedKey H run binding digest pair := by
  simp only [CivicLoop.keyOf, actionOf, expectedKey, h.workflow, h.revision, h.actor,
    h.revisionDigest]

namespace Db

/-! ### Answers -/

/-- The operations of the answer are the ones of the keys of the request. -/
structure Answers (H : Hash D) (db : Db D) (invocation : MCPInvocation D) (arguments : Json D)
    (proposalId : Uuid) (proposal : MCPSubmission D) (record : WorkflowCapability D) : Prop where
  hdigest : invocation.argumentDigest = H.ofJson arguments
  hid : arguments.uuid? "proposal_id" = some proposalId
  hproposal : db.submissions.get? proposalId = some proposal
  hrecord : db.capabilities.get? invocation.capability = some record
  operations : List.Forall₂ (fun pair id => ∃ operation, db.operations.get? id = some operation ∧
      keyOf H record proposal.digest pair = some operation.idempotencyKey)
    invocation.toolName.requests (returnedOperations invocation.result)

/-- What a request has answered is there. -/
def Answered (H : Hash D) (db : Db D) : Prop :=
  ∀ id invocation, db.invocations.get? id = some invocation → invocation.toolName.requests ≠ [] →
    ∃ arguments proposalId proposal record,
      db.Answers H invocation arguments proposalId proposal record

theorem nodup_rows (db : Db D) : db.operations.rows.Nodup := db.operations.nodup.of_map

theorem Answers.mono {H : Hash D} {db db' : Db D} {invocation : MCPInvocation D}
    {arguments : Json D} {proposalId : Uuid} {proposal : MCPSubmission D}
    {record : WorkflowCapability D}
    (h : db.Answers H invocation arguments proposalId proposal record) (hgrows : db.Grows db')
    (hkeeps : db.KeepsFiles db') :
    ∃ record', db'.Answers H invocation arguments proposalId proposal record' := by
  obtain ⟨record', hrecord', hscope⟩ := hgrows.capabilities _ _ h.hrecord
  refine ⟨record', h.hdigest, h.hid, hkeeps.submissions _ _ h.hproposal, hrecord', ?_⟩
  refine h.operations.imp fun pair id => ?_
  rintro ⟨operation, ho, hkey⟩
  exact ⟨operation, hkeeps.operations _ _ ho, by rw [keyOf_of_sameScope hscope, hkey]⟩

omit [DecidableEq D] in
theorem uuid?_operationPayload (id : Uuid) (operation : DraftOperation D) :
    (operationPayload id operation).uuid? "operation_id" = some id := rfl

omit [DecidableEq D] in
theorem returnedOperations_withCorrelation (items : List (Json D)) (correlationId : Text D) :
    returnedOperations (withCorrelation (.obj [("operations", .arr items)]) correlationId) =
      items.filterMap fun item => item.uuid? "operation_id" := rfl

/-- The answer of a request that is executed. -/
theorem Effect.answer {H : Hash D} {arguments : Json D} {recordId : Uuid}
    {record : WorkflowCapability D} {tool : Tool} {db db' : Db D} {result : Json D}
    (h : Effect H arguments recordId record db tool db' result) (htool : tool.requests ≠ [])
    (correlationId : Text D) :
    ∃ proposalId proposal, arguments.uuid? "proposal_id" = some proposalId ∧
      db.submissions.get? proposalId = some proposal ∧
      List.Forall₂ (fun pair id => ∃ operation, db'.operations.get? id = some operation ∧
          keyOf H record proposal.digest pair = some operation.idempotencyKey)
        tool.requests (returnedOperations (withCorrelation result correlationId)) := by
  cases h with
  | read hread => exact absurd hread htool
  | submit hsubmit => exact absurd hsubmit htool
  | eventbrite hproposal hrequest =>
    obtain ⟨hid, hsub, -⟩ := proposal_eq_ok hproposal
    obtain ⟨action, key, -, hkey, ⟨id, operation, ho, hop, rfl⟩, -⟩ := hrequest.operations
    refine ⟨_, _, hid, hsub, ?_⟩
    rw [returnedOperations_withCorrelation]
    simp only [List.filterMap_cons, uuid?_operationPayload, List.filterMap_nil]
    exact .cons ⟨operation, ho, by rw [hkey, hop]⟩ .nil
  | iterable hproposal hemail hreminder =>
    obtain ⟨hid, hsub, -⟩ := proposal_eq_ok hproposal
    obtain ⟨action, key, -, hkey, ⟨id, operation, ho, hop, rfl⟩, -⟩ := hemail.operations
    obtain ⟨action', key', -, hkey', ⟨id', operation', ho', hop', rfl⟩, -⟩ := hreminder.operations
    refine ⟨_, _, hid, hsub, ?_⟩
    rw [returnedOperations_withCorrelation]
    simp only [List.filterMap_cons, uuid?_operationPayload, List.filterMap_nil]
    exact .cons ⟨operation, hreminder.keeps ho, by rw [hkey, hop]⟩
      (.cons ⟨operation', ho', by rw [hkey', hop']⟩ .nil)

theorem Answered.dispatchMcpTool {H : Hash D} {db : Db D} (h : db.Answered H) (call : ToolCall D) :
    (db.dispatchMcpTool H call).2.Answered H := by
  have hgrows := (db.keepsScope_dispatchMcpTool H call).grows
  have hkeeps := db.dispatchMcpTool_keepsFiles H call
  have hold : ∀ id invocation, db.invocations.get? id = some invocation →
      invocation.toolName.requests ≠ [] → ∃ arguments proposalId proposal record,
        (db.dispatchMcpTool H call).2.Answers H invocation arguments proposalId proposal record := by
    intro id invocation hi htool
    obtain ⟨arguments, proposalId, proposal, record, hanswers⟩ := h id invocation hi htool
    obtain ⟨record', hanswers'⟩ := hanswers.mono hgrows hkeeps
    exact ⟨arguments, proposalId, proposal, record', hanswers'⟩
  intro id invocation hi htool
  cases htry : db.tryTool H call with
  | error e =>
    obtain ⟨audits, heq⟩ := dispatchMcpTool_eq_error (dispatchMcpTool_of_error htry)
    refine hold id invocation ?_ htool
    rwa [heq] at hi
  | ok r =>
    obtain ⟨result, db'⟩ := r
    rw [dispatchMcpTool_of_ok htry] at hi hold hgrows hkeeps ⊢
    obtain ⟨tool, recordId, record, workflow, revision, correlationId, hadmitted, hcases⟩ :=
      tryTool_effect htry
    rcases hcases with ⟨-, -, -, -, -, -, -, hcalls⟩ |
      ⟨requestId, idem, result₁, correlation, db₁, heffect, hsubmissions, hoperations, hresult,
        hinsert⟩
    · refine hold id invocation ?_ htool
      rwa [hcalls.invocations] at hi
    · rw [Table.get?_of_insert? hinsert] at hi
      split_ifs at hi
      · obtain rfl := Option.some.inj hi
        obtain ⟨proposalId, proposal, hid, hsub, hanswer⟩ := heffect.answer htool correlation
        obtain ⟨record', hrecord', hscope⟩ :=
          hgrows.capabilities _ _ (Table.find?_eq_some hadmitted.capability).1
        refine ⟨call.arguments, proposalId, proposal, record', rfl, hid,
          hkeeps.submissions _ _ hsub, hrecord', ?_⟩
        rw [hresult, hoperations, keyOf_of_sameScope hscope]
        exact hanswer
      · exact hold id invocation hi htool

end Db

namespace Agents

theorem step_answered (H : Hash D) (E : Engine D) (s : State D) (a : Action D)
    (h : s.db.Answered H) : (step H E s a).db.Answered H := by
  by_cases htool : ∃ call, a = .tool call
  · obtain ⟨call, rfl⟩ := htool
    exact h.dispatchMcpTool call
  · have hcalls := step_keepsCalls H E s fun call e => htool ⟨call, e⟩
    intro id invocation hi hrequests
    rw [hcalls.invocations] at hi
    obtain ⟨arguments, proposalId, proposal, record, hanswers⟩ := h id invocation hi hrequests
    obtain ⟨record', hanswers'⟩ := hanswers.mono (step_grows H E s a) (.of_keepsCalls hcalls)
    exact ⟨arguments, proposalId, proposal, record', hanswers'⟩

theorem answered_of_run (H : Hash D) (E : Engine D) (world : World D) (as : List (Action D)) :
    (Transition.run (step H E) (start world) as).db.Answered H :=
  Transition.run_induction (P := fun s : State D => s.db.Answered H)
    (fun s a h => step_answered H E s a h) (fun id invocation h => by cases h) as

/-! ### Honest runs -/

/-- A call at one point of a run, and its answer. -/
structure PastCall (D : Type) where
  before : List (Action D)
  call : ToolCall D
  after : List (Action D)
  answer : Json D

/-- The database before the call. -/
def PastCall.db (H : Hash D) (E : Engine D) (world : World D) (c : PastCall D) : Db D :=
  (Transition.run (step H E) (start world) c.before).db

/-- The call of the run `as` is a successful one of the tool on the proposal, under the capability. -/
structure PastCall.Requests (H : Hash D) (E : Engine D) (world : World D) (as : List (Action D))
    (tool : Tool) (capability proposalId : Uuid) (c : PastCall D) : Prop where
  position : as = c.before ++ .tool c.call :: c.after
  capability : ∃ record, (c.db H E world).capabilityOf H c.call.token = some (capability, record)
  tool : Tool.ofName c.call.toolName = some tool
  proposalId : c.call.arguments.uuid? "proposal_id" = some proposalId
  answer : ((c.db H E world).dispatchMcpTool H c.call).1 = .ok c.answer

/-- The names of an honest run: the run with its binding, its capability, its one proposal, the two
calls that request drafts on it, and its result. -/
structure HonestRun (D : Type) where
  runId : Uuid
  run : AgentRun D
  binding : HermesRunBinding D
  capability : Uuid
  proposalId : Uuid
  proposal : MCPSubmission D
  eventbrite : PastCall D
  iterable : PastCall D
  result : HermesResult D

/-- The run is an honest one of an owner event after the actions `as`. -/
structure Honest (H : Hash D) (E : Engine D) (world : World D) (as : List (Action D))
    (h : HonestRun D) : Prop where
  run : (Transition.run (step H E) (start world) as).db.runs.get? h.runId = some h.run
  binding : (Transition.run (step H E) (start world) as).db.bindings.get? h.runId = some h.binding
  capability :
    (Transition.run (step H E) (start world) as).db.capabilityOfRun h.runId = some h.capability
  /-- The event is an owner event, entered by hand or read from Eventbrite. -/
  ownerEvent : ∃ revision kind, (Transition.run (step H E) (start world) as).db.world.revisions.get?
      h.run.eventRevision = some revision ∧ sourceKind revision = some kind ∧
    (kind = .manual ∨ kind = .eventbrite)
  proposal : (Transition.run (step H E) (start world) as).db.submissions.get? h.proposalId =
    some h.proposal
  submitted : h.proposal.capability = h.capability ∧ h.proposal.kind = .proposal
  /-- No other proposal was submitted under the capability. -/
  single : ∀ id submission,
    (Transition.run (step H E) (start world) as).db.submissions.get? id = some submission →
      submission.capability = h.capability → submission.kind = .proposal → id = h.proposalId
  eventbrite : h.eventbrite.Requests H E world as .requestEventbriteDraft h.capability h.proposalId
  iterable : h.iterable.Requests H E world as .requestIterableDrafts h.capability h.proposalId
  /-- The result is one of the run, and has the right price. -/
  result : h.result.runId = .uuid h.runId ∧ h.result.workflowId = .uuid h.run.workflow ∧
    h.result.revisionId = h.run.eventRevision ∧ h.result.status = .succeeded ∧
    Budget.cost h.run.modelProfile h.result.usage.inputTokens h.result.usage.outputTokens =
      .ok h.result.usage.costMicrousd
  /-- Its one reference is the one of the proposal. -/
  reference : h.result.proposalReferences =
    [⟨h.proposalId, proposalSchemaId, h.proposal.digest⟩]

/-- The result is valid, and the operations that the run was given are on its proposal. -/
def HonestRun.Accepted (H : Hash D) (db : Db D) (h : HonestRun D) : Prop :=
  db.validateResult H h.runId h.run h.binding h.capability h.result = .ok () ∧
    ∀ id ∈ returnedOperations h.eventbrite.answer ++ returnedOperations h.iterable.answer,
      ∃ operation, db.operations.get? id = some operation ∧ operation.proposal = h.proposalId

/-- The operations with the keys that the tool requests for the proposal of the run are on it. -/
def HonestRun.NoForeign (H : Hash D) (db : Db D) (tool : Tool) (h : HonestRun D) : Prop :=
  ∀ pair ∈ tool.requests, ∀ id operation, db.operations.get? id = some operation →
    expectedKey H h.run h.binding h.proposal.digest pair = some operation.idempotencyKey →
      operation.proposal = h.proposalId

/-! ### What the requests of an honest run leave -/

section Requests

variable {H : Hash D} {E : Engine D} {world : World D} {as : List (Action D)} {tool : Tool}
  {capability proposalId : Uuid} {c : PastCall D}

/-- The run up to the call, and the call. -/
def PastCall.done (c : PastCall D) : PastCall D := { c with after := [] }

omit [DecidableEq D] in
theorem PastCall.append_done (c : PastCall D) :
    c.before ++ .tool c.call :: c.after = (c.before ++ [.tool c.call]) ++ c.after := by simp

theorem PastCall.Requests.done (h : c.Requests H E world as tool capability proposalId) :
    c.done.Requests H E world (c.before ++ [.tool c.call]) tool capability proposalId :=
  ⟨rfl, h.capability, h.tool, h.proposalId, h.answer⟩

theorem PastCall.Requests.run_eq (h : c.Requests H E world as tool capability proposalId) :
    Transition.run (step H E) (start world) as = Transition.run (step H E)
      (Transition.run (step H E) (start world) (c.before ++ [.tool c.call])) c.after := by
  rw [← Transition.run_append, ← c.append_done, h.position]

theorem PastCall.Requests.keepsFiles (h : c.Requests H E world as tool capability proposalId) :
    (Transition.run (step H E) (start world) (c.before ++ [.tool c.call])).db.KeepsFiles
      (Transition.run (step H E) (start world) as).db := by
  rw [h.run_eq]
  exact run_keepsFiles H E _ c.after

theorem PastCall.keepsFiles_call (c : PastCall D) :
    (c.db H E world).KeepsFiles
      (Transition.run (step H E) (start world) (c.before ++ [.tool c.call])).db := by
  rw [Transition.run_append]
  exact run_keepsFiles H E _ [.tool c.call]

/-- The operations in the answer to a request are there, with the keys of the request. -/
theorem PastCall.Requests.operations (hH : H.CollisionFree)
    (h : c.Requests H E world as tool capability proposalId) (htool : tool.requests ≠ []) :
    ∃ proposal record,
      (Transition.run (step H E) (start world) as).db.submissions.get? proposalId = some proposal ∧
      (Transition.run (step H E) (start world) as).db.capabilities.get? capability = some record ∧
      List.Forall₂ (fun pair id => ∃ operation,
          (Transition.run (step H E) (start world) as).db.operations.get? id = some operation ∧
            keyOf H record proposal.digest pair = some operation.idempotencyKey)
        tool.requests (returnedOperations c.answer) := by
  -- The call has left an invocation, or has found one.
  obtain ⟨id, invocation, hi, hcapability, htoolName, hdigest, hresult⟩ : ∃ id invocation,
      (Transition.run (step H E) (start world) as).db.invocations.get? id = some invocation ∧
        invocation.capability = capability ∧ invocation.toolName = tool ∧
        invocation.argumentDigest = H.ofJson c.call.arguments ∧ invocation.result = c.answer := by
    obtain ⟨record, hrecord⟩ := h.capability
    cases htry : (c.db H E world).tryTool H c.call with
    | error e =>
      have hanswer := h.answer
      rw [Db.dispatchMcpTool_of_error htry] at hanswer
      cases hanswer
    | ok r =>
      obtain ⟨result, db'⟩ := r
      have hdispatch := Db.dispatchMcpTool_of_ok htry
      have hdb' : (Transition.run (step H E) (start world) (c.before ++ [.tool c.call])).db = db' := by
        rw [Transition.run_concat]
        exact congrArg Prod.snd hdispatch
      have hanswer : result = c.answer := by
        have hanswer := h.answer
        rw [hdispatch] at hanswer
        exact Except.ok.inj hanswer
      obtain ⟨tool', recordId, record', workflow, revision, correlationId, hadmitted, hcases⟩ :=
        Db.tryTool_effect htry
      have hrecordId : recordId = capability :=
        congrArg Prod.fst (Option.some.inj (hadmitted.capability.symm.trans hrecord))
      have htool' : tool' = tool :=
        Option.some.inj ((ofName_of_validateToolArguments hadmitted.valid).symm.trans h.tool)
      have hlater := h.keepsFiles.invocations
      rcases hcases with ⟨id, invocation, hi, hc, ht, hd, hr, hcalls⟩ |
        ⟨requestId, idem, result₁, correlation, db₁, -, -, -, -, hinsert⟩
      · refine ⟨id, invocation, hlater _ _ ?_, hc.trans hrecordId, ht.trans htool', hd, ?_⟩
        · rw [hdb', hcalls.invocations, hi]
        · rw [← hr, hanswer]
      · refine ⟨requestId, ⟨recordId, idem, H.ofJson c.call.arguments, tool', result⟩, hlater _ _ ?_,
          hrecordId, htool', rfl, hanswer⟩
        rw [hdb', Table.get?_of_insert? hinsert, if_pos rfl]
  obtain ⟨arguments, proposalId', proposal', record, hanswers⟩ :=
    answered_of_run H E world as id invocation hi (htoolName ▸ htool)
  have hcanon : c.call.arguments.canon = arguments.canon :=
    hH.ofJson_inj.1 (hdigest.symm.trans hanswers.hdigest)
  have hsame : proposalId = proposalId' := by
    have hid := h.proposalId
    rw [← Json.uuid?_canon, hcanon, Json.uuid?_canon, hanswers.hid] at hid
    exact (Option.some.inj hid).symm
  subst hsame
  refine ⟨proposal', record, hanswers.hproposal, by rw [← hcapability, hanswers.hrecord], ?_⟩
  rw [← htoolName, ← hresult]
  exact hanswers.operations

/-- An operation that a request leaves was there before, or is on the proposal. -/
theorem PastCall.Requests.new (h : c.Requests H E world as tool capability proposalId) {id : Uuid}
    {operation : DraftOperation D} (ho : (Transition.run (step H E) (start world)
      (c.before ++ [.tool c.call])).db.operations.get? id = some operation) :
    (c.db H E world).operations.get? id = some operation ∨ operation.proposal = proposalId := by
  rw [Transition.run_concat] at ho
  obtain ho | ⟨tool, recordId, record, workflow, revision, correlationId, proposalId', proposal, pair,
    action, key, -, hid, -, -, -, -, -, rfl, -⟩ := Db.dispatchMcpTool_new ho
  · exact .inl ho
  · exact .inr (Option.some.inj (hid.symm.trans h.proposalId))

end Requests

/-! ### The acceptance -/

end Agents

/-- What a valid result is. -/
theorem Db.validateResult_eq_ok {H : Hash D} {runId : Uuid} {run : AgentRun D}
    {binding : HermesRunBinding D} {capability : Uuid} {result : HermesResult D} {db : Db D} :
    db.validateResult H runId run binding capability result = .ok () ↔
      (result.runId = .uuid runId ∧ result.workflowId = .uuid run.workflow ∧
        result.revisionId = run.eventRevision) ∧ result.status = .succeeded ∧
      ((result.proposalReferences.map fun reference => reference.proposalId) ≠ [] ∧
        (result.proposalReferences.map fun reference => reference.proposalId).Nodup) ∧
      result.proposalReferences.all (db.referenceOk H capability) = true ∧
      ((db.operationsOf capability).all fun row => db.operationOk H run binding
        (result.proposalReferences.map fun reference => reference.proposalId) row.2) = true ∧
      (∃ revision, db.world.revisions.get? run.eventRevision = some revision ∧
        ∃ kind, sourceKind revision = some kind ∧
          (kind = .manual ∨ kind = .eventbrite →
            (result.proposalReferences.map fun reference => reference.proposalId).length = 1 ∧
            (db.operationsOf capability).length = requiredOperations.length ∧
            ∀ pair ∈ requiredOperations, pair ∈ (db.operationsOf capability).map fun row =>
              (row.2.provider, row.2.operationKind)) ∧
          Budget.cost run.modelProfile result.usage.inputTokens result.usage.outputTokens =
            .ok result.usage.costMicrousd) := by
  simp only [validateResult, bind_eq_ok, ensure_eq_ok, fetch_eq_ok, exists_const]

namespace Agents

section Accept

variable {H : Hash D} {E : Engine D} {world : World D} {as : List (Action D)} {h : HonestRun D}

/-- The capability of an honest run is one for the run. -/
theorem Honest.scope (hh : Honest H E world as h) : ∃ record,
    (Transition.run (step H E) (start world) as).db.capabilities.get? h.capability = some record ∧
      record.ForRun h.run h.binding := by
  obtain ⟨run, binding, record, hrun, hbinding, hrecord, hfor⟩ :=
    scoped_of_run H E world as h.runId h.capability hh.capability
  obtain rfl := Option.some.inj (hh.run.symm.trans hrun)
  obtain rfl := Option.some.inj (hh.binding.symm.trans hbinding)
  exact ⟨record, hrecord, hfor⟩

/-- An operation on the proposal of an honest run has the expected digests. -/
theorem Honest.operation (hh : Honest H E world as h) {id : Uuid} {operation : DraftOperation D}
    (ho : (Transition.run (step H E) (start world) as).db.operations.get? id = some operation)
    (hproposal : operation.proposal = h.proposalId) :
    (operation.provider, operation.operationKind) ∈ requiredOperations ∧
      expectedKey H h.run h.binding h.proposal.digest (operation.provider, operation.operationKind) =
        some operation.idempotencyKey ∧
      (Transition.run (step H E) (start world) as).db.operationOk H h.run h.binding [h.proposalId]
        operation = true := by
  obtain ⟨record, hrecord, hfor⟩ := hh.scope
  obtain ⟨proposal, record', hsub, -, hrecord', hof⟩ :=
    (filed_of_run H E world as).operations id operation ho
  rw [hproposal, hh.proposal] at hsub
  obtain rfl := Option.some.inj hsub
  rw [hh.submitted.1, hrecord] at hrecord'
  obtain rfl := Option.some.inj hrecord'
  obtain ⟨action, hpair, haction, hkey, hoperation⟩ := hof
  refine ⟨hpair, by rw [← hfor.keyOf, hkey], ?_⟩
  have haction' : actionDigest H h.run.workflow h.run.eventRevision h.binding.revisionDigest
      operation.provider operation.operationKind h.proposal.digest = some action := by
    rw [← haction, actionOf, hfor.workflow, hfor.revision, hfor.revisionDigest]
  have hkey' : operationKey H h.run.workflow h.run.eventRevision h.binding.actor
      operation.operationKind action = some operation.idempotencyKey := by
    rw [CivicLoop.keyOf, haction, Option.bind_some] at hkey
    rw [← hkey, hfor.workflow, hfor.revision, hfor.actor]
  have hfields : operation.workflow = h.run.workflow ∧ operation.revision = h.run.eventRevision ∧
      operation.actor = h.binding.actor ∧ operation.status = .pending ∧ operation.approval = none ∧
      operation.receipt = none ∧ operation.actionDigest = action := by
    rw [hoperation]
    exact ⟨hfor.workflow, hfor.revision, hfor.actor, rfl, rfl, rfl, rfl⟩
  obtain ⟨hw, hr, ha, hs, hap, hre, had⟩ := hfields
  simp only [Db.operationOk, hproposal, hh.proposal, haction', hkey', hw, hr, ha, hs, hap, hre, had]
  simpa using hpair

/-- The operations of the capability of an honest run are the ones on its proposal. -/
theorem Honest.mem_operationsOf (hh : Honest H E world as h) (row : Uuid × DraftOperation D) :
    row ∈ (Transition.run (step H E) (start world) as).db.operationsOf h.capability ↔
      (Transition.run (step H E) (start world) as).db.operations.get? row.1 = some row.2 ∧
        row.2.proposal = h.proposalId := by
  rw [Db.mem_operationsOf]
  refine and_congr_right fun ho => ⟨?_, fun hp => ⟨h.proposal, hp ▸ hh.proposal, hh.submitted.1⟩⟩
  rintro ⟨proposal, hproposal, hcapability⟩
  obtain ⟨proposal', record, hproposal', hkind, -⟩ :=
    (filed_of_run H E world as).operations _ _ ho
  obtain rfl := Option.some.inj (hproposal.symm.trans hproposal')
  exact hh.single _ _ hproposal hcapability hkind

/-- The run owns an operation of the pair. -/
def HonestRun.Owns (H : Hash D) (db : Db D) (h : HonestRun D)
    (pair : DraftProvider × OperationKind) : Prop :=
  ∃ id operation, db.operations.get? id = some operation ∧ operation.proposal = h.proposalId ∧
    expectedKey H h.run h.binding h.proposal.digest pair = some operation.idempotencyKey

/-- What the answer to a request of an honest run returns, has the expected keys. -/
theorem Honest.answer (hH : H.CollisionFree) (hh : Honest H E world as h) {tool : Tool}
    (htool : tool.requests ≠ []) {c : PastCall D}
    (hc : c.Requests H E world as tool h.capability h.proposalId) :
    List.Forall₂ (fun pair id => ∃ operation,
        (Transition.run (step H E) (start world) as).db.operations.get? id = some operation ∧
          expectedKey H h.run h.binding h.proposal.digest pair = some operation.idempotencyKey)
      tool.requests (returnedOperations c.answer) := by
  obtain ⟨record, hrecord, hfor⟩ := hh.scope
  obtain ⟨proposal, record', hproposal, hrecord', hoperations⟩ := hc.operations hH htool
  obtain rfl := Option.some.inj (hh.proposal.symm.trans hproposal)
  obtain rfl := Option.some.inj (hrecord.symm.trans hrecord')
  simpa only [hfor.keyOf] using hoperations

/-- An honest run whose request found no foreign operation owns the requested ones. -/
theorem Honest.owns_of_noForeign (hH : H.CollisionFree) (hh : Honest H E world as h) {tool : Tool}
    {c : PastCall D} (hc : c.Requests H E world as tool h.capability h.proposalId)
    (hforeign : h.NoForeign H (c.db H E world) tool) {pair : DraftProvider × OperationKind}
    (hpair : pair ∈ tool.requests) :
    h.Owns H (Transition.run (step H E) (start world) as).db pair := by
  obtain ⟨record, hrecord, hfor⟩ := hh.scope
  -- Right after the call there is an operation with the key.
  obtain ⟨proposal, record', hproposal, hrecord', hoperations⟩ :=
    hc.done.operations hH (List.ne_nil_of_mem hpair)
  obtain rfl : proposal = h.proposal :=
    Option.some.inj ((hc.keepsFiles.submissions _ _ hproposal).symm.trans hh.proposal)
  have hscope : record'.SameScope record := by
    obtain ⟨record'', hrecord'', hscope⟩ := (run_grows H E _ c.after).capabilities _ _ hrecord'
    rw [← hc.run_eq, hrecord] at hrecord''
    rwa [← Option.some.inj hrecord''] at hscope
  obtain ⟨id, -, operation, ho, hkey⟩ := exists_mem_of_forall₂ hoperations hpair
  rw [← keyOf_of_sameScope hscope, hfor.keyOf] at hkey
  refine ⟨id, operation, hc.keepsFiles.operations _ _ ho, ?_, hkey⟩
  rcases hc.new ho with hold | hnew
  · exact hforeign pair hpair id operation hold hkey
  · exact hnew

/-- An honest run that owns the requested operations found no foreign one. -/
theorem noForeign_of_owns {tool : Tool} {c : PastCall D}
    (hc : c.Requests H E world as tool h.capability h.proposalId)
    (howns : ∀ pair ∈ tool.requests,
      h.Owns H (Transition.run (step H E) (start world) as).db pair) :
    h.NoForeign H (c.db H E world) tool := by
  intro pair hpair id operation ho hkey
  obtain ⟨id', operation', ho', hproposal', hkey'⟩ := howns pair hpair
  have hlater := hc.keepsFiles.operations _ _ (c.keepsFiles_call.operations _ _ ho)
  have hkeys : operation.idempotencyKey = operation'.idempotencyKey :=
    Option.some.inj (hkey.symm.trans hkey')
  obtain rfl := (filed_of_run H E world as).unique _ _ _ _ hlater ho' hkeys
  rw [Option.some.inj (hlater.symm.trans ho'), hproposal']

/-- The operation that an honest run owns of a required pair is one of the pair. -/
theorem Honest.pair_of_key (hH : H.CollisionFree) (hh : Honest H E world as h) {id : Uuid}
    {operation : DraftOperation D}
    (ho : (Transition.run (step H E) (start world) as).db.operations.get? id = some operation)
    (hproposal : operation.proposal = h.proposalId) {pair : DraftProvider × OperationKind}
    (hpair : pair ∈ requiredOperations)
    (hkey : expectedKey H h.run h.binding h.proposal.digest pair = some operation.idempotencyKey) :
    (operation.provider, operation.operationKind) = pair := by
  obtain ⟨hmem, hkey', -⟩ := hh.operation ho hproposal
  exact pair_of_kind hmem hpair (expectedKey_inj hH hkey' hkey)

/-- The operations of the capability of an honest run that owns the required ones have exactly the
required pairs. -/
theorem Honest.pairs_perm (hH : H.CollisionFree) (hh : Honest H E world as h)
    (howns : ∀ pair ∈ requiredOperations,
      h.Owns H (Transition.run (step H E) (start world) as).db pair) :
    (((Transition.run (step H E) (start world) as).db.operationsOf h.capability).map fun row =>
      (row.2.provider, row.2.operationKind)).Perm requiredOperations := by
  have hnodup : ((Transition.run (step H E) (start world) as).db.operationsOf
      h.capability).Nodup := (Db.nodup_rows _).filter _
  refine (List.perm_ext_iff_of_nodup (hnodup.map_on fun row hrow row' hrow' heq => ?_) (by decide)).2
    fun pair => ⟨fun hpair => ?_, fun hpair => ?_⟩
  · -- Two operations of one pair have one key.
    obtain ⟨ho, hproposal⟩ := (hh.mem_operationsOf row).1 hrow
    obtain ⟨ho', hproposal'⟩ := (hh.mem_operationsOf row').1 hrow'
    have hkey := (hh.operation ho hproposal).2.1
    have hkey' := (hh.operation ho' hproposal').2.1
    rw [heq, hkey'] at hkey
    have hid := (filed_of_run H E world as).unique _ _ _ _ ho ho' (Option.some.inj hkey).symm
    rw [hid, ho'] at ho
    exact Prod.ext hid (Option.some.inj ho).symm
  · obtain ⟨row, hrow, rfl⟩ := List.mem_map.1 hpair
    obtain ⟨ho, hproposal⟩ := (hh.mem_operationsOf row).1 hrow
    exact (hh.operation ho hproposal).1
  · obtain ⟨id, operation, ho, hproposal, hkey⟩ := howns pair hpair
    exact List.mem_map.2 ⟨(id, operation), (hh.mem_operationsOf _).2 ⟨ho, hproposal⟩,
      hh.pair_of_key hH ho hproposal hpair hkey⟩

/-- The result of an honest run is valid exactly if the run owns all required operations. -/
theorem Honest.validateResult_iff (hH : H.CollisionFree) (hh : Honest H E world as h) :
    (Transition.run (step H E) (start world) as).db.validateResult H h.runId h.run h.binding
        h.capability h.result = .ok () ↔
      ∀ pair ∈ requiredOperations,
        h.Owns H (Transition.run (step H E) (start world) as).db pair := by
  have hfiled := filed_of_run H E world as
  obtain ⟨revision, kind, hrevision, hkind, howner⟩ := hh.ownerEvent
  obtain ⟨hrunId, hworkflow, hrevisionId, hstatus, hcost⟩ := hh.result
  have hids : (h.result.proposalReferences.map fun reference => reference.proposalId) =
      [h.proposalId] := by rw [hh.reference]; rfl
  rw [Db.validateResult_eq_ok, hids]
  constructor
  · rintro ⟨-, -, -, -, -, revision', hrevision', kind', hkind', hrequired, -⟩ pair hpair
    obtain rfl := Option.some.inj (hrevision.symm.trans hrevision')
    obtain rfl := Option.some.inj (hkind.symm.trans hkind')
    obtain ⟨row, hrow, hpair'⟩ := List.mem_map.1 ((hrequired howner).2.2 pair hpair)
    obtain ⟨ho, hproposal⟩ := (hh.mem_operationsOf row).1 hrow
    exact ⟨row.1, row.2, ho, hproposal, hpair' ▸ (hh.operation ho hproposal).2.1⟩
  · intro howns
    refine ⟨⟨hrunId, hworkflow, hrevisionId⟩, hstatus, by simp, ?_, ?_, revision, hrevision, kind,
      hkind, fun _ => ⟨rfl, ?_, ?_⟩, hcost⟩
    · obtain ⟨hdigest, hschema, -⟩ := hfiled.submissions _ _ hh.proposal
      rw [hh.reference]
      simp [Db.referenceOk, hh.proposal, hh.submitted.1, hh.submitted.2, hdigest,
        hschema hh.submitted.2]
    · refine List.all_eq_true.2 fun row hrow => ?_
      obtain ⟨ho, hproposal⟩ := (hh.mem_operationsOf row).1 hrow
      exact (hh.operation ho hproposal).2.2
    · have hlength := (hh.pairs_perm hH howns).length_eq
      rwa [List.length_map] at hlength
    · intro pair hpair
      exact (hh.pairs_perm hH howns).mem_iff.2 hpair

theorem forall_requiredOperations {P : DraftProvider × OperationKind → Prop} :
    (∀ pair ∈ requiredOperations, P pair) ↔
      (∀ pair ∈ Tool.requestEventbriteDraft.requests, P pair) ∧
        ∀ pair ∈ Tool.requestIterableDrafts.requests, P pair := by
  simp [requiredOperations, Tool.requests]

/-- **An honest run is accepted exactly if its requests find no foreign operation**: before each of
its two requests, every operation with an idempotency key of the request is on the proposal of the
run. -/
theorem honest_run_accepted_iff {H : Hash D} (hH : H.CollisionFree) (E : Engine D)
    (world : World D) (as : List (Action D)) (h : HonestRun D) (hh : Honest H E world as h) :
    h.Accepted H (Transition.run (step H E) (start world) as).db ↔
      h.NoForeign H (h.eventbrite.db H E world) .requestEventbriteDraft ∧
        h.NoForeign H (h.iterable.db H E world) .requestIterableDrafts := by
  constructor
  · rintro ⟨hvalid, -⟩
    have howns := forall_requiredOperations.1 ((hh.validateResult_iff hH).1 hvalid)
    exact ⟨noForeign_of_owns hh.eventbrite howns.1, noForeign_of_owns hh.iterable howns.2⟩
  · rintro ⟨heventbrite, hiterable⟩
    have howns : ∀ pair ∈ requiredOperations,
        h.Owns H (Transition.run (step H E) (start world) as).db pair :=
      forall_requiredOperations.2 ⟨fun pair => hh.owns_of_noForeign hH hh.eventbrite heventbrite,
        fun pair => hh.owns_of_noForeign hH hh.iterable hiterable⟩
    refine ⟨(hh.validateResult_iff hH).2 howns, fun id hid => ?_⟩
    -- Each returned operation has the key of a pair, and is the one that the run owns.
    obtain ⟨pair, hpair, operation, ho, hkey⟩ : ∃ pair ∈ requiredOperations, ∃ operation,
        (Transition.run (step H E) (start world) as).db.operations.get? id = some operation ∧
          expectedKey H h.run h.binding h.proposal.digest pair = some operation.idempotencyKey := by
      rcases List.mem_append.1 hid with hid | hid
      · obtain ⟨pair, hpair, hoperation⟩ := exists_mem_of_forall₂
          (hh.answer hH (by simp [Tool.requests]) hh.eventbrite).flip hid
        exact ⟨pair, mem_requiredOperations_of_requests hpair, hoperation⟩
      · obtain ⟨pair, hpair, hoperation⟩ := exists_mem_of_forall₂
          (hh.answer hH (by simp [Tool.requests]) hh.iterable).flip hid
        exact ⟨pair, mem_requiredOperations_of_requests hpair, hoperation⟩
    obtain ⟨id', operation', ho', hproposal', hkey'⟩ := howns pair hpair
    have hkeys : operation.idempotencyKey = operation'.idempotencyKey :=
      Option.some.inj (hkey.symm.trans hkey')
    obtain rfl := (filed_of_run H E world as).unique _ _ _ _ ho ho' hkeys
    exact ⟨operation', ho', hproposal'⟩

end Accept

/-! ### Sample runs -/

/-- A run of the sample installation that has submitted one proposal, and its two requests. -/
structure SampleRun where
  before : List (Action FreeDigest)
  correlationId : Uuid
  token : ℕ
  capability : Uuid
  proposalId : Uuid
  requestId : Uuid
  id : Uuid

namespace SampleRun

variable (r : SampleRun)

def eventbrite : ToolCall FreeDigest :=
  Sample.draftsCall r.correlationId r.token .requestEventbriteDraft r.requestId
    "request-eventbrite" r.proposalId r.id

def iterable : ToolCall FreeDigest :=
  Sample.draftsCall r.correlationId r.token .requestIterableDrafts (r.requestId + 1)
    "request-iterable-1" r.proposalId (r.id + 1)

/-- The state before the first request, between the requests, and after them. -/
def before₁ : State FreeDigest :=
  Transition.run (step freeHash Sample.engine) (start Sample.world) r.before

def before₂ : State FreeDigest := step freeHash Sample.engine r.before₁ (.tool r.eventbrite)

def last : State FreeDigest := step freeHash Sample.engine r.before₂ (.tool r.iterable)

def actions : List (Action FreeDigest) := r.before ++ [.tool r.eventbrite, .tool r.iterable]

/-- The run is one of the owner event with its binding and its capability, it has submitted the one
proposal, and both requests are answered. -/
def Facts : Prop :=
  ((r.before₁.db.capabilityOf freeHash r.token).map Prod.fst = some r.capability ∧
    (r.before₁.db.dispatchMcpTool freeHash r.eventbrite).1.isOk = true) ∧
  ((r.before₂.db.capabilityOf freeHash r.token).map Prod.fst = some r.capability ∧
    (r.before₂.db.dispatchMcpTool freeHash r.iterable).1.isOk = true) ∧
  (r.last.db.runs.get? (runIdOf freeHash r.correlationId)).map (fun run =>
      (run.workflow, run.eventRevision, decide (Budget.cost run.modelProfile 0 0 = .ok 0))) =
    some (1, 1, true) ∧
  (r.last.db.bindings.get? (runIdOf freeHash r.correlationId)).isSome = true ∧
  r.last.db.capabilityOfRun (runIdOf freeHash r.correlationId) = some r.capability ∧
  (r.last.db.world.revisions.get? 1).map sourceKind = some (some .manual) ∧
  (r.last.db.submissions.rows.filter fun row =>
      row.2.capability = r.capability ∧ row.2.kind = .proposal).map
        (fun row => (row.1, row.2.digest)) =
    [(r.proposalId, freeHash.ofJson (Sample.content "A"))]

instance : Decidable r.Facts := inferInstanceAs (Decidable ((_ ∧ _) ∧ (_ ∧ _) ∧ _ ∧ _ ∧ _ ∧ _ ∧ _))

theorem run_actions :
    Transition.run (step freeHash Sample.engine) (start Sample.world) r.actions = r.last := by
  rw [actions, Transition.run_append]
  rfl

/-- The answer of a call. -/
def answer (s : State FreeDigest) (call : ToolCall FreeDigest) : Json FreeDigest :=
  match (s.db.dispatchMcpTool freeHash call).1 with
  | .ok answer => answer
  | .error _ => .null

theorem dispatch_eq_answer {s : State FreeDigest} {call : ToolCall FreeDigest}
    (h : (s.db.dispatchMcpTool freeHash call).1.isOk = true) :
    (s.db.dispatchMcpTool freeHash call).1 = .ok (answer s call) := by
  unfold answer
  split
  · assumption
  · rename_i e he
    rw [he] at h
    cases h

/-- The honest run, with the run and the binding of the final database. -/
def honest (run : AgentRun FreeDigest) (binding : HermesRunBinding FreeDigest)
    (proposal : MCPSubmission FreeDigest) : HonestRun FreeDigest where
  runId := runIdOf freeHash r.correlationId
  run := run
  binding := binding
  capability := r.capability
  proposalId := r.proposalId
  proposal := proposal
  eventbrite := ⟨r.before, r.eventbrite, [.tool r.iterable], answer r.before₁ r.eventbrite⟩
  iterable := ⟨r.before ++ [.tool r.eventbrite], r.iterable, [], answer r.before₂ r.iterable⟩
  result := Sample.result r.correlationId r.proposalId "A"

variable {r}

theorem Facts.requests (h : r.Facts) (run : AgentRun FreeDigest)
    (binding : HermesRunBinding FreeDigest) (proposal : MCPSubmission FreeDigest) :
    (r.honest run binding proposal).eventbrite.Requests freeHash Sample.engine Sample.world r.actions
        .requestEventbriteDraft r.capability r.proposalId ∧
      (r.honest run binding proposal).iterable.Requests freeHash Sample.engine Sample.world r.actions
        .requestIterableDrafts r.capability r.proposalId := by
  obtain ⟨⟨hcapability₁, hok₁⟩, ⟨hcapability₂, hok₂⟩, -⟩ := h
  obtain ⟨row₁, hrow₁, hid₁⟩ := Option.map_eq_some_iff.1 hcapability₁
  obtain ⟨row₂, hrow₂, hid₂⟩ := Option.map_eq_some_iff.1 hcapability₂
  have hdb₂ : (r.honest run binding proposal).iterable.db freeHash Sample.engine Sample.world =
      r.before₂.db := by
    have hrun := Transition.run_append (step freeHash Sample.engine) (start Sample.world) r.before
      [.tool r.eventbrite]
    exact congrArg State.db hrun
  refine ⟨⟨rfl, ⟨row₁.2, by rw [← hid₁]; exact hrow₁⟩, rfl, rfl, dispatch_eq_answer hok₁⟩,
    ⟨by simp [actions, honest], ⟨row₂.2, ?_⟩, rfl, rfl, ?_⟩⟩
  · rw [hdb₂, ← hid₂]
    exact hrow₂
  · rw [hdb₂]
    exact dispatch_eq_answer hok₂

/-- A run of the sample installation with these facts is honest. -/
theorem Facts.honest (h : r.Facts) : ∃ run binding proposal,
    Honest freeHash Sample.engine Sample.world r.actions (r.honest run binding proposal) := by
  have hrequests := h.requests
  obtain ⟨-, -, hrun, hbinding, hcapability, hrevision, hsubmissions⟩ := h
  obtain ⟨run, hget, hfields⟩ := Option.map_eq_some_iff.1 hrun
  obtain ⟨hworkflow, hevent, hcost⟩ : run.workflow = 1 ∧ run.eventRevision = 1 ∧
      Budget.cost run.modelProfile 0 0 = .ok 0 := by simpa using hfields
  obtain ⟨binding, hbinding⟩ := Option.isSome_iff_exists.1 hbinding
  obtain ⟨revision, hrevision, hkind⟩ := Option.map_eq_some_iff.1 hrevision
  -- The proposals of the capability are the one row.
  obtain ⟨⟨id, proposal⟩, hrows⟩ : ∃ row, (r.last.db.submissions.rows.filter fun row =>
      row.2.capability = r.capability ∧ row.2.kind = .proposal) = [row] := by
    rw [List.map_eq_singleton_iff] at hsubmissions
    obtain ⟨row, hrow, -⟩ := hsubmissions
    exact ⟨row, hrow⟩
  rw [hrows, List.map_singleton, List.singleton_inj] at hsubmissions
  obtain ⟨rfl, hdigest⟩ := Prod.mk.inj hsubmissions
  have hmem : ∀ k submission, r.last.db.submissions.get? k = some submission ∧
      submission.capability = r.capability ∧ submission.kind = .proposal ↔
        (k, submission) = (r.proposalId, proposal) := by
    intro k submission
    have hmem : (k, submission) ∈ [(r.proposalId, proposal)] ↔
        (k, submission) = (r.proposalId, proposal) := List.mem_singleton
    rw [← hmem, ← hrows, List.mem_filter, Table.get?_eq_some_iff]
    simp
  obtain ⟨hproposal, hof⟩ := (hmem _ proposal).2 rfl
  refine ⟨run, binding, proposal, ?_⟩
  constructor <;> try rw [run_actions]
  · exact hget
  · exact hbinding
  · exact hcapability
  · exact ⟨revision, .manual, hevent ▸ hrevision, hkind, .inl rfl⟩
  · exact hproposal
  · exact hof
  · exact fun k submission hk hc hp => congrArg Prod.fst ((hmem k submission).1 ⟨hk, hc, hp⟩)
  · exact (hrequests run binding proposal).1
  · exact (hrequests run binding proposal).2
  · exact ⟨rfl, by rw [SampleRun.honest, hworkflow]; rfl, by rw [SampleRun.honest, hevent]; rfl, rfl, hcost⟩
  · rw [show (r.honest run binding proposal).proposal.digest = _ from hdigest]
    rfl

end SampleRun

/-- The first run of the installation. -/
def sampleFirst : SampleRun where
  before := Sample.claimed 1 5 0 21 31 ++
    [.tool (Sample.proposeCall 5 31 1 "propose-0000000001" "A" 41)]
  correlationId := 5
  token := 31
  capability := 21
  proposalId := 41
  requestId := 3
  id := 51

/-- A second run, after the acceptance of the first, that submits the same content. -/
def sampleSecond : SampleRun where
  before := Sample.accepted ++ Sample.claimed 2 6 1 22 32 ++
    [.tool (Sample.proposeCall 6 32 6 "propose-0000000006" "A" 43)]
  correlationId := 6
  token := 32
  capability := 22
  proposalId := 43
  requestId := 7
  id := 61

/-- The first run is honest, and is accepted. -/
theorem honest_run_accepted_sample : ∃ h, Honest freeHash Sample.engine Sample.world
    sampleFirst.actions h ∧ h.Accepted freeHash (Transition.run (step freeHash Sample.engine)
      (start Sample.world) sampleFirst.actions).db := by
  have hfacts : sampleFirst.Facts ∧
      sampleFirst.before₁.db.operations.rows.all (fun row => row.2.proposal = 41) = true ∧
      sampleFirst.before₂.db.operations.rows.all (fun row => row.2.proposal = 41) = true := by
    decide +kernel
  obtain ⟨hfacts, hown₁, hown₂⟩ := hfacts
  obtain ⟨run, binding, proposal, hhonest⟩ := hfacts.honest
  refine ⟨_, hhonest, (honest_run_accepted_iff freeHash_collisionFree Sample.engine Sample.world
    sampleFirst.actions _ hhonest).2 ⟨fun pair _ id operation ho _ => ?_,
      fun pair _ id operation ho _ => ?_⟩⟩
  · have h41 := List.all_eq_true.1 hown₁ _ (Table.get?_eq_some_iff.1 ho)
    exact of_decide_eq_true h41
  · have h41 := List.all_eq_true.1 hown₂ _ (Table.get?_eq_some_iff.1 ho)
    exact of_decide_eq_true h41

/-- **An honest run can be rejected**: the second run is given the operations of the first. -/
theorem honest_run_rejected :
    ¬∀ (as : List (Action FreeDigest)) (h : HonestRun FreeDigest),
      Honest freeHash Sample.engine Sample.world as h → h.Accepted freeHash
        (Transition.run (step freeHash Sample.engine) (start Sample.world) as).db := by
  intro h
  have hfacts : sampleSecond.Facts ∧
      sampleSecond.last.db.operations.rows.all (fun row => row.2.proposal = 41) = true := by
    decide +kernel
  obtain ⟨hfacts, hforeign⟩ := hfacts
  obtain ⟨run, binding, proposal, hhonest⟩ := hfacts.honest
  obtain ⟨hvalid, -⟩ := h _ _ hhonest
  have howns := (hhonest.validateResult_iff freeHash_collisionFree).1 hvalid
  obtain ⟨id, operation, ho, hproposal, -⟩ := howns (.eventbrite, .createEventbriteDraft) (by decide)
  rw [SampleRun.run_actions] at ho
  have h41 : operation.proposal = 41 := by
    simpa using List.all_eq_true.1 hforeign _ (Table.get?_eq_some_iff.1 ho)
  rw [h41] at hproposal
  cases hproposal

end Agents

end CivicLoop
