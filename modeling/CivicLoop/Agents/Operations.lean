import CivicLoop.Agents.Frames
import CivicLoop.Agents.Scope

/-!
# Submissions and operations

What the broker files: submissions with the digest of their content, and operations on proposals,
each with the digests of its proposal and of the scope of the proposal's capability. Nothing is
changed or removed later, and no two operations have one idempotency key.

## Main definitions

* `actionOf`, `keyOf` : the digests of an operation on a proposal.
* `Db.Filed` : the filed submissions and operations are what the broker makes of a proposal.
* `Db.KeepsFiles` : submissions, operations and invocations are kept.

## Main results

* `Db.Effect.files` : what a tool files.
* `Agents.filed_of_run`, `Agents.run_keepsFiles` : both hold of every run of the service.

## References

Source: `backend/agents/mcp.py`, lines 256–404.
-/

namespace CivicLoop

variable {D : Type} [DecidableEq D]

/-- The digest of the action of an operation on a proposal with the digest `digest`. -/
def actionOf (H : Hash D) (record : WorkflowCapability D) (digest : D)
    (pair : DraftProvider × OperationKind) : Option D :=
  actionDigest H record.workflow record.revision record.revisionDigest pair.1 pair.2 digest

/-- The idempotency key of an operation on a proposal with the digest `digest`. -/
def keyOf (H : Hash D) (record : WorkflowCapability D) (digest : D)
    (pair : DraftProvider × OperationKind) : Option D :=
  (actionOf H record digest pair).bind
    (operationKey H record.workflow record.revision record.actor pair.2)

/-- The operation is what the broker makes of the proposal under the capability. -/
def DraftOperation.Of (H : Hash D) (operation : DraftOperation D) (record : WorkflowCapability D)
    (proposal : MCPSubmission D) : Prop :=
  ∃ action, (operation.provider, operation.operationKind) ∈ requiredOperations ∧
    actionOf H record proposal.digest (operation.provider, operation.operationKind) = some action ∧
    keyOf H record proposal.digest (operation.provider, operation.operationKind) =
      some operation.idempotencyKey ∧
    operation = pendingOperation record operation.proposal operation.provider
      operation.operationKind action operation.idempotencyKey

namespace Db

/-- No two operations have one idempotency key. -/
def UniqueKeys (db : Db D) : Prop :=
  ∀ id id' operation operation', db.operations.get? id = some operation →
    db.operations.get? id' = some operation' →
      operation.idempotencyKey = operation'.idempotencyKey → id = id'

/-- The filed submissions and operations are what the broker makes of a proposal. -/
structure Filed (H : Hash D) (db : Db D) : Prop where
  submissions : ∀ id submission, db.submissions.get? id = some submission →
    H.digest submission.content = some submission.digest ∧
      (submission.kind = .proposal → proposalSchema.validate H submission.content = true) ∧
      ∃ record, db.capabilities.get? submission.capability = some record
  operations : ∀ id operation, db.operations.get? id = some operation → ∃ proposal record,
    db.submissions.get? operation.proposal = some proposal ∧ proposal.kind = .proposal ∧
      db.capabilities.get? proposal.capability = some record ∧ operation.Of H record proposal
  unique : db.UniqueKeys

/-- Submissions, operations and invocations are kept. -/
structure KeepsFiles (db db' : Db D) : Prop where
  submissions : ∀ id submission, db.submissions.get? id = some submission →
    db'.submissions.get? id = some submission
  operations : ∀ id operation, db.operations.get? id = some operation →
    db'.operations.get? id = some operation
  invocations : ∀ id invocation, db.invocations.get? id = some invocation →
    db'.invocations.get? id = some invocation

theorem KeepsFiles.trans {db db' db'' : Db D} (h : db.KeepsFiles db') (h' : db'.KeepsFiles db'') :
    db.KeepsFiles db'' :=
  ⟨fun id s hs => h'.submissions id s (h.submissions id s hs),
    fun id o ho => h'.operations id o (h.operations id o ho),
    fun id i hi => h'.invocations id i (h.invocations id i hi)⟩

theorem KeepsFiles.of_keepsCalls {db db' : Db D} (h : db.KeepsCalls db') : db.KeepsFiles db' :=
  ⟨fun id s hs => by rw [h.submissions, hs], fun id o ho => by rw [h.operations, ho],
    fun id i hi => by rw [h.invocations, hi]⟩

end Db

/-! ### Scopes -/

theorem keyOf_of_sameScope {H : Hash D} {record record' : WorkflowCapability D}
    (h : record.SameScope record') : keyOf H record' = keyOf H record := by
  funext digest pair
  simp only [keyOf, actionOf, h.workflow, h.revision, h.actor, h.revisionDigest]

theorem DraftOperation.Of.of_sameScope {H : Hash D} {operation : DraftOperation D}
    {record record' : WorkflowCapability D} {proposal : MCPSubmission D}
    (h : operation.Of H record proposal) (hs : record.SameScope record') :
    operation.Of H record' proposal := by
  obtain ⟨action, hpair, haction, hkey, hoperation⟩ := h
  refine ⟨action, hpair, ?_, by rw [keyOf_of_sameScope hs, hkey], ?_⟩
  · rw [← haction]
    simp only [actionOf, hs.workflow, hs.revision, hs.revisionDigest]
  · rw [hoperation]
    simp only [pendingOperation, hs.workflow, hs.revision, hs.actor]

theorem mem_requiredOperations_of_requests {tool : Tool} {pair : DraftProvider × OperationKind}
    (h : pair ∈ tool.requests) : pair ∈ requiredOperations := by
  cases tool <;> simp_all [Tool.requests, requiredOperations]

namespace Db

/-- Nothing filed changes while capabilities keep their scope. -/
theorem Filed.of_grows {H : Hash D} {db db' : Db D} (h : db.Filed H) (hgrows : db.Grows db')
    (hsubmissions : db'.submissions = db.submissions) (hoperations : db'.operations = db.operations) :
    db'.Filed H where
  submissions id submission hs := by
    rw [hsubmissions] at hs
    obtain ⟨hdigest, hschema, record, hrecord⟩ := h.submissions id submission hs
    obtain ⟨record', hrecord', -⟩ := hgrows.capabilities _ record hrecord
    exact ⟨hdigest, hschema, record', hrecord'⟩
  operations id operation ho := by
    rw [hoperations] at ho
    obtain ⟨proposal, record, hproposal, hkind, hrecord, hof⟩ := h.operations id operation ho
    obtain ⟨record', hrecord', hs⟩ := hgrows.capabilities _ record hrecord
    exact ⟨proposal, record', by rw [hsubmissions, hproposal], hkind, hrecord', hof.of_sameScope hs⟩
  unique id id' operation operation' ho ho' := by
    rw [hoperations] at ho ho'
    exact h.unique id id' operation operation' ho ho'

/-! ### Requests -/

/-- A proposal that a call names, with its capability. -/
theorem proposal_eq_ok {H : Hash D} {arguments : Json D} {record : WorkflowCapability D} {id : Uuid}
    {proposal : MCPSubmission D} {db : Db D}
    (h : db.proposal H arguments record = .ok (id, proposal)) :
    arguments.uuid? "proposal_id" = some id ∧ db.submissions.get? id = some proposal ∧
      proposal.kind = .proposal ∧ ∃ owner, db.capabilities.get? proposal.capability = some owner ∧
        record.SameScope owner := by
  simp only [Db.proposal, bind_eq_ok, fetch_eq_ok, ensure_eq_ok, pure_eq_ok, Prod.mk.injEq] at h
  obtain ⟨id', hid, proposal', hproposal, owner, howner, -, ⟨hkind, hw, hr, hd, ha⟩, digest, -, -, -,
    rfl, rfl⟩ := h
  exact ⟨hid, hproposal, hkind, owner, howner, ⟨hw, hr, ha, hd⟩⟩

theorem operationByKey_eq_none {key : D} {db : Db D} :
    db.operationByKey key = none ↔ ∀ id operation, db.operations.get? id = some operation →
      operation.idempotencyKey ≠ key := by
  simp [operationByKey, Table.find?_eq_none]

/-- What a request does to the operations: one with the key is there afterwards, and the only new one
is the operation on the proposal. -/
theorem Requests.operations {H : Hash D} {record : WorkflowCapability D} {proposalId : Uuid}
    {proposal : MCPSubmission D} {provider : DraftProvider} {kind : OperationKind} {db db' : Db D}
    {payload : Json D} (h : Requests H record proposalId proposal provider kind db db' payload) :
    ∃ action key, actionOf H record proposal.digest (provider, kind) = some action ∧
      keyOf H record proposal.digest (provider, kind) = some key ∧
      (∃ id operation, db'.operations.get? id = some operation ∧ operation.idempotencyKey = key ∧
        payload = operationPayload id operation) ∧
      (db' = db ∨ db.operationByKey key = none ∧ ∃ id operations,
        db.operations.insert? id (pendingOperation record proposalId provider kind action key) =
          some operations ∧ db' = { db with operations }) := by
  obtain ⟨action, key, haction, hkey, hcases⟩ := h
  refine ⟨action, key, haction, by rw [keyOf, actionOf, haction]; exact hkey, ?_⟩
  rcases hcases with ⟨id, operation, hfind, rfl, rfl⟩ | ⟨hnone, id, operations, hinsert, rfl, rfl⟩
  · obtain ⟨hget, hp⟩ := Table.find?_eq_some hfind
    exact ⟨⟨id, operation, hget, by simpa using hp, rfl⟩, .inl rfl⟩
  · refine ⟨⟨id, _, ?_, rfl, rfl⟩, .inr ⟨hnone, id, operations, hinsert, rfl⟩⟩
    rw [Table.get?_of_insert? hinsert, if_pos rfl]

/-- An operation that a request leaves was there, or is the operation on the proposal, with a key that
no operation had. -/
theorem Requests.new {H : Hash D} {record : WorkflowCapability D} {proposalId : Uuid}
    {proposal : MCPSubmission D} {provider : DraftProvider} {kind : OperationKind} {db db' : Db D}
    {payload : Json D} (h : Requests H record proposalId proposal provider kind db db' payload)
    {id : Uuid} {operation : DraftOperation D} (ho : db'.operations.get? id = some operation) :
    db.operations.get? id = some operation ∨ ∃ action key,
      actionOf H record proposal.digest (provider, kind) = some action ∧
      keyOf H record proposal.digest (provider, kind) = some key ∧
      operation = pendingOperation record proposalId provider kind action key ∧
      db.operationByKey key = none := by
  obtain ⟨action, key, haction, hkey, -, rfl | ⟨hnone, id', operations, hinsert, rfl⟩⟩ :=
    h.operations
  · exact .inl ho
  · rw [Table.get?_of_insert? hinsert] at ho
    split_ifs at ho
    · exact .inr ⟨action, key, haction, hkey, (Option.some.inj ho).symm, hnone⟩
    · exact .inl ho

theorem Requests.keeps {H : Hash D} {record : WorkflowCapability D} {proposalId : Uuid}
    {proposal : MCPSubmission D} {provider : DraftProvider} {kind : OperationKind} {db db' : Db D}
    {payload : Json D} (h : Requests H record proposalId proposal provider kind db db' payload)
    {id : Uuid} {operation : DraftOperation D} (ho : db.operations.get? id = some operation) :
    db'.operations.get? id = some operation := by
  obtain ⟨action, key, -, -, -, rfl | ⟨-, id', operations, hinsert, rfl⟩⟩ := h.operations
  · exact ho
  · exact get?_of_insert?_of_some hinsert ho

theorem Requests.unique {H : Hash D} {record : WorkflowCapability D} {proposalId : Uuid}
    {proposal : MCPSubmission D} {provider : DraftProvider} {kind : OperationKind} {db db' : Db D}
    {payload : Json D} (h : Requests H record proposalId proposal provider kind db db' payload)
    (hunique : db.UniqueKeys) : db'.UniqueKeys := by
  obtain ⟨action, key, -, -, -, rfl | ⟨hnone, id₀, operations, hinsert, rfl⟩⟩ := h.operations
  · exact hunique
  · have hget := Table.get?_of_insert? hinsert
    have hnew := operationByKey_eq_none.1 hnone
    intro id id' operation operation' ho ho' hkey
    rw [hget] at ho ho'
    split_ifs at ho ho' with hid hid' hid'
    · rw [hid, hid']
    · obtain rfl := Option.some.inj ho
      exact absurd hkey.symm (hnew _ _ ho')
    · obtain rfl := Option.some.inj ho'
      exact absurd hkey (hnew _ _ ho)
    · exact hunique id id' operation operation' ho ho' hkey

/-! ### Effects -/

section Effect

variable {H : Hash D} {arguments : Json D} {recordId : Uuid} {record : WorkflowCapability D}
  {tool : Tool} {db db' : Db D} {result : Json D}

/-- An operation that a tool leaves was there, or is one that the tool requests on the proposal that
the call names, with a key that no operation had. -/
theorem Effect.new (h : Effect H arguments recordId record db tool db' result) {id : Uuid}
    {operation : DraftOperation D} (ho : db'.operations.get? id = some operation) :
    db.operations.get? id = some operation ∨ ∃ proposalId proposal pair action key,
      db.proposal H arguments record = .ok (proposalId, proposal) ∧ pair ∈ tool.requests ∧
      actionOf H record proposal.digest pair = some action ∧
      keyOf H record proposal.digest pair = some key ∧
      operation = pendingOperation record proposalId pair.1 pair.2 action key ∧
      db.operationByKey key = none := by
  cases h with
  | read => exact .inl ho
  | submit => exact .inl ho
  | eventbrite hproposal hrequest =>
    obtain ho | ⟨action, key, haction, hkey, hop, hnone⟩ := hrequest.new ho
    · exact .inl ho
    · exact .inr ⟨_, _, _, action, key, hproposal, by simp [Tool.requests], haction, hkey, hop, hnone⟩
  | iterable hproposal hemail hreminder =>
    obtain ho | ⟨action, key, haction, hkey, hop, hnone⟩ := hreminder.new ho
    · obtain ho | ⟨action, key, haction, hkey, hop, hnone⟩ := hemail.new ho
      · exact .inl ho
      · exact .inr ⟨_, _, (.iterable, .createIterableEmailDraft), action, key, hproposal,
          by simp [Tool.requests], haction, hkey, hop, hnone⟩
    · refine .inr ⟨_, _, (.iterable, .createIterableReminderDraft), action, key, hproposal,
        by simp [Tool.requests], haction, hkey, hop, ?_⟩
      -- The request of the first operation removes none.
      exact operationByKey_eq_none.2 fun id o ho =>
        operationByKey_eq_none.1 hnone id o (hemail.keeps ho)

theorem Effect.keepsFiles (h : Effect H arguments recordId record db tool db' result) :
    db.KeepsFiles db' := by
  cases h with
  | read => exact ⟨fun _ _ hs => hs, fun _ _ ho => ho, fun _ _ hi => hi⟩
  | submit htool hcapability hdigest hproposal hinsert =>
    exact ⟨fun _ _ hs => get?_of_insert?_of_some hinsert hs, fun _ _ ho => ho, fun _ _ hi => hi⟩
  | eventbrite hproposal hrequest =>
    have hframe := hrequest.frame
    exact ⟨fun _ _ hs => by rw [hframe]; exact hs, fun _ _ ho => hrequest.keeps ho,
      fun _ _ hi => by rw [hframe]; exact hi⟩
  | iterable hproposal hemail hreminder =>
    have hframe₁ := hemail.frame
    have hframe₂ := hreminder.frame
    exact ⟨fun _ _ hs => by rw [hframe₂, hframe₁]; exact hs,
      fun _ _ ho => hreminder.keeps (hemail.keeps ho), fun _ _ hi => by rw [hframe₂, hframe₁]; exact hi⟩

theorem Effect.uniqueKeys (h : Effect H arguments recordId record db tool db' result)
    (hunique : db.UniqueKeys) : db'.UniqueKeys := by
  cases h with
  | read => exact hunique
  | submit => exact hunique
  | eventbrite hproposal hrequest => exact hrequest.unique hunique
  | iterable hproposal hemail hreminder => exact hreminder.unique (hemail.unique hunique)

/-- A submission that a tool leaves was there, or is one of the capability. -/
theorem Effect.submission (h : Effect H arguments recordId record db tool db' result) {id : Uuid}
    {submission : MCPSubmission D} (hs : db'.submissions.get? id = some submission) :
    db.submissions.get? id = some submission ∨ submission.capability = recordId ∧
      H.digest submission.content = some submission.digest ∧
      (submission.kind = .proposal → tool = .proposeCampaignDrafts ∧
        arguments.get? "proposal" = some submission.content) := by
  cases h with
  | read => exact .inl hs
  | submit htool hcapability hdigest hproposal hinsert =>
    change (_ : Table Uuid (MCPSubmission D)).get? id = some submission at hs
    rw [Table.get?_of_insert? hinsert] at hs
    split_ifs at hs
    · obtain rfl := Option.some.inj hs
      exact .inr ⟨hcapability, hdigest, hproposal⟩
    · exact .inl hs
  | eventbrite hproposal hrequest =>
    rw [hrequest.frame] at hs
    exact .inl hs
  | iterable hproposal hemail hreminder =>
    rw [hreminder.frame, hemail.frame] at hs
    exact .inl hs

end Effect

/-- The operations of a capability are the ones on its proposals. -/
theorem mem_operationsOf {db : Db D} {capability : Uuid} {row : Uuid × DraftOperation D} :
    row ∈ db.operationsOf capability ↔ db.operations.get? row.1 = some row.2 ∧
      ∃ proposal, db.submissions.get? row.2.proposal = some proposal ∧
        proposal.capability = capability := by
  rw [operationsOf, List.mem_filter, Table.get?_eq_some_iff, Option.any_eq_true]
  simp

/-! ### Calls -/

/-- A call that commits replays an invocation, or executes its tool and files an invocation. -/
theorem tryTool_effect {H : Hash D} {db db' : Db D} {call : ToolCall D} {result : Json D}
    (h : db.tryTool H call = .ok (result, db')) :
    ∃ tool recordId record workflow revision correlationId,
      db.Admitted H call tool recordId record workflow revision correlationId ∧
        ((∃ id invocation, db.invocations.get? id = some invocation ∧
            invocation.capability = recordId ∧ invocation.toolName = tool ∧
            invocation.argumentDigest = H.ofJson call.arguments ∧ result = invocation.result ∧
            db.KeepsCalls db') ∨
          ∃ requestId idem result₁ correlation db₁,
            Effect H call.arguments recordId { record with correlationId := some correlationId }
              (db.bindCorrelation recordId record correlationId) tool db₁ result₁ ∧
            db'.submissions = db₁.submissions ∧ db'.operations = db₁.operations ∧
            result = withCorrelation result₁ correlation ∧
            db.invocations.insert? requestId
              ⟨recordId, idem, H.ofJson call.arguments, tool, result⟩ = some db'.invocations) := by
  obtain ⟨tool, recordId, record, workflow, revision, correlationId, hadmitted, hinvoke⟩ :=
    tryTool_eq_ok h
  refine ⟨tool, recordId, record, workflow, revision, correlationId, hadmitted, ?_⟩
  obtain ⟨requestId, correlation, key, idem, -, hcases⟩ := invoke_eq_ok hinvoke
  rcases hcases with ⟨id, existing, hexisting, ⟨hc, ht, ha, -⟩, rfl, rfl⟩ |
    ⟨-, result₁, db₁, invocations, hexecute, rfl, hinsert, rfl⟩
  · exact .inl ⟨id, existing, (Table.find?_eq_some hexisting).1, hc, ht, ha, rfl, rfl, rfl, rfl⟩
  · have heffect := execute_eq_ok hexecute
    have hinvocations : db₁.invocations = db.invocations := by rw [heffect.frame]; rfl
    rw [hinvocations] at hinsert
    exact .inr ⟨requestId, idem, result₁, correlation, db₁, heffect, rfl, rfl, rfl, hinsert⟩

theorem dispatchMcpTool_keepsFiles (H : Hash D) (call : ToolCall D) (db : Db D) :
    db.KeepsFiles (db.dispatchMcpTool H call).2 := by
  cases h : db.tryTool H call with
  | error e =>
    obtain ⟨audits, heq⟩ := dispatchMcpTool_eq_error (dispatchMcpTool_of_error h)
    rw [heq]
    exact .of_keepsCalls ⟨rfl, rfl, rfl⟩
  | ok r =>
    obtain ⟨result, db'⟩ := r
    rw [dispatchMcpTool_of_ok h]
    obtain ⟨tool, recordId, record, workflow, revision, correlationId, -, hcases⟩ :=
      tryTool_effect h
    rcases hcases with ⟨-, -, -, -, -, -, -, hkeeps⟩ |
      ⟨requestId, idem, result₁, correlation, db₁, heffect, hs, ho, -, hinsert⟩
    · exact .of_keepsCalls hkeeps
    · have hkeeps := heffect.keepsFiles
      exact ⟨fun id s h => by rw [hs]; exact hkeeps.submissions id s h,
        fun id o h => by rw [ho]; exact hkeeps.operations id o h,
        fun id i h => get?_of_insert?_of_some hinsert h⟩

/-- An operation that a call leaves was there, or the call is admitted and requests it on the proposal
that it names. -/
theorem dispatchMcpTool_new {H : Hash D} {call : ToolCall D} {db : Db D} {id : Uuid}
    {operation : DraftOperation D}
    (ho : (db.dispatchMcpTool H call).2.operations.get? id = some operation) :
    db.operations.get? id = some operation ∨
      ∃ tool recordId record workflow revision correlationId proposalId proposal pair action key,
        db.Admitted H call tool recordId record workflow revision correlationId ∧
        call.arguments.uuid? "proposal_id" = some proposalId ∧
        db.submissions.get? proposalId = some proposal ∧ proposal.kind = .proposal ∧
        pair ∈ tool.requests ∧ actionOf H record proposal.digest pair = some action ∧
        keyOf H record proposal.digest pair = some key ∧
        operation = pendingOperation record proposalId pair.1 pair.2 action key ∧
        (∃ owner, db.capabilities.get? proposal.capability = some owner ∧ record.SameScope owner) ∧
        db.operationByKey key = none := by
  cases h : db.tryTool H call with
  | error e =>
    obtain ⟨audits, heq⟩ := dispatchMcpTool_eq_error (dispatchMcpTool_of_error h)
    rw [heq] at ho
    exact .inl ho
  | ok r =>
    obtain ⟨result, db'⟩ := r
    rw [dispatchMcpTool_of_ok h] at ho
    obtain ⟨tool, recordId, record, workflow, revision, correlationId, hadmitted, hcases⟩ :=
      tryTool_effect h
    rcases hcases with ⟨-, -, -, -, -, -, -, hkeeps⟩ |
      ⟨requestId, idem, result₁, correlation, db₁, heffect, -, hoperations, -, -⟩
    · rw [hkeeps.operations] at ho
      exact .inl ho
    · rw [hoperations] at ho
      obtain ho | ⟨proposalId, proposal, pair, action, key, hproposal, hpair, haction, hkey, hop,
        hnone⟩ := heffect.new ho
      · exact .inl ho
      · obtain ⟨hid, hsub, hkind, owner, howner, hscope⟩ := proposal_eq_ok hproposal
        have hrecord : record.SameScope { record with correlationId := some correlationId } :=
          ⟨rfl, rfl, rfl, rfl⟩
        obtain ⟨owner₀, howner₀, hscope₀⟩ : ∃ owner₀,
            db.capabilities.get? proposal.capability = some owner₀ ∧ record.SameScope owner₀ := by
          by_cases hk : proposal.capability = recordId
          · exact ⟨record, by rw [hk]; exact (Table.find?_eq_some hadmitted.capability).1, .refl record⟩
          · rw [bindCorrelation, Table.get?_set_of_ne _ _ hk] at howner
            exact ⟨owner, howner, hrecord.trans hscope⟩
        exact .inr ⟨tool, recordId, record, workflow, revision, correlationId, proposalId, proposal,
          pair, action, key, hadmitted, hid, hsub, hkind, hpair, haction, hkey, hop,
          ⟨owner₀, howner₀, hscope₀⟩, hnone⟩

end Db

/-- A property of a schema is there and has its schema. -/
theorem Schema.get?_of_validate {H : Hash D} {properties : List (String × Schema)} {j : Json D}
    (h : (Schema.object properties).validate H j = true) {key : String} {schema : Schema}
    (hmem : (key, schema) ∈ properties) :
    ∃ child, j.get? key = some child ∧ schema.validate H child = true := by
  have hproperties : Schema.validateProperties H j properties = true := by
    unfold Schema.validate at h
    split at h
    · exact (Bool.and_eq_true_iff.1 h).2
    · cases h
  clear h
  induction properties with
  | nil => cases hmem
  | cons property properties ih =>
    obtain ⟨key', schema'⟩ := property
    simp only [Schema.validateProperties, Bool.and_eq_true] at hproperties
    rcases List.mem_cons.1 hmem with heq | hmem
    · obtain ⟨rfl, rfl⟩ := Prod.mk.inj heq
      split at hproperties
      · rename_i child hchild
        exact ⟨child, hchild, hproperties.1⟩
      · cases hproperties.1
    · exact ih hmem hproperties.2

theorem proposal_of_validateToolArguments {H : Hash D} {toolName : String} {arguments : Json D}
    {content : Json D}
    (h : validateToolArguments H toolName arguments = some .proposeCampaignDrafts)
    (hcontent : arguments.get? "proposal" = some content) :
    proposalSchema.validate H content = true := by
  unfold validateToolArguments at h
  split_ifs at h
  split at h
  · split_ifs at h with hvalid
    obtain rfl := Option.some.inj h
    have hmem : ("proposal", proposalSchema) ∈ commonSchema ++ Tool.proposeCampaignDrafts.extras := by
      simp [commonSchema, Tool.extras]
    obtain ⟨child, hchild, hschema⟩ := Schema.get?_of_validate hvalid hmem
    rw [Option.some.inj (hcontent.symm.trans hchild)]
    exact hschema
  · cases h

namespace Db

/-- A submission that a call leaves was there, or is a valid one of a capability. -/
theorem dispatchMcpTool_submission {H : Hash D} {call : ToolCall D} {db : Db D} {id : Uuid}
    {submission : MCPSubmission D}
    (hs : (db.dispatchMcpTool H call).2.submissions.get? id = some submission) :
    db.submissions.get? id = some submission ∨
      H.digest submission.content = some submission.digest ∧
        (submission.kind = .proposal → proposalSchema.validate H submission.content = true) ∧
        ∃ record, db.capabilities.get? submission.capability = some record := by
  cases h : db.tryTool H call with
  | error e =>
    obtain ⟨audits, heq⟩ := dispatchMcpTool_eq_error (dispatchMcpTool_of_error h)
    rw [heq] at hs
    exact .inl hs
  | ok r =>
    obtain ⟨result, db'⟩ := r
    rw [dispatchMcpTool_of_ok h] at hs
    obtain ⟨tool, recordId, record, workflow, revision, correlationId, hadmitted, hcases⟩ :=
      tryTool_effect h
    rcases hcases with ⟨-, -, -, -, -, -, -, hkeeps⟩ |
      ⟨requestId, idem, result₁, correlation, db₁, heffect, hsubmissions, -⟩
    · rw [hkeeps.submissions] at hs
      exact .inl hs
    · rw [hsubmissions] at hs
      obtain hs | ⟨hcapability, hdigest, hproposal⟩ := heffect.submission hs
      · exact .inl hs
      · refine .inr ⟨hdigest, fun hkind => ?_, record, ?_⟩
        · obtain ⟨rfl, hcontent⟩ := hproposal hkind
          exact proposal_of_validateToolArguments hadmitted.valid hcontent
        · rw [hcapability]
          exact (Table.find?_eq_some hadmitted.capability).1

theorem dispatchMcpTool_uniqueKeys {H : Hash D} {db : Db D} (call : ToolCall D)
    (hunique : db.UniqueKeys) : (db.dispatchMcpTool H call).2.UniqueKeys := by
  cases h : db.tryTool H call with
  | error e =>
    obtain ⟨audits, heq⟩ := dispatchMcpTool_eq_error (dispatchMcpTool_of_error h)
    rw [heq]
    exact hunique
  | ok r =>
    obtain ⟨result, db'⟩ := r
    rw [dispatchMcpTool_of_ok h]
    obtain ⟨tool, recordId, record, workflow, revision, correlationId, -, hcases⟩ :=
      tryTool_effect h
    unfold UniqueKeys
    rcases hcases with ⟨-, -, -, -, -, -, -, hkeeps⟩ |
      ⟨requestId, idem, result₁, correlation, db₁, heffect, -, hoperations, -⟩
    · rw [hkeeps.operations]
      exact hunique
    · rw [hoperations]
      exact heffect.uniqueKeys hunique

/-- A call keeps what is filed in order. -/
theorem Filed.dispatchMcpTool {H : Hash D} {db : Db D} (h : db.Filed H) (call : ToolCall D) :
    (db.dispatchMcpTool H call).2.Filed H := by
  have hgrows := (db.keepsScope_dispatchMcpTool H call).grows
  have hkeeps := db.dispatchMcpTool_keepsFiles H call
  refine ⟨fun id submission hs => ?_, fun id operation ho => ?_,
    dispatchMcpTool_uniqueKeys call h.unique⟩
  · obtain ⟨hdigest, hschema, record, hrecord⟩ :=
      (dispatchMcpTool_submission hs).elim (h.submissions id submission) fun hnew => hnew
    obtain ⟨record', hrecord', -⟩ := hgrows.capabilities _ record hrecord
    exact ⟨hdigest, hschema, record', hrecord'⟩
  · obtain ho | ⟨tool, recordId, record, workflow, revision, correlationId, proposalId, proposal, pair,
      action, key, hadmitted, -, hsub, hkind, hpair, haction, hkey, rfl, ⟨owner, howner, hscope⟩, -⟩ :=
      dispatchMcpTool_new ho
    · obtain ⟨proposal, record, hproposal, hkind, hrecord, hof⟩ := h.operations id operation ho
      obtain ⟨record', hrecord', hs⟩ := hgrows.capabilities _ record hrecord
      exact ⟨proposal, record', hkeeps.submissions _ _ hproposal, hkind, hrecord', hof.of_sameScope hs⟩
    · obtain ⟨owner', howner', hscope'⟩ := hgrows.capabilities _ owner howner
      refine ⟨proposal, owner', hkeeps.submissions _ _ hsub, hkind, howner', ?_⟩
      refine DraftOperation.Of.of_sameScope ?_ (hscope.trans hscope')
      exact ⟨action, mem_requiredOperations_of_requests hpair, haction, hkey, rfl⟩

end Db

/-! ### Runs of the service -/

namespace Agents

theorem step_keepsFiles (H : Hash D) (E : Engine D) (s : State D) (a : Action D) :
    s.db.KeepsFiles (step H E s a).db := by
  by_cases htool : ∃ call, a = .tool call
  · obtain ⟨call, rfl⟩ := htool
    exact s.db.dispatchMcpTool_keepsFiles H call
  · exact .of_keepsCalls (step_keepsCalls H E s fun call e => htool ⟨call, e⟩)

/-- Nothing that is filed changes or goes. -/
theorem run_keepsFiles (H : Hash D) (E : Engine D) (s : State D) (as : List (Action D)) :
    s.db.KeepsFiles (Transition.run (step H E) s as).db :=
  Transition.run_rel (P := fun _ => True) (R := fun s s' : State D => s.db.KeepsFiles s'.db)
    (fun _ _ _ => trivial) (fun _ => ⟨fun _ _ h => h, fun _ _ h => h, fun _ _ h => h⟩)
    (fun _ _ _ h h' => h.trans h') (fun s a _ => step_keepsFiles H E s a) trivial as

theorem step_filed (H : Hash D) (E : Engine D) (s : State D) (a : Action D) (h : s.db.Filed H) :
    (step H E s a).db.Filed H := by
  by_cases htool : ∃ call, a = .tool call
  · obtain ⟨call, rfl⟩ := htool
    exact h.dispatchMcpTool call
  · have hkeeps := step_keepsCalls H E s fun call e => htool ⟨call, e⟩
    exact h.of_grows (step_grows H E s a) hkeeps.submissions hkeeps.operations

/-- **What is filed is in order** in every reachable state. -/
theorem filed_of_run (H : Hash D) (E : Engine D) (world : World D) (as : List (Action D)) :
    (Transition.run (step H E) (start world) as).db.Filed H := by
  have hstart : (start world).db.Filed H := by
    constructor
    · intro id submission h
      cases h
    · intro id operation h
      cases h
    · intro id id' operation operation' h
      cases h
  exact Transition.run_induction (P := fun s : State D => s.db.Filed H)
    (fun s a h => step_filed H E s a h) hstart as

end Agents

end CivicLoop
