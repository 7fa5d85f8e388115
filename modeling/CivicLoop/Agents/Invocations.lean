import CivicLoop.Agents.Calls
import CivicLoop.Agents.Frames
import CivicLoop.Agents.LaneInvariant
import CivicLoop.Agents.Sample

/-!
# Invocations

A tool call carries two identifiers: a request id, and an idempotency key that counts within its
capability. The first call with them executes the tool and stores the result. A call that has one of
them later is the same call, and gets the stored result, or it is refused.

## Main definitions

* `Db.executed`, `Agents.executions` : the calls that execute their tool.
* `Db.Repeats`, `Db.Reuses` : the same call again, and a call with an identifier of an earlier one.
* `Db.ExecutesOnce` : the guarantee for the calls that the broker receives.
* `BindsOnce` : the guarantee for the identifiers that the service gives to a call.

## Main results

* `Db.dispatchMcpTool_cases` : a call executes its tool and is recorded, or has no effect.
* `Agents.invocation_idempotent` : both guarantees, in every reachable state.

## References

Source: `backend/agents/mcp.py`, lines 59–69 and 129–404; `backend/agents/models.py`, lines 449–456.
-/

namespace CivicLoop

variable {D : Type} [DecidableEq D]

/-- A call that executed its tool. -/
structure Execution (D : Type) where
  requestId : Uuid
  capability : Uuid
  key : Text D
  tool : Tool
  arguments : Json D
  result : Json D

/-- The invocation is the record of the execution. -/
structure Execution.Stored (H : Hash D) (e : Execution D) (invocation : MCPInvocation D) : Prop where
  capability : invocation.capability = e.capability
  tool : invocation.toolName = e.tool
  arguments : invocation.argumentDigest = H.ofJson e.arguments
  idem : invocationKey H e.capability e.key = some invocation.idempotencyDigest
  result : invocation.result = e.result
  requestId : e.arguments.uuid? "request_id" = some e.requestId
  key : e.arguments.text? "idempotency_key" = some e.key

/-- The execution of a call: it commits, and no invocation has one of its identifiers. -/
def Db.executed (H : Hash D) (call : ToolCall D) (db : Db D) : Option (Execution D) := do
  let (capability, _) ← db.capabilityOf H call.token
  let tool ← Tool.ofName call.toolName
  let requestId ← call.arguments.uuid? "request_id"
  let key ← call.arguments.text? "idempotency_key"
  let idem ← invocationKey H capability key
  match db.existingInvocation requestId idem, db.tryTool H call with
  | none, .ok (result, _) =>
    some { requestId, capability, key, tool, arguments := call.arguments, result }
  | _, _ => none

/-- The call is the execution again: the same tool and arguments under the same capability. -/
def Db.Repeats (H : Hash D) (db : Db D) (call : ToolCall D) (e : Execution D) : Prop :=
  Tool.ofName call.toolName = some e.tool ∧ call.arguments.canon = e.arguments.canon ∧
    ∃ record, db.capabilityOf H call.token = some (e.capability, record)

/-- The call has the request id of the execution, or its idempotency key under its capability. -/
def Db.Reuses (H : Hash D) (db : Db D) (call : ToolCall D) (e : Execution D) : Prop :=
  call.arguments.uuid? "request_id" = some e.requestId ∨
    call.arguments.text? "idempotency_key" = some e.key ∧
      ∃ record, db.capabilityOf H call.token = some (e.capability, record)

/-- How the broker answers calls after the executions `es`. -/
structure Db.ExecutesOnce (H : Hash D) (db : Db D) (es : List (Execution D)) : Prop where
  /-- A request id is executed at most once. -/
  requestIds : (es.map fun e => e.requestId).Nodup
  /-- An idempotency key is executed at most once under a capability. -/
  keys : (es.map fun e => (e.capability, e.key)).Nodup
  /-- The same call again, if it is still admitted, gets the stored result. -/
  repeated : ∀ e ∈ es, ∀ call, db.Repeats H call e → db.Admits H call →
    ∃ db', db.dispatchMcpTool H call = (.ok e.result, db') ∧ db.KeepsRequests db'
  /-- Any other call with an identifier of an execution is refused. -/
  reused : ∀ e ∈ es, ∀ call, db.Reuses H call e → ¬db.Repeats H call e →
    ∃ error, (db.dispatchMcpTool H call).1 = .error error
  /-- A call that does not execute its tool adds no submission, operation or invocation. -/
  effect : ∀ call, db.executed H call = none → db.KeepsRequests (db.dispatchMcpTool H call).2
  /-- A refused call changes nothing but audit rows. -/
  refused : ∀ call error, (db.dispatchMcpTool H call).1 = .error error →
    ∃ audits, (db.dispatchMcpTool H call).2 = { db with audits }

namespace Db

/-- The execution of a call that is admitted and has its identifiers. -/
theorem executed_of_admitted {H : Hash D} {db : Db D} {call : ToolCall D} {tool : Tool}
    {recordId : Uuid} {record : WorkflowCapability D} {workflow : Workflow D}
    {revision : EventRevision D} {correlation : Uuid} {requestId : Uuid}
    {correlationId key : Text D} {idem : D}
    (h : db.Admitted H call tool recordId record workflow revision correlation)
    (hid : Identified H recordId call.arguments requestId correlationId key idem) :
    db.executed H call =
      match db.existingInvocation requestId idem, db.tryTool H call with
      | none, .ok (result, _) =>
        some ⟨requestId, recordId, key, tool, call.arguments, result⟩
      | _, _ => none := by
  simp only [executed, h.capability, ofName_of_validateToolArguments h.valid, hid.request, hid.hkey,
    hid.hidem, Option.bind_eq_bind, Option.bind_some]

theorem executed_of_error {H : Hash D} {db : Db D} {call : ToolCall D} {e : BrokerError}
    (h : db.tryTool H call = .error e) : db.executed H call = none := by
  simp only [executed, h, Option.bind_eq_bind, Option.bind_eq_none_iff]
  intros
  split
  · rename_i h'
    cases h'
  · rfl

theorem KeepsRequests.of_audits {db db' : Db D} (h : ∃ audits, db' = { db with audits }) :
    db.KeepsRequests db' := by
  obtain ⟨audits, rfl⟩ := h
  exact ⟨rfl, rfl, rfl, rfl⟩

theorem existingInvocation_eq_none {requestId : Uuid} {idem : D} {db : Db D} :
    db.existingInvocation requestId idem = none ↔ ∀ id invocation,
      db.invocations.get? id = some invocation →
        id ≠ requestId ∧ invocation.idempotencyDigest ≠ idem := by
  simp [existingInvocation, Table.find?_eq_none]

theorem existingInvocation_eq_some {requestId id : Uuid} {idem : D} {invocation : MCPInvocation D}
    {db : Db D} (h : db.existingInvocation requestId idem = some (id, invocation)) :
    db.invocations.get? id = some invocation ∧
      (id = requestId ∨ invocation.idempotencyDigest = idem) := by
  obtain ⟨hget, hp⟩ := Table.find?_eq_some h
  exact ⟨hget, by simpa using hp⟩

/-- A call executes its tool and is recorded, under a new request id and a new idempotency digest, or
it has no effect. -/
theorem dispatchMcpTool_cases (H : Hash D) (call : ToolCall D) (db : Db D) :
    (∃ e invocation, db.executed H call = some e ∧ e.Stored H invocation ∧
        db.existingInvocation e.requestId invocation.idempotencyDigest = none ∧
        db.invocations.insert? e.requestId invocation =
          some (db.dispatchMcpTool H call).2.invocations) ∨
      db.executed H call = none ∧ db.KeepsRequests (db.dispatchMcpTool H call).2 := by
  cases h : db.tryTool H call with
  | error e =>
    exact .inr ⟨executed_of_error h, .of_audits (dispatchMcpTool_eq_error (dispatchMcpTool_of_error h))⟩
  | ok r =>
    obtain ⟨result, db'⟩ := r
    rw [dispatchMcpTool_of_ok h]
    obtain ⟨tool, recordId, record, workflow, revision, correlation, hadmitted, hinvoke⟩ :=
      tryTool_eq_ok h
    obtain ⟨requestId, correlationId, key, idem, hid, hcases⟩ := invoke_eq_ok hinvoke
    have hexecuted := executed_of_admitted hadmitted hid
    rcases hcases with ⟨id, existing, hexisting, -, -, rfl⟩ |
      ⟨hnone, result₁, db₁, invocations, hexecute, -, hinsert, rfl⟩
    · rw [show db.existingInvocation requestId idem = some (id, existing) from hexisting] at hexecuted
      exact .inr ⟨hexecuted, rfl, rfl, rfl, rfl⟩
    · rw [show db.existingInvocation requestId idem = none from hnone, h] at hexecuted
      have hframe : db₁.invocations = db.invocations := by rw [(execute_eq_ok hexecute).frame]; rfl
      rw [hframe] at hinsert
      exact .inl ⟨_, _, hexecuted, ⟨rfl, rfl, rfl, hid.hidem, rfl, hid.request, hid.hkey⟩, hnone,
        hinsert⟩

/-! ### The record of the executions -/

/-- The invocations are the records of the executions `es`, and no identifier occurs twice. -/
structure Recorded (H : Hash D) (db : Db D) (es : List (Execution D)) : Prop where
  requestIds : (es.map fun e => e.requestId).Nodup
  keys : (es.map fun e => (e.capability, e.key)).Nodup
  stored : ∀ e ∈ es, ∃ invocation, db.invocations.get? e.requestId = some invocation ∧
    e.Stored H invocation
  source : ∀ id invocation, db.invocations.get? id = some invocation →
    ∃ e ∈ es, e.requestId = id ∧ e.Stored H invocation
  unique : ∀ id id' invocation invocation', db.invocations.get? id = some invocation →
    db.invocations.get? id' = some invocation' →
      invocation.idempotencyDigest = invocation'.idempotencyDigest → id = id'

theorem Recorded.of_invocations {H : Hash D} {db db' : Db D} {es : List (Execution D)}
    (h : db.Recorded H es) (heq : db'.invocations = db.invocations) : db'.Recorded H es := by
  obtain ⟨h₁, h₂, h₃, h₄, h₅⟩ := h
  rw [← heq] at h₃ h₄ h₅
  exact ⟨h₁, h₂, h₃, h₄, h₅⟩

/-- A new execution is recorded. -/
theorem Recorded.append {H : Hash D} {db db' : Db D} {es : List (Execution D)}
    (h : db.Recorded H es) {e : Execution D} {invocation : MCPInvocation D}
    (hstored : e.Stored H invocation)
    (hnone : db.existingInvocation e.requestId invocation.idempotencyDigest = none)
    (hinsert : db.invocations.insert? e.requestId invocation = some db'.invocations) :
    db'.Recorded H (es ++ [e]) := by
  have hget := Table.get?_of_insert? hinsert
  have hnew := existingInvocation_eq_none.1 hnone
  have hrequest : ∀ e' ∈ es, e'.requestId ≠ e.requestId := fun e' he' => by
    obtain ⟨invocation', hget', -⟩ := h.stored e' he'
    exact (hnew _ _ hget').1
  have hidem : ∀ e' ∈ es, (e'.capability, e'.key) ≠ (e.capability, e.key) := by
    intro e' he' heq
    obtain ⟨invocation', hget', hstored'⟩ := h.stored e' he'
    have hidem' := hstored'.idem
    rw [(Prod.mk.inj heq).1, (Prod.mk.inj heq).2, hstored.idem] at hidem'
    exact (hnew _ _ hget').2 (Option.some.inj hidem').symm
  refine ⟨?_, ?_, fun e' he' => ?_, fun id invocation' hi => ?_, fun id id' i i' hi hi' heq => ?_⟩
  · rw [List.map_append, List.nodup_append]
    refine ⟨h.requestIds, by simp, fun a ha b hb => ?_⟩
    obtain ⟨e', he', rfl⟩ := List.mem_map.1 ha
    rw [List.mem_singleton.1 hb]
    exact hrequest e' he'
  · rw [List.map_append, List.nodup_append]
    refine ⟨h.keys, by simp, fun a ha b hb => ?_⟩
    obtain ⟨e', he', rfl⟩ := List.mem_map.1 ha
    rw [List.mem_singleton.1 hb]
    exact hidem e' he'
  · rcases List.mem_append.1 he' with he' | he'
    · obtain ⟨invocation', hget', hstored'⟩ := h.stored e' he'
      exact ⟨invocation', by rw [hget, if_neg (hrequest e' he'), hget'], hstored'⟩
    · rw [List.mem_singleton.1 he']
      exact ⟨invocation, by rw [hget, if_pos rfl], hstored⟩
  · rw [hget] at hi
    split_ifs at hi with hid
    · exact ⟨e, by simp, hid.symm, Option.some.inj hi ▸ hstored⟩
    · obtain ⟨e', he', hid', hstored'⟩ := h.source id invocation' hi
      exact ⟨e', by simp [he'], hid', hstored'⟩
  · rw [hget] at hi hi'
    split_ifs at hi hi' with hid hid' hid'
    · rw [hid, hid']
    · exact absurd (Option.some.inj hi ▸ heq.symm) (hnew _ _ hi').2
    · exact absurd (Option.some.inj hi' ▸ heq) (hnew _ _ hi).2
    · exact h.unique id id' i i' hi hi' heq

/-- The record of an execution is what a search for its identifiers finds. -/
theorem Recorded.existing {H : Hash D} {db : Db D} {es : List (Execution D)}
    (h : db.Recorded H es) {e : Execution D} (he : e ∈ es) :
    ∃ invocation, e.Stored H invocation ∧
      db.existingInvocation e.requestId invocation.idempotencyDigest =
        some (e.requestId, invocation) := by
  obtain ⟨invocation, hget, hstored⟩ := h.stored e he
  refine ⟨invocation, hstored, ?_⟩
  cases hexisting : db.existingInvocation e.requestId invocation.idempotencyDigest with
  | none => exact absurd rfl (existingInvocation_eq_none.1 hexisting _ _ hget).1
  | some row =>
    obtain ⟨id, invocation'⟩ := row
    obtain ⟨hget', hid⟩ := existingInvocation_eq_some hexisting
    have hsame : id = e.requestId := by
      rcases hid with hid | hid
      · exact hid
      · exact h.unique _ _ _ _ hget' hget hid
    subst hsame
    rw [Option.some.inj (hget.symm.trans hget')]

/-- The same call again gets the stored result. -/
theorem Recorded.repeated {H : Hash D} {db : Db D} {es : List (Execution D)} (h : db.Recorded H es)
    {e : Execution D} (he : e ∈ es) {call : ToolCall D} (hrepeats : db.Repeats H call e)
    (hadmits : db.Admits H call) :
    ∃ db', db.dispatchMcpTool H call = (.ok e.result, db') ∧ db.KeepsRequests db' := by
  obtain ⟨tool, recordId, record, workflow, revision, correlation, hadmitted⟩ := hadmits
  obtain ⟨htool, hcanon, record', hcapability⟩ := hrepeats
  obtain ⟨rfl, rfl⟩ := Prod.mk.inj (Option.some.inj (hadmitted.capability.symm.trans hcapability))
  obtain rfl : e.tool = tool :=
    Option.some.inj (htool.symm.trans (ofName_of_validateToolArguments hadmitted.valid))
  obtain ⟨invocation, hstored, hexisting⟩ := h.existing he
  have hid : Identified H e.capability call.arguments e.requestId (.uuid correlation) e.key
      invocation.idempotencyDigest := by
    refine ⟨?_, Json.text?_of_uuid? hadmitted.correlation, ?_, hstored.idem⟩
    · rw [← Json.uuid?_canon, hcanon, Json.uuid?_canon, hstored.requestId]
    · rw [← Json.text?_canon, hcanon, Json.text?_canon, hstored.key]
  have hreplay : IsReplay H e.capability e.tool call.arguments invocation.idempotencyDigest
      invocation :=
    ⟨hstored.capability, hstored.tool, by rw [hstored.arguments, Hash.ofJson, Hash.ofJson, hcanon],
      rfl⟩
  have hexisting' : (db.bindCorrelation e.capability record correlation).existingInvocation
      e.requestId invocation.idempotencyDigest = some (e.requestId, invocation) := hexisting
  have htry := tryTool_of_admitted hadmitted
  rw [invoke_of_existing hid hexisting', if_pos hreplay, hstored.result] at htry
  exact ⟨_, dispatchMcpTool_of_ok htry, rfl, rfl, rfl, rfl⟩

/-- Any other call with an identifier of an execution is refused. -/
theorem Recorded.reused {H : Hash D} (hH : H.CollisionFree) {db : Db D} {es : List (Execution D)}
    (h : db.Recorded H es) {e : Execution D} (he : e ∈ es) {call : ToolCall D}
    (hreuses : db.Reuses H call e) (hnot : ¬db.Repeats H call e) :
    ∃ error, (db.dispatchMcpTool H call).1 = .error error := by
  cases htry : db.tryTool H call with
  | error error => exact ⟨error, dispatchMcpTool_of_error htry⟩
  | ok r =>
    obtain ⟨result, db'⟩ := r
    obtain ⟨tool, recordId, record, workflow, revision, correlation, hadmitted, hinvoke⟩ :=
      tryTool_eq_ok htry
    obtain ⟨requestId, correlationId, key, idem, hid, hcases⟩ := invoke_eq_ok hinvoke
    -- The call and the execution have a request id, or a capability and a key, in common.
    have hcommon : requestId = e.requestId ∨ (recordId, key) = (e.capability, e.key) := by
      refine hreuses.imp (fun hr => Option.some.inj (hid.request.symm.trans hr)) ?_
      rintro ⟨hk, record', hc⟩
      rw [hadmitted.capability] at hc
      rw [(Prod.mk.inj (Option.some.inj hc)).1, Option.some.inj (hid.hkey.symm.trans hk)]
    exfalso
    rcases hcases with ⟨id, existing, hexisting, hreplay, -⟩ | ⟨hnone, -⟩
    · obtain ⟨e', he', -, hstored'⟩ := h.source id existing (existingInvocation_eq_some hexisting).1
      obtain ⟨hcapability, htool, harguments, -⟩ := hreplay
      have hcanon : call.arguments.canon = e'.arguments.canon :=
        hH.ofJson_inj.1 (harguments.symm.trans hstored'.arguments)
      have hrequest : requestId = e'.requestId := by
        have hr := hid.request
        rw [← Json.uuid?_canon, hcanon, Json.uuid?_canon, hstored'.requestId] at hr
        exact (Option.some.inj hr).symm
      have hkey : key = e'.key := by
        have hk := hid.hkey
        rw [← Json.text?_canon, hcanon, Json.text?_canon, hstored'.key] at hk
        exact (Option.some.inj hk).symm
      have hrecord : recordId = e'.capability := hcapability.symm.trans hstored'.capability
      have hsame : e' = e := by
        rcases hcommon with hc | hc
        · exact List.inj_on_of_nodup_map h.requestIds he' he (hrequest.symm.trans hc)
        · exact List.inj_on_of_nodup_map h.keys he' he (by rw [← hrecord, ← hkey, hc])
      subst hsame
      refine hnot ⟨?_, hcanon, record, by rw [hadmitted.capability, hrecord]⟩
      rw [ofName_of_validateToolArguments hadmitted.valid, ← htool, hstored'.tool]
    · obtain ⟨invocation, hget, hstored⟩ := h.stored e he
      have hnew := existingInvocation_eq_none.1 hnone _ _ hget
      rcases hcommon with hc | hc
      · exact hnew.1 hc.symm
      · have hidem := hid.hidem
        rw [(Prod.mk.inj hc).1, (Prod.mk.inj hc).2, hstored.idem] at hidem
        exact hnew.2 (Option.some.inj hidem)

theorem Recorded.executesOnce {H : Hash D} (hH : H.CollisionFree) {db : Db D}
    {es : List (Execution D)} (h : db.Recorded H es) : db.ExecutesOnce H es where
  requestIds := h.requestIds
  keys := h.keys
  repeated _ he _ hrepeats hadmits := h.repeated he hrepeats hadmits
  reused _ he _ hreuses hnot := h.reused hH he hreuses hnot
  effect call hnone := by
    rcases db.dispatchMcpTool_cases H call with ⟨e, invocation, hsome, -⟩ | ⟨-, hkeeps⟩
    · rw [hnone] at hsome
      cases hsome
    · exact hkeeps
  refused _ _ := dispatchMcpTool_eq_error

end Db

/-! ### Identifiers of bound calls -/

/-- The arguments have no identifier of their own. -/
def Unbound (arguments : Json D) : Prop :=
  arguments.get? "request_id" = none ∧ arguments.get? "idempotency_key" = none

/-- How the service gives identifiers to a call: to calls that are bound alike the same ones, and to
calls that are not, different ones. -/
structure BindsOnce (H : Hash D) : Prop where
  /-- A call with an identifier is left alone. -/
  bound : ∀ token toolName items, ¬Unbound (.obj items) →
    bindCallMetadata H token toolName (.obj items) = some (.obj items)
  /-- Only the identifiers are added. -/
  other : ∀ token toolName arguments bound key, bindCallMetadata H token toolName arguments = some bound →
    key ≠ "request_id" → key ≠ "idempotency_key" → bound.get? key = arguments.get? key
  /-- The request ids of two calls are the same if and only if capability, tool and arguments are. -/
  requestId : ∀ token toolName arguments bound token' toolName' arguments' bound',
    Unbound arguments → Unbound arguments' →
      bindCallMetadata H token toolName arguments = some bound →
      bindCallMetadata H token' toolName' arguments' = some bound' →
      ((∃ u, bound.uuid? "request_id" = some u ∧ bound'.uuid? "request_id" = some u) ↔
        token = token' ∧ toolName = toolName' ∧ arguments.canon = arguments'.canon)
  /-- The idempotency keys too. -/
  key : ∀ token toolName arguments bound token' toolName' arguments' bound',
    Unbound arguments → Unbound arguments' →
      bindCallMetadata H token toolName arguments = some bound →
      bindCallMetadata H token' toolName' arguments' = some bound' →
      ((∃ t, bound.text? "idempotency_key" = some t ∧ bound'.text? "idempotency_key" = some t) ↔
        token = token' ∧ toolName = toolName' ∧ arguments.canon = arguments'.canon)

/-- The digest that the identifiers of a bound call are made of. -/
def callKey (H : Hash D) (token : ℕ) (toolName : String) (arguments : Json D) : Option D :=
  H.digest (.arr [.str (.hex (H.token token)), .lit toolName, arguments])

omit [DecidableEq D] in
/-- The digest identifies the capability, the tool and the arguments. -/
theorem callKey_inj {H : Hash D} (hH : H.CollisionFree) {token token' : ℕ}
    {toolName toolName' : String} {arguments arguments' : Json D} {key key' : D}
    (h : callKey H token toolName arguments = some key)
    (h' : callKey H token' toolName' arguments' = some key') :
    key = key' ↔ token = token' ∧ toolName = toolName' ∧ arguments.canon = arguments'.canon := by
  rw [← (Hash.digest_eq_some.1 h).2, ← (Hash.digest_eq_some.1 h').2, hH.ofJson_inj]
  simp [Json.canon, Json.canonList, Json.lit, hH.token.eq_iff]

omit [DecidableEq D] in
/-- What a call without identifiers is bound to. -/
theorem bindCallMetadata_of_unbound {H : Hash D} {token : ℕ} {toolName : String}
    {arguments bound : Json D} (hunbound : Unbound arguments)
    (h : bindCallMetadata H token toolName arguments = some bound) :
    ∃ key, callKey H token toolName arguments = some key ∧
      bound.uuid? "request_id" = some (H.uuid5 "urn:civicloop:mcp-call:" (.hex key)) ∧
      bound.text? "idempotency_key" = some (.hex key) := by
  cases arguments with
  | obj items =>
    obtain ⟨hrequest, hkey⟩ : items.lookup "request_id" = none ∧
      items.lookup "idempotency_key" = none := hunbound
    simp only [bindCallMetadata, hrequest, hkey, Option.isSome_none, Bool.or_self, Bool.false_eq_true,
      if_false, Option.map_eq_some_iff] at h
    obtain ⟨key, hdigest, rfl⟩ := h
    refine ⟨key, hdigest, ?_, ?_⟩
    · simp [Json.uuid?, Json.get?, List.lookup_append, hrequest]
    · simp [Json.text?, Json.get?, List.lookup_append, List.lookup_cons, hkey]
  | _ => cases h

omit [DecidableEq D] in
theorem bindsOnce {H : Hash D} (hH : H.CollisionFree) : BindsOnce H where
  bound token toolName items hbound := by
    have hor : ((items.lookup "request_id").isSome || (items.lookup "idempotency_key").isSome) =
        true := by
      by_contra hnone
      simp only [Bool.or_eq_true, Option.isSome_iff_ne_none, not_or, not_not] at hnone
      exact hbound hnone
    simp only [bindCallMetadata, hor, if_true]
  other token toolName arguments bound key h hrequest hkey := by
    cases arguments with
    | obj items =>
      simp only [bindCallMetadata] at h
      split_ifs at h
      · rw [← Option.some.inj h]
      · obtain ⟨digest, -, rfl⟩ := Option.map_eq_some_iff.1 h
        have hrequest' : (key == "request_id") = false := by simpa using hrequest
        have hkey' : (key == "idempotency_key") = false := by simpa using hkey
        simp [Json.get?, List.lookup_append, List.lookup_cons, hrequest', hkey']
    | _ => cases h
  requestId token toolName arguments bound token' toolName' arguments' bound' hunbound hunbound' h
      h' := by
    obtain ⟨key, hkey, hrequest, -⟩ := bindCallMetadata_of_unbound hunbound h
    obtain ⟨key', hkey', hrequest', -⟩ := bindCallMetadata_of_unbound hunbound' h'
    rw [← callKey_inj hH hkey hkey', hrequest, hrequest']
    constructor
    · rintro ⟨u, hu, hu'⟩
      exact hH.uuid5 _ (Option.some.inj (hu.trans hu'.symm))
    · rintro rfl
      exact ⟨_, rfl, rfl⟩
  key token toolName arguments bound token' toolName' arguments' bound' hunbound hunbound' h h' := by
    obtain ⟨key, hkey, -, htext⟩ := bindCallMetadata_of_unbound hunbound h
    obtain ⟨key', hkey', -, htext'⟩ := bindCallMetadata_of_unbound hunbound' h'
    rw [← callKey_inj hH hkey hkey', htext, htext']
    constructor
    · rintro ⟨t, ht, ht'⟩
      exact Text.hex.inj (Option.some.inj (ht.trans ht'.symm))
    · rintro rfl
      exact ⟨_, rfl, rfl⟩

/-! ### Runs of the service -/

namespace Agents

/-- The execution of an action. -/
def Action.execution (H : Hash D) (db : Db D) : Action D → Option (Execution D)
  | .tool call => db.executed H call
  | _ => none

/-- The calls that execute their tool along a run of the service. -/
def executions (H : Hash D) (E : Engine D) : State D → List (Action D) → List (Execution D) :=
  Transition.outputs (step H E) fun s a => (a.execution H s.db).toList

theorem step_recorded {H : Hash D} {E : Engine D} {s : State D} {es : List (Execution D)}
    (h : s.db.Recorded H es) (a : Action D) :
    (step H E s a).db.Recorded H (es ++ (a.execution H s.db).toList) := by
  by_cases htool : ∃ call, a = .tool call
  · obtain ⟨call, rfl⟩ := htool
    change (s.db.dispatchMcpTool H call).2.Recorded H (es ++ (s.db.executed H call).toList)
    rcases s.db.dispatchMcpTool_cases H call with ⟨e, invocation, hsome, hstored, hnone, hinsert⟩ |
      ⟨hnone, hkeeps⟩
    · rw [hsome]
      exact h.append hstored hnone hinsert
    · rw [hnone, Option.toList_none, List.append_nil]
      exact h.of_invocations hkeeps.invocations
  · have htool' : ∀ call, a ≠ .tool call := fun call e => htool ⟨call, e⟩
    have hexecution : a.execution H s.db = none := by
      cases a with
      | tool call => exact absurd rfl (htool' call)
      | _ => rfl
    rw [hexecution, Option.toList_none, List.append_nil]
    exact h.of_invocations (step_keepsCalls H E s htool').invocations

/-- **A call is executed once.** In every reachable state each request id, and each idempotency key
under its capability, has been executed at most once; the same call again gets the stored result as
long as it is admitted, and any other call with one of the identifiers is refused; and calls without
identifiers of their own get the same ones exactly if they are the same. -/
theorem invocation_idempotent {H : Hash D} (hH : H.CollisionFree) (E : Engine D) (world : World D)
    (as : List (Action D)) :
    (Transition.run (step H E) (start world) as).db.ExecutesOnce H
        (executions H E (start world) as) ∧ BindsOnce H := by
  refine ⟨Db.Recorded.executesOnce hH ?_, bindsOnce hH⟩
  have hstart : (start world).db.Recorded H [] := by
    constructor <;> simp [start, Db.initial]
  exact Transition.outputs_induction (P := fun (s : State D) es => s.db.Recorded H es)
    (fun s a es h => step_recorded h a) hstart as

/-- A capability is issued and one tool called with it. -/
def sampleCalls : List (Action FreeDigest) :=
  [Sample.issue 1 1,
    .tool (Sample.call 0 1 .getPolicyContext (Sample.arguments 5 7 "idempotency-key-1" []) id)]

theorem executions_sampleCalls : ∃ e, executions freeHash Sample.engine (start Sample.world)
    sampleCalls = [e] ∧ e.capability = 1 ∧ e.tool = .getPolicyContext ∧
      e.arguments = Sample.arguments 5 7 "idempotency-key-1" [] :=
  ⟨_, rfl, rfl, rfl, rfl⟩

theorem invocation_idempotent_sampleCalls :
    (executions freeHash Sample.engine (start Sample.world) sampleCalls).length = 1 ∧
      (Transition.run (step freeHash Sample.engine) (start Sample.world) sampleCalls).db.ExecutesOnce
        freeHash (executions freeHash Sample.engine (start Sample.world) sampleCalls) ∧
      BindsOnce freeHash := by
  obtain ⟨e, he, -⟩ := executions_sampleCalls
  exact ⟨by rw [he, List.length_singleton],
    invocation_idempotent freeHash_collisionFree Sample.engine Sample.world sampleCalls⟩

/-- The same call again is denied once its capability has expired. -/
theorem repeat_after_expiry_denied :
    ¬∀ (as : List (Action FreeDigest)) (e : Execution FreeDigest) (call : ToolCall FreeDigest),
      e ∈ executions freeHash Sample.engine (start Sample.world) as →
        (Transition.run (step freeHash Sample.engine) (start Sample.world) as).db.Repeats freeHash
          call e →
        ((Transition.run (step freeHash Sample.engine) (start Sample.world) as).db.dispatchMcpTool
          freeHash call).1 = .ok e.result := by
  intro h
  obtain ⟨e, he, hcapability, htool, harguments⟩ := executions_sampleCalls
  let call := Sample.call (seconds 300) 1 .getPolicyContext
    (Sample.arguments 5 7 "idempotency-key-1" []) id
  have hrepeats : (Transition.run (step freeHash Sample.engine) (start Sample.world)
      sampleCalls).db.Repeats freeHash call e := by
    refine ⟨by rw [htool]; rfl, by rw [harguments]; rfl, ?_⟩
    rw [hcapability]
    exact ⟨_, rfl⟩
  have hdenied : ((Transition.run (step freeHash Sample.engine) (start Sample.world)
      sampleCalls).db.dispatchMcpTool freeHash call).1 = .error (.denied .capabilityScope) := rfl
  have hok := h sampleCalls e call (by simp [he]) hrepeats
  rw [hdenied] at hok
  cases hok

end Agents

end CivicLoop
