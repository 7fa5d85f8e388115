import CivicLoop.Budget.Conservation
import CivicLoop.Foundation.JsonText
import CivicLoop.Hermes.Client
import CivicLoop.Hermes.UuidText
import Mathlib

/-!
# A result on its way

The adapter makes a result from what the upstream runtime reports, the client of the controller checks it on
the way, and the worker checks it again. Each of the three has its own checks. What the adapter makes passes
the first check; it passes the second if no two of its references are for the same proposal.

## Main definitions

* `mapUpstreamResult` : the result that the adapter makes.
* `UsageWithin` : a usage within the budgets of a request.

## Main results

* `mapUpstreamResult_form` : the two forms of a result.
* `validResult_resultMessage` : both pass the first check.
* `adapterResult_accepted` : when they pass the second.
-/

namespace CivicLoop.Hermes

/-! ### The adapter -/

/-- What `json.loads` does with a text: it reads a value, raises the error that is caught, or another. -/
inductive LoadsOutcome
  | value (j : Message)
  | decodeError
  | otherError

/-- A `PolicyError` with its text, or an error that is not caught. -/
inductive MapError
  | policy (message : String)
  | raised
deriving DecidableEq

section Adapter

variable (loads : String → LoadsOutcome)

/-- A check whose error is a `PolicyError`. -/
def policyCheck {α : Type} : Except String α → Except MapError α
  | .ok a => .ok a
  | .error message => .error (.policy message)

/-- `_proposal_references`, of the values that were read. -/
def referencesOf (parsed : Message) : Except String (List (Uuid × String × String)) :=
  match parsed.get? "proposal_references" with
  | some (.arr items) => do
    ensure (1 ≤ items.length ∧ items.length ≤ 20) "Hermes proposal references are invalid"
    let references ← items.mapM proposalReference
    ensure references.Nodup "duplicate proposal reference"
    return references
  | _ => .error "Hermes proposal references are invalid"

/-- `_proposal_references`. -/
def outputReferences (output : Option Message) : Except MapError (List (Uuid × String × String)) :=
  match output with
  | some (.str t) => do
    ensure (t.plain.utf8ByteSize ≤ maxBodyBytes) (MapError.policy "Hermes output is invalid")
    match loads t.plain with
    | .value parsed => policyCheck (referencesOf parsed)
    | .decodeError => .error (.policy "Hermes output is invalid")
    | .otherError => .error .raised
  | _ => .error (.policy "Hermes output is invalid")

/-- `_safe_usage(…, required=True)`: a cost that is absent stays absent. -/
def requiredUsage (value : Option Message) : Except String Message :=
  match value with
  | some (.obj items) => do
    let usage : Message := .obj items
    let inputTokens ← integerField (usage.get? "input_tokens") "usage" 0 1000000
    let outputTokens ← integerField (usage.get? "output_tokens") "usage" 0 100000
    if (usage.get? "cost_microusd").isSome then do
      let costMicrousd ← integerField (usage.get? "cost_microusd") "usage" 0 1000000000
      return usageMessage inputTokens outputTokens costMicrousd
    else return .obj [("input_tokens", .int inputTokens), ("output_tokens", .int outputTokens)]
  | _ => .error "Hermes usage is invalid"

/-- `_bounded_nonnegative`. -/
def boundedNonnegative (value : Option Message) (maximum : ℤ) : ℤ :=
  match value with
  | some (.int n) => if 0 ≤ n ∧ n ≤ maximum then n else 0
  | _ => 0

/-- `_safe_usage`. -/
def safeUsage (value : Option Message) : Message :=
  let usage := value.getD .null
  usageMessage (boundedNonnegative (usage.get? "input_tokens") 1000000)
    (boundedNonnegative (usage.get? "output_tokens") 100000)
    (boundedNonnegative (usage.get? "cost_microusd") 1000000000)

/-- A reference as it is written. -/
def referenceMessage (reference : Uuid × String × String) : Message :=
  .obj [("proposal_id", .str (.uuid reference.1)), ("schema_id", .lit reference.2.1),
    ("proposal_digest", .lit reference.2.2)]

/-- The status that the upstream status is mapped to. -/
def mappedStatus (status : Option Message) : Except MapError String :=
  match status with
  | some (.str t) =>
    .ok ((([("completed", "succeeded"), ("failed", "failed"), ("cancelled", "cancelled"),
      ("interrupted", "cancelled")] : List (String × String)).lookup t.plain).getD "failed")
  -- a list or a dictionary is not hashable
  | some (.arr _) => .error .raised
  | some (.obj _) => .error .raised
  | _ => .ok "failed"

/-- The result of a run. -/
def resultMessage (uuid5 : String → Uuid) (request : Message) (status : String)
    (references : List (Uuid × String × String)) (usage failureCategory : Message) : Message :=
  .obj [("schema_version", .lit "1.0"), ("run_id", .str (.uuid (runIdOf uuid5 request))),
    ("workflow_id", (request.get? "workflow_id").getD .null),
    ("revision_id", (request.get? "revision_id").getD .null), ("status", .lit status),
    ("proposal_references", .arr (references.map referenceMessage)), ("usage", usage),
    ("failure_category", failureCategory)]

/-- What a completed run reports. -/
def completed (payload : Message) : Except MapError (List (Uuid × String × String) × Message) := do
  let references ← outputReferences loads (payload.get? "output")
  let usage ← policyCheck (requiredUsage (payload.get? "usage"))
  return (references, usage)

/-- `map_upstream_result`. -/
def mapUpstreamResult (uuid5 : String → Uuid) (request upstream : Message) : Except MapError Message := do
  let status ← mappedStatus (upstream.get? "status")
  let failed (status category : String) : Message :=
    resultMessage uuid5 request status [] (safeUsage (upstream.get? "usage")) (.lit category)
  if status = "succeeded" then
    match completed loads upstream with
    | .ok (references, usage) => return resultMessage uuid5 request status references usage .null
    | .error (.policy _) => return failed "failed" "invalid_output"
    | .error .raised => .error .raised
  else if status = "cancelled" then return failed status "cancelled"
  else return failed status "provider_unavailable"

end Adapter

/-! ### What the adapter makes -/

/-- References as the adapter writes them. -/
structure ReferencesOk (references : List (Uuid × String × String)) : Prop where
  nonempty : 1 ≤ references.length
  length : references.length ≤ 20
  distinct : references.Nodup
  proposalId : ∀ reference ∈ references, reference.1 < 16 ^ 32
  schemaId : ∀ reference ∈ references, isSchemaId reference.2.1 = true
  digest : ∀ reference ∈ references, isDigestHex reference.2.2 = true

/-- The tokens of a usage are within their ceilings. -/
def TokensOk (inputTokens outputTokens : ℤ) : Prop :=
  (0 ≤ inputTokens ∧ inputTokens ≤ 1000000) ∧ 0 ≤ outputTokens ∧ outputTokens ≤ 100000

/-- A cost is within its ceiling. -/
def CostOk (costMicrousd : ℤ) : Prop := 0 ≤ costMicrousd ∧ costMicrousd ≤ 1000000000

/-- The usage of a result, with a cost or without one. -/
inductive AdapterUsage : Message → Prop
  | unpriced {inputTokens outputTokens : ℤ} (tokens : TokensOk inputTokens outputTokens) :
      AdapterUsage (.obj [("input_tokens", .int inputTokens), ("output_tokens", .int outputTokens)])
  | priced {inputTokens outputTokens costMicrousd : ℤ} (tokens : TokensOk inputTokens outputTokens)
      (cost : CostOk costMicrousd) : AdapterUsage (usageMessage inputTokens outputTokens costMicrousd)

/-- The status and the category of a failure. -/
def failures : List (String × String) :=
  [("failed", "invalid_output"), ("cancelled", "cancelled"), ("failed", "provider_unavailable")]

/-- The two forms of a result: a success, and a failure without references. -/
inductive AdapterResult (uuid5 : String → Uuid) (request : Message) : Message → Prop
  | succeeded {references : List (Uuid × String × String)} {usage : Message}
      (hreferences : ReferencesOk references) (husage : AdapterUsage usage) :
      AdapterResult uuid5 request (resultMessage uuid5 request "succeeded" references usage .null)
  | failed {status category : String} {inputTokens outputTokens costMicrousd : ℤ}
      (hfailure : (status, category) ∈ failures) (htokens : TokensOk inputTokens outputTokens)
      (hcost : CostOk costMicrousd) :
      AdapterResult uuid5 request (resultMessage uuid5 request status []
        (usageMessage inputTokens outputTokens costMicrousd) (.lit category))

theorem integerField_eq_ok {value : Option Message} {label : String} {minimum maximum n : ℤ} :
    integerField value label minimum maximum = .ok n ↔ value = some (.int n) ∧ minimum ≤ n ∧ n ≤ maximum := by
  unfold integerField
  split
  · split_ifs with h
    · simp only [Except.ok.injEq, Option.some.injEq, Json.int.injEq]
      constructor
      · rintro rfl
        exact ⟨rfl, h⟩
      · exact fun h => h.1
    · simp only [Option.some.injEq, Json.int.injEq, false_iff, not_and]
      rintro rfl
      exact not_and.1 h
  · next hne =>
    simp only [reduceCtorEq, false_iff, not_and]
    exact fun heq => absurd heq (hne n)

theorem textField_eq_ok {value : Option Message} {pattern : String → Bool} {error text : String} :
    textField value pattern error = .ok text ↔
      ∃ t, value = some (.str t) ∧ t.plain = text ∧ pattern text = true := by
  unfold textField
  split
  · next t =>
    split_ifs with h
    · simp only [Except.ok.injEq, Option.some.injEq, Json.str.injEq]
      constructor
      · rintro rfl
        exact ⟨t, rfl, rfl, h⟩
      · rintro ⟨_, rfl, heq, -⟩
        exact heq
    · simp only [Option.some.injEq, Json.str.injEq, false_iff, not_exists, not_and]
      rintro _ rfl rfl
      exact h
  · next hne =>
    simp only [reduceCtorEq, false_iff, not_exists, not_and]
    exact fun t heq => absurd heq (hne t)

theorem uuidField_eq_ok {value : Option Message} {label : String} {u : Uuid}
    (h : uuidField value label = .ok u) :
    ∃ t, value = some (.str t) ∧ t.plain.length ≤ 36 ∧ uuidOfText t.plain = some u := by
  unfold uuidField at h
  split at h
  · next t =>
    split_ifs at h with hlength
    exact ⟨t, rfl, hlength, fetch_eq_ok.1 h⟩
  · cases h

theorem policyCheck_eq_ok {α : Type} {x : Except String α} {a : α} : policyCheck x = .ok a ↔ x = .ok a := by
  cases x <;> simp [policyCheck]

/-- A reference that was read. -/
theorem proposalReference_eq_ok {value : Message} {reference : Uuid × String × String}
    (h : proposalReference value = .ok reference) :
    reference.1 < 16 ^ 32 ∧ isSchemaId reference.2.1 = true ∧ isDigestHex reference.2.2 = true := by
  simp only [proposalReference, bind_eq_ok, ensure_eq_ok, pure_eq_ok, textField_eq_ok] at h
  obtain ⟨_, -, u, hu, _, ⟨_, -, -, hschema⟩, _, ⟨_, -, -, hdigest⟩, rfl⟩ := h
  obtain ⟨_, -, -, huuid⟩ := uuidField_eq_ok hu
  exact ⟨uuidOfText_lt huuid, hschema, hdigest⟩

theorem referencesOf_eq_ok {parsed : Message} {references : List (Uuid × String × String)}
    (h : referencesOf parsed = .ok references) : ReferencesOk references := by
  unfold referencesOf at h
  split at h
  · simp only [bind_eq_ok, ensure_eq_ok, pure_eq_ok, mapM_eq_ok_iff] at h
    obtain ⟨_, ⟨hone, hmax⟩, _, hread, _, hdistinct, heq⟩ := h
    rw [heq] at hread hdistinct
    have hread' : ∀ reference ∈ references, reference.1 < 16 ^ 32 ∧ isSchemaId reference.2.1 = true ∧
        isDigestHex reference.2.2 = true := by
      intro reference hmem
      obtain ⟨value, -, hvalue⟩ := exists_of_forall₂ hread hmem
      exact proposalReference_eq_ok hvalue
    exact ⟨hread.length_eq ▸ hone, hread.length_eq ▸ hmax, hdistinct, fun r hr => (hread' r hr).1,
      fun r hr => (hread' r hr).2.1, fun r hr => (hread' r hr).2.2⟩
  · cases h

theorem outputReferences_eq_ok {loads : String → LoadsOutcome} {output : Option Message}
    {references : List (Uuid × String × String)} (h : outputReferences loads output = .ok references) :
    ReferencesOk references := by
  unfold outputReferences at h
  split at h
  · simp only [bind_eq_ok, ensure_eq_ok] at h
    obtain ⟨_, -, h⟩ := h
    split at h
    · exact referencesOf_eq_ok (policyCheck_eq_ok.1 h)
    · cases h
    · cases h
  · cases h

theorem requiredUsage_eq_ok {value : Option Message} {usage : Message} (h : requiredUsage value = .ok usage) :
    AdapterUsage usage := by
  unfold requiredUsage at h
  split at h
  · simp only [bind_eq_ok, integerField_eq_ok] at h
    obtain ⟨inputTokens, ⟨-, hinput⟩, outputTokens, ⟨-, houtput⟩, h⟩ := h
    split_ifs at h
    · simp only [bind_eq_ok, integerField_eq_ok, pure_eq_ok] at h
      obtain ⟨costMicrousd, ⟨-, hcost⟩, rfl⟩ := h
      exact .priced ⟨hinput, houtput⟩ hcost
    · obtain rfl := pure_eq_ok.1 h
      exact .unpriced ⟨hinput, houtput⟩
  · cases h

theorem boundedNonnegative_bounds (value : Option Message) {maximum : ℤ} (hmax : 0 ≤ maximum) :
    0 ≤ boundedNonnegative value maximum ∧ boundedNonnegative value maximum ≤ maximum := by
  unfold boundedNonnegative
  split
  · split_ifs with h
    · exact h
    · exact ⟨le_rfl, hmax⟩
  · exact ⟨le_rfl, hmax⟩

/-- The status of a result is one of three. -/
theorem mappedStatus_eq_ok {status : Option Message} {mapped : String} (h : mappedStatus status = .ok mapped) :
    mapped = "succeeded" ∨ mapped = "cancelled" ∨ mapped = "failed" := by
  unfold mappedStatus at h
  split at h
  · next t =>
    obtain rfl := Except.ok.inj h
    cases hlookup : ([("completed", "succeeded"), ("failed", "failed"), ("cancelled", "cancelled"),
        ("interrupted", "cancelled")] : List (String × String)).lookup t.plain with
    | none => exact .inr (.inr rfl)
    | some status =>
      obtain ⟨before, after, hsplit, -⟩ := List.lookup_eq_some_iff.1 hlookup
      have hmem : (t.plain, status) ∈ before ++ (t.plain, status) :: after := by simp
      rw [← hsplit] at hmem
      simp only [List.mem_cons, Prod.mk.injEq, List.not_mem_nil, or_false] at hmem
      rw [Option.getD_some]
      tauto
  · cases h
  · cases h
  · exact .inr (.inr (Except.ok.inj h).symm)

/-- The adapter makes results of these two forms only. -/
theorem mapUpstreamResult_form {loads : String → LoadsOutcome} {uuid5 : String → Uuid}
    {request upstream result : Message} (h : mapUpstreamResult loads uuid5 request upstream = .ok result) :
    AdapterResult uuid5 request result := by
  have hfailed {status category : String} (hfailure : (status, category) ∈ failures) :
      AdapterResult uuid5 request (resultMessage uuid5 request status [] (safeUsage (upstream.get? "usage"))
        (.lit category)) :=
    .failed hfailure ⟨boundedNonnegative_bounds _ (by decide), boundedNonnegative_bounds _ (by decide)⟩
      (boundedNonnegative_bounds _ (by decide))
  simp only [mapUpstreamResult, bind_eq_ok] at h
  obtain ⟨status, hstatus, h⟩ := h
  split_ifs at h with hsucceeded hcancelled
  · subst hsucceeded
    split at h
    · next references usage hcompleted =>
      simp only [completed, bind_eq_ok, pure_eq_ok, Prod.mk.injEq] at hcompleted
      obtain ⟨_, hreferences, _, husage, rfl, rfl⟩ := hcompleted
      obtain rfl := pure_eq_ok.1 h
      exact .succeeded (outputReferences_eq_ok hreferences) (requiredUsage_eq_ok (policyCheck_eq_ok.1 husage))
    · obtain rfl := pure_eq_ok.1 h
      exact hfailed (by decide)
    · cases h
  · obtain rfl := pure_eq_ok.1 h
    subst hcancelled
    exact hfailed (by decide)
  · obtain rfl := pure_eq_ok.1 h
    have hfails : status = "failed" :=
      ((mappedStatus_eq_ok hstatus).resolve_left hsucceeded).resolve_left hcancelled
    subst hfails
    exact hfailed (by decide)

/-! ### Sizes -/

section Sizes

open Json

theorem asciiLength_le (c : Char) : asciiLength c ≤ 12 := by
  unfold asciiLength
  split_ifs <;> omega

theorem asciiLength_of_plain {c : Char} (h : isPlainChar c = true) : asciiLength c = 1 := by
  simp only [isPlainChar, Bool.and_eq_true, decide_eq_true_eq, bne_iff_ne] at h
  obtain ⟨⟨⟨hlow, hhigh⟩, hquote⟩, hslash⟩ := h
  have hcontrol : c.toNat ∉ [8, 9, 10, 12, 13] := by
    intro hmem
    simp only [List.mem_cons, List.not_mem_nil, or_false] at hmem
    omega
  rw [asciiLength, if_neg (not_or.2 ⟨hquote, not_or.2 ⟨hslash, hcontrol⟩⟩), if_pos ⟨hlow, hhigh⟩]

theorem stringLength_le (s : String) : stringLength asciiLength s ≤ 2 + s.length * 12 := by
  have hsum := List.sum_le_card_nsmul (s.toList.map asciiLength) 12 fun n hn => by
    obtain ⟨c, -, rfl⟩ := List.mem_map.1 hn
    exact asciiLength_le c
  rw [List.length_map, String.length_toList, smul_eq_mul] at hsum
  exact Nat.add_le_add_left hsum 2

theorem stringLength_of_plain {s : String} (h : isPlainText s = true) :
    stringLength asciiLength s = 2 + s.length := by
  have hmap : s.toList.map asciiLength = List.replicate s.length 1 := by
    rw [← String.length_toList]
    exact List.map_eq_replicate_iff.2 fun c hc => asciiLength_of_plain (List.all_eq_true.1 h c hc)
  rw [stringLength, hmap, List.sum_replicate, smul_eq_mul, Nat.mul_one]

/-- A schema ID has at most 156 characters, none of them escaped. -/
theorem stringLength_of_isSchemaId {s : String} (h : isSchemaId s = true) : stringLength asciiLength s ≤ 158 := by
  simp only [isSchemaId, isPrefixed, isRepeat, Bool.and_eq_true, decide_eq_true_eq] at h
  obtain ⟨hbegins, ⟨-, hmost⟩, hall⟩ := h
  obtain ⟨rest, hrest⟩ := List.isPrefixOf_iff_prefix.1 hbegins
  have hlength : s.length = 21 + rest.length := by
    rw [← String.length_toList, ← hrest, List.length_append]
    rfl
  have hdrop : s.toList.drop "urn:civicloop:schema:".length = rest := by
    rw [← hrest]
    exact List.drop_left
  rw [hdrop] at hmost hall
  have hplain : isPlainText s = true := by
    rw [isPlainText, ← hrest, List.all_append, Bool.and_eq_true]
    exact ⟨by decide, List.all_eq_true.2 fun c hc => isPlainChar_of_isRunIdChar (List.all_eq_true.1 hall c hc)⟩
  rw [stringLength_of_plain hplain]
  omega

theorem isPlainChar_of_isHexDigit {c : Char} (h : isHexDigit c = true) : isPlainChar c = true := by
  refine isPlainChar_of_isRunIdChar ?_
  simp only [isHexDigit, Bool.or_eq_true, Bool.and_eq_true, decide_eq_true_eq] at h
  have halnum : c.isAlphanum = true := by
    rcases h with h | h
    · simp [Char.isAlphanum, h]
    · have hlower : c.isLower = true := by
        simp only [Char.isLower, Bool.and_eq_true, decide_eq_true_eq]
        exact ⟨h.1, UInt32.le_trans h.2 (by decide)⟩
      simp [Char.isAlphanum, Char.isAlpha, hlower]
  simp [isRunIdChar, isTokenChar, halnum]

theorem stringLength_of_isDigestHex {s : String} (h : isDigestHex s = true) : stringLength asciiLength s = 66 := by
  simp only [isDigestHex, isRepeat, Bool.and_eq_true, decide_eq_true_eq] at h
  obtain ⟨⟨hleast, hmost⟩, hall⟩ := h
  have hplain : isPlainText s = true :=
    List.all_eq_true.2 fun c hc => isPlainChar_of_isHexDigit (List.all_eq_true.1 hall c hc)
  rw [String.length_toList] at hleast hmost
  rw [stringLength_of_plain hplain]
  omega

theorem digits_le {n width : ℕ} (hwidth : 0 < width) (h : n < 10 ^ width) : digits n ≤ width :=
  Nat.log_lt_of_lt_pow' hwidth.ne' h

/-- A reference as it is written has at most 315 characters. -/
theorem encodedLength_referenceMessage {reference : Uuid × String × String}
    (hschema : isSchemaId reference.2.1 = true) (hdigest : isDigestHex reference.2.2 = true) :
    (referenceMessage reference).encodedLengthWith asciiLength 1 ≤ 315 := by
  have hs := stringLength_of_isSchemaId hschema
  have hd := stringLength_of_isDigestHex hdigest
  have hkeys : stringLength asciiLength "proposal_id" = 13 ∧ stringLength asciiLength "schema_id" = 11 ∧
      stringLength asciiLength "proposal_digest" = 17 := by decide
  simp only [referenceMessage, encodedLengthWith, encodedLengthItems, lit, hkeys, Text.length, List.length_cons,
    List.length_nil]
  omega

theorem encodedLengthList_le {char : Char → ℕ} {blank bound : ℕ} {items : List Message}
    (h : ∀ j ∈ items, j.encodedLengthWith char blank ≤ bound) :
    encodedLengthList char blank items ≤ bound * items.length := by
  induction items with
  | nil => simp [encodedLengthList]
  | cons j items ih =>
    rw [List.forall_mem_cons] at h
    have hrest := ih h.2
    rw [encodedLengthList, List.length_cons, Nat.mul_succ]
    omega

/-- The references of a result have at most 6340 characters. -/
theorem encodedLength_references {references : List (Uuid × String × String)} (h : ReferencesOk references) :
    (Json.arr (references.map referenceMessage) : Message).encodedLengthWith asciiLength 1 ≤ 6340 := by
  have hlist : encodedLengthList asciiLength 1 (references.map referenceMessage) ≤
      315 * (references.map referenceMessage).length := encodedLengthList_le fun j hj => by
    obtain ⟨reference, hmem, rfl⟩ := List.mem_map.1 hj
    exact encodedLength_referenceMessage (h.schemaId reference hmem) (h.digest reference hmem)
  have hlength := h.length
  rw [List.length_map] at hlist
  rw [encodedLengthWith, List.length_map]
  omega

end Sizes

/-! ### The first check -/

/-- What the checks read from a request. -/
structure RequestOk (request budgets : Message) : Prop where
  workflowId : ∃ t, request.get? "workflow_id" = some (.str t) ∧ t.plain.length ≤ 36
  revisionId : ∃ n, request.get? "revision_id" = some (.int n) ∧ 1 ≤ n ∧ n < 10 ^ 19
  found : request.get? "budgets" = some budgets
  budget : ∀ item ∈ usageBudgets, ∃ maximum, budgets.get? item.2 = some (.int maximum)

/-- A request that was accepted has what the checks read. -/
theorem requestOk_of_validateRunRequest {request : Message} {alias_ : String} {maximumTimeout timeout : ℤ}
    (h : validateRunRequest request alias_ maximumTimeout = .ok timeout) : ∃ budgets, RequestOk request budgets := by
  simp only [validateRunRequest, validateBudgets, bind_eq_ok, ensure_eq_ok, integerField_eq_ok] at h
  obtain ⟨_, -, _, -, _, hworkflow, _, -, revisionId, ⟨hrevision, hone, hmax⟩, _, -, _, -, _, -, _, hkeys,
    _, ⟨hinput, -⟩, _, ⟨houtput, -⟩, _, ⟨hcost, -⟩, -⟩ := h
  obtain ⟨t, ht, hlength, -⟩ := uuidField_eq_ok hworkflow
  cases hbudgets : request.get? "budgets" with
  | none =>
    rw [hbudgets] at hinput
    cases hinput
  | some budgets =>
    rw [hbudgets, Option.getD_some] at hinput houtput hcost
    refine ⟨budgets, ⟨t, ht, hlength⟩, ⟨revisionId, hrevision, hone, by omega⟩, hbudgets, ?_⟩
    intro item hitem
    simp only [usageBudgets, List.mem_cons, List.not_mem_nil, or_false] at hitem
    obtain rfl | rfl | rfl := hitem
    · exact ⟨_, hinput⟩
    · exact ⟨_, houtput⟩
    · exact ⟨_, hcost⟩

theorem length_uuidText (u : Uuid) : (uuidText u).length = 36 := by
  have hlength := length_hexDigits 32 u
  rw [uuidText, String.length_ofList]
  generalize hexDigits 32 u = digits at hlength
  simp [hlength]

/-- A reference is read back as it is written. -/
theorem proposalReference_referenceMessage {reference : Uuid × String × String} (hid : reference.1 < 16 ^ 32)
    (hschema : isSchemaId reference.2.1 = true) (hdigest : isDigestHex reference.2.2 = true) :
    proposalReference (referenceMessage reference) = .ok reference := by
  have huuid : uuidField (some (.str (.uuid reference.1))) "proposal ID" = .ok reference.1 := by
    have hlength : (Text.uuid reference.1 : Text Empty).plain.length ≤ 36 := (length_uuidText _).le
    rw [uuidField, if_pos hlength, fetch_eq_ok]
    exact uuidOfText_uuidText hid
  have hschema' : textField (some (.lit reference.2.1)) isSchemaId "proposal schema ID is invalid" =
      .ok reference.2.1 := textField_eq_ok.2 ⟨_, rfl, rfl, hschema⟩
  have hdigest' : textField (some (.lit reference.2.2)) isDigestHex "proposal digest is invalid" =
      .ok reference.2.2 := textField_eq_ok.2 ⟨_, rfl, rfl, hdigest⟩
  have hkeys : (referenceMessage reference).hasKeys ["proposal_id", "schema_id", "proposal_digest"] = true := rfl
  simp only [proposalReference, bind_eq_ok, ensure_eq_ok, pure_eq_ok]
  exact ⟨(), hkeys, _, huuid, _, hschema', _, hdigest', rfl⟩

/-- The references of a success pass the first check. -/
theorem proposalReferences_eq_ok {references : List (Uuid × String × String)} (h : ReferencesOk references) :
    proposalReferences (.arr (references.map referenceMessage)) = .ok references := by
  have hsize : (Json.obj [("proposal_references", Json.arr (references.map referenceMessage))] :
      Message).encodedLengthWith Json.asciiLength 1 ≤ maxBodyBytes := by
    have hlength := encodedLength_references h
    have hkey : Json.stringLength Json.asciiLength "proposal_references" = 21 := by decide
    simp only [Json.encodedLengthWith, Json.encodedLengthItems, hkey, List.length_cons, List.length_nil,
      maxBodyBytes] at hlength ⊢
    omega
  have hread : (references.map referenceMessage).mapM proposalReference = .ok references := by
    rw [mapM_eq_ok_iff, List.forall₂_map_left_iff, List.forall₂_same]
    exact fun reference hmem =>
      proposalReference_referenceMessage (h.proposalId _ hmem) (h.schemaId _ hmem) (h.digest _ hmem)
  simp only [proposalReferences, bind_eq_ok, ensure_eq_ok, pure_eq_ok, List.length_map]
  exact ⟨(), hsize, (), ⟨h.nonempty, h.length⟩, references, hread, (), h.distinct, rfl⟩

theorem digits_natAbs_le {n : ℤ} {width : ℕ} (hwidth : 0 < width) (hpos : 0 ≤ n) (h : n < 10 ^ width) :
    Json.digits n.natAbs ≤ width := by
  refine digits_le hwidth (Int.ofNat_lt.1 ?_)
  rw [Int.natAbs_of_nonneg hpos]
  exact_mod_cast h

/-- The usage of a result has at most 100 characters. -/
theorem AdapterUsage.encodedLength_le {usage : Message} (h : AdapterUsage usage) :
    usage.encodedLengthWith Json.asciiLength 1 ≤ 100 := by
  have hkeys : Json.stringLength Json.asciiLength "input_tokens" = 14 ∧
      Json.stringLength Json.asciiLength "output_tokens" = 15 ∧
      Json.stringLength Json.asciiLength "cost_microusd" = 15 := by decide
  have ten_pos : 0 < 10 := by decide
  cases h with
  | @unpriced inputTokens outputTokens htokens =>
    obtain ⟨⟨hi, hi'⟩, ho, ho'⟩ := htokens
    have hin := digits_natAbs_le ten_pos hi (by omega)
    have hout := digits_natAbs_le ten_pos ho (by omega)
    simp only [Json.encodedLengthWith, Json.encodedLengthItems, hkeys, List.length_cons, List.length_nil,
      not_lt.2 hi, not_lt.2 ho, if_false]
    omega
  | @priced inputTokens outputTokens costMicrousd htokens hcost =>
    obtain ⟨⟨hi, hi'⟩, ho, ho'⟩ := htokens
    obtain ⟨hc, hc'⟩ := hcost
    have hin := digits_natAbs_le ten_pos hi (by omega)
    have hout := digits_natAbs_le ten_pos ho (by omega)
    have hmicrousd := digits_natAbs_le ten_pos hc (by omega)
    simp only [usageMessage, Json.encodedLengthWith, Json.encodedLengthItems, hkeys, List.length_cons,
      List.length_nil, not_lt.2 hi, not_lt.2 ho, not_lt.2 hc, if_false]
    omega

/-- The status, the references and the failure category of a result go together. -/
inductive OutcomeOk : String → List (Uuid × String × String) → Message → Prop
  | succeeded {references : List (Uuid × String × String)} (h : ReferencesOk references) :
      OutcomeOk "succeeded" references .null
  | failed {status category : String} (h : (status, category) ∈ failures) : OutcomeOk status [] (.lit category)

theorem OutcomeOk.encodedLength_le {status : String} {references : List (Uuid × String × String)}
    {failureCategory : Message} (h : OutcomeOk status references failureCategory) :
    Json.stringLength Json.asciiLength status +
        (Json.arr (references.map referenceMessage) : Message).encodedLengthWith Json.asciiLength 1 +
        failureCategory.encodedLengthWith Json.asciiLength 1 ≤ 6400 := by
  cases h with
  | succeeded h =>
    have hlength := encodedLength_references h
    have hstatus : Json.stringLength Json.asciiLength "succeeded" = 11 := by decide
    have hnull : (Json.null : Message).encodedLengthWith Json.asciiLength 1 = 4 := rfl
    omega
  | @failed status category h =>
    have hall : ∀ failure ∈ failures, Json.stringLength Json.asciiLength failure.1 +
        (Json.arr [] : Message).encodedLengthWith Json.asciiLength 1 +
        (Json.lit failure.2 : Message).encodedLengthWith Json.asciiLength 1 ≤ 6400 := by decide
    rw [List.map_nil]
    exact hall (status, category) h

/-- A result is small enough. -/
theorem encodedLength_resultMessage (uuid5 : String → Uuid) {request budgets usage failureCategory : Message}
    {status : String} {references : List (Uuid × String × String)} (hrequest : RequestOk request budgets)
    (husage : AdapterUsage usage) (houtcome : OutcomeOk status references failureCategory) :
    (resultMessage uuid5 request status references usage failureCategory).encodedLengthWith Json.asciiLength 1 ≤
      maxBodyBytes := by
  obtain ⟨t, ht, htlength⟩ := hrequest.workflowId
  obtain ⟨n, hn, hone, hmax⟩ := hrequest.revisionId
  have hworkflow : (Json.str t : Message).encodedLengthWith Json.asciiLength 1 ≤ 434 := by
    cases t with
    | lit s =>
      have hs := stringLength_le s
      have hlength : s.length ≤ 36 := htlength
      rw [Json.encodedLengthWith]
      omega
    | uuid u => simp [Json.encodedLengthWith, Text.length]
    | hex d => cases d
  have hrevision : (Json.int n : Message).encodedLengthWith Json.asciiLength 1 ≤ 20 := by
    have hdigits := digits_natAbs_le (by decide : 0 < 19) (by omega) hmax
    rw [Json.encodedLengthWith]
    split_ifs <;> omega
  have hkeys : Json.stringLength Json.asciiLength "schema_version" = 16 ∧
      Json.stringLength Json.asciiLength "run_id" = 8 ∧ Json.stringLength Json.asciiLength "workflow_id" = 13 ∧
      Json.stringLength Json.asciiLength "revision_id" = 13 ∧ Json.stringLength Json.asciiLength "status" = 8 ∧
      Json.stringLength Json.asciiLength "proposal_references" = 21 ∧
      Json.stringLength Json.asciiLength "usage" = 7 ∧ Json.stringLength Json.asciiLength "failure_category" = 18 ∧
      Json.stringLength Json.asciiLength "1.0" = 5 := by decide
  have husage' := husage.encodedLength_le
  have houtcome' := houtcome.encodedLength_le
  rw [resultMessage, ht, hn, Option.getD_some, Option.getD_some]
  generalize (Json.arr (references.map referenceMessage) : Message) = references at houtcome' ⊢
  rw [Json.encodedLengthWith]
  simp only [Json.encodedLengthItems, hkeys, List.length_cons, List.length_nil, maxBodyBytes]
  generalize (Json.str t : Message).encodedLengthWith Json.asciiLength 1 = workflow at hworkflow ⊢
  generalize (Json.int n : Message).encodedLengthWith Json.asciiLength 1 = revision at hrevision ⊢
  simp only [Json.lit, Json.encodedLengthWith, hkeys, Text.length]
  omega

/-- The usage of a result passes the first check. -/
theorem AdapterUsage.validUsage {usage : Message} (h : AdapterUsage usage) : validUsage usage = true := by
  cases h with
  | @unpriced inputTokens outputTokens htokens =>
    obtain ⟨⟨hi, hi'⟩, ho, ho'⟩ := htokens
    simp [Hermes.validUsage, usageOk, Json.hasKeys, Json.get?, List.lookup, hi, hi', ho, ho']
  | @priced inputTokens outputTokens costMicrousd htokens hcost =>
    obtain ⟨⟨hi, hi'⟩, ho, ho'⟩ := htokens
    simp [Hermes.validUsage, usageOk, usageMessage, Json.hasKeys, Json.get?, List.lookup, hi, hi', ho, ho', hcost.1,
      hcost.2]

/-- A result passes the first check. -/
theorem validResult_resultMessage (uuid5 : String → Uuid) {request budgets usage failureCategory : Message}
    {status : String} {references : List (Uuid × String × String)} (hrequest : RequestOk request budgets)
    (husage : AdapterUsage usage) (houtcome : OutcomeOk status references failureCategory) :
    validResult uuid5 request (resultMessage uuid5 request status references usage failureCategory) = true := by
  have hsize := encodedLength_resultMessage uuid5 hrequest husage houtcome
  obtain ⟨t, ht, -⟩ := hrequest.workflowId
  obtain ⟨n, hn, -⟩ := hrequest.revisionId
  have hstatus : ((resultMessage uuid5 request status references usage failureCategory).text? "status").map
      Text.plain = some status := rfl
  have hreferences : ((resultMessage uuid5 request status references usage failureCategory).get?
      "proposal_references").getD .null = .arr (references.map referenceMessage) := rfl
  have hcategory : ((resultMessage uuid5 request status references usage failureCategory).get?
      "failure_category").getD .null = failureCategory := rfl
  have husage' : ((resultMessage uuid5 request status references usage failureCategory).get? "usage").getD .null =
      usage := rfl
  have hworkflow : (resultMessage uuid5 request status references usage failureCategory).get? "workflow_id" =
      some ((request.get? "workflow_id").getD .null) := rfl
  have hrevision : (resultMessage uuid5 request status references usage failureCategory).get? "revision_id" =
      some ((request.get? "revision_id").getD .null) := rfl
  have hkeys : (resultMessage uuid5 request status references usage failureCategory).hasKeys resultFields = true :=
    rfl
  have hversion : (resultMessage uuid5 request status references usage failureCategory).get? "schema_version" =
      some (.lit "1.0") := rfl
  have hrun : (resultMessage uuid5 request status references usage failureCategory).uuid? "run_id" =
      some (runIdOf uuid5 request) := rfl
  have hcheck : (if some status = some "succeeded" then
      (proposalReferences (.arr (references.map referenceMessage))).isOk && failureCategory == .null
      else (Json.arr (references.map referenceMessage) : Message) == .arr [] &&
        failureCategories.contains failureCategory) = true := by
    cases houtcome with
    | succeeded h =>
      rw [if_pos rfl, proposalReferences_eq_ok h]
      rfl
    | @failed status category h =>
      have hall : ∀ failure ∈ failures, some failure.1 ≠ some "succeeded" ∧
          failureCategories.contains (Json.lit failure.2 : Message) = true := by decide
      obtain ⟨hne, hmem⟩ := hall _ h
      rw [if_neg hne, hmem]
      rfl
  have hstatuses : [some "succeeded", some "failed", some "cancelled"].contains (some status) = true := by
    cases houtcome with
    | succeeded => rfl
    | @failed status category h =>
      have hall : ∀ failure ∈ failures,
          [some "succeeded", some "failed", some "cancelled"].contains (some failure.1) = true := by decide
      exact hall _ h
  simp only [validResult, hstatus, hreferences, hcategory, husage', hworkflow, hrevision, hkeys, hversion, hrun,
    hstatuses, husage.validUsage, hcheck, ht, hn, Option.getD_some, beq_self_eq_true, Bool.and_true,
    decide_eq_true hsize]

/-! ### The second check -/

/-- No two references are for the same proposal. -/
def DistinctProposals (references : List (Uuid × String × String)) : Prop := (references.map Prod.fst).Nodup

/-- The client accepts a reference as it is written, unless it has the ID of another. -/
theorem clientReference_referenceMessage {ids : List String} {reference : Uuid × String × String}
    (hid : reference.1 < 16 ^ 32) (hschema : isSchemaId reference.2.1 = true)
    (hdigest : isDigestHex reference.2.2 = true) :
    clientReference ids (referenceMessage reference) =
      if uuidText reference.1 ∈ ids then none else some (uuidText reference.1) := by
  have hkeys : (referenceMessage reference).hasKeys ["proposal_id", "schema_id", "proposal_digest"] = true := rfl
  have hproposal : ((referenceMessage reference).text? "proposal_id").map Text.plain =
      some (uuidText reference.1) := rfl
  have hschema' : ((referenceMessage reference).text? "schema_id").map Text.plain = some reference.2.1 := rfl
  have hdigest' : ((referenceMessage reference).text? "proposal_digest").map Text.plain = some reference.2.2 := rfl
  rw [clientReference, hkeys, hproposal, hschema', hdigest']
  simp only [Option.bind_eq_bind, Option.bind_some, guard_true, uuidOfText_uuidText hid, hschema, hdigest]
  split_ifs with hmem
  · simp [hmem, guard]
  · simp [hmem, guard]

/-- The client accepts the references of a success if no two are for the same proposal. -/
theorem clientReferencesOk_iff {references : List (Uuid × String × String)}
    (hid : ∀ reference ∈ references, reference.1 < 16 ^ 32)
    (hschema : ∀ reference ∈ references, isSchemaId reference.2.1 = true)
    (hdigest : ∀ reference ∈ references, isDigestHex reference.2.2 = true) (ids : List String) :
    clientReferencesOk ids (references.map referenceMessage) = true ↔
      (∀ reference ∈ references, uuidText reference.1 ∉ ids) ∧ DistinctProposals references := by
  induction references generalizing ids with
  | nil => simp [clientReferencesOk, DistinctProposals]
  | cons reference references ih =>
    rw [List.forall_mem_cons] at hid hschema hdigest ⊢
    rw [List.map_cons, clientReferencesOk, clientReference_referenceMessage hid.1 hschema.1 hdigest.1,
      DistinctProposals, List.map_cons, List.nodup_cons]
    split_ifs with hmem
    · simp [hmem]
    · simp only [ih hid.2 hschema.2 hdigest.2, List.mem_cons, not_or, hmem, not_false_iff, true_and]
      constructor
      · rintro ⟨hnew, hdistinct⟩
        refine ⟨fun r hr => (hnew r hr).2, fun hin => ?_, hdistinct⟩
        obtain ⟨r, hr, heq⟩ := List.mem_map.1 hin
        exact (hnew r hr).1 (congrArg uuidText heq)
      · rintro ⟨hnew, hnotMem, hdistinct⟩
        refine ⟨fun r hr => ⟨fun heq => hnotMem ?_, hnew r hr⟩, hdistinct⟩
        -- The text of a UUID determines it.
        have hread := uuidOfText_uuidText (hid.2 r hr)
        rw [heq, uuidOfText_uuidText hid.1] at hread
        exact List.mem_map.2 ⟨r, hr, (Option.some.inj hread).symm⟩

/-- The usage of a result is within the budgets of its request. -/
def UsageWithin (request result : Message) : Prop :=
  ∀ item ∈ usageBudgets, ∀ n maximum, ((result.get? "usage").getD .null).int? item.1 = some n →
    ((request.get? "budgets").getD .null).int? item.2 = some maximum → n ≤ maximum

theorem int?_of_get? {j : Message} {key : String} {n : ℤ} (h : j.get? key = some (.int n)) : j.int? key = some n := by
  rw [Json.int?, h]

/-- A usage with a cost, within the budgets, passes the second check. -/
theorem clientUsageOk_of_within {request budgets result : Message} {inputTokens outputTokens costMicrousd : ℤ}
    (hrequest : RequestOk request budgets)
    (husage : result.get? "usage" = some (usageMessage inputTokens outputTokens costMicrousd))
    (hin : 0 ≤ inputTokens) (hout : 0 ≤ outputTokens) (hcost : 0 ≤ costMicrousd)
    (hwithin : UsageWithin request result) :
    clientUsageOk budgets (usageMessage inputTokens outputTokens costMicrousd) = true := by
  rw [UsageWithin, husage, hrequest.found, Option.getD_some, Option.getD_some] at hwithin
  rw [clientUsageOk, Bool.and_eq_true]
  refine ⟨rfl, List.all_eq_true.2 fun item hitem => ?_⟩
  obtain ⟨maximum, hmaximum⟩ := hrequest.budget item hitem
  have hle := fun n hn => hwithin item hitem n maximum hn (int?_of_get? hmaximum)
  change (budgets.int? item.2).any (usageOk _ item.1) = true
  rw [int?_of_get? hmaximum, Option.any_some]
  simp only [usageBudgets, List.mem_cons, List.not_mem_nil, or_false] at hitem
  obtain rfl | rfl | rfl := hitem
  · have hmax := hle inputTokens rfl
    simp [usageOk, usageMessage, Json.get?, List.lookup, hin, hmax]
  · have hmax := hle outputTokens rfl
    simp [usageOk, usageMessage, Json.get?, List.lookup, hout, hmax]
  · have hmax := hle costMicrousd rfl
    simp [usageOk, usageMessage, Json.get?, List.lookup, hcost, hmax]

/-- A priced result passes the second check if no two of its references are for the same proposal. -/
theorem clientAccepts_resultMessage (uuid5 : String → Uuid) {request budgets failureCategory : Message}
    {status : String} {references : List (Uuid × String × String)} {inputTokens outputTokens costMicrousd : ℤ}
    (hrequest : RequestOk request budgets) (hin : 0 ≤ inputTokens) (hout : 0 ≤ outputTokens)
    (hcost : 0 ≤ costMicrousd) (houtcome : OutcomeOk status references failureCategory)
    (hwithin : UsageWithin request (resultMessage uuid5 request status references
      (usageMessage inputTokens outputTokens costMicrousd) failureCategory)) :
    clientAccepts uuid5 request (resultMessage uuid5 request status references
        (usageMessage inputTokens outputTokens costMicrousd) failureCategory) = true ↔
      DistinctProposals references := by
  have husage := clientUsageOk_of_within hrequest rfl hin hout hcost hwithin
  obtain ⟨t, ht, -⟩ := hrequest.workflowId
  obtain ⟨n, hn, -⟩ := hrequest.revisionId
  generalize usageMessage inputTokens outputTokens costMicrousd = usage at husage
  have hkeys : (resultMessage uuid5 request status references usage failureCategory).hasKeys resultFields = true :=
    rfl
  have hversion : (resultMessage uuid5 request status references usage failureCategory).get? "schema_version" =
      some (.lit "1.0") := rfl
  have hrun : ((resultMessage uuid5 request status references usage failureCategory).text? "run_id").map
      Text.plain = some (uuidText (runIdOf uuid5 request)) := rfl
  have hworkflow : (resultMessage uuid5 request status references usage failureCategory).get? "workflow_id" =
      request.get? "workflow_id" := by
    rw [ht]
    exact congrArg (fun j : Option Message => some (j.getD .null)) ht
  have hrevision : (resultMessage uuid5 request status references usage failureCategory).get? "revision_id" =
      request.get? "revision_id" := by
    rw [hn]
    exact congrArg (fun j : Option Message => some (j.getD .null)) hn
  have hinteger : ((resultMessage uuid5 request status references usage failureCategory).int?
      "revision_id").isSome = true := by
    rw [int?_of_get? (hrevision.trans hn), Option.isSome_some]
  have hstatus : ((resultMessage uuid5 request status references usage failureCategory).text? "status").map
      Text.plain = some status := rfl
  have husage' : ((resultMessage uuid5 request status references usage failureCategory).get? "usage").getD .null =
      usage := rfl
  have hreferences : (resultMessage uuid5 request status references usage failureCategory).get?
      "proposal_references" = some (.arr (references.map referenceMessage)) := rfl
  have hcategory : (resultMessage uuid5 request status references usage failureCategory).get?
      "failure_category" = some failureCategory := rfl
  simp only [clientAccepts, hkeys, hversion, hrun, hworkflow, hrevision, hinteger, hstatus, husage', hreferences,
    hcategory, hrequest.found, Option.getD_some, husage, beq_self_eq_true, Bool.and_true, Bool.true_and]
  cases houtcome with
  | succeeded h =>
    have hrefs := clientReferencesOk_iff h.proposalId h.schemaId h.digest []
    have hlength : decide (1 ≤ (references.map referenceMessage).length ∧
        (references.map referenceMessage).length ≤ 20) = true := by
      rw [List.length_map]
      exact decide_eq_true ⟨h.nonempty, h.length⟩
    have hnone : ∀ reference ∈ references, uuidText reference.1 ∉ ([] : List String) := fun _ _ => List.not_mem_nil
    rw [if_pos rfl, clientSuccessOk, hlength, beq_self_eq_true, Bool.true_and, Bool.true_and, Bool.and_eq_true, hrefs]
    exact ⟨fun h => h.2.2, fun h => ⟨rfl, hnone, h⟩⟩
  | @failed status category h =>
    have hall : ∀ failure ∈ failures, (["succeeded", "failed", "cancelled"].contains failure.1 &&
        if failure.1 = "succeeded" then clientSuccessOk (some (.arr [])) (some (.lit failure.2))
        else clientFailureOk failure.1 (some (.arr [])) (some (.lit failure.2))) = true := by decide
    rw [List.map_nil, hall (status, category) h]
    exact ⟨fun _ => List.nodup_nil, fun _ => rfl⟩

/-! ### The chain -/

/-- The IDs of the proposals of a result. -/
def proposalIds (result : Message) : List (Option String) :=
  match result.get? "proposal_references" with
  | some (.arr references) => references.map fun reference => (reference.text? "proposal_id").map Text.plain
  | _ => []

theorem nodup_proposalIds_iff (uuid5 : String → Uuid) {request usage failureCategory : Message} {status : String}
    {references : List (Uuid × String × String)} (hid : ∀ reference ∈ references, reference.1 < 16 ^ 32) :
    (proposalIds (resultMessage uuid5 request status references usage failureCategory)).Nodup ↔
      DistinctProposals references := by
  have hids : proposalIds (resultMessage uuid5 request status references usage failureCategory) =
      (references.map Prod.fst).map fun u => some (uuidText u) := by
    change (references.map referenceMessage).map _ = _
    rw [List.map_map, List.map_map]
    rfl
  rw [hids, DistinctProposals]
  refine ⟨List.Nodup.of_map _, fun h => h.map_on fun u hu v hv heq => ?_⟩
  obtain ⟨_, hr, rfl⟩ := List.mem_map.1 hu
  obtain ⟨_, hr', rfl⟩ := List.mem_map.1 hv
  have hread := uuidOfText_uuidText (hid _ hr)
  rw [Option.some.inj heq, uuidOfText_uuidText (hid _ hr')] at hread
  exact (Option.some.inj hread).symm

/-- The cost that the worker adds. -/
theorem priceUsage_eq_ok {profile : ModelProfile} {uuid5 : String → Uuid}
    {request failureCategory priced : Message} {status : String} {references : List (Uuid × String × String)}
    {inputTokens outputTokens : ℤ}
    (h : priceUsage profile (resultMessage uuid5 request status references
      (.obj [("input_tokens", .int inputTokens), ("output_tokens", .int outputTokens)]) failureCategory) = .ok priced) :
    ∃ costMicrousd, Budget.cost profile inputTokens outputTokens = .ok costMicrousd ∧
      priced = resultMessage uuid5 request status references
        (usageMessage inputTokens outputTokens costMicrousd) failureCategory := by
  change (if 0 ≤ inputTokens ∧ 0 ≤ outputTokens then _ else _) = _ at h
  split_ifs at h
  cases hcost : Budget.cost profile inputTokens outputTokens with
  | error e =>
    rw [hcost] at h
    cases h
  | ok costMicrousd =>
    rw [hcost] at h
    obtain rfl := Except.ok.inj h
    exact ⟨costMicrousd, rfl, rfl⟩

/-- **A result of the adapter is accepted on its way**: the client of the controller accepts it, and the worker
accepts it, when its usage has been priced within the budgets, if and only if no two of its references have
the same proposal ID. -/
theorem adapterResult_accepted (uuid5 : String → Uuid) (loads : String → LoadsOutcome) (alias_ : String)
    (maximumTimeout timeout : ℤ) (request upstream result : Message)
    (hrequest : validateRunRequest request alias_ maximumTimeout = .ok timeout)
    (hresult : mapUpstreamResult loads uuid5 request upstream = .ok result) :
    validResult uuid5 request result = true ∧
      ∀ profile priced, priceUsage profile result = .ok priced → UsageWithin request priced →
        (clientAccepts uuid5 request priced = true ↔ (proposalIds result).Nodup) := by
  obtain ⟨budgets, hrequest⟩ := requestOk_of_validateRunRequest hrequest
  cases mapUpstreamResult_form hresult with
  | @failed status category inputTokens outputTokens costMicrousd hfailure htokens hcost =>
    refine ⟨validResult_resultMessage uuid5 hrequest (.priced htokens hcost) (.failed hfailure),
      fun profile priced hpriced hwithin => ?_⟩
    obtain rfl := Except.ok.inj hpriced
    rw [clientAccepts_resultMessage uuid5 hrequest htokens.1.1 htokens.2.1 hcost.1 (.failed hfailure) hwithin,
      nodup_proposalIds_iff uuid5 (by simp)]
  | @succeeded references usage hreferences husage =>
    refine ⟨validResult_resultMessage uuid5 hrequest husage (.succeeded hreferences),
      fun profile priced hpriced hwithin => ?_⟩
    rw [nodup_proposalIds_iff uuid5 hreferences.proposalId]
    cases husage with
    | @priced inputTokens outputTokens costMicrousd htokens hcost =>
      obtain rfl := Except.ok.inj hpriced
      exact clientAccepts_resultMessage uuid5 hrequest htokens.1.1 htokens.2.1 hcost.1 (.succeeded hreferences)
        hwithin
    | @unpriced inputTokens outputTokens htokens =>
      obtain ⟨costMicrousd, hcost, rfl⟩ := priceUsage_eq_ok hpriced
      exact clientAccepts_resultMessage uuid5 hrequest htokens.1.1 htokens.2.1 (Budget.cost_nonneg hcost)
        (.succeeded hreferences) hwithin

/-! ### Two references for one proposal -/

/-- A request for a run. -/
def sampleRequest : Message :=
  .obj [("schema_version", .lit "1.0"), ("workflow_id", .lit "00000000-0000-0000-0000-000000000001"),
    ("revision_id", .int 1), ("actor_id", .lit "maya"),
    ("correlation_id", .lit "00000000-0000-0000-0000-000000000002"),
    ("capability_token", .lit "cap_xxxxxxxxxxxxxxxxxxxxxxxxxxxxxxxxxxxxxxxxxxx"), ("model_alias", .lit modelAlias),
    ("budgets", .obj [("max_input_tokens", .int 1000), ("max_output_tokens", .int 1000),
      ("max_cost_microusd", .int 100), ("timeout_seconds", .int 30)])]

def sampleDigest (c : Char) : String := String.ofList (List.replicate 64 c)

/-- A reference to one proposal, with a digest of one character. -/
def sampleReference (c : Char) : Message :=
  .obj [("proposal_id", .lit "00000000-0000-0000-0000-000000000003"),
    ("schema_id", .lit "urn:civicloop:schema:campaign-proposal:v1.0"), ("proposal_digest", .lit (sampleDigest c))]

/-- The output of a completed run with these references. -/
def sampleOutput (digests : List Char) : String :=
  "\x7b\"proposal_references\": [" ++ ", ".intercalate (digests.map fun c =>
    "\x7b\"proposal_id\": \"00000000-0000-0000-0000-000000000003\", " ++
      "\"schema_id\": \"urn:civicloop:schema:campaign-proposal:v1.0\", " ++
      "\"proposal_digest\": \"" ++ sampleDigest c ++ "\"\x7d") ++ "]\x7d"

/-- `json.loads`, on the output with these references. -/
def sampleLoads (digests : List Char) (text : String) : LoadsOutcome :=
  if text = sampleOutput digests then .value (.obj [("proposal_references", .arr (digests.map sampleReference))])
  else .decodeError

def sampleUpstream (digests : List Char) : Message :=
  .obj [("status", .lit "completed"), ("output", .lit (sampleOutput digests)),
    ("usage", .obj [("input_tokens", .int 10), ("output_tokens", .int 20), ("cost_microusd", .int 30)])]

/-- The result of the run. -/
def sampleResult (digests : List Char) : Message :=
  resultMessage (fun _ => 1) sampleRequest "succeeded"
    (digests.map fun c => (3, "urn:civicloop:schema:campaign-proposal:v1.0", sampleDigest c))
    (usageMessage 10 20 30) .null

def sampleProfile : ModelProfile :=
  ⟨"default", 1, .hermes, "model", .workflow, 1000, 1000, some 1000, some 2000⟩

theorem usageWithin_sampleResult (digests : List Char) : UsageWithin sampleRequest (sampleResult digests) := by
  intro item hitem n maximum hn hmaximum
  simp only [usageBudgets, List.mem_cons, List.not_mem_nil, or_false] at hitem
  obtain rfl | rfl | rfl := hitem <;>
  · obtain rfl := Option.some.inj hn
    obtain rfl := Option.some.inj hmaximum
    decide

theorem adapterResult_accepted_sample :
    validResult (fun _ => 1) sampleRequest (sampleResult ['a']) = true ∧
      clientAccepts (fun _ => 1) sampleRequest (sampleResult ['a']) = true := by
  have h := adapterResult_accepted (fun _ => 1) (sampleLoads ['a']) modelAlias 600 30 sampleRequest
    (sampleUpstream ['a']) (sampleResult ['a']) rfl (by decide +kernel)
  exact ⟨h.1, (h.2 sampleProfile _ rfl (usageWithin_sampleResult ['a'])).2 (by decide +kernel)⟩

/-- Two references for one proposal with different digests pass the adapter and the client of the controller;
the worker refuses them. -/
theorem adapterResult_refused :
    validateRunRequest sampleRequest modelAlias 600 = .ok 30 ∧
      mapUpstreamResult (sampleLoads ['a', 'b']) (fun _ => 1) sampleRequest (sampleUpstream ['a', 'b']) =
        .ok (sampleResult ['a', 'b']) ∧
      validResult (fun _ => 1) sampleRequest (sampleResult ['a', 'b']) = true ∧
      priceUsage sampleProfile (sampleResult ['a', 'b']) = .ok (sampleResult ['a', 'b']) ∧
      UsageWithin sampleRequest (sampleResult ['a', 'b']) ∧
      clientAccepts (fun _ => 1) sampleRequest (sampleResult ['a', 'b']) = false :=
  ⟨rfl, by decide +kernel, by decide +kernel, rfl, usageWithin_sampleResult _, by decide +kernel⟩

end CivicLoop.Hermes
