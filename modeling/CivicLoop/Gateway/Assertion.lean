import CivicLoop.Foundation.Base64
import CivicLoop.Foundation.Calendar
import CivicLoop.Foundation.Checked
import CivicLoop.Foundation.JsonText

/-!
# Budget assertions

The signed text by which one gateway request is charged to a run: a payload, and its authentication
code under a key that the issuer and the gateway share. The JSON texts and the authentication code come
from the standard library and are a parameter; what is assumed of them is that a flat dictionary is
read back as it was written.

## Main definitions

* `Primitives` : JSON texts and message authentication.
* `issueBudgetAssertion`, `verifyBudgetAssertion` : the two ends.
* `BudgetAssertion` : what the gateway reads.
* `BudgetAssertion.CarriedBy` : a text holds the authenticated payload of an assertion.

## Main results

* `verify_issue` : what was issued is verified while it lives.
* `verify_eq_ok` : what a verified text has been checked for.
* `assertionRoundTrip` : the two ends agree, and a verified text is authentic and within the bounds.
-/

namespace CivicLoop.Gateway

/-- `json.dumps` with sorted keys and `json.loads`, and `hmac.digest` with SHA-256. -/
structure Primitives where
  dumps : Message → List UInt8
  loads : List UInt8 → Option Message
  mac : List UInt8 → List UInt8 → List UInt8
  loads_dumps : ∀ items : List (String × Message), (items.map Prod.fst).Nodup →
    (∀ e ∈ items, isPlainText e.1 = true ∧ e.2.isPlain = true) →
      loads (dumps (.obj items)) = some (.obj (Json.sortItems items))

/-- `BudgetAssertion`. -/
structure BudgetAssertion where
  runId : String
  modelAlias : String
  tokenCeiling : ℤ
  expiresAt : ℤ
  nonce : String
deriving DecidableEq

/-- `RUN_ID_PATTERN`. -/
def isRunId (s : String) : Bool := isHeaded Char.isAlphanum isRunIdChar 0 127 s.toList

/-- `NONCE_PATTERN`. -/
def isNonce (s : String) : Bool := isHeaded Char.isAlphanum isTokenChar 15 127 s.toList

/-- `ASSERTION_FIELDS`. -/
def assertionFields : List String :=
  ["version", "run_id", "model_alias", "token_ceiling", "expires_at", "nonce"]

/-- The payload of an assertion. -/
def payloadItems (a : BudgetAssertion) : List (String × Message) :=
  [("version", .int 1), ("run_id", .lit a.runId), ("model_alias", .lit a.modelAlias),
    ("token_ceiling", .int a.tokenCeiling), ("expires_at", .int a.expiresAt), ("nonce", .lit a.nonce)]

/-- `_b64encode`. -/
def b64encode (bytes : List UInt8) : List Char := Base64.strip (Base64.encode bytes)

/-- `_b64decode`. -/
def b64decode (value : List Char) : Except String (List UInt8) :=
  fetch (Base64.decode (Base64.pad value)) "budget assertion encoding is invalid"

section Ends

variable (P : Primitives) (key : List UInt8)

/-- The signed text of a payload. -/
def signed (payload : List UInt8) : String :=
  String.ofList (b64encode payload ++ '.' :: b64encode (P.mac key payload))

/-- `issue_budget_assertion`. -/
def issueBudgetAssertion (runId modelAlias : String) (tokenCeiling : ℤ) (expiresAt : Time)
    (nonce : String) : Except String String := do
  ensure (32 ≤ key.length) "budget assertion key is too short"
  ensure (isRunId runId) "run ID is invalid"
  ensure (isRunId modelAlias) "model alias is invalid"
  ensure (isNonce nonce) "budget assertion nonce is invalid"
  ensure (1 ≤ tokenCeiling ∧ tokenCeiling ≤ 100000) "token ceiling is invalid"
  return signed P key
    (P.dumps (.obj (payloadItems ⟨runId, modelAlias, tokenCeiling, expiresAt.posix, nonce⟩)))

/-- The two parts of `value.split(".")`. -/
def halves (value : String) : Option (List Char × List Char) :=
  match value.toList.splitOn '.' with
  | [payload, signature] => some (payload, signature)
  | _ => none

/-- `version == 1`, as the language compares numbers. -/
def isVersionOne : Message → Bool
  | .int n => n == 1
  | .bool b => b
  | .float text => text == "1.0"
  | _ => false

/-- The text under a key. -/
def textOf (decoded : Message) (field : String) : Option String :=
  (decoded.text? field).map Text.plain

/-- `_positive_integer`. -/
def positiveInteger (value : Option Message) (label : String) (maximum : ℤ) : Except String ℤ :=
  match value with
  | some (.int n) => if 1 ≤ n ∧ n ≤ maximum then .ok n else .error (label ++ " is invalid")
  | _ => .error (label ++ " is invalid")

/-- The checks of a payload whose signature has been verified. -/
def readPayload (decoded : Message) (policyAlias : String) (now : Time) : Except String BudgetAssertion := do
  ensure (decoded.hasKeys assertionFields) "budget assertion fields are invalid"
  ensure ((decoded.get? "version").any isVersionOne) "budget assertion version is invalid"
  let runId ← fetch (textOf decoded "run_id") "budget assertion run ID is invalid"
  ensure (isRunId runId) "budget assertion run ID is invalid"
  ensure (textOf decoded "model_alias" = some policyAlias) "budget assertion model alias mismatch"
  let nonce ← fetch (textOf decoded "nonce") "budget assertion nonce is invalid"
  ensure (isNonce nonce) "budget assertion nonce is invalid"
  let tokenCeiling ← positiveInteger (decoded.get? "token_ceiling") "budget token ceiling" 100000
  let expiresAt ← fetch (decoded.int? "expires_at") "budget assertion expiry is invalid"
  ensure (now.posix < expiresAt) "budget assertion is expired"
  ensure (expiresAt ≤ now.posix + 300) "budget assertion lifetime is too long"
  return ⟨runId, policyAlias, tokenCeiling, expiresAt, nonce⟩

/-- `_verify_budget_assertion`. -/
def verifyBudgetAssertion (value policyAlias : String) (now : Time) :
    Except String BudgetAssertion := do
  ensure (32 ≤ key.length) "budget assertion verifier is unavailable"
  let parts ← fetch (halves value) "budget assertion format is invalid"
  let payload ← b64decode parts.1
  let signature ← b64decode parts.2
  ensure (signature = P.mac key payload) "budget assertion signature is invalid"
  let decoded ← fetch (P.loads payload) "budget assertion payload is invalid"
  readPayload decoded policyAlias now

end Ends

/-! ### Round trip -/

theorem b64decode_b64encode (bytes : List UInt8) : b64decode (b64encode bytes) = .ok bytes := by
  rw [b64decode, b64encode, Base64.pad_strip_encode, Base64.decode_encode]
  rfl

theorem halves_signed (P : Primitives) (key payload : List UInt8) :
    halves (signed P key payload) = some (b64encode payload, b64encode (P.mac key payload)) := by
  have hdot : ∀ bytes, '.' ∉ b64encode bytes := Base64.dot_notMem_strip_encode
  rw [halves, signed, String.toList_ofList, List.splitOn_append_cons_self_of_not_mem (hdot payload),
    List.splitOn_eq_singleton (hdot _)]

theorem get?_payload (a : BudgetAssertion) (field : String) :
    (Json.obj (Json.sortItems (payloadItems a))).get? field = (payloadItems a).lookup field :=
  Json.lookup_sortItems _ _

theorem key_mem_fields {a : BudgetAssertion} {e : String × Message} (h : e ∈ payloadItems a) :
    e.1 ∈ assertionFields := by
  have hkeys : (payloadItems a).map Prod.fst = assertionFields := rfl
  rw [← hkeys]
  exact List.mem_map_of_mem h

theorem hasKeys_payload (a : BudgetAssertion) :
    (Json.obj (Json.sortItems (payloadItems a))).hasKeys assertionFields = true := by
  have hall : (Json.sortItems (payloadItems a)).all (fun e => assertionFields.contains e.1) = true := by
    rw [List.all_eq_true]
    intro e he
    rw [List.contains_iff_mem]
    exact key_mem_fields ((List.perm_insertionSort _ _).mem_iff.1 he)
  have hkeys : (assertionFields.all fun field =>
      ((Json.sortItems (payloadItems a)).lookup field).isSome) = true := by
    rw [List.all_eq_true]
    intro field hfield
    rw [Json.lookup_sortItems]
    simp only [assertionFields, List.mem_cons, List.not_mem_nil, or_false] at hfield
    rcases hfield with rfl | rfl | rfl | rfl | rfl | rfl <;> rfl
  rw [Json.hasKeys, hall, hkeys]
  rfl

/-- What can be signed. -/
structure BudgetAssertion.WellFormed (a : BudgetAssertion) : Prop where
  runId : isRunId a.runId = true
  nonce : isNonce a.nonce = true
  tokenCeiling : 1 ≤ a.tokenCeiling ∧ a.tokenCeiling ≤ 100000

/-- The assertion lives, and not too long. -/
structure BudgetAssertion.Alive (a : BudgetAssertion) (now : Time) : Prop where
  alive : now.posix < a.expiresAt
  lifetime : a.expiresAt ≤ now.posix + 300

theorem readPayload_payload {a : BudgetAssertion} {now : Time} (h : a.WellFormed)
    (halive : a.Alive now) :
    readPayload (.obj (Json.sortItems (payloadItems a))) a.modelAlias now = .ok a := by
  have hfield : ∀ field, (Json.obj (Json.sortItems (payloadItems a))).get? field =
      (payloadItems a).lookup field := get?_payload a
  simp only [readPayload, bind_eq_ok, ensure_eq_ok, fetch_eq_ok, pure_eq_ok, textOf, Json.text?,
    Json.int?, hfield, hasKeys_payload]
  refine ⟨(), trivial, (), rfl, a.runId, rfl, (), h.runId, (), rfl, a.nonce, rfl, (), h.nonce,
    a.tokenCeiling, ?_, a.expiresAt, rfl, (), halive.alive, (), halive.lifetime, rfl⟩
  exact if_pos h.tokenCeiling

theorem nodup_payload (a : BudgetAssertion) : ((payloadItems a).map Prod.fst).Nodup := by
  simp only [payloadItems, List.map_cons, List.map_nil]
  decide

theorem isPlainText_runId {s : String} (h : isRunId s = true) : isPlainText s = true :=
  isPlainText_of_isHeaded h (fun c hc => by simp [isRunIdChar, isTokenChar, hc]) fun _ => id

theorem isPlainText_nonce {s : String} (h : isNonce s = true) : isPlainText s = true :=
  isPlainText_of_isHeaded h (fun c hc => by simp [isRunIdChar, isTokenChar, hc])
    fun c hc => by simp [isRunIdChar, hc]

theorem plain_payload {a : BudgetAssertion} (hrun : isRunId a.runId = true)
    (halias : isRunId a.modelAlias = true) (hnonce : isNonce a.nonce = true) :
    ∀ e ∈ payloadItems a, isPlainText e.1 = true ∧ e.2.isPlain = true := by
  have hfields : ∀ field ∈ assertionFields, isPlainText field = true := by decide
  intro e he
  refine ⟨hfields _ (key_mem_fields he), ?_⟩
  simp only [payloadItems, List.mem_cons, List.not_mem_nil, or_false] at he
  rcases he with rfl | rfl | rfl | rfl | rfl | rfl
  · rfl
  · exact isPlainText_runId hrun
  · exact isPlainText_runId halias
  · rfl
  · rfl
  · exact isPlainText_nonce hnonce

/-- What can be signed is signed. -/
theorem issue_of_checks (P : Primitives) {key : List UInt8} {runId modelAlias nonce : String}
    {tokenCeiling : ℤ} (expiresAt : Time) (hkey : 32 ≤ key.length) (hrun : isRunId runId = true)
    (halias : isRunId modelAlias = true) (hnonce : isNonce nonce = true)
    (hceiling : 1 ≤ tokenCeiling ∧ tokenCeiling ≤ 100000) :
    ∃ text, issueBudgetAssertion P key runId modelAlias tokenCeiling expiresAt nonce = .ok text := by
  simp only [issueBudgetAssertion, bind_eq_ok, ensure_eq_ok, pure_eq_ok]
  exact ⟨_, (), hkey, (), hrun, (), halias, (), hnonce, (), hceiling, rfl⟩

/-- **What was issued is verified, as long as it lives and does not live too long.** -/
theorem verify_issue {P : Primitives} {key : List UInt8} {runId modelAlias nonce text : String}
    {tokenCeiling : ℤ} {expiresAt now : Time}
    (h : issueBudgetAssertion P key runId modelAlias tokenCeiling expiresAt nonce = .ok text)
    (halive : now.posix < expiresAt.posix) (hlifetime : expiresAt.posix ≤ now.posix + 300) :
    verifyBudgetAssertion P key text modelAlias now =
      .ok ⟨runId, modelAlias, tokenCeiling, expiresAt.posix, nonce⟩ := by
  simp only [issueBudgetAssertion, bind_eq_ok, ensure_eq_ok, pure_eq_ok] at h
  obtain ⟨⟨⟩, hkey, ⟨⟩, hrun, ⟨⟩, halias, ⟨⟩, hnonce, ⟨⟩, hceiling, rfl⟩ := h
  simp only [verifyBudgetAssertion, bind_eq_ok, ensure_eq_ok, fetch_eq_ok]
  exact ⟨(), hkey, _, halves_signed P key _, _, b64decode_b64encode _, _, b64decode_b64encode _, (), rfl,
    _, P.loads_dumps _ (nodup_payload _) (plain_payload hrun halias hnonce), readPayload_payload ⟨hrun, hnonce, hceiling⟩ ⟨halive, hlifetime⟩⟩

/-- The texts of flat dictionaries meet the law. The authentication code is the key itself. -/
def flatPrimitives : Primitives where
  dumps
    | .obj items => asciiBytes (Json.writeFlat (Json.sortItems items))
    | _ => []
  loads bytes := Json.readFlat (asciiText bytes)
  mac key _ := key
  loads_dumps items _ hplain := by
    have hsorted : ∀ e ∈ Json.sortItems items, isPlainText e.1 = true ∧ e.2.isPlain = true :=
      fun e he => hplain e ((List.perm_insertionSort _ _).mem_iff.1 he)
    simp only [asciiText_asciiBytes (Json.ascii_writeFlat hsorted), Json.readFlat_writeFlat _ hsorted]

/-! ### What has been checked -/

theorem positiveInteger_eq_ok_iff {value : Option Message} {label : String} {maximum n : ℤ} :
    positiveInteger value label maximum = .ok n ↔
      value = some (.int n) ∧ 1 ≤ n ∧ n ≤ maximum := by
  constructor
  · intro h
    unfold positiveInteger at h
    split at h
    · split_ifs at h with hn
      obtain rfl := Except.ok.inj h
      exact ⟨rfl, hn⟩
    · cases h
  · rintro ⟨rfl, hn⟩
    exact if_pos hn

theorem positiveInteger_eq_ok {value : Option Message} {label : String} {maximum n : ℤ}
    (h : positiveInteger value label maximum = .ok n) : 1 ≤ n ∧ n ≤ maximum :=
  (positiveInteger_eq_ok_iff.1 h).2

/-- **A verified text was checked.** -/
theorem verify_eq_ok {P : Primitives} {key : List UInt8} {value policyAlias : String} {now : Time}
    {a : BudgetAssertion} (h : verifyBudgetAssertion P key value policyAlias now = .ok a) :
    a.WellFormed ∧ a.Alive now ∧ a.modelAlias = policyAlias := by
  simp only [verifyBudgetAssertion, readPayload, bind_eq_ok, ensure_eq_ok, fetch_eq_ok,
    pure_eq_ok] at h
  obtain ⟨⟨⟩, -, _, -, _, -, _, -, ⟨⟩, -, decoded, -, ⟨⟩, -, ⟨⟩, -, runId, -, ⟨⟩, hrun, ⟨⟩, -, nonce,
    -, ⟨⟩, hnonce, ceiling, hceiling, expiresAt, -, ⟨⟩, halive, ⟨⟩, hlifetime, rfl⟩ := h
  exact ⟨⟨hrun, hnonce, positiveInteger_eq_ok hceiling⟩, ⟨halive, hlifetime⟩, rfl⟩

/-- A dictionary has the fields of an assertion, and no others. -/
structure BudgetAssertion.ReadFrom (a : BudgetAssertion) (decoded : Message) : Prop where
  fields : decoded.hasKeys assertionFields = true
  version : (decoded.get? "version").any isVersionOne = true
  runId : textOf decoded "run_id" = some a.runId
  modelAlias : textOf decoded "model_alias" = some a.modelAlias
  nonce : textOf decoded "nonce" = some a.nonce
  tokenCeiling : decoded.get? "token_ceiling" = some (.int a.tokenCeiling)
  expiresAt : decoded.int? "expires_at" = some a.expiresAt

/-- A text has two halves: the payload of an assertion, and the payload's authentication code. -/
def BudgetAssertion.CarriedBy (P : Primitives) (key : List UInt8) (a : BudgetAssertion) (value : String) :
    Prop :=
  ∃ left right payload decoded, halves value = some (left, right) ∧ b64decode left = .ok payload ∧
    b64decode right = .ok (P.mac key payload) ∧ P.loads payload = some decoded ∧ a.ReadFrom decoded

theorem readFrom_of_readPayload {decoded : Message} {policyAlias : String} {now : Time}
    {a : BudgetAssertion} (h : readPayload decoded policyAlias now = .ok a) : a.ReadFrom decoded := by
  simp only [readPayload, bind_eq_ok, ensure_eq_ok, fetch_eq_ok, pure_eq_ok] at h
  obtain ⟨⟨⟩, hfields, ⟨⟩, hversion, runId, hrun, ⟨⟩, -, ⟨⟩, halias, nonce, hnonce, ⟨⟩, -, ceiling,
    hceiling, expiresAt, hexpiry, ⟨⟩, -, ⟨⟩, -, rfl⟩ := h
  exact ⟨hfields, hversion, hrun, halias, hnonce, (positiveInteger_eq_ok_iff.1 hceiling).1, hexpiry⟩

theorem carriedBy_of_verify {P : Primitives} {key : List UInt8} {value policyAlias : String} {now : Time}
    {a : BudgetAssertion} (h : verifyBudgetAssertion P key value policyAlias now = .ok a) :
    a.CarriedBy P key value := by
  simp only [verifyBudgetAssertion, bind_eq_ok, ensure_eq_ok, fetch_eq_ok] at h
  obtain ⟨⟨⟩, -, ⟨left, right⟩, hhalves, payload, hpayload, signature, hsignature, ⟨⟩, rfl, decoded,
    hdecoded, hread⟩ := h
  exact ⟨left, right, payload, decoded, hhalves, hpayload, hsignature, hdecoded,
    readFrom_of_readPayload hread⟩

/-- What the issuer and the gateway owe each other under a key. -/
structure AssertionRoundTrip (P : Primitives) (key : List UInt8) : Prop where
  /-- What was issued is read back as it was issued, while it lives and if it does not live too
  long. -/
  issued : ∀ (runId modelAlias nonce text : String) (tokenCeiling : ℤ) (expiresAt now : Time),
    issueBudgetAssertion P key runId modelAlias tokenCeiling expiresAt nonce = .ok text →
      now.posix < expiresAt.posix → expiresAt.posix ≤ now.posix + 300 →
        verifyBudgetAssertion P key text modelAlias now =
          .ok ⟨runId, modelAlias, tokenCeiling, expiresAt.posix, nonce⟩
  /-- What is verified carries an authenticated payload, of the expected alias and within the
  issuer's patterns and bounds. -/
  verified : ∀ (value policyAlias : String) (now : Time) (a : BudgetAssertion),
    verifyBudgetAssertion P key value policyAlias now = .ok a →
      a.CarriedBy P key value ∧ a.modelAlias = policyAlias ∧ a.WellFormed ∧ a.Alive now

/-- **The issuer and the gateway agree on every assertion**, under every key and whatever the payload
looks like. -/
theorem assertionRoundTrip (P : Primitives) (key : List UInt8) : AssertionRoundTrip P key where
  issued _ _ _ _ _ _ _ htext halive hlifetime := verify_issue htext halive hlifetime
  verified _ _ _ _ h := by
    obtain ⟨hwell, halive, halias⟩ := verify_eq_ok h
    exact ⟨carriedBy_of_verify h, halias, hwell, halive⟩

end CivicLoop.Gateway
