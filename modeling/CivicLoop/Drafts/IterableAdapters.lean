import CivicLoop.Drafts.Adapter
import CivicLoop.Foundation.LocalTime
import Mathlib

/-!
# The Iterable adapters

One adapter creates campaigns on a template, the other one templates. A creation reads before it writes: the source
template of a campaign must have the approved content, and no template may have the client's identifier yet. After the
POST, and in a reconciliation, what was created is read back.

## Main definitions

* `IterableDrafts.create`, `IterableDrafts.reconcile` : campaigns; `IterableDrafts.Confirms` : what was read back.
* `IterableTemplates.create`, `IterableTemplates.reconcile` : templates; `IterableTemplates.Confirms` : what was read
  back.
* `IterableSound` : what holds of the four programs.

## Main results

* `IterableDrafts.create_spec`, `IterableTemplates.create_spec` : the outcomes, whatever the provider answers.
* `iterableSound` : at most one guarded POST, and a confirmed receipt only after confirming GETs.

## References

Source: `backend/integrations/iterable_drafts.py`, lines 27–49, 85–147 and 158–405, and
`backend/integrations/iterable_templates.py`, lines 144–299.
-/

namespace CivicLoop

open Drafts

/-! ### Numbers in texts -/

theorem toDigits_digit : ∀ n : Fin 10, Nat.toDigits 10 n = [Char.ofNat (48 + n)] := by decide

theorem isDigit_bounds {c : Char} (h : c.isDigit = true) : 48 ≤ c.toNat ∧ c.toNat ≤ 57 := by
  simp only [Char.isDigit, Bool.and_eq_true, decide_eq_true_eq] at h
  exact h

/-- A number without leading zeros is written as it was read. -/
theorem toDigits_digitsValue {cs : List Char} (hne : cs ≠ []) (hdigit : ∀ c ∈ cs, c.isDigit = true)
    (hzero : cs.head? ≠ some '0') : Nat.toDigits 10 (digitsValue cs) = cs := by
  induction cs using List.reverseRecOn with
  | nil => exact absurd rfl hne
  | append_singleton cs c ih =>
    obtain ⟨hmin, hmax⟩ := isDigit_bounds (hdigit c (by simp))
    have hlt : c.toNat - 48 < 10 := by omega
    have hlast : Nat.toDigits 10 (c.toNat - 48) = [c] := by
      have hc := toDigits_digit ⟨c.toNat - 48, hlt⟩
      rwa [show 48 + (c.toNat - 48) = c.toNat by omega, Char.ofNat_toNat] at hc
    rw [digitsValue_append]
    by_cases hcs : cs = []
    · subst hcs
      simpa [digitsValue] using hlast
    · rw [List.head?_append_of_ne_nil _ hcs] at hzero
      have hinit := ih hcs (fun c' hc' => hdigit c' (List.mem_append_left _ hc')) hzero
      have hpos : 0 < digitsValue cs := by
        by_contra hnot
        rw [show digitsValue cs = 0 by omega] at hinit
        rw [← hinit] at hzero
        exact hzero rfl
      rw [← Nat.toDigits_append_toDigits (by omega) hpos hlt, hinit, hlast]

variable {D : Type} [DecidableEq D]

/-! ### Campaigns -/

namespace IterableDrafts

/-- `_CONTENT_FIELDS`. -/
def contentKeys : List String :=
  ["fromEmail", "fromName", "replyToEmail", "subject", "html", "plainText", "preheaderText", "bccEmails", "ccEmails",
    "messageTypeId", "dataFeedIds", "dataFeedId", "linkParams", "googleAnalyticsCampaignName", "cacheDataFeed",
    "mergeDataFeedContext", "campaignDataFields"]

/-- The keys of a campaign in a readback digest. -/
def campaignKeys : List String :=
  ["id", "name", "campaignState", "messageMedium", "type", "startAt", "endedAt", "templateId", "listIds",
    "suppressionListIds", "updatedAt", "workflowId", "recurringCampaignId"]

/-- `template_content_digest`. -/
def templateContentDigest (E : AdapterEnv D) (template : Json D) : Except Raise D :=
  digestOf E (itemsOf contentKeys template)

/-- `readback_digest`. -/
def readbackDigest (E : AdapterEnv D) (campaign : Json D) (templateDigest : Text D) : Except Raise D :=
  digestOf E (.obj [("campaign", itemsOf campaignKeys campaign), ("template_digest", .str templateDigest)])

/-- `_identifier`. -/
def identifierOf : Json D → Except Raise ℤ
  | .int n => if isIdentifier (.int n : Json D) then .ok n else .error (some "invalid_request")
  | _ => .error (some "invalid_request")

/-- A number in a path: `[1-9][0-9]{0,18}`. -/
def isPathId (n : ℤ) : Bool := 1 ≤ n && n < 10 ^ 19

/-- `GET /api/templates/email/get?templateId={template_id}`. -/
def getTemplate (region : Json D) (templateId : ℤ) : AdapterTalk D (Json D) :=
  send (isRegion region && isPathId templateId) (.get (.template templateId))

/-- The template that was asked for, and the digest of its content. -/
def contentOf (E : AdapterEnv D) (templateId : ℤ) (template : Json D) : Except Raise D := do
  ensure (template.item "templateId" = .int templateId) (some "identity_mismatch")
  templateContentDigest E template

/-- `_template`. -/
def templateOf (E : AdapterEnv D) (region : Json D) (templateId : ℤ) : AdapterTalk D D := do
  let template ← getTemplate region templateId
  contentOf E templateId template

/-- The state of a campaign, if it is a string. -/
def stateOf (campaign : Json D) : Option String :=
  match campaign.item "campaignState" with
  | .str (.lit s) => some s
  | _ => none

/-- The states that a receipt may hold. -/
def knownStates : List String :=
  ["Draft", "Ready", "Scheduled", "Running", "Finished", "Starting", "Aborted", "Recurring", "Archived"]

/-- An email blast that is a draft or ready, and is not scheduled. -/
def isUnscheduledBlast (E : AdapterEnv D) (campaign : Json D) : Bool :=
  (stateOf campaign).any ["Draft", "Ready"].contains && (campaign.item "type").pyEq E.floats (.lit "Blast") &&
    (campaign.item "messageMedium").pyEq E.floats (.lit "Email") &&
    ["startAt", "endedAt", "workflowId", "recurringCampaignId"].all fun key => isNone (campaign.item key)

/-- The integers of a list of integers. -/
def intsOf : Json D → Option (List ℤ)
  | .arr items => items.mapM fun item => match item with
    | .int n => some n
    | _ => none
  | _ => none

/-- Both are lists of integers, and are equal when they are sorted. -/
def sameIds (actual expected : Json D) : Bool :=
  match intsOf actual, intsOf expected with
  | some ids, some ids' => ids.insertionSort (· ≤ ·) == ids'.insertionSort (· ≤ ·)
  | _, _ => false

/-- The checks of a campaign that was read back, up to its template. -/
def checkCampaign (E : AdapterEnv D) (campaignId : ℤ) (payload campaign : Json D) : Except Raise ℤ := do
  ensure (campaign.item "id" = .int campaignId) (some "identity_mismatch")
  ensure (isUnscheduledBlast E campaign) (some "unsafe_provider_state")
  ensure ((campaign.item "name").pyEq E.floats (payload.item "name")) (some "readback_mismatch")
  ensure (∀ key ∈ ["listIds", "suppressionListIds"], sameIds (campaign.item key) (payload.item key))
    (some "readback_mismatch")
  let copied ← fetch (campaign.get? "templateId") (some "unverifiable_template")
  identifierOf copied

/-- The check of the copied template, and the receipt. -/
def readBack (E : AdapterEnv D) (campaignId : ℤ) (campaign : Json D) (digest : D) (templateDigest : Text D)
    (copiedDigest : D) : Except Raise (DraftReceipt D) := do
  ensure (Text.hex copiedDigest = templateDigest) (some "readback_mismatch")
  let readback ← readbackDigest E campaign templateDigest
  return confirmedReceipt (.lit (toString campaignId)) ((stateOf campaign).getD "") digest readback

/-- `_confirm`, once the campaign was read. -/
def confirmCampaign (E : AdapterEnv D) (region : Json D) (campaignId : ℤ) (payload : Json D) (digest : D)
    (templateDigest : Text D) (campaign : Json D) : AdapterTalk D (DraftReceipt D) := do
  let copied ← checkCampaign E campaignId payload campaign
  let copiedDigest ← templateOf E region copied
  readBack E campaignId campaign digest templateDigest copiedDigest

/-- `_confirm`. -/
def confirm (E : AdapterEnv D) (region : Json D) (campaignId : ℤ) (payload : Json D) (digest : D)
    (templateDigest : Text D) : AdapterTalk D (DraftReceipt D) := do
  let id := Text.lit (toString campaignId)
  let reply ← Talk.attempt (send (isRegion region && isPathId campaignId) (.get (.campaign campaignId)))
  match reply with
  | .error e => liftM (afterRead (some id) none digest (.error e))
  | .ok campaign => do
    let reply ← Talk.attempt (confirmCampaign E region campaignId payload digest templateDigest campaign)
    afterRead (some id) ((stateOf campaign).filter knownStates.contains) digest reply

/-- What follows the answer to the POST of a campaign. -/
def created (E : AdapterEnv D) (region validated : Json D) (digest : D) (templateDigest : Text D)
    (reply : Except Raise (Json D)) : AdapterTalk D (DraftReceipt D) :=
  match reply >>= fun result => identifierOf (result.item "campaignId") with
  | .error e => liftM (afterWrite none digest e)
  | .ok campaignId => confirm E region campaignId validated digest templateDigest

/-- The POST of a campaign. -/
def postCampaign (region payload : Json D) : AdapterTalk D (Json D) :=
  send (isRegion region && (validatePayload payload).isSome) (.post .createCampaign payload)

/-- `create`. -/
def create (E : AdapterEnv D) (c : Credential) (payload region expectedTemplateDigest : Json D) :
    AdapterTalk D (DraftReceipt D) := do
  let validated ← fetch (validatePayload payload) (some "invalid_request")
  let digest ← fetch (computeRequestDigest E.H region validated expectedTemplateDigest) (some "invalid_request")
  withToken "iterable" "iterable_draft_write" c do
    let templateDigest ← templateOf E region ((validated.int? "templateId").getD 0)
    ensure (.str (.hex templateDigest) = expectedTemplateDigest) (some "stale_template")
    let reply ← Talk.attempt (postCampaign region validated)
    created E region validated digest (.hex templateDigest) reply

/-- `int` of the text of a campaign: `[1-9][0-9]{0,18}`. -/
def campaignIdOf : Text D → Option ℤ
  | .lit s =>
    match s.toList with
    | c :: cs =>
      if c.isDigit && c != '0' && cs.all Char.isDigit && cs.length ≤ 18 then some (digitsValue (c :: cs)) else none
    | [] => none
  | _ => none

/-- `reconcile`. -/
def reconcile (E : AdapterEnv D) (c : Credential) (payload region expectedTemplateDigest : Json D)
    (campaignId : Option (Text D)) (requestDigest : D) : AdapterTalk D (DraftReceipt D) := do
  let validated ← fetch (validatePayload payload) (some "invalid_request")
  let digest ← fetch (computeRequestDigest E.H region validated expectedTemplateDigest) (some "invalid_request")
  ensure (digest = requestDigest) (some "invalid_request")
  match campaignId with
  | none => return unknownReceipt none none digest "human_reconciliation_required"
  | some campaignId => do
    let id ← fetch (campaignIdOf campaignId) (some "invalid_request")
    let id ← identifierOf (.int id : Json D)
    let templateDigest ← match expectedTemplateDigest with
      | .str t => pure t
      | _ => Talk.raise (some "invalid_request")
    withToken "iterable" "iterable_draft_write" c (confirm E region id validated digest templateDigest)

end IterableDrafts

/-! ### Templates -/

namespace IterableTemplates

/-- An identifier in a path: `civicloop-[0-9a-f-]{36}`. -/
def isPathClientId : Text D → Bool
  | .lit s =>
    s.toList.take 10 == "civicloop-".toList && s.toList.length == 46 &&
      (s.toList.drop 10).all fun c => c.isDigit || ('a' ≤ c && c ≤ 'f') || c == '-'
  | _ => false

/-- The entries of a lookup. -/
def entriesOf (result : Json D) : Except Raise (List (Json D)) := do
  match result.item "templates" with
  | .arr entries => do
    ensure (entries.length ≤ 100) (some "invalid_response")
    entries.forM fun entry => do
      ensure entry.isObj (some "invalid_response")
      let _ ← IterableDrafts.identifierOf (entry.item "templateId")
    return entries
  | _ => .error (some "invalid_response")

/-- The client's identifier of a template. -/
def clientIdOf (payload : Json D) : Text D := (payload.text? "clientTemplateId").getD (.lit "")

/-- `_lookup`. -/
def lookup (region : Json D) (clientId : Text D) : AdapterTalk D (List (Json D)) := do
  let result ← send (IterableDrafts.isRegion region && isPathClientId clientId) (.get (.clientTemplate clientId))
  entriesOf result

/-- The template of the only entry, which is tied to no campaign and is the recorded one. -/
def ownEntry (providerId : Option (Text D)) (entries : List (Json D)) : Except Raise ℤ :=
  match entries with
  | [entry] => do
    ensure (isNone (entry.item "campaignId")) (some "identity_mismatch")
    let templateId ← IterableDrafts.identifierOf (entry.item "templateId")
    ensure ((given providerId).all fun id => decide (id = .lit (toString templateId))) (some "identity_mismatch")
    return templateId
  | _ => .error (some "identity_mismatch")

/-- The content fields that must be empty. -/
def emptyKeys : List String :=
  ["bccEmails", "ccEmails", "dataFeedIds", "dataFeedId", "linkParams", "googleAnalyticsCampaignName",
    "campaignDataFields", "preheaderText"]

/-- The content fields that must be off. -/
def offKeys : List String := ["cacheDataFeed", "mergeDataFeedContext"]

/-- `None`, an empty list or an empty string. -/
def isEmptyValue (E : AdapterEnv D) (value : Json D) : Bool :=
  isNone value || value.pyEq E.floats (.arr []) || value.pyEq E.floats (.lit "")

/-- `None` or `False`. -/
def isOff (value : Json D) : Bool := isNone value || EventbriteDrafts.isFalse value

/-- The items of a payload. -/
def payloadItems : Json D → List (String × Json D)
  | .obj items => items
  | _ => []

/-- The checks of a template that was read back, and its receipt. -/
def readBack (E : AdapterEnv D) (payload : Json D) (digest : D) (templateId : ℤ) (template : Json D) :
    Except Raise (DraftReceipt D) := do
  ensure (template.item "templateId" = .int templateId) (some "identity_mismatch")
  ensure (∀ item ∈ payloadItems payload, (template.item item.1).pyEq E.floats item.2) (some "readback_mismatch")
  ensure (∀ key ∈ emptyKeys, isEmptyValue E (template.item key)) (some "readback_mismatch")
  ensure (∀ key ∈ offKeys, isOff (template.item key)) (some "readback_mismatch")
  let readback ← IterableDrafts.templateContentDigest E template
  return confirmedReceipt (.lit (toString templateId)) "template" digest readback

/-- `_confirm`. -/
def confirm (E : AdapterEnv D) (region payload : Json D) (digest : D) (providerId : Option (Text D)) :
    AdapterTalk D (DraftReceipt D) := do
  let reply ← Talk.attempt (lookup region (clientIdOf payload))
  match reply >>= ownEntry providerId with
  | .error e => liftM (afterRead providerId none digest (.error e))
  | .ok templateId => do
    let reply ← Talk.attempt do
      let template ← IterableDrafts.getTemplate region templateId
      readBack E payload digest templateId template
    afterRead (some (.lit (toString templateId))) none digest reply

/-- The POST of a template. -/
def postTemplate (H : Hash D) (region payload : Json D) : AdapterTalk D (Json D) :=
  send (IterableDrafts.isRegion region && (validateTemplatePayload H payload).isSome &&
    payloadVersion payload == some .two) (.post .upsertTemplate payload)

/-- What follows the answer to the POST of a template: nothing is known after the adapter's errors. -/
def created (E : AdapterEnv D) (region validated : Json D) (digest : D) (reply : Except Raise (Json D)) :
    AdapterTalk D (DraftReceipt D) :=
  match reply with
  | .error none => Talk.raise none
  | .error (some category) => pure (unknownReceipt none none digest category)
  | .ok _ => confirm E region validated digest none

/-- `create`. -/
def create (E : AdapterEnv D) (c : Credential) (payload region : Json D) : AdapterTalk D (DraftReceipt D) := do
  let validated ← fetch (validateTemplatePayload E.H payload) (some "invalid_request")
  ensure (payloadVersion validated = some .two) (some "invalid_request")
  let digest ← fetch (computeRequestDigest E.H region validated) (some "invalid_request")
  withToken "iterable" "iterable_draft_write" c do
    let entries ← lookup region (clientIdOf validated)
    ensure (entries = []) (some "unowned_collision")
    let reply ← Talk.attempt (postTemplate E.H region validated)
    created E region validated digest reply

/-- `reconcile`. -/
def reconcile (E : AdapterEnv D) (c : Credential) (payload region : Json D) (providerId : Option (Text D))
    (requestDigest : D) : AdapterTalk D (DraftReceipt D) := do
  let validated ← fetch (validateTemplatePayload E.H payload) (some "invalid_request")
  let digest ← fetch (computeRequestDigest E.H region validated) (some "invalid_request")
  ensure (digest = requestDigest) (some "invalid_request")
  withToken "iterable" "iterable_draft_write" c (confirm E region validated digest providerId)

end IterableTemplates

/-! ### What was read back of a campaign -/

namespace IterableDrafts

/-- The campaign that was read is the created one: an unscheduled email blast with the name and the lists of the payload,
on a copy of the template with the content. -/
structure Confirms (E : AdapterEnv D) (campaignId : ℤ) (payload : Json D) (templateDigest : Text D) (campaign : Json D)
    (templateId : ℤ) (template : Json D) : Prop where
  id : campaign.item "id" = .int campaignId
  blast : isUnscheduledBlast E campaign = true
  name : (campaign.item "name").pyEq E.floats (payload.item "name") = true
  lists : ∀ key ∈ ["listIds", "suppressionListIds"], ∃ ids ids', intsOf (campaign.item key) = some ids ∧
    intsOf (payload.item key) = some ids' ∧ ids.Perm ids'
  copied : campaign.get? "templateId" = some (.int templateId)
  source : template.item "templateId" = .int templateId
  content : ∃ d, templateContentDigest E template = .ok d ∧ templateDigest = .hex d

omit [DecidableEq D] in
theorem sameIds_iff {actual expected : Json D} : sameIds actual expected = true ↔
    ∃ ids ids', intsOf actual = some ids ∧ intsOf expected = some ids' ∧ ids.Perm ids' := by
  unfold sameIds
  constructor
  · intro h
    split at h
    · rename_i ids ids' hids hids'
      have hsorted := eq_of_beq h
      have hperm := (List.perm_insertionSort (· ≤ ·) ids).symm
      rw [hsorted] at hperm
      exact ⟨ids, ids', hids, hids', hperm.trans (List.perm_insertionSort _ ids')⟩
    · cases h
  · rintro ⟨ids, ids', hids, hids', hperm⟩
    rw [hids, hids']
    have hsorted : ids.insertionSort (· ≤ ·) = ids'.insertionSort (· ≤ ·) := by
      refine List.Perm.eq_of_pairwise' (List.pairwise_insertionSort _ ids) (List.pairwise_insertionSort _ ids') ?_
      exact (List.perm_insertionSort _ ids).trans (hperm.trans (List.perm_insertionSort _ ids').symm)
    exact beq_iff_eq.2 hsorted

omit [DecidableEq D] in
theorem identifierOf_eq_ok {j : Json D} {n : ℤ} (h : identifierOf j = .ok n) : j = .int n ∧ 0 < n ∧ n ≤ 2 ^ 63 - 1 := by
  unfold identifierOf at h
  split at h
  · split_ifs at h with hid
    cases h
    simp only [isIdentifier, Bool.and_eq_true, decide_eq_true_eq] at hid
    exact ⟨rfl, hid⟩
  · cases h

omit [DecidableEq D] in
theorem noRefusal_identifierOf (j : Json D) : NoRefusal (identifierOf j) := by
  unfold identifierOf
  split
  · split_ifs
    · exact .pure _
    · exact .error (by decide)
  · exact .error (by decide)

/-- A receipt of a campaign that two GETs confirm. -/
def Confirmed (E : AdapterEnv D) (payload : Json D) (digest : D) (templateDigest : Text D) (receipt : DraftReceipt D)
    (log : AdapterLog D) : Prop :=
  ∃ (campaignId templateId : ℤ) (campaign template : Json D) (state : String) (readback : D),
    Confirms E campaignId payload templateDigest campaign templateId template ∧ state ∈ ["Draft", "Ready"] ∧
      receipt = confirmedReceipt (.lit (toString campaignId)) state digest readback ∧
      log = [(.get (.campaign campaignId), .answered 200 (some campaign)),
        (.get (.template templateId), .answered 200 (some template))]

section Outcomes

variable {E : AdapterEnv D} {region payload : Json D} {campaignId : ℤ} {digest : D} {templateDigest : Text D}

/-- A GET of a template with its content. -/
structure TemplateRead (E : AdapterEnv D) (templateId : ℤ) (d : D) (template : Json D) (new : AdapterLog D) : Prop where
  read : new = [(.get (.template templateId), .answered 200 (some template))]
  id : template.item "templateId" = .int templateId
  content : templateContentDigest E template = .ok d

theorem templateOf_spec (E : AdapterEnv D) (region : Json D) (templateId : ℤ) :
    (templateOf E region templateId).Adds fun r new =>
      AdapterLog.posts new = [] ∧ ∀ d, r = .ok d → ∃ template, TemplateRead E templateId d template new := by
  refine Talk.adds_bind_lift (send_spec _ _) fun r new h => ?_
  cases h with
  | refused => exact ⟨rfl, fun _ h => nomatch h⟩
  | sent answer hanswer =>
    refine ⟨rfl, fun d hd => ?_⟩
    cases r with
    | error e => cases hd
    | ok template =>
      simp only [ok_bind, contentOf, bind_eq_ok, ensure_eq_ok] at hd
      obtain ⟨-, hid, hcontent⟩ := hd
      exact ⟨template, by rw [result_eq_ok hanswer], hid, hcontent⟩

theorem checkCampaign_eq_ok {campaign : Json D} {templateId : ℤ}
    (h : checkCampaign E campaignId payload campaign = .ok templateId) :
    campaign.item "id" = .int campaignId ∧ isUnscheduledBlast E campaign = true ∧
      (campaign.item "name").pyEq E.floats (payload.item "name") = true ∧
      (∀ key ∈ ["listIds", "suppressionListIds"], sameIds (campaign.item key) (payload.item key) = true) ∧
      campaign.get? "templateId" = some (.int templateId) := by
  simp only [checkCampaign, bind_eq_ok, ensure_eq_ok, fetch_eq_ok] at h
  obtain ⟨-, hid, -, hblast, -, hname, -, hlists, copied, hcopied, htemplate⟩ := h
  rw [(identifierOf_eq_ok htemplate).1] at hcopied
  exact ⟨hid, hblast, hname, hlists, hcopied⟩

theorem state_of_blast {campaign : Json D} (h : isUnscheduledBlast E campaign = true) :
    (stateOf campaign).getD "" ∈ ["Draft", "Ready"] := by
  simp only [isUnscheduledBlast, Bool.and_eq_true] at h
  obtain ⟨⟨⟨hstate, -⟩, -⟩, -⟩ := h
  cases hs : stateOf campaign with
  | none =>
    rw [hs] at hstate
    cases hstate
  | some state =>
    rw [hs, Option.any_some] at hstate
    exact List.contains_iff_mem.1 hstate

theorem confirmCampaign_spec (campaign : Json D) :
    (confirmCampaign E region campaignId payload digest templateDigest campaign).Adds fun r new =>
      AdapterLog.posts new = [] ∧ ∀ receipt, r = .ok receipt → ∃ templateId template state readback,
        Confirms E campaignId payload templateDigest campaign templateId template ∧ state ∈ ["Draft", "Ready"] ∧
          receipt = confirmedReceipt (.lit (toString campaignId)) state digest readback ∧
          new = [(.get (.template templateId), .answered 200 (some template))] := by
  refine Talk.adds_lift_bind (fun templateId hcheck => ?_) fun e _ => ⟨rfl, fun _ h => nomatch h⟩
  refine Talk.adds_bind_lift (templateOf_spec E region templateId) fun r new h => ⟨h.1, fun receipt hreceipt => ?_⟩
  cases r with
  | error e => cases hreceipt
  | ok copiedDigest =>
    obtain ⟨template, hread, hsource, hcontent⟩ := h.2 copiedDigest rfl
    simp only [ok_bind, readBack, bind_eq_ok, ensure_eq_ok, pure_eq_ok] at hreceipt
    obtain ⟨-, hsame, readback, -, rfl⟩ := hreceipt
    obtain ⟨hid, hblast, hname, hlists, hcopied⟩ := checkCampaign_eq_ok hcheck
    exact ⟨templateId, template, _, readback, ⟨hid, hblast, hname, fun key hkey => sameIds_iff.1 (hlists key hkey),
      hcopied, hsource, copiedDigest, hcontent, hsame.symm⟩, state_of_blast hblast, rfl, hread⟩

/-- **The outcomes of a confirmation**, whatever the provider answers. -/
theorem confirm_spec : (confirm E region campaignId payload digest templateDigest).Adds
    (ReadsBack (some (.lit (toString campaignId))) digest (Confirmed E payload digest templateDigest)) := by
  refine Talk.adds_attempt_bind (send_spec _ _) fun r new h => ?_
  cases h with
  | refused => exact Talk.adds_lift (.ofRead rfl (fun _ h => h) none _)
  | sent answer hanswer =>
    cases r with
    | error e => exact Talk.adds_lift (.ofRead rfl (fun _ h => h) none e)
    | ok campaign =>
      refine Talk.adds_attempt_bind (confirmCampaign_spec campaign) fun r new h => Talk.adds_lift ?_
      obtain ⟨hposts, hreceipt⟩ := h
      rw [List.append_nil]
      have hreads : AdapterLog.posts ([(.get (.campaign campaignId), answer)] ++ new) = [] := by
        rw [posts_append, hposts]
        rfl
      cases r with
      | error e => exact .ofRead hreads (fun _ h => h) _ e
      | ok receipt =>
        obtain ⟨templateId, template, state, readback, hconfirms, hstate, rfl, rfl⟩ := hreceipt receipt rfl
        refine .ofConfirmed hreads (fun _ h => h) ?_
        rw [result_eq_ok hanswer]
        exact ⟨campaignId, templateId, campaign, template, state, readback, hconfirms, hstate, rfl, rfl⟩

/-- A receipt of the campaign that the answer to the POST names. -/
def ConfirmedWrite (E : AdapterEnv D) (payload : Json D) (digest : D) (templateDigest : Text D) (answer : Answer D)
    (receipt : DraftReceipt D) (log : AdapterLog D) : Prop :=
  Confirmed E payload digest templateDigest receipt log ∧ ∃ result campaignId, answer = .answered 200 (some result) ∧
    result.item "campaignId" = .int campaignId ∧ receipt.providerId = some (.lit (toString campaignId))

theorem created_spec {answer : Answer D} {r : Except Raise (Json D)} (h : answer.result = r) :
    (created E region payload digest templateDigest r).Adds
      (AfterPost answer none digest (ConfirmedWrite E payload digest templateDigest answer)) := by
  have hnone : ∀ id : Text D, none = some id → none = some id := fun _ h => h
  cases r with
  | error e => exact Talk.adds_lift (.ofPost hnone h)
  | ok result =>
    unfold created
    rw [ok_bind]
    cases hid : identifierOf (result.item "campaignId") with
    | error e => exact Talk.adds_lift (.ofCheck hnone (noRefusal_identifierOf _) hid)
    | ok campaignId =>
      refine confirm_spec.mono fun r new h' => h'.ofNone.afterPost fun receipt hr hconfirmed => ?_
      exact ⟨hconfirmed, result, campaignId, result_eq_ok h, (identifierOf_eq_ok hid).1, h'.given receipt hr _ rfl⟩

/-- The source template was read before, and has the approved content. -/
def Guarded (E : AdapterEnv D) (payload expectedTemplateDigest : Json D) (log : AdapterLog D) : Prop :=
  ∃ d template, expectedTemplateDigest = .str (.hex d) ∧
    TemplateRead E ((payload.int? "templateId").getD 0) d template log

/-- The payload that is sent, and the digest of the request. -/
def Sends (E : AdapterEnv D) (payload region expectedTemplateDigest validated : Json D) (digest : D) : Prop :=
  validatePayload payload = some validated ∧
    computeRequestDigest E.H region validated expectedTemplateDigest = some digest

/-- What confirms a campaign with the approved template. -/
def Approved (E : AdapterEnv D) (expectedTemplateDigest payload : Json D) (digest : D) (answer : Answer D)
    (receipt : DraftReceipt D) (log : AdapterLog D) : Prop :=
  ∃ templateDigest, expectedTemplateDigest = .str templateDigest ∧
    ConfirmedWrite E payload digest templateDigest answer receipt log

/-- **The outcomes of a creation**, whatever the provider answers. -/
theorem create_spec (E : AdapterEnv D) (c : Credential) (payload region expectedTemplateDigest : Json D) :
    (create E c payload region expectedTemplateDigest).Adds
      (WriteOutcome none .createCampaign (Sends E payload region expectedTemplateDigest)
        (fun validated => Guarded E validated expectedTemplateDigest) (Approved E expectedTemplateDigest)) := by
  refine adds_fetch_bind (fun validated hvalidated => ?_) (.inl ⟨⟨_, rfl⟩, rfl⟩)
  refine adds_fetch_bind (fun digest hdigest => ?_) (.inl ⟨⟨_, rfl⟩, rfl⟩)
  refine adds_withToken ?_ fun e => .inl ⟨⟨e, rfl⟩, rfl⟩
  refine Talk.adds_bind (templateOf_spec E region _) (fun templateDigest guard hguard => ?_) fun e guard hguard =>
    .inl ⟨⟨e, rfl⟩, hguard.1⟩
  obtain ⟨hposts, hread⟩ := hguard
  obtain ⟨template, hread⟩ := hread templateDigest rfl
  refine adds_ensure_bind (fun hsame => ?_) (.inl ⟨⟨_, rfl⟩, by rwa [List.append_nil]⟩)
  refine Talk.adds_attempt_bind (send_spec _ _) fun r new h => ?_
  cases h with
  | refused =>
    refine Talk.adds_lift (.inr ⟨validated, digest, ⟨hvalidated, hdigest⟩, .inl ?_⟩)
    rw [List.append_nil, List.append_nil]
    exact .ofUnknown hposts (fun _ h => h) none _
  | sent answer hanswer =>
    refine (created_spec hanswer).mono fun r' after h => .inr ⟨validated, digest, ⟨hvalidated, hdigest⟩, .inr ?_⟩
    refine ⟨guard, answer, after, rfl, hposts, ⟨templateDigest, template, hsame.symm, hread⟩, ?_, h.refused⟩
    exact h.toReadsOnly.mono fun receipt _ h => ⟨.hex templateDigest, hsame.symm, h⟩

omit [DecidableEq D] in
/-- The recorded identifier of a campaign is the text of the number that is read. -/
theorem campaignIdOf_eq_some {t : Text D} {n : ℤ} (h : campaignIdOf t = some n) : t = .lit (toString n) := by
  unfold campaignIdOf at h
  split at h
  · rename_i s
    split at h
    · rename_i c cs hs
      split_ifs at h with hdigits
      cases h
      simp only [Bool.and_eq_true, decide_eq_true_eq, List.all_eq_true, bne_iff_ne] at hdigits
      obtain ⟨⟨⟨hc, hzero⟩, hall⟩, -⟩ := hdigits
      have htext : Nat.toDigits 10 (digitsValue (c :: cs)) = c :: cs :=
        toDigits_digitsValue (List.cons_ne_nil _ _) (List.forall_mem_cons.2 ⟨hc, hall⟩) (by simpa using hzero)
      have hstring : toString ((digitsValue (c :: cs) : ℕ) : ℤ) = String.ofList (Nat.toDigits 10 (digitsValue (c :: cs))) :=
        rfl
      rw [hstring, htext, ← hs, String.ofList_toList]
    · cases h
  · cases h

/-- What confirms a reconciled campaign. -/
def Reconciled (E : AdapterEnv D) (payload expectedTemplateDigest : Json D) (digest : D) (receipt : DraftReceipt D)
    (log : AdapterLog D) : Prop :=
  ∃ validated templateDigest, validatePayload payload = some validated ∧
    expectedTemplateDigest = .str templateDigest ∧ Confirmed E validated digest templateDigest receipt log

/-- **The outcomes of a reconciliation**, whatever the provider answers. -/
theorem reconcile_spec (E : AdapterEnv D) (c : Credential) (payload region expectedTemplateDigest : Json D)
    (campaignId : Option (Text D)) (requestDigest : D) :
    (reconcile E c payload region expectedTemplateDigest campaignId requestDigest).Adds
      (ReadsOnly campaignId requestDigest (Reconciled E payload expectedTemplateDigest requestDigest)) := by
  refine adds_fetch_bind (fun validated hvalidated => ?_) (.ofError rfl _)
  refine adds_fetch_bind (fun digest _ => ?_) (.ofError rfl _)
  refine adds_ensure_bind (fun hsame => ?_) (.ofError rfl _)
  subst hsame
  cases campaignId with
  | none => exact Talk.adds_pure (.ofUnknown rfl (fun _ h => h) none _)
  | some campaignId =>
    refine adds_fetch_bind (fun n hn => ?_) (.ofError rfl _)
    obtain rfl := campaignIdOf_eq_some hn
    refine Talk.adds_lift_bind (fun id hid => ?_) fun e _ => .ofError rfl e
    obtain ⟨hid, -⟩ := identifierOf_eq_ok hid
    obtain rfl : n = id := Json.int.inj hid
    cases hexpected : expectedTemplateDigest with
    | str templateDigest =>
      refine adds_withToken (confirm_spec.mono fun r log h => ?_) fun e => .ofError rfl e
      exact h.toReadsOnly.mono fun receipt _ h => ⟨validated, templateDigest, hvalidated, rfl, h⟩
    | _ => exact Talk.adds_raise_bind (.ofError rfl _)

end Outcomes

end IterableDrafts

/-! ### What was read back of a template -/

namespace IterableTemplates

/-- The template that was read is the created one: the only entry of its identifier, tied to no campaign, with every
field of the payload and nothing in the other fields of its content. -/
structure Confirms (E : AdapterEnv D) (payload listing : Json D) (templateId : ℤ) (template : Json D) : Prop where
  entry : ∃ entry, listing.item "templates" = .arr [entry] ∧ entry.item "templateId" = .int templateId ∧
    isNone (entry.item "campaignId") = true
  id : template.item "templateId" = .int templateId
  fields : ∀ item ∈ payloadItems payload, (template.item item.1).pyEq E.floats item.2 = true
  empty : ∀ key ∈ emptyKeys, isEmptyValue E (template.item key) = true
  off : ∀ key ∈ offKeys, isOff (template.item key) = true

/-- A receipt of a template that two GETs confirm. -/
def Confirmed (E : AdapterEnv D) (payload : Json D) (digest : D) (receipt : DraftReceipt D) (log : AdapterLog D) :
    Prop :=
  ∃ (templateId : ℤ) (listing template : Json D) (readback : D), Confirms E payload listing templateId template ∧
    receipt = confirmedReceipt (.lit (toString templateId)) "template" digest readback ∧
    log = [(.get (.clientTemplate (clientIdOf payload)), .answered 200 (some listing)),
      (.get (.template templateId), .answered 200 (some template))]

section Outcomes

variable {E : AdapterEnv D} {region payload : Json D} {digest : D} {providerId : Option (Text D)}

/-- A lookup, and the entries it has found. -/
structure LookupRead (clientId : Text D) (entries : List (Json D)) (listing : Json D) (new : AdapterLog D) : Prop where
  read : new = [(.get (.clientTemplate clientId), .answered 200 (some listing))]
  entries : listing.item "templates" = .arr entries

omit [DecidableEq D] in
theorem entriesOf_eq_ok {result : Json D} {entries : List (Json D)} (h : entriesOf result = .ok entries) :
    result.item "templates" = .arr entries := by
  unfold entriesOf at h
  split at h
  · rename_i entries' hentries
    simp only [bind_eq_ok, pure_eq_ok] at h
    obtain ⟨-, -, -, -, rfl⟩ := h
    exact hentries
  · cases h

theorem lookup_spec (region : Json D) (clientId : Text D) : (lookup region clientId).Adds fun r new =>
    AdapterLog.posts new = [] ∧ ∀ entries, r = .ok entries → ∃ listing, LookupRead clientId entries listing new := by
  refine Talk.adds_bind_lift (send_spec _ _) fun r new h => ?_
  cases h with
  | refused => exact ⟨rfl, fun _ h => nomatch h⟩
  | sent answer hanswer =>
    refine ⟨rfl, fun entries hentries => ?_⟩
    cases r with
    | error e => cases hentries
    | ok listing =>
      rw [ok_bind] at hentries
      exact ⟨listing, by rw [result_eq_ok hanswer], entriesOf_eq_ok hentries⟩

theorem ownEntry_eq_ok {entries : List (Json D)} {templateId : ℤ} (h : ownEntry providerId entries = .ok templateId) :
    (∃ entry, entries = [entry] ∧ entry.item "templateId" = .int templateId ∧
      isNone (entry.item "campaignId") = true) ∧
      ∀ id, Drafts.given providerId = some id → some (.lit (toString templateId)) = some id := by
  unfold ownEntry at h
  split at h
  · rename_i entry
    simp only [bind_eq_ok, ensure_eq_ok, pure_eq_ok] at h
    obtain ⟨-, hnone, n, hid, -, hgiven, rfl⟩ := h
    refine ⟨⟨entry, rfl, (IterableDrafts.identifierOf_eq_ok hid).1, hnone⟩, fun id h => ?_⟩
    rw [h, Option.all_some, decide_eq_true_eq] at hgiven
    rw [hgiven]
  · cases h

theorem readBack_eq_ok {listing : Json D} {templateId : ℤ} {template : Json D} {receipt : DraftReceipt D}
    (hentry : ∃ entry, listing.item "templates" = .arr [entry] ∧ entry.item "templateId" = .int templateId ∧
      isNone (entry.item "campaignId") = true) (h : readBack E payload digest templateId template = .ok receipt) :
    Confirms E payload listing templateId template ∧
      ∃ readback, receipt = confirmedReceipt (.lit (toString templateId)) "template" digest readback := by
  simp only [readBack, bind_eq_ok, ensure_eq_ok, pure_eq_ok] at h
  obtain ⟨-, hid, -, hfields, -, hempty, -, hoff, readback, -, rfl⟩ := h
  exact ⟨⟨hentry, hid, hfields, hempty, hoff⟩, readback, rfl⟩

/-- **The outcomes of a confirmation**, whatever the provider answers. -/
theorem confirm_spec : (confirm E region payload digest providerId).Adds
    (ReadsBack (Drafts.given providerId) digest (Confirmed E payload digest)) := by
  have hprovider : ∀ id, Drafts.given providerId = some id → providerId = some id := fun _ => given_eq_some
  refine Talk.adds_attempt_bind (lookup_spec region _) fun r new h => ?_
  obtain ⟨hposts, hentries⟩ := h
  cases hown : r >>= ownEntry providerId with
  | error e =>
    simp only [hown]
    exact Talk.adds_lift (.ofRead (by rwa [List.append_nil]) hprovider none e)
  | ok templateId =>
    simp only [hown]
    obtain ⟨entries, hr, hentry⟩ := bind_eq_ok.1 hown
    obtain ⟨listing, hread, hlisting⟩ := hentries entries hr
    obtain ⟨⟨entry, rfl, hid, hnone⟩, hgiven⟩ := ownEntry_eq_ok hentry
    refine Talk.adds_attempt_bind (Talk.adds_bind_lift (send_spec _ _) fun r new' h => ?_) fun r new' h =>
      Talk.adds_lift (by rwa [List.append_nil])
    cases h with
    | refused => exact .ofRead (by rwa [List.append_nil]) hgiven none _
    | sent answer hanswer =>
      have hreads : AdapterLog.posts (new ++ [(.get (.template templateId), answer)]) = [] := by
        rw [posts_append, hposts]
        rfl
      cases r with
      | error e => exact .ofRead hreads hgiven none e
      | ok template =>
        rw [ok_bind]
        cases hback : readBack E payload digest templateId template with
        | error e => exact .ofRead hreads hgiven none e
        | ok receipt =>
          obtain ⟨hconfirms, readback, rfl⟩ := readBack_eq_ok ⟨entry, hlisting, hid, hnone⟩ hback
          refine .ofConfirmed hreads hgiven ⟨templateId, listing, template, readback, hconfirms, rfl, ?_⟩
          rw [hread, result_eq_ok hanswer]
          rfl

theorem created_spec {answer : Answer D} (r : Except Raise (Json D)) : (created E region payload digest r).Adds
    (AfterPost answer none digest (Confirmed E payload digest)) := by
  have hnone : ∀ id : Text D, none = some id → none = some id := fun _ h => h
  cases r with
  | error e =>
    cases e with
    | none => exact Talk.adds_raise ⟨.ofError rfl none, fun _ h => nomatch h⟩
    | some category => exact Talk.adds_pure ⟨.ofUnknown rfl hnone none category, fun _ h => nomatch h⟩
  | ok _ => exact confirm_spec.mono fun r new h => h.ofNone.afterPost fun _ _ h => h

/-- No template had the identifier before. -/
def Guarded (payload : Json D) (log : AdapterLog D) : Prop :=
  ∃ listing, LookupRead (clientIdOf payload) [] listing log

/-- The payload that is sent, and the digest of the request. -/
def Sends (E : AdapterEnv D) (payload region validated : Json D) (digest : D) : Prop :=
  validateTemplatePayload E.H payload = some validated ∧ computeRequestDigest E.H region validated = some digest

/-- **The outcomes of a creation**, whatever the provider answers. -/
theorem create_spec (E : AdapterEnv D) (c : Credential) (payload region : Json D) :
    (create E c payload region).Adds (WriteOutcome none .upsertTemplate (Sends E payload region) Guarded
      fun validated digest _ => Confirmed E validated digest) := by
  refine adds_fetch_bind (fun validated hvalidated => ?_) (.inl ⟨⟨_, rfl⟩, rfl⟩)
  refine adds_ensure_bind (fun _ => ?_) (.inl ⟨⟨_, rfl⟩, rfl⟩)
  refine adds_fetch_bind (fun digest hdigest => ?_) (.inl ⟨⟨_, rfl⟩, rfl⟩)
  refine adds_withToken ?_ fun e => .inl ⟨⟨e, rfl⟩, rfl⟩
  refine Talk.adds_bind (lookup_spec region _) (fun entries guard hguard => ?_) fun e guard hguard =>
    .inl ⟨⟨e, rfl⟩, hguard.1⟩
  obtain ⟨hposts, hread⟩ := hguard
  refine adds_ensure_bind (fun hempty => ?_) (.inl ⟨⟨_, rfl⟩, by rwa [List.append_nil]⟩)
  subst hempty
  refine Talk.adds_attempt_bind (send_spec _ _) fun r new h => ?_
  cases h with
  | refused =>
    refine Talk.adds_pure (.inr ⟨validated, digest, ⟨hvalidated, hdigest⟩, .inl ?_⟩)
    rw [List.append_nil, List.append_nil]
    exact .ofUnknown hposts (fun _ h => h) none _
  | sent answer hanswer =>
    exact (created_spec r).mono fun r' after h =>
      .inr ⟨validated, digest, ⟨hvalidated, hdigest⟩, .inr ⟨guard, answer, after, rfl, hposts, hread [] rfl, h⟩⟩

/-- What confirms a reconciled template. -/
def Reconciled (E : AdapterEnv D) (payload : Json D) (digest : D) (receipt : DraftReceipt D) (log : AdapterLog D) :
    Prop :=
  ∃ validated, validateTemplatePayload E.H payload = some validated ∧ Confirmed E validated digest receipt log

/-- **The outcomes of a reconciliation**, whatever the provider answers. -/
theorem reconcile_spec (E : AdapterEnv D) (c : Credential) (payload region : Json D) (providerId : Option (Text D))
    (requestDigest : D) : (reconcile E c payload region providerId requestDigest).Adds
      (ReadsOnly (Drafts.given providerId) requestDigest (Reconciled E payload requestDigest)) := by
  refine adds_fetch_bind (fun validated hvalidated => ?_) (.ofError rfl _)
  refine adds_fetch_bind (fun digest _ => ?_) (.ofError rfl _)
  refine adds_ensure_bind (fun hsame => ?_) (.ofError rfl _)
  subst hsame
  refine adds_withToken (confirm_spec.mono fun r log h => ?_) fun e => .ofError rfl e
  exact h.toReadsOnly.mono fun receipt _ h => ⟨validated, hvalidated, h⟩

end Outcomes

end IterableTemplates

/-! ### The four programs -/

section Programs

variable {given : Option (Text D)} {endpoint : Endpoint D} {sends : Json D → D → Prop}
  {guard : Json D → AdapterLog D → Prop} {r : Except Raise (DraftReceipt D)} {log : AdapterLog D}

/-- A creation sends at most one POST, of the validated payload and behind its guard. Its receipt is one of an outcome
that is not known, or is confirmed by the exchanges after the POST. -/
structure CreateSound (endpoint : Endpoint D) (sends : Json D → D → Prop) (guard : Json D → AdapterLog D → Prop)
    (confirmed : Json D → D → Answer D → DraftReceipt D → AdapterLog D → Prop) (r : Except Raise (DraftReceipt D))
    (log : AdapterLog D) : Prop where
  once : log.posts.length ≤ 1
  guarded : ∀ exchange ∈ log.posts, ∃ payload digest before after, sends payload digest ∧
    exchange.1 = .post endpoint payload ∧ log = before ++ exchange :: after ∧ guard payload before
  receipts : ∀ receipt, r = .ok receipt → receipt.outcome = "UNKNOWN" ∨ receipt.outcome = "CONFIRMED" ∧
    ∃ payload digest before answer after, sends payload digest ∧
      log = before ++ (.post endpoint payload, answer) :: after ∧ confirmed payload digest answer receipt after

/-- A reconciliation only reads, and its receipt is one of an outcome that is not known, or is confirmed. -/
structure ReconcileSound (confirmed : DraftReceipt D → AdapterLog D → Prop) (r : Except Raise (DraftReceipt D))
    (log : AdapterLog D) : Prop where
  posts : log.posts = []
  receipts : ∀ receipt, r = .ok receipt →
    receipt.outcome = "UNKNOWN" ∨ receipt.outcome = "CONFIRMED" ∧ confirmed receipt log

omit [DecidableEq D] in
theorem CreateSound.ofOutcome {confirmed : Json D → D → Answer D → DraftReceipt D → AdapterLog D → Prop}
    (hconfirmed : ∀ payload digest answer receipt log, confirmed payload digest answer receipt log →
      receipt.outcome = "CONFIRMED") (h : WriteOutcome given endpoint sends guard confirmed r log) :
    CreateSound endpoint sends guard confirmed r log := by
  refine ⟨h.posts.1, fun exchange hexchange => ?_, fun receipt hr => ?_⟩
  · obtain ⟨-, hposts⟩ | ⟨payload, digest, hsends, h | h⟩ := h
    · rw [hposts] at hexchange
      cases hexchange
    · rw [h.posts] at hexchange
      cases hexchange
    · obtain ⟨before, answer, after, rfl, hbefore, hguard, hafter⟩ := h
      have hposts : AdapterLog.posts (before ++ (.post endpoint payload, answer) :: after) =
          [(.post endpoint payload, answer)] := by
        have hcons : AdapterLog.posts ((HttpRequest.post endpoint payload, answer) :: after) =
            (.post endpoint payload, answer) :: AdapterLog.posts after := List.filter_cons_of_pos rfl
        rw [posts_append, hbefore, List.nil_append, hcons, hafter.posts]
      rw [hposts] at hexchange
      obtain rfl := List.mem_singleton.1 hexchange
      exact ⟨payload, digest, before, after, hsends, rfl, rfl, hguard⟩
  · subst hr
    obtain ⟨payload, digest, hsends, -, hform⟩ := h.receipt
    obtain ⟨id, status, category, rfl⟩ | ⟨before, answer, after, hlog, hafter⟩ := hform
    · exact .inl rfl
    · exact .inr ⟨hconfirmed _ _ _ _ _ hafter, payload, digest, before, answer, after, hsends, hlog, hafter⟩

omit [DecidableEq D] in
theorem ReconcileSound.ofReadsOnly {digest : D} {confirmed : DraftReceipt D → AdapterLog D → Prop}
    (hconfirmed : ∀ receipt log, confirmed receipt log → receipt.outcome = "CONFIRMED")
    (h : ReadsOnly given digest confirmed r log) : ReconcileSound confirmed r log := by
  refine ⟨h.posts, fun receipt hr => ?_⟩
  obtain ⟨id, status, category, rfl⟩ | h := h.receipts receipt hr
  · exact .inl rfl
  · exact .inr ⟨hconfirmed receipt log h, h⟩

/-- What holds of the creations and the reconciliations of campaigns and of templates. -/
structure IterableSound (E : AdapterEnv D) (c : Credential) (payload region : Json D) : Prop where
  createCampaign : ∀ expected, (IterableDrafts.create E c payload region expected).Adds
    (CreateSound .createCampaign (IterableDrafts.Sends E payload region expected)
      (fun validated => IterableDrafts.Guarded E validated expected) (IterableDrafts.Approved E expected))
  reconcileCampaign : ∀ expected campaignId requestDigest,
    (IterableDrafts.reconcile E c payload region expected campaignId requestDigest).Adds
      (ReconcileSound (IterableDrafts.Reconciled E payload expected requestDigest))
  createTemplate : (IterableTemplates.create E c payload region).Adds
    (CreateSound .upsertTemplate (IterableTemplates.Sends E payload region) IterableTemplates.Guarded
      fun validated digest _ => IterableTemplates.Confirmed E validated digest)
  reconcileTemplate : ∀ providerId requestDigest,
    (IterableTemplates.reconcile E c payload region providerId requestDigest).Adds
      (ReconcileSound (IterableTemplates.Reconciled E payload requestDigest))

/-- **At most one guarded POST, and a confirmed receipt only after confirming GETs**, whatever the provider answers. -/
theorem iterableSound (E : AdapterEnv D) (c : Credential) (payload region : Json D) :
    IterableSound E c payload region where
  createCampaign expected := by
    refine (IterableDrafts.create_spec E c payload region expected).mono fun r log h =>
      .ofOutcome (fun payload digest answer receipt log h => ?_) h
    obtain ⟨templateDigest, -, ⟨_, _, _, _, _, _, -, -, rfl, -⟩, -⟩ := h
    rfl
  reconcileCampaign expected campaignId requestDigest := by
    refine (IterableDrafts.reconcile_spec E c payload region expected campaignId requestDigest).mono fun r log h =>
      .ofReadsOnly (fun receipt log h => ?_) h
    obtain ⟨_, _, -, -, _, _, _, _, _, _, -, -, rfl, -⟩ := h
    rfl
  createTemplate := by
    refine (IterableTemplates.create_spec E c payload region).mono fun r log h =>
      .ofOutcome (fun payload digest answer receipt log h => ?_) h
    obtain ⟨_, _, _, _, -, rfl, -⟩ := h
    rfl
  reconcileTemplate providerId requestDigest := by
    refine (IterableTemplates.reconcile_spec E c payload region providerId requestDigest).mono fun r log h =>
      .ofReadsOnly (fun receipt log h => ?_) h
    obtain ⟨_, -, _, _, _, _, -, rfl, -⟩ := h
    rfl

end Programs

end CivicLoop
