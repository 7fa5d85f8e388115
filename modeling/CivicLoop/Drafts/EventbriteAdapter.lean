import CivicLoop.Drafts.Adapter

/-!
# The Eventbrite adapter

Creates and updates of draft events. A write is one POST, and a GET after it confirms what was written. An error of the
provider before the POST, or a refusal of the POST, is raised; anything else that goes wrong after the POST gives a
receipt of an unknown outcome.

## Main definitions

* `draftOf` : the checks of an event; `fieldMatches` : a field that was read back.
* `confirm`, `create`, `update`, `reconcile` : the programs.
* `Confirms` : what a confirming GET has shown.
* `WriteOutcome` : what can come of a write.

## Main results

* `create_spec`, `update_spec` : the outcomes of a write, whatever the provider answers.
* `reconcile_spec` : those of a reconciliation.

## References

Source: `backend/integrations/eventbrite_drafts.py`, lines 65–408.
-/

namespace CivicLoop.EventbriteDrafts

open Drafts

variable {D : Type} [DecidableEq D]

/-! ### Events of the provider -/

/-- `_identifier`. -/
def identifierOf : Json D → Except Raise (Text D)
  | .str t => if isIdentifier t then .ok t else .error (some "invalid_request")
  | _ => .error (some "invalid_request")

/-- The event is a draft, is not published and belongs to no series. -/
def isUnpublishedDraft (E : AdapterEnv D) (event : Json D) : Bool :=
  (event.item "status").pyEq E.floats (.lit "draft") && isNone (event.item "published") && !event.isTrue "is_series" &&
    !event.isTrue "is_series_parent" && isNone (event.item "series_id")

/-- `_draft`. -/
def draftOf (E : AdapterEnv D) (event : Json D) (organizationId : Text D) (eventId : Option (Text D)) :
    Except Raise (Text D) := do
  let providerId ← identifierOf (event.item "id")
  ensure (eventId.all (fun id => decide (providerId = id)) ∧
    (event.item "organization_id").pyEq E.floats (.str organizationId)) (some "identity_mismatch")
  ensure (isUnpublishedDraft E event) (some "unsafe_provider_state")
  return providerId

/-- The keys of what a readback digest is taken of. -/
def readbackKeys : List String := fields ++ ["id", "organization_id", "status", "published", "changed", "currency"]

/-- `readback_digest`. -/
def readbackDigest (E : AdapterEnv D) (event : Json D) : Except Raise D := digestOf E (itemsOf readbackKeys event)

/-- The value that was read back for a field is the expected one; of a dictionary, under the expected keys. -/
def fieldMatches (E : AdapterEnv D) (expected actual : Json D) : Bool :=
  match expected, actual with
  | .obj items, .obj _ => (itemsOf (items.map Prod.fst) actual).pyEq E.floats expected
  | _, _ => actual.pyEq E.floats expected

/-- The fields of the event of a payload. -/
def eventItems (payload : Json D) : List (String × Json D) :=
  match payload.get? "event" with
  | some (.obj items) => items
  | _ => []

/-! ### The programs -/

/-- `GET /events/{event_id}/`. -/
def getEvent (eventId : Text D) : AdapterTalk D (Json D) := send (isIdentifier eventId) (.get (.event eventId))

/-- The checks of an event that was read back, and its receipt. -/
def readBack (E : AdapterEnv D) (organizationId eventId : Text D) (payload : Json D) (digest : D) (event : Json D) :
    Except Raise (DraftReceipt D) := do
  let _ ← draftOf E event organizationId (some eventId)
  ensure (∀ item ∈ eventItems payload, fieldMatches E item.2 (event.item item.1)) (some "readback_mismatch")
  let readback ← readbackDigest E event
  return confirmedReceipt eventId "draft" digest readback

/-- `_confirm`. -/
def confirm (E : AdapterEnv D) (organizationId eventId : Text D) (payload : Json D) (digest : D) :
    AdapterTalk D (DraftReceipt D) := do
  let reply ← Talk.attempt do
    let event ← getEvent eventId
    readBack E organizationId eventId payload digest event
  afterRead (some eventId) none digest reply

/-- What follows the answer to the POST of a creation. -/
def created (E : AdapterEnv D) (organizationId : Text D) (validated : Json D) (digest : D)
    (reply : Except Raise (Json D)) : AdapterTalk D (DraftReceipt D) :=
  match reply with
  | .error e => liftM (afterWrite none digest e)
  | .ok event =>
    match identifierOf (event.item "id") with
    | .error e => liftM (afterWrite none digest e)
    | .ok eventId =>
      match draftOf E event organizationId (some eventId) with
      | .error e => liftM (afterWrite (some eventId) digest e)
      | .ok _ => confirm E organizationId eventId validated digest

/-- `create`. -/
def create (E : AdapterEnv D) (c : Credential) (organizationId : Text D) (payload : Json D) :
    AdapterTalk D (DraftReceipt D) := do
  let validated ← fetch (validatePayload E.zones true payload) (some "invalid_request")
  let digest ← fetch (computeRequestDigest E.H E.zones .create organizationId none validated) (some "invalid_request")
  withToken "eventbrite" "eventbrite_draft_write" c do
    let reply ← Talk.attempt (send (isIdentifier organizationId) (.post (.organizationEvents organizationId) validated))
    created E organizationId validated digest reply

/-- What follows the answer to the POST of an update. -/
def updated (E : AdapterEnv D) (organizationId eventId : Text D) (validated : Json D) (digest : D)
    (reply : Except Raise (Json D)) : AdapterTalk D (DraftReceipt D) :=
  match reply with
  | .error e => liftM (afterWrite (some eventId) digest e)
  | .ok event =>
    match draftOf E event organizationId (some eventId) with
    | .error e => liftM (afterWrite (some eventId) digest e)
    | .ok _ => confirm E organizationId eventId validated digest

/-- `update`. -/
def update (E : AdapterEnv D) (c : Credential) (organizationId eventId : Text D) (payload : Json D)
    (expectedReadbackDigest : Text D) : AdapterTalk D (DraftReceipt D) := do
  let validated ← fetch (validatePayload E.zones false payload) (some "invalid_request")
  let digest ← fetch (computeRequestDigest E.H E.zones .update organizationId (some eventId) validated)
    (some "invalid_request")
  ensure expectedReadbackDigest.isHex64 (some "invalid_request")
  withToken "eventbrite" "eventbrite_draft_write" c do
    let before ← getEvent eventId
    let _ ← draftOf E before organizationId (some eventId)
    let readback ← readbackDigest E before
    ensure (Text.hex readback = expectedReadbackDigest) (some "stale_revision")
    let reply ← Talk.attempt (send (isIdentifier eventId) (.post (.event eventId) validated))
    updated E organizationId eventId validated digest reply

/-- `reconcile`. -/
def reconcile (E : AdapterEnv D) (c : Credential) (organizationId : Text D) (eventId : Option (Text D))
    (payload : Json D) (requestDigest : D) (action : DraftAction) : AdapterTalk D (DraftReceipt D) := do
  let validated ← fetch (validatePayload E.zones (action == .create) payload) (some "invalid_request")
  let expected ← fetch (computeRequestDigest E.H E.zones action organizationId
    (if action = .update then eventId else none) validated) (some "invalid_request")
  ensure (expected = requestDigest) (some "invalid_request")
  match eventId with
  | none => return unknownReceipt none none expected "human_reconciliation_required"
  | some eventId => do
    ensure (isIdentifier eventId) (some "invalid_request")
    withToken "eventbrite" "eventbrite_draft_write" c (confirm E organizationId eventId validated expected)

/-! ### What a confirming GET has shown -/

/-- The event that was read is the written one: the same event of the organization, an unpublished draft outside a
series, with every field of the payload. -/
structure Confirms (E : AdapterEnv D) (organizationId eventId : Text D) (payload event : Json D) : Prop where
  identifier : isIdentifier eventId = true
  id : event.item "id" = .str eventId
  organization : event.item "organization_id" = .str organizationId
  draft : isUnpublishedDraft E event = true
  fields : ∀ item ∈ eventItems payload, fieldMatches E item.2 (event.item item.1) = true

omit [DecidableEq D] in
theorem identifierOf_eq_ok {j : Json D} {id : Text D} (h : identifierOf j = .ok id) :
    j = .str id ∧ isIdentifier id = true := by
  unfold identifierOf at h
  split at h
  · split_ifs at h with hid
    cases h
    exact ⟨rfl, hid⟩
  · cases h

theorem draftOf_eq_ok {E : AdapterEnv D} {event : Json D} {organizationId : Text D} {eventId : Text D} {id : Text D}
    (h : draftOf E event organizationId (some eventId) = .ok id) :
    isIdentifier eventId = true ∧ event.item "id" = .str eventId ∧
      event.item "organization_id" = .str organizationId ∧ isUnpublishedDraft E event = true := by
  simp only [draftOf, bind_eq_ok, ensure_eq_ok, pure_eq_ok, Option.all_some, decide_eq_true_eq, Json.pyEq_str] at h
  obtain ⟨providerId, hid, -, ⟨rfl, horganization⟩, -, hdraft, -⟩ := h
  exact ⟨(identifierOf_eq_ok hid).2, (identifierOf_eq_ok hid).1, horganization, hdraft⟩

theorem readBack_eq_ok {E : AdapterEnv D} {organizationId eventId : Text D} {payload : Json D} {digest : D}
    {event : Json D} {receipt : DraftReceipt D} (h : readBack E organizationId eventId payload digest event = .ok receipt) :
    Confirms E organizationId eventId payload event ∧
      ∃ readback, receipt = confirmedReceipt eventId "draft" digest readback := by
  simp only [readBack, bind_eq_ok, ensure_eq_ok, pure_eq_ok] at h
  obtain ⟨_, hdraft, -, hfields, readback, -, rfl⟩ := h
  obtain ⟨hidentifier, hid, horganization, hunpublished⟩ := draftOf_eq_ok hdraft
  exact ⟨⟨hidentifier, hid, horganization, hunpublished, hfields⟩, readback, rfl⟩

/-- A receipt of an event that a GET confirms. -/
def Confirmed (E : AdapterEnv D) (organizationId : Text D) (payload : Json D) (digest : D) (receipt : DraftReceipt D)
    (log : AdapterLog D) : Prop :=
  ∃ (eventId : Text D) (event : Json D) (readback : D), Confirms E organizationId eventId payload event ∧
    receipt = confirmedReceipt eventId "draft" digest readback ∧
    log = [(.get (.event eventId), .answered 200 (some event))]

/-- A receipt of the event that the answer to the POST shows. -/
def ConfirmedWrite (E : AdapterEnv D) (organizationId : Text D) (payload : Json D) (digest : D) (answer : Answer D)
    (receipt : DraftReceipt D) (log : AdapterLog D) : Prop :=
  Confirmed E organizationId payload digest receipt log ∧ ∃ written id, answer = .answered 200 (some written) ∧
    written.item "id" = .str id ∧ receipt.providerId = some id

section Outcomes

variable {E : AdapterEnv D} {organizationId eventId : Text D} {payload : Json D} {digest : D} {given : Option (Text D)}

/-- **The outcomes of a confirmation**, whatever the provider answers. -/
theorem confirm_spec : (confirm E organizationId eventId payload digest).Adds
    (ReadsBack (some eventId) digest (Confirmed E organizationId payload digest)) := by
  refine Talk.adds_attempt_bind (Q := fun r new => ReadsBack (some eventId) digest
    (Confirmed E organizationId payload digest) (afterRead (some eventId) none digest r) new)
    (Talk.adds_bind_lift (send_spec _ _) fun r new h => ?_) fun r new h => Talk.adds_lift (by rwa [List.append_nil])
  cases h with
  | refused => exact .ofRead rfl (fun _ h => h) none _
  | sent answer hresult =>
    cases r with
    | error e => exact .ofRead rfl (fun _ h => h) none e
    | ok event =>
      rw [ok_bind]
      cases hread : readBack E organizationId eventId payload digest event with
      | error e => exact .ofRead rfl (fun _ h => h) none e
      | ok receipt =>
        obtain ⟨hconfirms, readback, rfl⟩ := readBack_eq_ok hread
        rw [result_eq_ok hresult]
        exact .ofConfirmed rfl (fun _ h => h) ⟨eventId, event, readback, hconfirms, rfl, rfl⟩

omit [DecidableEq D] in
theorem noRefusal_identifierOf (j : Json D) : NoRefusal (identifierOf j) := by
  unfold identifierOf
  split
  · split_ifs
    · exact .pure _
    · exact .error (by decide)
  · exact .error (by decide)

theorem noRefusal_draftOf (event : Json D) : NoRefusal (draftOf E event organizationId given) :=
  (noRefusal_identifierOf _).bind fun _ => (NoRefusal.ensure (by decide)).bind fun _ =>
    (NoRefusal.ensure (by decide)).bind fun _ => .pure _

/-- A confirmation after a POST that was answered with the event. -/
theorem confirm_write (hgiven : ∀ id, given = some id → some eventId = some id) {written : Json D}
    (hwritten : written.item "id" = .str eventId) : (confirm E organizationId eventId payload digest).Adds
      (AfterPost (.answered 200 (some written)) given digest
        (ConfirmedWrite E organizationId payload digest (.answered 200 (some written)))) := by
  refine confirm_spec.mono fun r new h => ?_
  have hid : ∀ receipt, r = .ok receipt → receipt.providerId = some eventId := fun receipt hr =>
    h.given receipt hr eventId rfl
  refine ⟨⟨h.posts, fun receipt hr id hid' => ?_, fun receipt hr => ?_⟩, fun category hr => absurd hr (h.quiet category)⟩
  · rw [hid receipt hr, hgiven id hid']
  · exact (h.receipts receipt hr).imp_right fun h => ⟨h, written, eventId, rfl, hwritten, hid receipt hr⟩

theorem created_spec {answer : Answer D} {r : Except Raise (Json D)} (h : answer.result = r) :
    (created E organizationId payload digest r).Adds
      (AfterPost answer none digest (ConfirmedWrite E organizationId payload digest answer)) := by
  have hnone : ∀ (id : Option (Text D)) (id' : Text D), none = some id' → id = some id' := fun _ _ h => nomatch h
  cases r with
  | error e => exact Talk.adds_lift (.ofPost (hnone _) h)
  | ok written =>
    cases hid : identifierOf (written.item "id") with
    | error e =>
      simp only [created, hid]
      exact Talk.adds_lift (.ofCheck (hnone _) (noRefusal_identifierOf _) hid)
    | ok eventId =>
      obtain ⟨hwritten, -⟩ := identifierOf_eq_ok hid
      cases hdraft : draftOf E written organizationId (some eventId) with
      | error e =>
        simp only [created, hid, hdraft]
        exact Talk.adds_lift (.ofCheck (hnone _) (noRefusal_draftOf _) hdraft)
      | ok _ =>
        simp only [created, hid, hdraft, result_eq_ok h]
        exact confirm_write (hnone _) hwritten

theorem updated_spec {answer : Answer D} {r : Except Raise (Json D)} (h : answer.result = r) :
    (updated E organizationId eventId payload digest r).Adds
      (AfterPost answer (some eventId) digest (ConfirmedWrite E organizationId payload digest answer)) := by
  cases r with
  | error e => exact Talk.adds_lift (.ofPost (fun _ h => h) h)
  | ok written =>
    cases hdraft : draftOf E written organizationId (some eventId) with
    | error e =>
      simp only [updated, hdraft]
      exact Talk.adds_lift (.ofCheck (fun _ h => h) (noRefusal_draftOf _) hdraft)
    | ok _ =>
      simp only [updated, hdraft, result_eq_ok h]
      exact confirm_write (fun _ h => h) (draftOf_eq_ok hdraft).2.1

/-- The payload that is sent for an action on a new event or a given one, and the digest of the request. -/
def Sends (E : AdapterEnv D) (action : DraftAction) (organizationId : Text D) (given : Option (Text D))
    (payload validated : Json D) (digest : D) : Prop :=
  validatePayload E.zones (action == .create) payload = some validated ∧
    computeRequestDigest E.H E.zones action organizationId given validated = some digest

/-- **The outcomes of a creation**, whatever the provider answers. -/
theorem create_spec (E : AdapterEnv D) (c : Credential) (organizationId : Text D) (payload : Json D) :
    (create E c organizationId payload).Adds
      (WriteOutcome none (.organizationEvents organizationId) (Sends E .create organizationId none payload)
        (fun _ _ => True) (ConfirmedWrite E organizationId)) := by
  refine adds_fetch_bind (fun validated hvalidated => ?_) (.inl ⟨⟨_, rfl⟩, rfl⟩)
  refine adds_fetch_bind (fun digest hdigest => ?_) (.inl ⟨⟨_, rfl⟩, rfl⟩)
  refine adds_withToken ?_ fun e => .inl ⟨⟨e, rfl⟩, rfl⟩
  refine Talk.adds_attempt_bind (send_spec _ _) fun r new h => ?_
  cases h with
  | refused =>
    refine Talk.adds_lift (.inr ⟨validated, digest, ⟨hvalidated, hdigest⟩, .inl ?_⟩)
    exact .ofUnknown rfl (fun _ h => h) none _
  | sent answer hanswer =>
    exact (created_spec hanswer).mono fun r after h =>
      .inr ⟨validated, digest, ⟨hvalidated, hdigest⟩, .inr ⟨[], answer, after, rfl, rfl, trivial, h⟩⟩

/-- The event was read before: it is an unpublished draft of the organization, with the reviewed content. -/
def Current (E : AdapterEnv D) (organizationId eventId expectedReadbackDigest : Text D) (log : AdapterLog D) : Prop :=
  ∃ event readback, log = [(.get (.event eventId), .answered 200 (some event))] ∧
    event.item "id" = .str eventId ∧ event.item "organization_id" = .str organizationId ∧
    isUnpublishedDraft E event = true ∧ readbackDigest E event = .ok readback ∧
    expectedReadbackDigest = .hex readback

/-- **The outcomes of an update**, whatever the provider answers. -/
theorem update_spec (E : AdapterEnv D) (c : Credential) (organizationId eventId : Text D) (payload : Json D)
    (expectedReadbackDigest : Text D) :
    (update E c organizationId eventId payload expectedReadbackDigest).Adds
      (WriteOutcome (some eventId) (.event eventId) (Sends E .update organizationId (some eventId) payload)
        (fun _ => Current E organizationId eventId expectedReadbackDigest) (ConfirmedWrite E organizationId)) := by
  refine adds_fetch_bind (fun validated hvalidated => ?_) (.inl ⟨⟨_, rfl⟩, rfl⟩)
  refine adds_fetch_bind (fun digest hdigest => ?_) (.inl ⟨⟨_, rfl⟩, rfl⟩)
  refine adds_ensure_bind (fun _ => ?_) (.inl ⟨⟨_, rfl⟩, rfl⟩)
  refine adds_withToken ?_ fun e => .inl ⟨⟨e, rfl⟩, rfl⟩
  refine Talk.adds_bind (send_spec _ _) (fun event new hread => ?_) fun e new hread => .inl ⟨⟨e, rfl⟩, ?_⟩
  swap
  · cases hread with
    | refused => rfl
    | sent => rfl
  generalize hanswered : (Except.ok event : Except Raise (Json D)) = r at hread
  cases hread with
  | refused => cases hanswered
  | sent answer hanswer =>
  subst hanswered
  rw [result_eq_ok hanswer]
  refine Talk.adds_lift_bind (fun _ hdraft => ?_) fun e _ => .inl ⟨⟨e, rfl⟩, rfl⟩
  refine Talk.adds_lift_bind (fun readback hreadback => ?_) fun e _ => .inl ⟨⟨e, rfl⟩, rfl⟩
  refine adds_ensure_bind (fun hsame => ?_) (.inl ⟨⟨_, rfl⟩, rfl⟩)
  obtain ⟨-, hid, horganization, hunpublished⟩ := draftOf_eq_ok hdraft
  have hcurrent : Current E organizationId eventId expectedReadbackDigest
      [(.get (.event eventId), .answered 200 (some event))] :=
    ⟨event, readback, rfl, hid, horganization, hunpublished, hreadback, hsame.symm⟩
  refine Talk.adds_attempt_bind (send_spec _ _) fun r new h => ?_
  cases h with
  | refused =>
    refine Talk.adds_lift (.inr ⟨validated, digest, ⟨hvalidated, hdigest⟩, .inl ?_⟩)
    exact .ofUnknown rfl (fun _ h => h) none _
  | sent answer hanswer =>
    exact (updated_spec hanswer).mono fun r after h =>
      .inr ⟨validated, digest, ⟨hvalidated, hdigest⟩, .inr ⟨_, answer, after, rfl, rfl, hcurrent, h⟩⟩

/-- What confirms a reconciled event. -/
def Reconciled (E : AdapterEnv D) (organizationId : Text D) (payload : Json D) (action : DraftAction) (digest : D)
    (receipt : DraftReceipt D) (log : AdapterLog D) : Prop :=
  ∃ validated, validatePayload E.zones (action == .create) payload = some validated ∧
    Confirmed E organizationId validated digest receipt log

/-- **The outcomes of a reconciliation**, whatever the provider answers. -/
theorem reconcile_spec (E : AdapterEnv D) (c : Credential) (organizationId : Text D) (eventId : Option (Text D))
    (payload : Json D) (requestDigest : D) (action : DraftAction) :
    (reconcile E c organizationId eventId payload requestDigest action).Adds
      (ReadsOnly eventId requestDigest (Reconciled E organizationId payload action requestDigest)) := by
  refine adds_fetch_bind (fun validated hvalidated => ?_) (.ofError rfl _)
  refine adds_fetch_bind (fun digest hdigest => ?_) (.ofError rfl _)
  refine adds_ensure_bind (fun hsame => ?_) (.ofError rfl _)
  subst hsame
  cases eventId with
  | none => exact Talk.adds_pure (.ofUnknown rfl (fun _ h => h) none _)
  | some eventId =>
    refine adds_ensure_bind (fun _ => ?_) (.ofError rfl _)
    refine adds_withToken (confirm_spec.mono fun r log h => ?_) fun e => .ofError rfl e
    exact h.toReadsOnly.mono fun receipt _ h => ⟨validated, hvalidated, h⟩

end Outcomes

end CivicLoop.EventbriteDrafts
