import CivicLoop.Drafts.Approved
import CivicLoop.Drafts.EventbriteAdapter
import CivicLoop.Drafts.IterableAdapters
import CivicLoop.Drafts.TemplateHtml

/-!
# The receipts of the adapters

The request of a call is run by a program of the adapter of its provider. The digest that the program computes is the one
that is stored with the row, since a validated payload is validated to itself, and the identifiers that it names are
those that the row and the request allow. So the check of a stored receipt never refuses what the adapter returns, and a
confirmed one is backed by what was read last.

## Main definitions

* `ProviderRequest.program` : the program of a request.
* `Execution.Digested` : the request digest of a row is the one of its request.
* `Shown` : the last exchanges show the draft of a row.
* `Acceptable` : what a receipt of a row has.
* `ProviderRequest.Bounded` : what a program may have sent.

## Main results

* `digested_of_validateExecution` : a row that passes its checks has the digest of its request.
* `acceptable_of_program` : every receipt that a program returns for such a row is acceptable.
* `ProviderRequest.program_bounded` : the POSTs of a program.

## References

Source: `backend/integrations/draft_operations.py`, lines 301–452 and 600–717.
-/

namespace CivicLoop

variable {D : Type} [DecidableEq D]

/-! ### Validated payloads -/

namespace EventbriteDrafts

omit [DecidableEq D] in
theorem isSome_lookup_setDefault {key key' : String} {value : Json D} {items : List (String × Json D)}
    (h : key' = key ∨ (items.lookup key').isSome = true) :
    ((setDefault key value items).lookup key').isSome = true := by
  unfold setDefault
  split_ifs with hkey
  · rcases h with rfl | h
    · exact hkey
    · exact h
  · rw [List.lookup_append]
    rcases h with rfl | h
    · simp
    · simp [h]

omit [DecidableEq D] in
theorem setDefault_of_isSome {key : String} {value : Json D} {items : List (String × Json D)}
    (h : (items.lookup key).isSome = true) : setDefault key value items = items := if_pos h

/-- The items of a validated event. -/
def withDefaults (create : Bool) (items : List (String × Json D)) : List (String × Json D) :=
  if create then setDefault "shareable" (.bool false) (setDefault "listed" (.bool false) items) else items

omit [DecidableEq D] in
theorem withDefaults_withDefaults (create : Bool) (items : List (String × Json D)) :
    withDefaults create (withDefaults create items) = withDefaults create items := by
  cases create with
  | false => rfl
  | true =>
    have hlisted : ((withDefaults true items).lookup "listed").isSome = true :=
      isSome_lookup_setDefault (.inr (isSome_lookup_setDefault (.inl rfl)))
    have hshareable : ((withDefaults true items).lookup "shareable").isSome = true :=
      isSome_lookup_setDefault (.inl rfl)
    calc withDefaults true (withDefaults true items)
        = setDefault "shareable" (.bool false) (withDefaults true items) :=
          congrArg (setDefault "shareable" (.bool false)) (setDefault_of_isSome hlisted)
      _ = withDefaults true items := setDefault_of_isSome hshareable

omit [DecidableEq D] in
theorem validatePayload_eq_some {zones : String → Bool} {create : Bool} {payload validated : Json D}
    (h : validatePayload zones create payload = some validated) :
    ∃ items, payload.get? "event" = some (.obj items) ∧
      validated = .obj [("event", .obj (withDefaults create items))] := by
  unfold validatePayload at h
  split at h
  · split at h
    · rename_i items hitems
      split at h
      · cases h
        exact ⟨items, hitems, rfl⟩
      · cases h
    · cases h
  · cases h

omit [DecidableEq D] in
/-- **A validated payload is validated to itself**: its defaults are there. -/
theorem validatePayload_validated {zones : String → Bool} {create : Bool} {payload validated validated' : Json D}
    (h : validatePayload zones create payload = some validated)
    (h' : validatePayload zones create validated = some validated') : validated' = validated := by
  obtain ⟨items, -, rfl⟩ := validatePayload_eq_some h
  obtain ⟨items', hitems', rfl⟩ := validatePayload_eq_some h'
  obtain rfl := Json.obj.inj (Option.some.inj hitems')
  rw [withDefaults_withDefaults]

omit [DecidableEq D] in
/-- The digest of a request is also the one of its validated payload. -/
theorem computeRequestDigest_validated {H : Hash D} {zones : String → Bool} {action : DraftAction}
    {organizationId : Text D} {eventId : Option (Text D)} {payload validated : Json D} {digest digest' : D}
    (hvalidated : validatePayload zones (action == .create) payload = some validated)
    (h : computeRequestDigest H zones action organizationId eventId validated = some digest)
    (h' : computeRequestDigest H zones action organizationId eventId payload = some digest') : digest = digest' := by
  unfold computeRequestDigest at h h'
  split_ifs at h
  rw [if_pos ‹_›, hvalidated, Option.map_some] at h'
  obtain ⟨validated', hvalidated', rfl⟩ := Option.map_eq_some_iff.1 h
  rw [validatePayload_validated hvalidated hvalidated']
  exact Option.some.inj h'

omit [DecidableEq D] in
theorem identifies_of_computeRequestDigest {H : Hash D} {zones : String → Bool} {action : DraftAction}
    {organizationId : Text D} {eventId : Option (Text D)} {payload : Json D} {digest : D}
    (h : computeRequestDigest H zones action organizationId eventId payload = some digest) :
    identifies action eventId = true := by
  unfold computeRequestDigest at h
  split_ifs at h with hids
  exact (Bool.and_eq_true _ _ ▸ hids).2

theorem ne_empty_of_isIdentifier {t : Text D} (h : isIdentifier t = true) : ¬ Drafts.isEmpty t := by
  rintro rfl
  cases h

end EventbriteDrafts

omit [DecidableEq D] in
theorem IterableDrafts.validatePayload_eq_some {payload validated : Json D}
    (h : IterableDrafts.validatePayload payload = some validated) : validated = payload := by
  unfold IterableDrafts.validatePayload at h
  split_ifs at h
  exact (Option.some.inj h).symm

namespace Drafts

/-! ### Programs -/

/-- The program of the adapter that a request is for. -/
def ProviderRequest.program (E : AdapterEnv D) (c : Credential) : ProviderRequest D → AdapterTalk D (DraftReceipt D)
  | createEvent organizationId payload => EventbriteDrafts.create E c organizationId payload
  | updateEvent organizationId eventId payload expectedReadbackDigest =>
    EventbriteDrafts.update E c organizationId eventId payload expectedReadbackDigest
  | reconcileEvent organizationId eventId payload requestDigest action =>
    EventbriteDrafts.reconcile E c organizationId (some eventId) payload requestDigest action
  | createCampaign payload region expectedTemplateDigest =>
    IterableDrafts.create E c payload region expectedTemplateDigest
  | reconcileCampaign payload region expectedTemplateDigest campaignId requestDigest =>
    IterableDrafts.reconcile E c payload region expectedTemplateDigest (some campaignId) requestDigest
  | createTemplate payload region => IterableTemplates.create E c payload region
  | reconcileTemplate payload region providerId requestDigest =>
    IterableTemplates.reconcile E c payload region providerId requestDigest

/-! ### Digests of rows -/

/-- The request digest of a row is the one of its request. -/
def Execution.Digested (H : Hash D) (zones : String → Bool) (provider : DraftProvider) (model : ExecutionModel)
    (row : Execution D) : Prop :=
  match provider, model with
  | .eventbrite, _ => EventbriteDrafts.computeRequestDigest H zones row.action row.organizationId
      (orNone row.eventId) row.payload = some row.requestDigest
  | .iterable, .draft => row.action = .create ∧ IterableDrafts.computeRequestDigest H (configured row "region")
      row.payload (configured row "expected_template_digest") = some row.requestDigest
  | .iterable, .template =>
    IterableTemplates.computeRequestDigest H (configured row "region") row.payload = some row.requestDigest

section Digests

variable {H : Hash D} {zones : String → Bool} {w : World D} {intent : Intent D} {run : Run D} {digests : D × D}

/-- **A row that passes its checks has the digest of its request.** -/
theorem digested_of_validateExecution {db : Db D} {e : Executions D} {now : Time} {live : Bool} {op : Operation D}
    (h : validateExecution H zones db e now live op = .ok ()) :
    op.row.Digested H zones op.intent.operation.provider op.ref.1 := by
  unfold validateExecution at h
  cases hprovider : op.intent.operation.provider with
  | eventbrite =>
    simp only [hprovider, bind_eq_ok, catchInvalid, denyIf_eq_ok, ensure_eq_ok] at h
    obtain ⟨digests, ⟨-, -, hreview⟩, hreviewed⟩ := h
    simp only [eventbriteReview, bind_eq_ok, fetch_eq_ok, pure_eq_ok] at hreview
    obtain ⟨_, -, requestDigest, hrequest, _, -, rfl⟩ := hreview
    obtain rfl : requestDigest = op.row.requestDigest := congrArg Prod.fst (validateReviewed_eq_ok hreviewed)
    exact hrequest
  | iterable =>
    cases hmodel : op.ref.1 with
    | template =>
      simp only [hprovider, hmodel, validateTemplate, bind_eq_ok, catchInvalid, denyIf_eq_ok, ensure_eq_ok,
        fetch_eq_ok, pure_eq_ok] at h
      obtain ⟨digests, ⟨digests', hreview, -, -, -, -, rfl⟩, hreviewed⟩ := h
      simp only [templateReview, bind_eq_ok, fetch_eq_ok, ensure_eq_ok] at hreview
      obtain ⟨_, -, ⟨⟩, -, ⟨⟩, -, _, -, _, -, _, -, ⟨⟩, -, region, hregion, requestDigest, hrequest, hreview⟩ := hreview
      have hdigest := (iterableDigest_eq_ok hreview).1
      rw [validateReviewed_eq_ok hreviewed] at hdigest
      rw [Execution.Digested, configured, hregion, Option.getD_some, hrequest]
      exact congrArg some hdigest.symm
    | draft =>
      simp only [hprovider, hmodel, bind_eq_ok, catchInvalid, denyIf_eq_ok] at h
      obtain ⟨digests, hreview, hreviewed⟩ := h
      simp only [campaignReview, bind_eq_ok, fetch_eq_ok, ensure_eq_ok] at hreview
      obtain ⟨_, -, ⟨⟩, hcreate, ⟨⟩, -, ⟨_, _⟩, -, _, -, ⟨⟩, -, ⟨⟩, -, region, hregion, expected, hexpected,
        requestDigest, hrequest, hreview⟩ := hreview
      have hdigest := (iterableDigest_eq_ok hreview).1
      rw [validateReviewed_eq_ok hreviewed] at hdigest
      refine ⟨(createOnly_eq_ok hcreate).1, ?_⟩
      rw [configured, configured, hregion, hexpected, Option.getD_some, Option.getD_some, hrequest]
      exact congrArg some hdigest.symm

end Digests

/-! ### Receipts -/

/-- The exchanges show the draft of a row as a receipt says it is. -/
def ShownBy (E : AdapterEnv D) (path : DraftProvider) (model : ExecutionModel) (row : Execution D)
    (receipt : DraftReceipt D) (log : AdapterLog D) : Prop :=
  match path, model with
  | .eventbrite, _ =>
    ∃ validated, EventbriteDrafts.validatePayload E.zones (row.action == .create) row.payload = some validated ∧
      EventbriteDrafts.Confirmed E row.organizationId validated row.requestDigest receipt log
  | .iterable, .draft =>
    ∃ templateDigest, configured row "expected_template_digest" = .str templateDigest ∧
      IterableDrafts.Confirmed E row.payload row.requestDigest templateDigest receipt log
  | .iterable, .template => IterableTemplates.Confirmed E row.payload row.requestDigest receipt log

/-- The last exchanges show the draft of a row as a receipt says it is. -/
def Shown (E : AdapterEnv D) (path : DraftProvider) (model : ExecutionModel) (row : Execution D)
    (receipt : DraftReceipt D) (log : AdapterLog D) : Prop :=
  ∃ before after, log = before ++ after ∧ ShownBy E path model row receipt after

/-- A receipt of a row: of an outcome that is not known, or of a draft that the last exchanges show, and for an identifier
that the request and the row allow. -/
structure Acceptable (E : AdapterEnv D) (path : DraftProvider) (model : ExecutionModel) (row : Execution D)
    (receipt : DraftReceipt D) (log : AdapterLog D) : Prop where
  form : (∃ id status category, receipt = unknownReceipt id status row.requestDigest category) ∨
    Shown E path model row receipt log
  event : path = .iterable ∨ row.action = .create ∨ ∀ id, given receipt.providerId = some id → id = row.eventId
  recorded : isEmpty row.providerId ∨ ∀ id, given receipt.providerId = some id → id = row.providerId

section Accepted

variable {E : AdapterEnv D} {path : DraftProvider} {model : ExecutionModel} {row : Execution D}
  {receipt : DraftReceipt D} {log : AdapterLog D}

omit [DecidableEq D] in
theorem not_isEmpty_toString (n : ℤ) : ¬ isEmpty (.lit (toString n) : Text D) := by
  intro h
  have htext : toString n = "" := Text.lit.inj h
  cases n with
  | ofNat n =>
    have hdigits : (toString (Int.ofNat n)).toList = Nat.toDigits 10 n := String.toList_ofList
    rw [htext] at hdigits
    exact Nat.toDigits_ne_nil hdigits.symm
  | negSucc n =>
    have hsign : (toString (Int.negSucc n)).toList = '-' :: (toString (n + 1)).toList := String.toList_append
    rw [htext] at hsign
    cases hsign

/-- The receipt of a draft that was shown is complete. -/
theorem ShownBy.complete (h : ShownBy E path model row receipt log) : ∃ id status readback, ¬ isEmpty id ∧
    status ∈ confirmedStatuses path model ∧ receipt = confirmedReceipt id status row.requestDigest readback := by
  cases path with
  | eventbrite =>
    obtain ⟨_, -, eventId, _, readback, hconfirms, rfl, -⟩ := h
    exact ⟨eventId, "draft", readback, EventbriteDrafts.ne_empty_of_isIdentifier hconfirms.identifier,
      List.mem_singleton_self _, rfl⟩
  | iterable =>
    cases model with
    | draft =>
      obtain ⟨_, -, campaignId, _, _, _, state, readback, -, hstate, rfl, -⟩ := h
      exact ⟨_, state, readback, not_isEmpty_toString campaignId, hstate, rfl⟩
    | template =>
      obtain ⟨templateId, _, _, readback, -, rfl, -⟩ := h
      exact ⟨_, "template", readback, not_isEmpty_toString templateId, List.mem_singleton_self _, rfl⟩

/-- What was shown is the draft of every row with the same review. -/
theorem Shown.of_review {row' : Execution D} (h : Shown E path model row receipt log)
    (hreview : row'.toReviewFields = row.toReviewFields) : Shown E path model row' receipt log := by
  obtain ⟨review, _⟩ := row
  obtain ⟨review', _⟩ := row'
  obtain rfl : review' = review := hreview
  exact h

/-- **An acceptable receipt is accepted.** -/
theorem Acceptable.receiptOk (h : Acceptable E path model row receipt log) :
    receiptOk path model row receipt = true := by
  have hids : (given receipt.providerId).all (fun id =>
      (path == .iterable || row.action == .create || decide (id = row.eventId)) &&
        decide (isEmpty row.providerId ∨ id = row.providerId)) = true := by
    refine Option.all_eq_true_iff_get _ _ |>.2 fun hsome => ?_
    have hid : given receipt.providerId = some ((given receipt.providerId).get hsome) := (Option.some_get hsome).symm
    simp only [Bool.and_eq_true, Bool.or_eq_true, beq_iff_eq, decide_eq_true_eq]
    refine ⟨?_, h.recorded.imp_right fun h => h _ hid⟩
    obtain hpath | haction | hevent := h.event
    · exact .inl (.inl hpath)
    · exact .inl (.inr haction)
    · exact .inr (hevent _ hid)
  unfold Drafts.receiptOk
  rw [hids]
  obtain ⟨id, status, category, rfl⟩ | ⟨before, after, -, hshown⟩ := h.form
  · simp [unknownReceipt]
  · obtain ⟨id, status, readback, hid, hstatus, rfl⟩ := hshown.complete
    have hgiven : given (some id) = some id := if_neg hid
    have hhex : ¬ isEmpty (Text.hex readback) := fun h => nomatch h
    have hreadback : given (some (Text.hex readback)) = some (Text.hex readback) :=
      show orNone (Text.hex readback) = some (Text.hex readback) from if_neg hhex
    simp [confirmedReceipt, hgiven, hreadback, hstatus]

/-- What makes a receipt acceptable, if it is for the given draft. -/
theorem Acceptable.of {given' : Option (Text D)} (hgiven : ∀ id, given' = some id → receipt.providerId = some id)
    (hform : (∃ id status category, receipt = unknownReceipt id status row.requestDigest category) ∨
      Shown E path model row receipt log)
    (hevent : path = .iterable ∨ row.action = .create ∨ ∃ t, given' = some t ∧ (¬ isEmpty t → t = row.eventId))
    (hrecorded : isEmpty row.providerId ∨ ∃ t, given' = some t ∧ (¬ isEmpty t → t = row.providerId)) :
    Acceptable E path model row receipt log := by
  have hsame : ∀ {t id : Text D}, given' = some t → given receipt.providerId = some id → t = id ∧ ¬ isEmpty t := by
    intro t id ht hid
    rw [hgiven t ht, given, Option.bind_some, orNone] at hid
    split_ifs at hid with hempty
    exact ⟨Option.some.inj hid, hempty⟩
  refine ⟨hform, hevent.imp_right fun h => h.imp_right fun h id hid => ?_, hrecorded.imp_right fun h id hid => ?_⟩
  · obtain ⟨t, ht, hrow⟩ := h
    obtain ⟨rfl, hempty⟩ := hsame ht hid
    exact hrow hempty
  · obtain ⟨t, ht, hrow⟩ := h
    obtain ⟨rfl, hempty⟩ := hsame ht hid
    exact hrow hempty

/-- The receipts of a write. -/
theorem Acceptable.ofWrite {given' : Option (Text D)} {endpoint : Endpoint D} {sends : Json D → D → Prop}
    {guards : Json D → AdapterLog D → Prop} {confirms : Json D → D → Answer D → DraftReceipt D → AdapterLog D → Prop}
    (h : WriteOutcome given' endpoint sends guards confirms (.ok receipt) log)
    (hsends : ∀ validated digest, sends validated digest → digest = row.requestDigest)
    (hconfirms : ∀ validated answer after, sends validated row.requestDigest →
      confirms validated row.requestDigest answer receipt after → ShownBy E path model row receipt after)
    (hevent : path = .iterable ∨ row.action = .create ∨ ∃ t, given' = some t ∧ (¬ isEmpty t → t = row.eventId))
    (hrecorded : isEmpty row.providerId ∨ ∃ t, given' = some t ∧ (¬ isEmpty t → t = row.providerId)) :
    Acceptable E path model row receipt log := by
  obtain ⟨validated, digest, hsent, hgiven, hform⟩ := h.receipt
  obtain rfl := hsends validated digest hsent
  refine .of hgiven (hform.imp_right fun hwrite => ?_) hevent hrecorded
  obtain ⟨before, answer, after, rfl, hwrite⟩ := hwrite
  exact ⟨before ++ [(.post endpoint validated, answer)], after, (List.append_cons ..),
    hconfirms validated answer after hsent hwrite⟩

/-- The receipts of a reconciliation. -/
theorem Acceptable.ofReads {given' : Option (Text D)} {confirmed : DraftReceipt D → AdapterLog D → Prop}
    (h : ReadsOnly given' row.requestDigest confirmed (.ok receipt) log)
    (hconfirmed : confirmed receipt log → ShownBy E path model row receipt log)
    (hevent : path = .iterable ∨ row.action = .create ∨ ∃ t, given' = some t ∧ (¬ isEmpty t → t = row.eventId))
    (hrecorded : isEmpty row.providerId ∨ ∃ t, given' = some t ∧ (¬ isEmpty t → t = row.providerId)) :
    Acceptable E path model row receipt log :=
  .of (h.given receipt rfl) ((h.receipts receipt rfl).imp_right fun h => ⟨[], log, rfl, hconfirmed h⟩) hevent hrecorded

end Accepted

/-! ### Every receipt is acceptable -/

section Programs

variable {E : AdapterEnv D} {row : Execution D} {receipt : DraftReceipt D} {log : AdapterLog D}

omit [DecidableEq D] in
theorem get?_eq_none_of_hasKeys {keys : List String} {key : String} {j : Json D} (h : j.hasKeys keys = true)
    (hkey : key ∉ keys) : j.get? key = none := by
  cases j with
  | obj items =>
    simp only [Json.hasKeys, Bool.and_eq_true, List.all_eq_true] at h
    refine List.lookup_eq_none_iff.2 fun item hitem => ?_
    have hmem := List.contains_iff_mem.1 (h.1 item hitem)
    refine bne_iff_ne.2 ?_
    rintro rfl
    exact hkey hmem
  | _ => rfl

omit [DecidableEq D] in
/-- No payload is one of an event and one of a template. -/
theorem validateTemplatePayload_eq_none {H : Hash D} {zones : String → Bool} {create : Bool} {payload validated : Json D}
    (h : EventbriteDrafts.validatePayload zones create payload = some validated) :
    IterableTemplates.validateTemplatePayload H payload = none := by
  have hkeys : payload.hasKeys ["event"] = true := by
    unfold EventbriteDrafts.validatePayload at h
    split at h
    · assumption
    · cases h
  by_contra hsome
  obtain ⟨payload', hvalidated⟩ := Option.ne_none_iff_exists'.1 hsome
  obtain ⟨-, _, _, plain, _, -, -, hplain, -⟩ := IterableTemplates.validateTemplatePayload_eq_some hvalidated
  rw [Json.text?, get?_eq_none_of_hasKeys hkeys (by decide)] at hplain
  cases hplain

/-- The receipts of the Eventbrite adapter. -/
theorem acceptable_eventbrite (E : AdapterEnv D) (c : Credential) {model : ExecutionModel} {reconcile : Bool}
    {row : Execution D} (hdigested : row.Digested E.H E.zones .eventbrite model)
    (hfresh : reconcile = false → isEmpty row.providerId ∨ row.action = .update)
    (hnamed : row.action = .update → isEmpty row.providerId ∨ row.providerId = row.eventId) :
    ((providerRequest .eventbrite model reconcile row).program E c).Adds fun r log =>
      ∀ receipt, r = .ok receipt → Acceptable E .eventbrite model row receipt log := by
  have hids := EventbriteDrafts.identifies_of_computeRequestDigest hdigested
  have hdigest : ∀ {action}, row.action = action → ∀ validated digest,
      EventbriteDrafts.Sends E action row.organizationId (orNone row.eventId) row.payload validated digest →
        digest = row.requestDigest := by
    rintro action rfl validated digest ⟨hvalidated, h⟩
    exact EventbriteDrafts.computeRequestDigest_validated hvalidated h hdigested
  cases reconcile with
  | true =>
    refine (EventbriteDrafts.reconcile_spec E c row.organizationId (some row.providerId) row.payload row.requestDigest
      row.action).mono fun r log h receipt hr => ?_
    subst hr
    refine .ofReads h id ?_ (.inr ⟨_, rfl, fun _ => rfl⟩)
    cases haction : row.action with
    | create => exact .inr (.inl rfl)
    | update => exact .inr (.inr ⟨_, rfl, fun hne => (hnamed haction).resolve_left hne⟩)
  | false =>
    cases haction : row.action with
    | create =>
      rw [haction] at hids
      have hnone : orNone row.eventId = none := Option.isNone_iff_eq_none.1 hids
      have hempty : isEmpty row.providerId := (hfresh rfl).resolve_right (by rw [haction]; exact nofun)
      simp only [providerRequest, haction]
      refine (EventbriteDrafts.create_spec E c row.organizationId row.payload).mono fun r log h receipt hr => ?_
      subst hr
      refine .ofWrite h (fun validated digest hsends => hdigest haction validated digest ?_)
        (fun validated _ _ hsends h => ⟨validated, ?_, h.1⟩) (.inr (.inl haction)) (.inl hempty)
      · rwa [hnone]
      · rw [haction]
        exact hsends.1
    | update =>
      rw [haction] at hids
      have hsome : orNone row.eventId = some row.eventId := by
        by_cases hempty : row.eventId = .lit ""
        · rw [orNone, if_pos hempty] at hids
          cases hids
        · exact if_neg hempty
      simp only [providerRequest, haction]
      refine (EventbriteDrafts.update_spec E c row.organizationId row.eventId row.payload
        row.expectedReadbackDigest).mono fun r log h receipt hr => ?_
      subst hr
      refine .ofWrite h (fun validated digest hsends => hdigest haction validated digest ?_)
        (fun validated _ _ hsends h => ⟨validated, ?_, h.1⟩) (.inr (.inr ⟨_, rfl, fun _ => rfl⟩))
        ((hnamed haction).imp_right fun hname => ⟨_, rfl, fun _ => hname.symm⟩)
      · rwa [hsome]
      · rw [haction]
        exact hsends.1

/-- The receipts of the campaign adapter. -/
theorem acceptable_campaign (E : AdapterEnv D) (c : Credential) {reconcile : Bool} {row : Execution D}
    (hdigested : row.Digested E.H E.zones .iterable .draft) (hfresh : reconcile = false → isEmpty row.providerId) :
    ((providerRequest .iterable .draft reconcile row).program E c).Adds fun r log =>
      ∀ receipt, r = .ok receipt → Acceptable E .iterable .draft row receipt log := by
  cases reconcile with
  | true =>
    refine (IterableDrafts.reconcile_spec E c row.payload _ _ (some row.providerId) row.requestDigest).mono
      fun r log h receipt hr => ?_
    subst hr
    refine .ofReads h (fun h => ?_) (.inl rfl) (.inr ⟨_, rfl, fun _ => rfl⟩)
    obtain ⟨validated, templateDigest, hvalidated, htemplate, h⟩ := h
    obtain rfl := IterableDrafts.validatePayload_eq_some hvalidated
    exact ⟨templateDigest, htemplate, h⟩
  | false =>
    refine (IterableDrafts.create_spec E c row.payload _ _).mono fun r log h receipt hr => ?_
    subst hr
    refine .ofWrite h (fun validated digest hsends => ?_) (fun validated _ _ hsends h => ?_) (.inl rfl)
      (.inl (hfresh rfl))
    · obtain ⟨hvalidated, hdigest⟩ := hsends
      rw [IterableDrafts.validatePayload_eq_some hvalidated, hdigested.2] at hdigest
      exact (Option.some.inj hdigest).symm
    · obtain ⟨templateDigest, htemplate, h, -⟩ := h
      obtain rfl := IterableDrafts.validatePayload_eq_some hsends.1
      exact ⟨templateDigest, htemplate, h⟩

/-- The receipts of the template adapter. -/
theorem acceptable_template (E : AdapterEnv D) (c : Credential) {reconcile : Bool} {row : Execution D}
    (hdigested : row.Digested E.H E.zones .iterable .template) (hfresh : reconcile = false → isEmpty row.providerId) :
    ((providerRequest .iterable .template reconcile row).program E c).Adds fun r log =>
      ∀ receipt, r = .ok receipt → Acceptable E .iterable .template row receipt log := by
  cases reconcile with
  | true =>
    refine (IterableTemplates.reconcile_spec E c row.payload _ (orNone row.providerId) row.requestDigest).mono
      fun r log h receipt hr => ?_
    subst hr
    refine .ofReads h (fun h => ?_) (.inl rfl) ?_
    · obtain ⟨validated, hvalidated, h⟩ := h
      obtain rfl := (IterableTemplates.validateTemplatePayload_eq_some hvalidated).1
      exact h
    · by_cases hempty : isEmpty row.providerId
      · exact .inl hempty
      · have hsome : orNone row.providerId = some row.providerId := if_neg hempty
        exact .inr ⟨row.providerId, by rw [hsome]; exact hsome, fun _ => rfl⟩
  | false =>
    refine (IterableTemplates.create_spec E c row.payload _).mono fun r log h receipt hr => ?_
    subst hr
    refine .ofWrite h (fun validated digest hsends => ?_) (fun validated _ _ hsends h => ?_) (.inl rfl)
      (.inl (hfresh rfl))
    · obtain ⟨hvalidated, hdigest⟩ := hsends
      rw [(IterableTemplates.validateTemplatePayload_eq_some hvalidated).1] at hdigest
      exact Option.some.inj (hdigest.symm.trans hdigested)
    · obtain rfl := (IterableTemplates.validateTemplatePayload_eq_some hsends.1).1
      exact h

/-- A template row with the digest of an event has no receipts. -/
theorem acceptable_crossed (E : AdapterEnv D) (c : Credential) {reconcile : Bool} {row : Execution D}
    (hdigested : row.Digested E.H E.zones .eventbrite .template) :
    ((providerRequest .iterable .template reconcile row).program E c).Adds fun r log =>
      ∀ receipt, r = .ok receipt → Acceptable E .iterable .template row receipt log := by
  have hnone : IterableTemplates.validateTemplatePayload E.H row.payload = none := by
    have hdigest : EventbriteDrafts.computeRequestDigest E.H E.zones row.action row.organizationId
        (orNone row.eventId) row.payload = some row.requestDigest := hdigested
    unfold EventbriteDrafts.computeRequestDigest at hdigest
    split_ifs at hdigest
    obtain ⟨validated, hvalidated, -⟩ := Option.map_eq_some_iff.1 hdigest
    exact validateTemplatePayload_eq_none hvalidated
  cases reconcile with
  | true => exact adds_fetch_bind (fun _ h => by rw [hnone] at h; cases h) fun _ h => nomatch h
  | false => exact adds_fetch_bind (fun _ h => by rw [hnone] at h; cases h) fun _ h => nomatch h

/-- **Every receipt of a program is acceptable** for a row that has the digest of its request and names no draft that
the request does not. -/
theorem acceptable_of_program (E : AdapterEnv D) (c : Credential) {path provider : DraftProvider}
    {model : ExecutionModel} {reconcile : Bool} {row : Execution D} (hpath : path = pathOf model provider)
    (hdigested : row.Digested E.H E.zones provider model)
    (hfresh : reconcile = false → isEmpty row.providerId ∨ path = .eventbrite ∧ row.action = .update)
    (hnamed : path = .eventbrite → row.action = .update → isEmpty row.providerId ∨ row.providerId = row.eventId) :
    ((providerRequest path model reconcile row).program E c).Adds fun r log =>
      ∀ receipt, r = .ok receipt → Acceptable E path model row receipt log := by
  subst hpath
  have hiterable : pathOf model provider = .iterable → reconcile = false → isEmpty row.providerId := fun hpath h =>
    (hfresh h).resolve_right fun h => nomatch hpath.symm.trans h.1
  cases model with
  | draft =>
    cases provider with
    | eventbrite => exact acceptable_eventbrite E c hdigested (fun h => (hfresh h).imp_right And.right) (hnamed rfl)
    | iterable => exact acceptable_campaign E c hdigested (hiterable rfl)
  | template =>
    cases provider with
    | eventbrite => exact acceptable_crossed E c hdigested
    | iterable => exact acceptable_template E c hdigested (hiterable rfl)

/-! ### What a program may have sent -/

/-- A write sends at most one POST, and a reconciliation none; after an error of the adapter every POST was refused. -/
structure ProviderRequest.Bounded (request : ProviderRequest D) (r : Except Raise (DraftReceipt D))
    (log : AdapterLog D) : Prop where
  posts : log.posts.length ≤ if request.isWrite then 1 else 0
  refused : ∀ category, r = .error (some category) → ∀ exchange ∈ log.posts, exchange.2.rejects = true

omit [DecidableEq D] in
theorem ProviderRequest.Bounded.ofReads {request : ProviderRequest D} {r : Except Raise (DraftReceipt D)}
    {given : Option (Text D)} {digest : D} {confirmed : DraftReceipt D → AdapterLog D → Prop}
    (h : ReadsOnly given digest confirmed r log) : request.Bounded r log := by
  refine ⟨?_, fun category hr exchange hexchange => ?_⟩
  · rw [h.posts]
    exact Nat.zero_le _
  · rw [h.posts] at hexchange
    cases hexchange

/-- **The POSTs of a program**, whatever the provider answers. -/
theorem ProviderRequest.program_bounded (E : AdapterEnv D) (c : Credential) (request : ProviderRequest D) :
    (request.program E c).Adds request.Bounded := by
  cases request with
  | createEvent organizationId payload =>
    exact (EventbriteDrafts.create_spec E c organizationId payload).mono fun r log h => ⟨h.posts.1, h.posts.2⟩
  | updateEvent organizationId eventId payload expected =>
    exact (EventbriteDrafts.update_spec E c organizationId eventId payload expected).mono fun r log h =>
      ⟨h.posts.1, h.posts.2⟩
  | reconcileEvent organizationId eventId payload digest action =>
    exact (EventbriteDrafts.reconcile_spec E c organizationId (some eventId) payload digest action).mono
      fun r log h => .ofReads h
  | createCampaign payload region expected =>
    exact (IterableDrafts.create_spec E c payload region expected).mono fun r log h => ⟨h.posts.1, h.posts.2⟩
  | reconcileCampaign payload region expected campaignId digest =>
    exact (IterableDrafts.reconcile_spec E c payload region expected (some campaignId) digest).mono
      fun r log h => .ofReads h
  | createTemplate payload region =>
    exact (IterableTemplates.create_spec E c payload region).mono fun r log h => ⟨h.posts.1, h.posts.2⟩
  | reconcileTemplate payload region providerId digest =>
    exact (IterableTemplates.reconcile_spec E c payload region providerId digest).mono fun r log h => .ofReads h

end Programs

end Drafts

end CivicLoop
