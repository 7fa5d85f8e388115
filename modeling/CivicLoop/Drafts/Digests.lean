import CivicLoop.Drafts.Steps

/-!
# What a review digest stands for

A row that passes its checks has the digests that are computed from it. If there are no collisions, the
review digest determines the operation, the run, and everything that the request digest covers: the
action, the organization, the event and the payload, or the region, the payload and the expected
template.

## Main definitions

* `content` : what the request digest of a row is taken of.
* `reviewContent` : what its review digest is taken of.
* `Current` : the operation is an accepted one of the current revision.

## Main results

* `validateIntent_eq_ok`, `validateExecution_eq_ok` : what a row that passes has.
* `content_of_reviewDigest` : two rows that pass with one review digest ask for the same.
-/

namespace CivicLoop.Drafts

variable {D : Type} [DecidableEq D]

/-! ### The accepted operation -/

/-- The operation is one of an accepted run at the current revision and package of its workflow. -/
structure Current (w : World D) (intent : Intent D) (run : Run D) (workflow : Workflow D)
    (control : AgentRunControl) : Prop where
  found : w.workflows.get? intent.operation.workflow = some workflow
  controlled : run.control = some control
  succeeded : run.run.status = .succeeded
  runWorkflow : run.run.workflow = intent.operation.workflow
  runRevision : run.run.eventRevision = workflow.revision
  package : run.run.packageHash = workflow.packageHash
  capability : control.capability = some intent.proposal.capability
  capabilityRevision : intent.capability.revision = workflow.revision
  revision : intent.operation.revision = workflow.revision
  proposal : intent.proposal.kind = .proposal

theorem validateIntent_eq_ok {H : Hash D} {w : World D} {intent : Intent D} {run : Run D}
    {revisionDigest : D} (h : validateIntent H w intent run = .ok revisionDigest) :
    ∃ workflow control, Current w intent run workflow control := by
  simp only [validateIntent, bind_eq_ok, fetch_eq_ok, ensure_eq_ok, pure_eq_ok] at h
  obtain ⟨workflow, hworkflow, revision, -, digest, -, action, -, key, -, ⟨⟩, hrun, binding, -,
    ⟨⟩, -, control, hcontrol, ⟨⟩, hfiled, -⟩ := h
  obtain ⟨hstatus, -, hrunWorkflow, hrunRevision, hpackage⟩ := hrun
  obtain ⟨hcapability, -, hcapabilityRevision, -, -, -, -, -, hrevision, hkind⟩ := hfiled
  exact ⟨workflow, control, hworkflow, hcontrol, hstatus, hrunWorkflow, hrunRevision, hpackage,
    hcapability, hcapabilityRevision, hrevision, hkind⟩

/-! ### The digests -/

/-- What the request digest of a row is taken of. -/
def content (H : Hash D) (zones : String → Bool) (provider : DraftProvider)
    (model : ExecutionModel) (request : RequestFields D) : Option (Json D) :=
  match provider, model with
  | .eventbrite, _ =>
    (EventbriteDrafts.validatePayload zones (request.action == .create) request.payload).map
      (EventbriteDrafts.requestContent request.action request.organizationId
        (orNone request.eventId))
  | .iterable, .draft => do
    let region ← request.providerConfiguration.get? "region"
    let expected ← request.providerConfiguration.get? "expected_template_digest"
    let payload ← IterableDrafts.validatePayload request.payload
    return IterableDrafts.requestContent region payload expected
  | .iterable, .template => do
    let region ← request.providerConfiguration.get? "region"
    let payload ← IterableTemplates.validateTemplatePayload H request.payload
    return IterableTemplates.requestContent region payload

/-- The last items of what a review digest is taken of. -/
def reviewTail (provider : DraftProvider) (model : ExecutionModel) (request : RequestFields D)
    (requestDigest : D) : List (String × Json D) :=
  match provider, model with
  | .eventbrite, _ =>
    [("request_digest", .str (.hex requestDigest)),
      ("expected_readback_digest", .str request.expectedReadbackDigest)]
  | .iterable, .draft =>
    [("step", .lit "campaign"), ("request_digest", .str (.hex requestDigest))]
  | .iterable, .template =>
    [("step", .lit "template"), ("request_digest", .str (.hex requestDigest))]

/-- What the review digest of a row is taken of. -/
def reviewContent (intent : Intent D) (run : Run D) (revisionDigest : D)
    (provider : DraftProvider) (model : ExecutionModel) (request : RequestFields D)
    (requestDigest : D) : Json D :=
  .obj (intentItems intent run revisionDigest ++ reviewTail provider model request requestDigest)

/-- A review of a request: its two digests, for an accepted operation. -/
structure Reviewed (H : Hash D) (zones : String → Bool) (w : World D) (intent : Intent D)
    (run : Run D) (provider : DraftProvider) (model : ExecutionModel) (request : RequestFields D)
    (digests : D × D) : Prop where
  current : ∃ workflow control, Current w intent run workflow control
  content : ∃ c, content H zones provider model request = some c ∧ digests.1 = H.ofUtf8 c
  review : ∃ revisionDigest, digests.2 =
    H.ofJson (reviewContent intent run revisionDigest provider model request digests.1)
  createOnly : provider = .iterable → request.action = .create ∧ request.organizationId = .lit "" ∧
    request.eventId = .lit "" ∧ request.expectedReadbackDigest = .lit ""

section Reviews

variable {H : Hash D} {zones : String → Bool} {w : World D} {intent : Intent D} {run : Run D}
  {request : RequestFields D} {digests : D × D}

theorem eventbriteReview_reviewed
    (h : eventbriteReview H zones w intent run request = .ok digests) (model : ExecutionModel) :
    Reviewed H zones w intent run .eventbrite model request digests := by
  simp only [eventbriteReview, bind_eq_ok, fetch_eq_ok, pure_eq_ok] at h
  obtain ⟨revisionDigest, hintent, requestDigest, hrequest, review, hreview, rfl⟩ := h
  refine ⟨validateIntent_eq_ok hintent, ?_,
    ⟨revisionDigest, (Hash.digest_eq_some.1 hreview).2.symm⟩, fun e => by cases e⟩
  unfold EventbriteDrafts.computeRequestDigest at hrequest
  split_ifs at hrequest
  obtain ⟨payload, hpayload, hdigest⟩ := Option.map_eq_some_iff.1 hrequest
  exact ⟨_, by rw [content, hpayload, Option.map_some], hdigest.symm⟩

theorem createOnly_eq_ok {u : Unit} (h : createOnly request = .ok u) :
    request.action = .create ∧ request.organizationId = .lit "" ∧ request.eventId = .lit "" ∧
      request.expectedReadbackDigest = .lit "" := by
  simp only [createOnly, bind_eq_ok, ensure_eq_ok] at h
  obtain ⟨-, -, h⟩ := h
  exact h

theorem iterableDigest_eq_ok {revisionDigest : D} {step : String} {requestDigest : D}
    (h : iterableDigest H intent run revisionDigest step requestDigest = .ok digests) :
    digests.1 = requestDigest ∧ digests.2 = H.ofJson (.obj (intentItems intent run revisionDigest ++
      [("step", .lit step), ("request_digest", .str (.hex digests.1))])) := by
  simp only [iterableDigest, bind_eq_ok, fetch_eq_ok, pure_eq_ok] at h
  obtain ⟨review, hreview, rfl⟩ := h
  exact ⟨rfl, (Hash.digest_eq_some.1 hreview).2.symm⟩

theorem templateReview_reviewed (h : templateReview H w intent run request = .ok digests) :
    Reviewed H zones w intent run .iterable .template request digests := by
  simp only [templateReview, bind_eq_ok, fetch_eq_ok, ensure_eq_ok] at h
  obtain ⟨revisionDigest, hintent, ⟨⟩, hcreate, ⟨⟩, -, sender, -, version, -, expected, -, ⟨⟩, -,
    region, hregion, requestDigest, hrequest, hreview⟩ := h
  obtain ⟨hdigest, hreview⟩ := iterableDigest_eq_ok hreview
  refine ⟨validateIntent_eq_ok hintent, ?_, ⟨revisionDigest, hreview⟩,
    fun _ => createOnly_eq_ok hcreate⟩
  unfold IterableTemplates.computeRequestDigest at hrequest
  split_ifs at hrequest
  obtain ⟨payload, hpayload, hvalue⟩ := Option.map_eq_some_iff.1 hrequest
  exact ⟨IterableTemplates.requestContent region payload, by simp [content, hregion, hpayload],
    by rw [hdigest, ← hvalue]⟩

omit [DecidableEq D] in
theorem ofIntent_eq_some {e : Executions D} {model : ExecutionModel} {id intentId : Uuid}
    {row : Execution D} (h : e.ofIntent model intentId = some (id, row)) :
    e.get? (model, id) = some row ∧ row.intent = intentId := by
  obtain ⟨hrow, hintent⟩ := Table.find?_eq_some h
  exact ⟨hrow, by simpa using hintent⟩

theorem checkTemplate_eq_ok {template : Execution D} {u : Unit}
    (h : checkTemplate request template = .ok u) : OwnsTemplate request template := by
  simp only [checkTemplate, bind_eq_ok, fetch_eq_ok, ensure_eq_ok] at h
  obtain ⟨-, hstatus, receipt, hreceipt, -, houtcome, -, hregion, -, hdigest, -, -, templateId,
    htemplate, hprovider⟩ := h
  exact ⟨hstatus, receipt, templateId, hreceipt, houtcome, hregion, hdigest, htemplate, hprovider⟩

theorem campaignReview_reviewed {db : Db D} {e : Executions D} {now : Time}
    (h : campaignReview H db e now intent run request = .ok digests) :
    Reviewed H zones db.world intent run .iterable .draft request digests ∧
      ∃ id template, e.get? (.template, id) = some template ∧ template.intent = intent.id ∧
        OwnsTemplate request template := by
  simp only [campaignReview, bind_eq_ok, fetch_eq_ok, ensure_eq_ok] at h
  obtain ⟨revisionDigest, hintent, ⟨⟩, hcreate, ⟨⟩, -, ⟨id, row⟩, hrow, template, htemplate, ⟨⟩, -,
    ⟨⟩, hcheck, region, hregion, expected, hexpected, requestDigest, hrequest, hreview⟩ := h
  obtain ⟨hdigest, hreview⟩ := iterableDigest_eq_ok hreview
  obtain ⟨hget, hofIntent⟩ := ofIntent_eq_some hrow
  obtain rfl := Option.some.inj (hget.symm.trans (loadOperation_eq_ok htemplate).2.1)
  refine ⟨⟨validateIntent_eq_ok hintent, ?_, ⟨revisionDigest, hreview⟩,
    fun _ => createOnly_eq_ok hcreate⟩, id, _, hget, hofIntent, checkTemplate_eq_ok hcheck⟩
  unfold IterableDrafts.computeRequestDigest at hrequest
  split_ifs at hrequest
  obtain ⟨payload, hpayload, hvalue⟩ := Option.map_eq_some_iff.1 hrequest
  exact ⟨IterableDrafts.requestContent region payload expected,
    by simp [content, hregion, hexpected, hpayload], by rw [hdigest, ← hvalue]⟩

theorem validateReviewed_eq_ok {now : Time} {live : Bool} {op : Operation D} {u : Unit}
    (h : validateReviewed w now live op digests = .ok u) :
    digests = (op.row.requestDigest, op.row.reviewDigest) := by
  simp only [validateReviewed, bind_eq_ok, ensure_eq_ok] at h
  obtain ⟨-, ⟨h₁, h₂⟩, -⟩ := h
  exact Prod.ext h₁ h₂

/-- **A row that passes its checks has the digests of its request.** -/
theorem validateExecution_eq_ok {db : Db D} {e : Executions D} {now : Time} {live : Bool}
    {op : Operation D} (h : validateExecution H zones db e now live op = .ok ()) :
    Reviewed H zones db.world op.intent op.run op.intent.operation.provider op.ref.1
        op.row.toRequestFields (op.row.requestDigest, op.row.reviewDigest) ∧
      (op.intent.operation.provider = .iterable → op.ref.1 = .draft →
        ∃ id template, e.get? (.template, id) = some template ∧ template.intent = op.intent.id ∧
          OwnsTemplate op.row.toRequestFields template) := by
  unfold validateExecution at h
  cases hprovider : op.intent.operation.provider with
  | eventbrite =>
    simp only [hprovider, bind_eq_ok, catchInvalid, denyIf_eq_ok, ensure_eq_ok] at h
    obtain ⟨digests, ⟨-, -, hreview⟩, hreviewed⟩ := h
    rw [← validateReviewed_eq_ok hreviewed]
    exact ⟨eventbriteReview_reviewed hreview _, fun e => by cases e⟩
  | iterable =>
    cases hmodel : op.ref.1 with
    | template =>
      simp only [hprovider, hmodel, validateTemplate, bind_eq_ok, catchInvalid, denyIf_eq_ok,
        ensure_eq_ok, fetch_eq_ok, pure_eq_ok] at h
      obtain ⟨digests, ⟨digests', hreview, -, -, -, -, rfl⟩, hreviewed⟩ := h
      rw [← validateReviewed_eq_ok hreviewed]
      exact ⟨templateReview_reviewed hreview, fun _ e => by cases e⟩
    | draft =>
      simp only [hprovider, hmodel, bind_eq_ok, catchInvalid, denyIf_eq_ok] at h
      obtain ⟨digests, hreview, hreviewed⟩ := h
      rw [← validateReviewed_eq_ok hreviewed]
      exact (campaignReview_reviewed hreview).imp_right fun howns _ _ => howns

/-- The items of a review digest. -/
theorem get?_reviewContent (intent : Intent D) (run : Run D) (revisionDigest : D)
    (provider : DraftProvider) (model : ExecutionModel) (request : RequestFields D)
    (requestDigest : D) :
    let review := reviewContent intent run revisionDigest provider model request requestDigest
    review.uuid? "intent" = some intent.id ∧ review.uuid? "run" = some run.id ∧
      review.text? "request_digest" = some (.hex requestDigest) ∧
      review.text? "expected_readback_digest" =
        (if provider = .eventbrite then some request.expectedReadbackDigest else none) := by
  cases provider <;> cases model <;> exact ⟨rfl, rfl, rfl, rfl⟩

/-- **A review digest determines the request**: two reviews with one review digest are for the same
operation and run, and ask for the same. -/
theorem content_of_reviewDigest (hH : H.CollisionFree) {w' : World D} {intent' : Intent D}
    {run' : Run D} {provider provider' : DraftProvider} {model model' : ExecutionModel}
    {request' : RequestFields D} {digests' : D × D}
    (h : Reviewed H zones w intent run provider model request digests)
    (h' : Reviewed H zones w' intent' run' provider' model' request' digests')
    (hdigest : digests.2 = digests'.2) :
    intent.id = intent'.id ∧ run.id = run'.id ∧
      (content H zones provider model request).map Json.canon =
        (content H zones provider' model' request').map Json.canon ∧
      request.expectedReadbackDigest = request'.expectedReadbackDigest := by
  obtain ⟨revisionDigest, hreview⟩ := h.review
  obtain ⟨revisionDigest', hreview'⟩ := h'.review
  rw [hreview, hreview', hH.ofJson_inj] at hdigest
  obtain ⟨hi, hr, hd, hx⟩ := get?_reviewContent intent run revisionDigest provider model request
    digests.1
  obtain ⟨hi', hr', hd', hx'⟩ := get?_reviewContent intent' run' revisionDigest' provider' model'
    request' digests'.1
  rw [← Json.uuid?_canon, hdigest, Json.uuid?_canon] at hi hr
  rw [← Json.text?_canon, hdigest, Json.text?_canon] at hd hx
  obtain ⟨c, hc, hcd⟩ := h.content
  obtain ⟨c', hc', hcd'⟩ := h'.content
  refine ⟨(Option.some.inj (hi'.symm.trans hi)).symm, (Option.some.inj (hr'.symm.trans hr)).symm,
    ?_, ?_⟩
  · have hrequest : digests.1 = digests'.1 := by
      simpa using Option.some.inj (hd.symm.trans hd')
    rw [hcd, hcd', hH.ofUtf8_inj] at hrequest
    rw [hc, hc', Option.map_some, Option.map_some, hrequest]
  · have hexpected := hx.symm.trans hx'
    cases provider <;> cases provider' <;> simp at hexpected
    · exact hexpected
    · rw [(h.createOnly rfl).2.2.2, (h'.createOnly rfl).2.2.2]

end Reviews

end CivicLoop.Drafts
