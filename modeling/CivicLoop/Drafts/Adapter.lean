import CivicLoop.Drafts.Service
import CivicLoop.Foundation.PyEqual
import CivicLoop.Foundation.Talk

/-!
# Requests of the adapters

The adapters send requests over HTTP and read the answers. What the transport makes of a request is an input: an error
status, a response with its body, or a failure. A body is given by the value that it is the text of, if it is not too
long and can be read.

## Main definitions

* `HttpRequest`, `Answer` : requests, and what comes of them.
* `Answer.result` : the value of an answer, or the error that it raises.
* `AdapterTalk`, `send` : programs of an adapter, and a request that may be sent.
* `withToken` : the checks of a credential.

## References

Source: `backend/integrations/eventbrite_drafts.py`, lines 170–248, `backend/integrations/iterable_drafts.py`, lines
158–256, and `backend/integrations/iterable_templates.py`, lines 144–210.
-/

namespace CivicLoop

variable {D : Type}

/-- `dict.get`. -/
def Json.item (j : Json D) (key : String) : Json D := (j.get? key).getD .null

namespace Drafts

/-! ### Answers -/

/-- What an adapter raises: an error of its own, by its category, or any other exception. -/
abbrev Raise := Option String

/-- What the transport makes of a request: an error status, a response with its status and its body, if the body can be
read, a timeout, another failure of the network, or any other exception. -/
inductive Answer (D : Type)
  | status (code : ℕ)
  | answered (status : ℕ) (body : Option (Json D))
  | timeout
  | network
  | fails

/-- A status of a redirection. -/
def isRedirect (code : ℕ) : Bool := 300 ≤ code && code < 400

/-- The category of an error status. -/
def categoryOf (code : ℕ) : String :=
  if isRedirect code then "redirect"
  else
    match code with
    | 400 => "provider_validation"
    | 401 => "authentication"
    | 403 => "forbidden"
    | 404 => "not_found"
    | 429 => "rate_limited"
    | _ => "provider_error"

/-- The value of an answer, which is a dictionary, or what it raises. -/
def Answer.result : Answer D → Except Raise (Json D)
  | .status code => .error (some (categoryOf code))
  | .answered 200 (some (.obj items)) => .ok (.obj items)
  | .answered _ _ => .error (some "invalid_response")
  | .timeout => .error (some "timeout")
  | .network => .error (some "network")
  | .fails => .error none

/-- The provider has refused a request. -/
def Answer.rejects : Answer D → Bool
  | .status code => [400, 401, 403, 404, 429].contains code || isRedirect code
  | _ => false

/-- The categories of a refused request, which a write raises. -/
def rejections : List String :=
  ["provider_validation", "authentication", "forbidden", "not_found", "rate_limited", "redirect"]

theorem result_eq_ok {a : Answer D} {j : Json D} (h : a.result = .ok j) : a = .answered 200 (some j) := by
  unfold Answer.result at h
  split at h <;> cases h
  rfl

/-- A refusal is known by its category. -/
theorem rejects_of_result {a : Answer D} {category : String} (h : a.result = .error (some category))
    (hmem : category ∈ rejections) : a.rejects = true := by
  cases a with
  | status code =>
    cases h
    unfold categoryOf at hmem
    rw [Answer.rejects]
    split_ifs at hmem with hredirect
    · rw [hredirect, Bool.or_true]
    · split at hmem
      · rfl
      · rfl
      · rfl
      · rfl
      · rfl
      · exact absurd hmem (by decide)
  | answered status body =>
    have hcategory : category = "invalid_response" := by
      unfold Answer.result at h
      split at h
      · rename_i heq
        cases heq
      · cases h
      · cases h
        rfl
      · rename_i heq
        cases heq
      · rename_i heq
        cases heq
      · cases h
    exact absurd (hcategory ▸ hmem) (by decide)
  | timeout =>
    cases h
    exact absurd hmem (by decide)
  | network =>
    cases h
    exact absurd hmem (by decide)
  | fails => cases h

/-- Every error of a computation is one of the adapter's own, and is not a refusal. -/
def NoRefusal {α : Type} (x : Except Raise α) : Prop :=
  ∀ e, x = .error e → ∃ category, e = some category ∧ category ∉ rejections

theorem NoRefusal.pure {α : Type} (a : α) : NoRefusal (.ok a) := fun _ h => nomatch h

theorem NoRefusal.error {α : Type} {category : String} (h : category ∉ rejections) :
    NoRefusal (.error (some category) : Except Raise α) := by
  intro e he
  cases he
  exact ⟨category, rfl, h⟩

theorem NoRefusal.ensure {p : Prop} [Decidable p] {category : String} (h : category ∉ rejections) :
    NoRefusal (ensure p (some category)) := by
  unfold CivicLoop.ensure
  split_ifs
  · exact .pure ()
  · exact .error h

theorem NoRefusal.bind {α β : Type} {x : Except Raise α} {f : α → Except Raise β} (hx : NoRefusal x)
    (hf : ∀ a, NoRefusal (f a)) : NoRefusal (x >>= f) := by
  cases x with
  | error e =>
    intro e' h
    rw [error_bind] at h
    exact hx e' (congrArg Except.error (Except.error.inj h))
  | ok a => exact hf a

/-! ### Requests -/

/-- The paths of the requests. -/
inductive Endpoint (D : Type)
  | event (id : Text D)
  | organizationEvents (organizationId : Text D)
  | createCampaign
  | campaign (id : ℤ)
  | template (id : ℤ)
  | clientTemplate (id : Text D)
  | upsertTemplate

/-- A request. -/
inductive HttpRequest (D : Type)
  | get (endpoint : Endpoint D)
  | post (endpoint : Endpoint D) (payload : Json D)

/-- A request that may write. -/
def HttpRequest.isPost : HttpRequest D → Bool
  | get _ => false
  | post _ _ => true

/-- A program of an adapter. -/
abbrev AdapterTalk (D : Type) := Talk (HttpRequest D) (Answer D) Raise

/-- The requests of an adapter, with what came of them. -/
abbrev AdapterLog (D : Type) := Exchanges (HttpRequest D) (Answer D)

/-- The requests of a log that may write. -/
def AdapterLog.posts (log : AdapterLog D) : AdapterLog D := log.filter fun exchange => exchange.1.isPost

theorem posts_append (log log' : AdapterLog D) :
    AdapterLog.posts (log ++ log') = AdapterLog.posts log ++ AdapterLog.posts log' := List.filter_append _ _

/-- `_request`, if the method and the path are allowed. -/
def send (allowed : Bool) (request : HttpRequest D) : AdapterTalk D (Json D) := do
  ensure allowed (some "invalid_request")
  let answer ← Talk.ask request
  (answer : Answer D).result

/-- What can come of a request, and the exchange for it. -/
inductive SendOutcome (request : HttpRequest D) : Except Raise (Json D) → AdapterLog D → Prop
  | refused : SendOutcome request (.error (some "invalid_request")) []
  | sent (answer : Answer D) {r : Except Raise (Json D)} (h : answer.result = r) :
      SendOutcome request r [(request, answer)]

/-- **A request is refused before it is sent, or is sent and answered.** -/
theorem send_spec (allowed : Bool) (request : HttpRequest D) : (send allowed request).Adds (SendOutcome request) := by
  refine Talk.adds_lift_bind (fun _ _ => ?_) fun e h => ?_
  · exact fun log party => ⟨_, rfl, .sent (party log request) rfl⟩
  · rw [ensure] at h
    split_ifs at h
    cases h
    exact .refused

/-- A request that may not be sent. -/
theorem noRefusal_send : NoRefusal (.error (some "invalid_request") : Except Raise (Json D)) := .error (by decide)

/-! ### Values -/

/-- What the adapters take from their environment: the hash functions, the time zones that exist, the values of floats,
and which values have a text in UTF-8 (those with a lone surrogate have none). -/
structure AdapterEnv (D : Type) where
  H : Hash D
  zones : String → Bool
  floats : FloatValues
  encodes : Json D → Bool

/-- The value is `None`. -/
def isNone : Json D → Bool
  | .null => true
  | _ => false

/-- `_digest`. -/
def digestOf (E : AdapterEnv D) (j : Json D) : Except Raise D := do
  ensure (E.encodes j) none
  return E.H.ofUtf8 j

/-- The items of a dictionary under some keys, each with the value `None` if it is absent. -/
def itemsOf (keys : List String) (j : Json D) : Json D := .obj (keys.map fun key => (key, j.item key))

/-- A receipt of an outcome that is not known. -/
def unknownReceipt (id : Option (Text D)) (status : Option String) (digest : D) (category : String) :
    DraftReceipt D where
  outcome := "UNKNOWN"
  providerId := id
  providerStatus := status
  requestDigest := .hex digest
  readbackDigest := none
  errorCategory := some category

/-- A receipt of a draft that has been read back. -/
def confirmedReceipt (id : Text D) (status : String) (digest readback : D) : DraftReceipt D where
  outcome := "CONFIRMED"
  providerId := some id
  providerStatus := some status
  requestDigest := .hex digest
  readbackDigest := some (.hex readback)
  errorCategory := none

/-- The handler of a write: a refusal is raised again, as is any other exception, and nothing is known after the
adapter's other errors. -/
def afterWrite (id : Option (Text D)) (digest : D) : Raise → Except Raise (DraftReceipt D)
  | none => .error none
  | some category =>
    if rejections.contains category then .error (some category) else .ok (unknownReceipt id none digest category)

/-- The handler of a confirmation: nothing is known after the adapter's errors. -/
def afterRead (id : Option (Text D)) (status : Option String) (digest : D) :
    Except Raise (DraftReceipt D) → Except Raise (DraftReceipt D)
  | .ok receipt => .ok receipt
  | .error none => .error none
  | .error (some category) => .ok (unknownReceipt id status digest category)

/-! ### What a program may have done -/

section Outcomes

variable {given : Option (Text D)} {digest : D} {confirmed : DraftReceipt D → AdapterLog D → Prop}
  {r : Except Raise (DraftReceipt D)} {log : AdapterLog D} {answer : Answer D}

/-- A program has only read. Its receipt is one of an outcome that is not known, or is confirmed by the exchanges; it is
for the given draft, if there is one. -/
structure ReadsOnly (given : Option (Text D)) (digest : D) (confirmed : DraftReceipt D → AdapterLog D → Prop)
    (r : Except Raise (DraftReceipt D)) (log : AdapterLog D) : Prop where
  posts : log.posts = []
  given : ∀ receipt, r = .ok receipt → ∀ id, given = some id → receipt.providerId = some id
  receipts : ∀ receipt, r = .ok receipt →
    (∃ id status category, receipt = unknownReceipt id status digest category) ∨ confirmed receipt log

/-- A program has read a draft back: it raises no error of its own. -/
structure ReadsBack (given : Option (Text D)) (digest : D) (confirmed : DraftReceipt D → AdapterLog D → Prop)
    (r : Except Raise (DraftReceipt D)) (log : AdapterLog D) : Prop extends ReadsOnly given digest confirmed r log where
  quiet : ∀ category, r ≠ .error (some category)

/-- A program has only read after its POST, and raises an error of its own only if the POST was refused. -/
structure AfterPost (answer : Answer D) (given : Option (Text D)) (digest : D)
    (confirmed : DraftReceipt D → AdapterLog D → Prop) (r : Except Raise (DraftReceipt D)) (log : AdapterLog D) :
    Prop extends ReadsOnly given digest confirmed r log where
  refused : ∀ category, r = .error (some category) → answer.rejects = true

theorem ReadsOnly.ofError (hposts : log.posts = []) (e : Raise) :
    ReadsOnly given digest confirmed (.error e) log :=
  ⟨hposts, fun _ h => (nomatch h), fun _ h => (nomatch h)⟩

theorem ReadsOnly.ofUnknown (hposts : log.posts = []) {id : Option (Text D)}
    (hid : ∀ id', given = some id' → id = some id') (status : Option String) (category : String) :
    ReadsOnly given digest confirmed (.ok (unknownReceipt id status digest category)) log := by
  refine ⟨hposts, fun receipt h => ?_, fun receipt h => ?_⟩
  · cases h
    exact hid
  · cases h
    exact .inl ⟨id, status, category, rfl⟩

theorem ReadsOnly.mono {confirmed' : DraftReceipt D → AdapterLog D → Prop} (h : ReadsOnly given digest confirmed r log)
    (hconfirmed : ∀ receipt, r = .ok receipt → confirmed receipt log → confirmed' receipt log) :
    ReadsOnly given digest confirmed' r log :=
  ⟨h.posts, h.given, fun receipt hr => (h.receipts receipt hr).imp_right (hconfirmed receipt hr)⟩

theorem ReadsOnly.ofNone (h : ReadsOnly given digest confirmed r log) : ReadsOnly none digest confirmed r log :=
  ⟨h.posts, (fun _ _ _ h => nomatch h), h.receipts⟩

/-- An error while reading back. -/
theorem ReadsBack.ofRead (hposts : log.posts = []) {id : Option (Text D)}
    (hid : ∀ id', given = some id' → id = some id') (status : Option String) (e : Raise) :
    ReadsBack given digest confirmed (afterRead id status digest (.error e)) log := by
  cases e with
  | none => exact ⟨.ofError hposts none, fun _ h => nomatch h⟩
  | some category => exact ⟨.ofUnknown hposts hid status category, fun _ h => nomatch h⟩

theorem ReadsBack.ofConfirmed {receipt : DraftReceipt D} (hposts : log.posts = [])
    (hgiven : ∀ id, given = some id → receipt.providerId = some id) (h : confirmed receipt log) :
    ReadsBack given digest confirmed (.ok receipt) log := by
  refine ⟨⟨hposts, fun receipt' h' => ?_, fun receipt' h' => ?_⟩, fun _ h => nomatch h⟩
  · cases h'
    exact hgiven
  · cases h'
    exact .inr h

theorem ReadsBack.ofNone (h : ReadsBack given digest confirmed r log) : ReadsBack none digest confirmed r log :=
  ⟨h.toReadsOnly.ofNone, h.quiet⟩

theorem ReadsBack.afterPost {confirmed' : DraftReceipt D → AdapterLog D → Prop}
    (h : ReadsBack given digest confirmed r log)
    (hconfirmed : ∀ receipt, r = .ok receipt → confirmed receipt log → confirmed' receipt log) :
    AfterPost answer given digest confirmed' r log :=
  ⟨h.toReadsOnly.mono hconfirmed, fun category hr => absurd hr (h.quiet category)⟩

/-- The error of a POST. -/
theorem AfterPost.ofPost {id : Option (Text D)} (hid : ∀ id', given = some id' → id = some id') {e : Raise}
    (h : answer.result = .error e) : AfterPost answer given digest confirmed (afterWrite id digest e) [] := by
  cases e with
  | none => exact ⟨.ofError rfl none, fun _ h => nomatch h⟩
  | some category =>
    rw [afterWrite]
    split_ifs with hcategory
    · exact ⟨.ofError rfl _, fun _ _ => rejects_of_result h (List.contains_iff_mem.1 hcategory)⟩
    · exact ⟨.ofUnknown rfl hid none category, fun _ h => nomatch h⟩

/-- An error that the adapter finds in the answer to a POST is not a refusal. -/
theorem AfterPost.ofCheck {id : Option (Text D)} (hid : ∀ id', given = some id' → id = some id') {α : Type}
    {x : Except Raise α} (hx : NoRefusal x) {e : Raise} (h : x = .error e) :
    AfterPost answer given digest confirmed (afterWrite id digest e) [] := by
  obtain ⟨category, rfl, hcategory⟩ := hx e h
  rw [afterWrite, if_neg (by rwa [List.contains_iff_mem])]
  exact ⟨.ofUnknown rfl hid none category, fun _ h => nomatch h⟩

/-- A program has sent its POST once, behind a guard. -/
def WritesOnce (given : Option (Text D)) (endpoint : Endpoint D) (payload : Json D) (guard : AdapterLog D → Prop)
    (digest : D) (confirmed : Answer D → DraftReceipt D → AdapterLog D → Prop) (r : Except Raise (DraftReceipt D))
    (log : AdapterLog D) : Prop :=
  ∃ before answer after, log = before ++ (.post endpoint payload, answer) :: after ∧
    AdapterLog.posts before = [] ∧ guard before ∧ AfterPost answer given digest (confirmed answer) r after

/-- What can come of a write: an error before the POST, or what the reads and the POST of a validated payload give. -/
def WriteOutcome (given : Option (Text D)) (endpoint : Endpoint D) (sends : Json D → D → Prop)
    (guard : Json D → AdapterLog D → Prop) (confirmed : Json D → D → Answer D → DraftReceipt D → AdapterLog D → Prop)
    (r : Except Raise (DraftReceipt D)) (log : AdapterLog D) : Prop :=
  ((∃ e, r = .error e) ∧ log.posts = []) ∨ ∃ validated digest, sends validated digest ∧
    (ReadsOnly given digest (fun _ _ => False) r log ∨
      WritesOnce given endpoint validated (guard validated) digest (confirmed validated digest) r log)

variable {endpoint : Endpoint D} {payload : Json D} {guard : AdapterLog D → Prop} {sends : Json D → D → Prop}
  {guards : Json D → AdapterLog D → Prop} {confirms : Json D → D → Answer D → DraftReceipt D → AdapterLog D → Prop}

theorem WritesOnce.posts {confirmed : Answer D → DraftReceipt D → AdapterLog D → Prop}
    (h : WritesOnce given endpoint payload guard digest confirmed r log) :
    ∃ answer, log.posts = [(.post endpoint payload, answer)] ∧
      ∀ category, r = .error (some category) → answer.rejects = true := by
  obtain ⟨before, answer, after, rfl, hbefore, -, hafter⟩ := h
  refine ⟨answer, ?_, hafter.refused⟩
  have hcons : AdapterLog.posts ((HttpRequest.post endpoint payload, answer) :: after) =
      (.post endpoint payload, answer) :: AdapterLog.posts after := List.filter_cons_of_pos rfl
  rw [posts_append, hbefore, List.nil_append, hcons, hafter.posts]

/-- **At most one POST is sent**, and after an error of the adapter it was refused. -/
theorem WriteOutcome.posts (h : WriteOutcome given endpoint sends guards confirms r log) :
    log.posts.length ≤ 1 ∧
      ∀ category, r = .error (some category) → ∀ exchange ∈ log.posts, exchange.2.rejects = true := by
  have hnone : log.posts = [] → log.posts.length ≤ 1 ∧
      ∀ category, r = .error (some category) → ∀ exchange ∈ log.posts, exchange.2.rejects = true := by
    intro hposts
    rw [hposts]
    exact ⟨Nat.zero_le 1, fun _ _ _ h => nomatch h⟩
  obtain ⟨-, hposts⟩ | ⟨validated, digest, -, h | h⟩ := h
  · exact hnone hposts
  · exact hnone h.posts
  · obtain ⟨answer, hposts, hrefused⟩ := h.posts
    rw [hposts]
    refine ⟨le_rfl, fun category hr exchange hexchange => ?_⟩
    obtain rfl := List.mem_singleton.1 hexchange
    exact hrefused category hr

/-- A receipt of a write. -/
theorem WriteOutcome.receipt {receipt : DraftReceipt D}
    (h : WriteOutcome given endpoint sends guards confirms (.ok receipt) log) :
    ∃ validated digest, sends validated digest ∧ (∀ id, given = some id → receipt.providerId = some id) ∧
      ((∃ id status category, receipt = unknownReceipt id status digest category) ∨
        ∃ before answer after, log = before ++ (.post endpoint validated, answer) :: after ∧
          confirms validated digest answer receipt after) := by
  obtain ⟨⟨e, he⟩, -⟩ | ⟨validated, digest, hsends, h | ⟨before, answer, after, rfl, -, -, h⟩⟩ := h
  · cases he
  · exact ⟨validated, digest, hsends, h.given receipt rfl, .inl ((h.receipts receipt rfl).resolve_right id)⟩
  · refine ⟨validated, digest, hsends, h.given receipt rfl, (h.receipts receipt rfl).imp_right fun h => ?_⟩
    exact ⟨before, answer, after, rfl, h⟩

end Outcomes

theorem given_eq_some [DecidableEq D] {t : Option (Text D)} {id : Text D} (h : given t = some id) : t = some id := by
  cases t with
  | none => cases h
  | some t =>
    rw [given, Option.bind_some, orNone] at h
    split_ifs at h
    exact h

/-! ### Credentials -/

/-- What an adapter reads of a credential: whether it is a lease for a workflow, its provider and its purpose, whether it
may still be used, and its text, if it has one. -/
structure Credential where
  isLease : Bool
  provider : String
  purpose : String
  isAvailable : Bool
  text : Option (List Char)

/-- `_token`: an operation with the token of a credential. -/
def withToken {α : Type} (provider purpose : String) (c : Credential) (operation : AdapterTalk D α) :
    AdapterTalk D α := do
  ensure (c.isLease ∧ c.provider = provider ∧ c.purpose = purpose) (some "invalid_credential")
  ensure c.isAvailable (none : Raise)
  ensure (c.text.any fun token => token ≠ [] && token.all fun char => 33 ≤ char.toNat && char.toNat ≤ 126)
    (some "invalid_credential")
  operation

variable {α β : Type} {Q : Except Raise β → AdapterLog D → Prop}

theorem adds_ensure_bind {p : Prop} [Decidable p] {e : Raise} {f : Unit → AdapterTalk D β}
    (hok : p → (f ()).Adds Q) (herror : Q (.error e) []) :
    ((liftM (ensure p e) : AdapterTalk D Unit) >>= f).Adds Q := by
  refine Talk.adds_lift_bind (fun _ h => hok (ensure_eq_ok.1 h)) fun e' h => ?_
  rw [ensure] at h
  split_ifs at h
  cases h
  exact herror

theorem adds_fetch_bind {o : Option α} {e : Raise} {f : α → AdapterTalk D β} (hok : ∀ a, o = some a → (f a).Adds Q)
    (herror : Q (.error e) []) : ((liftM (fetch o e) : AdapterTalk D α) >>= f).Adds Q := by
  refine Talk.adds_lift_bind (fun a h => hok a (fetch_eq_ok.1 h)) fun e' h => ?_
  cases o with
  | none =>
    cases h
    exact herror
  | some a => cases h

theorem adds_withToken {provider purpose : String} {c : Credential} {operation : AdapterTalk D β}
    (h : operation.Adds Q) (herror : ∀ e, Q (.error e) []) : (withToken provider purpose c operation).Adds Q :=
  adds_ensure_bind (fun _ => adds_ensure_bind (fun _ => adds_ensure_bind (fun _ => h) (herror _)) (herror _)) (herror _)

end Drafts

end CivicLoop
