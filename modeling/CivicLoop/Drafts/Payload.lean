import CivicLoop.Agents.Db
import CivicLoop.Foundation.PyText

/-!
# The payloads of provider drafts

What a request to a provider may hold, and the digest under which it is reviewed. Eventbrite takes an
event, Iterable an email template and then a campaign on it; the content of a template is written from
the accepted proposal.

A check that fails raises the provider's error of the category `invalid_request`, which is `none`
here. The time zones that the interpreter knows are a parameter.

## Main definitions

* `DraftError` : what an operation of the draft service raises.
* `EventbriteDrafts.validatePayload`, `EventbriteDrafts.computeRequestDigest` : events.
* `IterableDrafts.validatePayload`, `IterableDrafts.computeRequestDigest` : campaigns.
* `IterableTemplates.validateTemplatePayload`, `IterableTemplates.authorPayload`,
  `IterableTemplates.computeRequestDigest` : templates.

## References

Source: `backend/integrations/eventbrite_drafts.py`, lines 27–152,
`backend/integrations/iterable_drafts.py`, lines 27–121, and
`backend/integrations/iterable_templates.py`, lines 32–131.
-/

namespace CivicLoop

variable {D : Type}

/-- What an operation of the draft service raises: a denial with its text, an error of a provider
adapter with its category, a row that may not be saved, a receipt that is not valid, a missing row
(that of a template is told apart), a missing key or a value of the wrong type, or any other
exception. -/
inductive DraftError
  | permissionDenied (message : String)
  | eventbrite (category : String)
  | iterable (category : String)
  | validationError (message : String)
  | valueError (message : String)
  | doesNotExist
  | templateDoesNotExist
  | keyOrType
  | unhandled
deriving DecidableEq, Repr

inductive DraftAction
  | create
  | update
deriving DecidableEq, Repr

def DraftAction.name : DraftAction → String
  | create => "create"
  | update => "update"

/-- The action of a name, if there is one. -/
def DraftAction.ofName (name : String) : Option DraftAction :=
  [create, update].find? fun action => action.name == name

/-! ### Eventbrite -/

namespace EventbriteDrafts

/-- `_FIELDS`. -/
def fields : List String :=
  ["name", "summary", "start", "end", "online_event", "venue_id", "listed", "shareable"]

/-- `MAX_REQUEST_BYTES`. -/
def maxRequestBytes : ℕ := 32 * 1024

/-- `_identifier`: `[1-9][0-9]{0,39}`. -/
def isIdentifier : Text D → Bool
  | .lit s =>
    match s.toList with
    | c :: cs => c.isDigit && c != '0' && cs.all Char.isDigit && cs.length ≤ 39
    | [] => false
  | _ => false

/-- A field that is absent, or has a value that passes the check. -/
def absentOr (event : Json D) (key : String) (check : Json D → Bool) : Bool :=
  match event.get? key with
  | some value => check value
  | none => true

def isName (name : Json D) : Bool :=
  name.hasKeys ["html"] &&
    match name.text? "html" with
    | some t => !t.isBlank && t.length ≤ 200
    | none => false

def isSummary : Json D → Bool
  | .str t => t.length ≤ 140
  | _ => false

/-- The point in time of a date, in a time zone that exists. -/
def dateOf (zones : String → Bool) (date : Json D) : Option ℕ :=
  if date.hasKeys ["utc", "timezone"] then
    match date.text? "utc", date.text? "timezone" with
    | some (.lit utc), some (.lit timezone) => if zones timezone then utcTimestamp utc else none
    | _, _ => none
  else none

/-- The event starts before it ends, or has neither date. -/
def datesOk (zones : String → Bool) (event : Json D) : Bool :=
  match event.get? "start", event.get? "end" with
  | none, none => true
  | some start, some stop =>
    match dateOf zones start, dateOf zones stop with
    | some start, some stop => start < stop
    | _, _ => false
  | _, _ => false

def isCurrency : Json D → Bool
  | .str (.lit s) => s.toList.length == 3 && s.toList.all Char.isUpper
  | _ => false

def isBool : Json D → Bool
  | .bool _ => true
  | _ => false

def isFalse : Json D → Bool
  | .bool false => true
  | _ => false

def isVenue (event : Json D) : Json D → Bool
  | .str t => isIdentifier t && !event.isTrue "online_event"
  | _ => false

/-- The checks of the fields of an event. -/
def eventOk (zones : String → Bool) (create : Bool) (items : List (String × Json D)) : Bool :=
  let event := Json.obj items
  let allowed := if create then "currency" :: fields else fields
  !items.isEmpty && items.all (fun item => allowed.contains item.1) &&
    (!create || ["name", "start", "end", "currency"].all fun key => (event.get? key).isSome) &&
    absentOr event "name" isName && absentOr event "summary" isSummary && datesOk zones event &&
    absentOr event "currency" isCurrency && absentOr event "online_event" isBool &&
    absentOr event "listed" isFalse && absentOr event "shareable" isFalse &&
    absentOr event "venue_id" (isVenue event)

/-- `dict.setdefault`. -/
def setDefault (key : String) (value : Json D) (items : List (String × Json D)) :
    List (String × Json D) :=
  if (items.lookup key).isSome then items else items ++ [(key, value)]

/-- `validate_payload`: the payload, with the defaults of a new event. -/
def validatePayload (zones : String → Bool) (create : Bool) (payload : Json D) :
    Option (Json D) :=
  if payload.hasKeys ["event"] then
    match payload.get? "event" with
    | some (.obj items) =>
      if eventOk zones create items &&
          payload.encodedLengthWith Json.utf8Length 1 ≤ maxRequestBytes then
        some (.obj [("event", .obj (if create then
          setDefault "shareable" (.bool false) (setDefault "listed" (.bool false) items)
        else items))])
      else none
    | _ => none
  else none

/-- An update names its event, and a creation names none. -/
def identifies (action : DraftAction) (eventId : Option (Text D)) : Bool :=
  match action with
  | .create => eventId.isNone
  | .update => eventId.any isIdentifier

/-- What the digest of a request is taken of. -/
def requestContent (action : DraftAction) (organizationId : Text D) (eventId : Option (Text D))
    (payload : Json D) : Json D :=
  .obj
    [("action", .lit action.name),
      ("organization_id", .str organizationId),
      ("event_id", eventId.elim .null .str),
      ("payload", payload)]

/-- `compute_request_digest`. -/
def computeRequestDigest (H : Hash D) (zones : String → Bool) (action : DraftAction)
    (organizationId : Text D) (eventId : Option (Text D)) (payload : Json D) : Option D :=
  if isIdentifier organizationId && identifies action eventId then
    (validatePayload zones (action == .create) payload).map fun validated =>
      H.ofUtf8 (requestContent action organizationId eventId validated)
  else none

end EventbriteDrafts

/-! ### Iterable campaigns -/

namespace IterableDrafts

/-- `_FIELDS`. -/
def fields : List String := ["name", "templateId", "listIds", "suppressionListIds", "scheduleSend"]

/-- `MAX_REQUEST_BYTES`. -/
def maxRequestBytes : ℕ := 16 * 1024

/-- `_identifier`. -/
def isIdentifier : Json D → Bool
  | .int n => 0 < n && n ≤ 2 ^ 63 - 1
  | _ => false

/-- `_region`. -/
def isRegion : Json D → Bool
  | .str (.lit s) => s == "us" || s == "eu"
  | _ => false

/-- A list of distinct identifiers, at most 100 of them. -/
def isIdList (nonempty : Bool) : Json D → Bool
  | .arr ids =>
    ids.length ≤ 100 && !(nonempty && ids.isEmpty) && ids.all isIdentifier &&
      (ids.filterMap fun id => match id with
        | .int n => some n
        | _ => none).Nodup
  | _ => false

/-- `validate_payload`. -/
def validatePayload (payload : Json D) : Option (Json D) :=
  if payload.hasKeys fields &&
      (match payload.text? "name" with
      | some t => !t.isBlank && t.length ≤ 200
      | none => false) &&
      (payload.get? "scheduleSend").any EventbriteDrafts.isFalse &&
      (payload.get? "templateId").any isIdentifier && (payload.get? "listIds").any (isIdList true) &&
      (payload.get? "suppressionListIds").any (isIdList false) &&
      payload.encodedLengthWith Json.utf8Length 1 ≤ maxRequestBytes then
    some payload
  else none

/-- What the digest of a request is taken of. -/
def requestContent (region payload expectedTemplateDigest : Json D) : Json D :=
  .obj
    [("region", region),
      ("payload", payload),
      ("expected_template_digest", expectedTemplateDigest)]

/-- A string of 64 hexadecimal digits. -/
def isDigest : Json D → Bool
  | .str t => t.isHex64
  | _ => false

/-- `compute_request_digest`. -/
def computeRequestDigest (H : Hash D) (region payload expectedTemplateDigest : Json D) : Option D :=
  if isDigest expectedTemplateDigest && isRegion region then
    (validatePayload payload).map fun validated =>
      H.ofUtf8 (requestContent region validated expectedTemplateDigest)
  else none

end IterableDrafts

/-! ### Iterable templates -/

namespace IterableTemplates

/-- `LEGACY_FIELDS`. -/
def legacyFields : List String :=
  ["clientTemplateId", "name", "fromEmail", "fromName", "replyToEmail", "subject", "html",
    "plainText", "messageTypeId"]

/-- `FIELDS`. -/
def fields : List String := "cacheDataFeed" :: legacyFields

/-- The fields of a sender. -/
def senderFields : List String := ["fromEmail", "fromName", "replyToEmail", "messageTypeId"]

/-- `MARKETING_FOOTER`. -/
def marketingFooter : String :=
  "\n<p><a href=\"\x7b\x7bunsubscribeUrl\x7d\x7d\">Unsubscribe</a><br>\x7b\x7bphysicalAddress\x7d\x7d</p>"

/-- The versions of a template payload. -/
inductive PayloadVersion
  | one
  | two
deriving DecidableEq, Repr

/-- `payload_version`. -/
def payloadVersion (payload : Json D) : Option PayloadVersion :=
  if payload.hasKeys legacyFields then some .one
  else if payload.hasKeys fields && (payload.get? "cacheDataFeed").any EventbriteDrafts.isFalse then
    some .two
  else none

/-- `plain_html`. -/
def plainHtml (body : List Char) : List Char :=
  "<p>".toList ++
    (body.flatMap htmlEscape).flatMap (fun c => if c = '\n' then "<br>\n".toList else [c]) ++
    "</p>".toList

/-- The HTML of a body in a payload of a version. -/
def htmlOf (version : PayloadVersion) (body : List Char) : List Char :=
  plainHtml body ++ if version = .two then marketingFooter.toList else []

/-- A field of a payload other than the message type and the cache flag. -/
def isContent (key : String) : Json D → Bool
  | .str t => !t.isBlank && t.length ≤ if key = "html" then 30000 else 12000
  | _ => false

/-- `"civicloop-"` and the canonical text of a UUID. -/
def isClientId : Text D → Bool
  | .lit s => (s.toList.take 10 == "civicloop-".toList) && isUuidText (s.toList.drop 10)
  | _ => false

def isAddress : Text D → Bool
  | .lit s => s.length ≤ 254 && isEmailAddress s.toList
  | _ => false

/-- A short string without control characters. -/
def isLine (H : Hash D) (t : Text D) : Bool :=
  t.length ≤ 240 && (t.render H).all fun c => 32 ≤ c.toNat

/-- No mark of a template language. -/
def isPlain (H : Hash D) (t : Text D) : Bool :=
  "\x7b\x7d[]".toList.all fun c => !hasDouble c (t.render H)

/-- The string under a key passes a check. -/
def textIs (payload : Json D) (check : Text D → Bool) (key : String) : Bool :=
  (payload.text? key).any check

/-- `validate_template_payload`. -/
def validateTemplatePayload (H : Hash D) (payload : Json D) : Option (Json D) :=
  match payloadVersion payload, payload, payload.text? "plainText", payload.text? "html" with
  | some version, .obj items, some plain, some html =>
    if (payload.int? "messageTypeId").any (fun n => 0 < n && n ≤ 2 ^ 31 - 1) &&
        items.all (fun item => ["messageTypeId", "cacheDataFeed"].contains item.1 ||
          isContent item.1 item.2) &&
        textIs payload isClientId "clientTemplateId" &&
        ["fromEmail", "replyToEmail"].all (textIs payload isAddress) &&
        ["fromName", "subject", "name"].all (textIs payload (isLine H)) &&
        ["plainText", "subject"].all (textIs payload (isPlain H)) &&
        html.render H == htmlOf version (plain.render H) &&
        payload.encodedLengthWith Json.asciiLength 1 ≤ 65536 then
      some payload
    else none
  | _, _, _, _ => none

/-- The content of an operation of this kind, among the contents of a proposal. -/
def contentKey : OperationKind → Option String
  | .createIterableEmailDraft => some "invitation"
  | .createIterableReminderDraft => some "reminder"
  | .createEventbriteDraft => none

/-- `author_payload`: the template of an operation on a proposal with the content `content`. -/
def authorPayload (H : Hash D) (intentId : Uuid) (operationKind : OperationKind) (content : Json D)
    (sender : Json D) (version : PayloadVersion) : Except DraftError (Json D) := do
  let invalid := DraftError.iterable "invalid_request"
  ensure (sender.hasKeys senderFields) invalid
  let kind ← fetch (contentKey operationKind) invalid
  let content ← fetch (content.get? kind) .keyOrType
  let subject ← fetch (content.get? "subject") .keyOrType
  let body ← fetch (content.get? "body") .keyOrType
  match sender, body with
  | .obj senderItems, .str text =>
    fetch (validateTemplatePayload H (.obj
      ([("clientTemplateId", .lit ("civicloop-" ++ uuidText intentId)),
          ("name", .lit ("CivicLoop " ++ kind ++ " " ++ uuidText intentId))] ++ senderItems ++
        [("subject", subject),
          ("plainText", body),
          ("html", .lit (String.ofList (htmlOf version (text.render H))))] ++
        if version = .two then [("cacheDataFeed", .bool false)] else []))) invalid
  -- `html.escape` of a value that is not a string
  | _, _ => .error .unhandled

/-- What the digest of a request is taken of. -/
def requestContent (region payload : Json D) : Json D :=
  .obj [("region", region), ("payload", payload)]

/-- `compute_request_digest`. -/
def computeRequestDigest (H : Hash D) (region payload : Json D) : Option D :=
  if IterableDrafts.isRegion region then
    (validateTemplatePayload H payload).map fun validated =>
      H.ofUtf8 (requestContent region validated)
  else none

end IterableTemplates

end CivicLoop
