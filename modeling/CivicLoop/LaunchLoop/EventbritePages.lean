import CivicLoop.LaunchLoop.OwnerTitles

/-!
# Browsing the events of an account

A page of events is read with at most four requests. A position says where the reader stands: a page of the account's
organizations, an organization on it, and a page of its events. A cursor carries the position to the next call, with a
binding to the account and the query. What lies before a position has been read, and what lies after it is left:
a call takes the pages that it reads from the front of what is left.

The clock is an input, which says at each check whether the deadline has passed. The cipher of the cursors, the
interpreter's reader of dates and the digest that binds a cursor are parameters.

## Main definitions

* `listPage` : one call.
* `StaticProvider` : a provider whose answers do not change.
* `Browse` : the calls from a cursor on to the end.

## Main results

* `readPages_spec` : what a call takes from what is left.
* `browse_complete` : the calls end, read every page of events once and return the matching events.

## References

Source: `backend/launchloop/eventbrite.py`, lines 57–64, 187–238 and 250–428.
-/

namespace CivicLoop.LaunchLoop

/-! ### Events -/

/-- The categories of `EventbriteReadError` that a page raises of itself; those of the transport are in the answers. -/
inductive ReadCategory
  | authentication
  | authorization
  | rateLimit
  | timeout
  | network
  | invalidResponse
  | providerUnavailable
deriving DecidableEq, Repr

/-- `_ID`. -/
def isProviderId (s : String) : Bool := isRepeat Char.isDigit 1 32 s.toList

/-- `_STATUSES`. -/
def eventStatuses : List String := ["draft", "live", "started", "ended", "completed", "canceled"]

/-- `datetime.fromisoformat` of a text, if the date has a zone. -/
abbrev IsoReader := String → Option Time

/-- `_datetime`. -/
def datetimeOf (fromIso : IsoReader) : Option Message → Option Time
  | some (.str t) =>
    if t.plain.length ≤ 40 then
      fromIso (String.ofList (t.plain.toList.flatMap fun c => if c = 'Z' then "+00:00".toList else [c]))
    else none
  | _ => none

/-- The time zone of a start, which may be absent. -/
def timezoneOf (start : Option Message) : Option String :=
  match start with
  | some (.obj items) =>
    match items.lookup "timezone" with
    | none => some ""
    | some (.str t) => some t.plain
    | some _ => none
  | _ => some ""

/-- `_parse_event`. -/
def parseEvent (fromIso : IsoReader) (value : Message) : Except ReadCategory EventMetadata := do
  let eventId ← fetch (value.text? "id") .invalidResponse
  let title ← fetch ((value.get? "name").bind fun name => name.text? "text") .invalidResponse
  let status ← fetch (value.text? "status") .invalidResponse
  let changed ← fetch (datetimeOf fromIso (value.get? "changed")) .invalidResponse
  let start := value.get? "start"
  let timezone ← fetch (timezoneOf start) .invalidResponse
  ensure (isProviderId eventId.plain ∧ 1 ≤ (strip title.plain).length ∧ (strip title.plain).length ≤ 240 ∧
    status.plain ∈ eventStatuses ∧ timezone.length ≤ 64) .invalidResponse
  return {
    providerEventId := eventId.plain
    title := strip title.plain
    status := status.plain
    changedAt := changed
    startAt := start.bind fun start => datetimeOf fromIso (start.get? "utc")
    endAt := (value.get? "end").bind fun stop => datetimeOf fromIso (stop.get? "utc")
    timezone }

/-- `_product_rows`. -/
def productRows (payload : Message) (key : String) (limit : ℕ) : Except ReadCategory (List Message × Bool) :=
  match payload.get? key, payload.get? "pagination" with
  | some (.arr rows), some (.obj pagination) =>
    match pagination.lookup "has_more_items" with
    | some (.bool more) =>
      if rows.length ≤ limit ∧ ¬(more = true ∧ rows = []) then .ok (rows, more) else .error .invalidResponse
    | _ => .error .invalidResponse
  | _, _ => .error .invalidResponse

/-- The id of an organization. -/
def organizationId (organization : Message) : Except ReadCategory String := do
  let id ← fetch (organization.text? "id") .invalidResponse
  ensure (isProviderId id.plain) .invalidResponse
  return id.plain

/-! ### Queries -/

/-- The arguments of `list_page`, besides the credential and the cursor. -/
structure EventQuery where
  account : String
  pageSize : ℕ
  statuses : List String
  changedSince : Option String
  changedUntil : Option String
  createdSince : Option String
  createdUntil : Option String

/-- `parsed_bounds`. -/
structure Bounds where
  changedSince : Option Time
  changedUntil : Option Time
  createdSince : Option Time
  createdUntil : Option Time

/-- The date of a bound, if there is one. -/
def boundOf (fromIso : IsoReader) : Option String → Except ReadCategory (Option Time)
  | none => .ok none
  | some text => do
    let time ← fetch (datetimeOf fromIso (some (.lit text))) .invalidResponse
    return some time

/-- The first bound is not after the second one. -/
def ordered : Option Time → Option Time → Bool
  | some lower, some upper => lower ≤ upper
  | _, _ => true

/-- The checks of the arguments. -/
def EventQuery.check (fromIso : IsoReader) (q : EventQuery) : Except ReadCategory Bounds := do
  ensure (1 ≤ q.pageSize ∧ q.pageSize ≤ 20) .invalidResponse
  ensure (q.statuses ≠ [] ∧ ∀ status ∈ q.statuses, status ∈ eventStatuses) .invalidResponse
  let changedSince ← boundOf fromIso q.changedSince
  let changedUntil ← boundOf fromIso q.changedUntil
  let createdSince ← boundOf fromIso q.createdSince
  let createdUntil ← boundOf fromIso q.createdUntil
  ensure (ordered changedSince changedUntil ∧ ordered createdSince createdUntil) .invalidResponse
  return ⟨changedSince, changedUntil, createdSince, createdUntil⟩

/-- A time is known and not before a bound. -/
def notBefore (bound time : Option Time) : Bool := bound.all fun bound => time.any fun time => bound ≤ time

/-- A time is known and not after a bound. -/
def notAfter (bound time : Option Time) : Bool := bound.all fun bound => time.any fun time => time ≤ bound

/-- An event matches the bounds. -/
def Bounds.matches (b : Bounds) (event : EventMetadata × Option Time) : Bool :=
  notBefore b.changedSince (some event.1.changedAt) && notAfter b.changedUntil (some event.1.changedAt) &&
    notBefore b.createdSince event.2 && notAfter b.createdUntil event.2

/-! ### Cursors -/

/-- Where the reader stands. -/
structure Position where
  orgPage : ℕ
  orgIndex : ℕ
  eventPage : ℕ
deriving DecidableEq, Repr

/-- The content of a cursor. -/
def cursorState (binding : String) (p : Position) : Message :=
  .obj [("binding", .lit binding), ("position", .arr [.int p.orgPage, .int p.orgIndex, .int p.eventPage])]

/-- The bound on the numbers of a position. -/
def maxPosition : ℕ := 1000000

def Position.inRange (p : Position) : Prop :=
  p.orgPage ≤ maxPosition ∧ p.orgIndex ≤ maxPosition ∧ p.eventPage ≤ maxPosition

/-- What the reader takes from its environment: the interpreter's reader of dates, the digest that binds a cursor to a
query, and the cipher of the cursors, which decrypts what it has encrypted. -/
structure BrowseEnv where
  fromIso : IsoReader
  binding : EventQuery → String
  encrypt : Message → String
  decrypt : String → Option Message
  decrypt_encrypt : ∀ q p, decrypt (encrypt (cursorState (binding q) p)) = some (cursorState (binding q) p)
  length_encrypt : ∀ q p, p.inRange → (encrypt (cursorState (binding q) p)).length ≤ 2048

/-- The position in a cursor. -/
def readCursor (env : BrowseEnv) (q : EventQuery) (cursor : String) : Except ReadCategory Position := do
  ensure (cursor.length ≤ 2048) .invalidResponse
  let state ← fetch (env.decrypt cursor) .invalidResponse
  ensure ((state.text? "binding").map Text.plain = some (env.binding q)) .invalidResponse
  match state.get? "position" with
  | some (.arr [.int orgPage, .int orgIndex, .int eventPage]) =>
    ensure (1 ≤ orgPage ∧ orgPage ≤ maxPosition ∧ 0 ≤ orgIndex ∧ orgIndex ≤ maxPosition ∧ 1 ≤ eventPage ∧
      eventPage ≤ maxPosition) .invalidResponse
    return ⟨orgPage.toNat, orgIndex.toNat, eventPage.toNat⟩
  | _ => .error .invalidResponse

/-- The position of a call. -/
def positionOf (env : BrowseEnv) (q : EventQuery) : Option String → Except ReadCategory Position
  | none => .ok ⟨1, 0, 1⟩
  | some cursor => readCursor env q cursor

/-! ### The call -/

/-- A request to the provider. -/
inductive BrowseRequest
  | organizations (page : ℕ)
  | events (organization : String) (page pageSize : ℕ) (statuses : List String)
deriving DecidableEq

/-- The state of a call: the position, the events by their ids, the requests so far, and whether nothing is left. -/
structure ReadState where
  position : Position
  rows : List (String × EventMetadata)
  requests : List BrowseRequest
  complete : Bool

/-- A call: its environment, the provider, the clock and the arguments. -/
structure Call where
  env : BrowseEnv
  get : BrowseRequest → Except ReadCategory Message
  late : ℕ → Bool
  query : EventQuery
  bounds : Bounds

/-- `_MAX_REQUESTS`. -/
def maxRequests : ℕ := 4

/-- A dictionary with an item. -/
def setRow (rows : List (String × EventMetadata)) (event : EventMetadata) : List (String × EventMetadata) :=
  if rows.any fun row => row.1 == event.providerEventId then
    rows.map fun row => if row.1 = event.providerEventId then (row.1, event) else row
  else rows ++ [(event.providerEventId, event)]

namespace Call

variable (c : Call)

/-- A request, if the deadline has not passed. -/
def send (request : BrowseRequest) (s : ReadState) : Except ReadCategory (Message × ReadState) := do
  ensure (¬c.late s.requests.length) .timeout
  let payload ← c.get request
  return (payload, { s with requests := s.requests ++ [request] })

/-- The events of a page that match the bounds. -/
def collect : List Message → List (String × EventMetadata) → Except ReadCategory (List (String × EventMetadata))
  | [], rows => .ok rows
  | value :: values, rows => do
    let event ← parseEvent c.env.fromIso value
    ensure (event.status ∈ c.query.statuses) .invalidResponse
    let created := datetimeOf c.env.fromIso (value.get? "created")
    collect values (if c.bounds.matches (event, created) then setRow rows event else rows)

/-- The position after a page of events. -/
def advance (more : Bool) (p : Position) : Position :=
  if more then { p with eventPage := p.eventPage + 1 } else { p with orgIndex := p.orgIndex + 1, eventPage := 1 }

/-- The position at the next page of organizations. -/
def nextOrganizations (p : Position) : Position := ⟨p.orgPage + 1, 0, 1⟩

/-- The inner loop: the pages of events of the organizations of a page. Every pass makes a request, so that there are
four passes at most. -/
def readEvents (organizations : List Message) : ℕ → ReadState → Except ReadCategory ReadState
  | 0, s => .ok s
  | fuel + 1, s =>
    match organizations[s.position.orgIndex]? with
    | none => .ok s
    | some organization =>
      if s.requests.length < maxRequests ∧ s.rows.length < c.query.pageSize then do
        let id ← organizationId organization
        let (payload, s) ← c.send (.events id s.position.eventPage c.query.pageSize c.query.statuses) s
        let (values, more) ← productRows payload "events" c.query.pageSize
        let rows ← c.collect values s.rows
        let s := { s with rows, position := advance more s.position }
        if s.rows ≠ [] then return s else readEvents organizations fuel s
      else .ok s

/-- The outer loop: the pages of organizations. -/
def readPages : ℕ → ReadState → Except ReadCategory ReadState
  | 0, s => .ok s
  | fuel + 1, s =>
    if s.requests.length < maxRequests ∧ s.rows.length < c.query.pageSize then do
      let (payload, s) ← c.send (.organizations s.position.orgPage) s
      let (organizations, more) ← productRows payload "organizations" 50
      if organizations.length ≤ s.position.orgIndex then
        if organizations.length < s.position.orgIndex then .error .invalidResponse
        else if more then readPages fuel { s with position := nextOrganizations s.position }
        else return { s with complete := true }
      else do
        let s ← c.readEvents organizations maxRequests s
        if s.position.orgIndex = organizations.length then
          if more then
            let s := { s with position := nextOrganizations s.position }
            if s.rows ≠ [] then return s else readPages fuel s
          else return { s with complete := true }
        else if s.rows ≠ [] then return s
        else readPages fuel s
    else .ok s

end Call

/-- `EventbriteEventPage`, and the requests that were made. -/
structure EventPage where
  events : List EventMetadata
  nextCursor : Option String
  requests : List BrowseRequest

/-- The order of the events of a page: the last changed first. -/
def pageOrder (a b : EventMetadata) : Bool :=
  b.changedAt < a.changedAt || (a.changedAt == b.changedAt && decide (a.providerEventId ≤ b.providerEventId))

/-- What a call returns. -/
def ReadState.page (env : BrowseEnv) (q : EventQuery) (s : ReadState) : EventPage where
  events := (s.rows.map Prod.snd).mergeSort pageOrder
  nextCursor := if s.complete then none else some (env.encrypt (cursorState (env.binding q) s.position))
  requests := s.requests

/-- `list_page`, with a credential that may be used. -/
def listPage (env : BrowseEnv) (get : BrowseRequest → Except ReadCategory Message) (late : ℕ → Bool) (q : EventQuery)
    (cursor : Option String) : Except ReadCategory EventPage := do
  let bounds ← q.check env.fromIso
  let position ← positionOf env q cursor
  let s ← Call.readPages ⟨env, get, late, q, bounds⟩ maxRequests ⟨position, [], [], false⟩
  ensure (¬late s.requests.length) .timeout
  return s.page env q

/-- The clock of a call that is not late. -/
def onTime : ℕ → Bool := fun _ => false

/-! ### Static providers -/

/-- An event as the reader sees it, with the date of its creation. -/
abbrev SeenEvent := EventMetadata × Option Time

/-- What the reader sees of an event. -/
def seenEvent (fromIso : IsoReader) (value : Message) : Except ReadCategory SeenEvent :=
  (parseEvent fromIso value).map fun event => (event, datetimeOf fromIso (value.get? "created"))

/-- A provider whose answers do not change, and a query that the reader accepts: pages of organizations, and pages of
events of each one, of which all but the last say that there are more. -/
structure StaticProvider (env : BrowseEnv) (q : EventQuery) where
  get : BrowseRequest → Except ReadCategory Message
  bounds : Bounds
  accepted : q.check env.fromIso = .ok bounds
  organizations : List (List String)
  events : String → List (List SeenEvent)
  organizations_ne : organizations ≠ []
  length_organizations : organizations.length < maxPosition
  events_ne : ∀ id ∈ organizations.flatten, events id ≠ []
  length_events : ∀ id ∈ organizations.flatten, (events id).length < maxPosition
  serves_organizations : ∀ i page, organizations[i]? = some page → ∃ payload rows,
    get (.organizations (i + 1)) = .ok payload ∧
      productRows payload "organizations" 50 = .ok (rows, decide (i + 1 < organizations.length)) ∧
      rows.map organizationId = page.map .ok
  serves_events : ∀ id ∈ organizations.flatten, ∀ k page, (events id)[k]? = some page → ∃ payload values,
    get (.events id (k + 1) q.pageSize q.statuses) = .ok payload ∧
      productRows payload "events" q.pageSize = .ok (values, decide (k + 1 < (events id).length)) ∧
      values.map (seenEvent env.fromIso) = page.map .ok
  statuses : ∀ id ∈ organizations.flatten, ∀ page ∈ events id, ∀ event ∈ page, event.1.status ∈ q.statuses
  distinct : ((organizations.flatten.flatMap fun id => (events id).flatten).map
    fun event => event.1.providerEventId).Nodup

/-- A page of events: the organization, its number and the events. -/
structure ReadPage where
  organization : String
  number : ℕ
  events : List SeenEvent

/-- The request for a page of events. -/
def ReadPage.request (q : EventQuery) (r : ReadPage) : BrowseRequest :=
  .events r.organization r.number q.pageSize q.statuses

/-- The requests for pages of events. -/
def BrowseRequest.isEvents : BrowseRequest → Bool
  | organizations _ => false
  | events _ _ _ _ => true

/-- A position comes before another one. -/
def Position.Before (p p' : Position) : Prop :=
  p.orgPage < p'.orgPage ∨ p.orgPage = p'.orgPage ∧
    (p.orgIndex < p'.orgIndex ∨ p.orgIndex = p'.orgIndex ∧ p.eventPage < p'.eventPage)

theorem Position.Before.trans {p p' p'' : Position} (h : p.Before p') (h' : p'.Before p'') : p.Before p'' := by
  unfold Before at *
  omega

theorem advance_orgPage {more : Bool} {p : Position} : (Call.advance more p).orgPage = p.orgPage := by
  cases more <;> rfl

theorem before_advance {more : Bool} {p : Position} : p.Before (Call.advance more p) := by
  cases more with
  | false => exact .inr ⟨rfl, .inl (Nat.lt_succ_self _)⟩
  | true => exact .inr ⟨rfl, .inr ⟨rfl, Nat.lt_succ_self _⟩⟩

namespace StaticProvider

variable {env : BrowseEnv} {q : EventQuery} (P : StaticProvider env q)

/-- The pages of an organization from a number on. -/
def pagesFrom (id : String) (number : ℕ) : List ReadPage :=
  (((P.events id).zipIdx 1).drop (number - 1)).map fun page => ⟨id, page.2, page.1⟩

/-- The pages of events of an organization. -/
def pagesOf (id : String) : List ReadPage := P.pagesFrom id 1

/-- All pages of events. -/
def pages : List ReadPage := P.organizations.flatten.flatMap P.pagesOf

/-- All events. -/
def allEvents : List SeenEvent := P.pages.flatMap ReadPage.events

/-- A page of organizations on which a position stands: at a page of events, or at the end. -/
structure At (p : Position) (page : List String) : Prop where
  orgPage_pos : 1 ≤ p.orgPage
  stands : P.organizations[p.orgPage - 1]? = some page
  here : (∃ id, page[p.orgIndex]? = some id ∧ 1 ≤ p.eventPage ∧ p.eventPage ≤ (P.events id).length) ∨
    (p.orgIndex = page.length ∧ p.eventPage = 1)

/-- What is left of the page of organizations at a position. -/
def restOfPage (p : Position) (page : List String) : List ReadPage :=
  (match page[p.orgIndex]? with
    | some id => P.pagesFrom id p.eventPage
    | none => []) ++ (page.drop (p.orgIndex + 1)).flatMap P.pagesOf

/-- **What is left at a position.** -/
def rest (p : Position) : List ReadPage :=
  P.restOfPage p (P.organizations[p.orgPage - 1]?.getD []) ++
    (P.organizations.drop p.orgPage).flatten.flatMap P.pagesOf

/-! ### What is left -/

theorem pagesFrom_cons {id : String} {k : ℕ} {events : List SeenEvent} (h : (P.events id)[k]? = some events) :
    P.pagesFrom id (k + 1) = ⟨id, k + 1, events⟩ :: P.pagesFrom id (k + 2) := by
  have hk : k < ((P.events id).zipIdx 1).length := by
    rw [List.length_zipIdx]
    exact (List.getElem?_eq_some_iff.1 h).1
  have hget : ((P.events id).zipIdx 1)[k] = (events, k + 1) := by
    have hsome : ((P.events id).zipIdx 1)[k]? = some (events, 1 + k) := by
      rw [List.getElem?_zipIdx, h]
      rfl
    rw [List.getElem?_eq_getElem hk, Nat.add_comm 1 k] at hsome
    exact Option.some.inj hsome
  rw [pagesFrom, Nat.add_sub_cancel, List.drop_eq_getElem_cons hk, hget, List.map_cons]
  rfl

theorem pagesFrom_of_length_lt {id : String} {number : ℕ} (h : (P.events id).length < number) :
    P.pagesFrom id number = [] := by
  rw [pagesFrom, List.drop_of_length_le (by rw [List.length_zipIdx]; omega)]
  rfl

theorem rest_eq {p : Position} {page : List String} (h : P.organizations[p.orgPage - 1]? = some page) :
    P.rest p = P.restOfPage p page ++ (P.organizations.drop p.orgPage).flatten.flatMap P.pagesOf := by
  rw [rest, h, Option.getD_some]

theorem restOfPage_first (page : List String) (i : ℕ) (orgPage : ℕ) :
    P.restOfPage ⟨orgPage, i, 1⟩ page = (page.drop i).flatMap P.pagesOf := by
  rw [restOfPage]
  cases hid : page[i]? with
  | none =>
    have hlen : page.length ≤ i := List.getElem?_eq_none_iff.1 hid
    rw [List.drop_of_length_le hlen, List.drop_of_length_le (by dsimp only; omega)]
    rfl
  | some id =>
    obtain ⟨hi, hget⟩ := List.getElem?_eq_some_iff.1 hid
    rw [List.drop_eq_getElem_cons hi, List.flatMap_cons, hget]
    rfl

/-- **A page of events is taken from the front of what is left.** -/
theorem rest_cons {p : Position} {page : List String} {id : String} {k : ℕ} {events : List SeenEvent}
    (hat : P.At p page) (hid : page[p.orgIndex]? = some id) (hk : p.eventPage = k + 1)
    (hevents : (P.events id)[k]? = some events) :
    P.rest p = ⟨id, k + 1, events⟩ :: P.rest (Call.advance (decide (k + 1 < (P.events id).length)) p) := by
  have hcons := P.pagesFrom_cons hevents
  rw [P.rest_eq hat.stands, P.rest_eq (by rw [advance_orgPage]; exact hat.stands), advance_orgPage, ← List.cons_append]
  congr 1
  have hhere : P.restOfPage p page =
      ⟨id, k + 1, events⟩ :: (P.pagesFrom id (k + 2) ++ (page.drop (p.orgIndex + 1)).flatMap P.pagesOf) := by
    rw [restOfPage, hid, hk]
    simp only [hcons, List.cons_append]
  rw [hhere]
  by_cases hmore : k + 1 < (P.events id).length
  · rw [decide_eq_true hmore, Call.advance, if_pos rfl, restOfPage]
    simp only [hid, hk]
  · rw [decide_eq_false hmore, Call.advance, if_neg Bool.false_ne_true, P.restOfPage_first,
      P.pagesFrom_of_length_lt (by omega)]
    rfl

/-- Nothing is left of a page at its end: what is left begins with the next page, if there is one. -/
theorem rest_next {p : Position} {page : List String} (hat : P.At p page) (hend : p.orgIndex = page.length) :
    P.rest p = P.rest (Call.nextOrganizations p) := by
  have hnone : P.restOfPage p page = [] := by
    have hid : page[p.orgIndex]? = none := List.getElem?_eq_none_iff.2 (by omega)
    rw [restOfPage, hid, List.drop_of_length_le (by omega)]
    rfl
  rw [P.rest_eq hat.stands, hnone, List.nil_append, rest, Call.nextOrganizations]
  dsimp only
  rw [P.restOfPage_first, List.drop_zero, Nat.add_sub_cancel]
  cases hpage : P.organizations[p.orgPage]? with
  | none =>
    have hlen : P.organizations.length ≤ p.orgPage := List.getElem?_eq_none_iff.1 hpage
    rw [List.drop_of_length_le hlen, List.drop_of_length_le (by omega)]
    rfl
  | some next =>
    obtain ⟨hlt, hget⟩ := List.getElem?_eq_some_iff.1 hpage
    rw [List.drop_eq_getElem_cons hlt, hget, List.flatten_cons, List.flatMap_append, Option.getD_some]

/-- Nothing is left at the end of the last page. -/
theorem rest_last {p : Position} {page : List String} (hat : P.At p page) (hend : p.orgIndex = page.length)
    (hlast : ¬p.orgPage < P.organizations.length) : P.rest p = [] := by
  have hpage : P.organizations[p.orgPage]? = none := List.getElem?_eq_none_iff.2 (by omega)
  rw [P.rest_next hat hend, rest, Call.nextOrganizations]
  dsimp only
  have hdrop : P.organizations.drop (p.orgPage + 1) = [] := List.drop_of_length_le (by omega)
  rw [P.restOfPage_first, Nat.add_sub_cancel, hpage, hdrop]
  rfl

theorem rest_first : P.rest ⟨1, 0, 1⟩ = P.pages := by
  cases horgs : P.organizations with
  | nil => exact absurd horgs P.organizations_ne
  | cons page orgs =>
    rw [rest, pages, horgs]
    dsimp only
    rw [P.restOfPage_first, List.flatten_cons, List.flatMap_append]
    rfl

/-! ### Where a position stands -/

theorem mem_flatten {p : Position} {page : List String} (hat : P.At p page) {id : String} (hid : id ∈ page) :
    id ∈ P.organizations.flatten :=
  List.mem_flatten.2 ⟨page, List.mem_of_getElem? hat.stands, hid⟩

theorem length_events_pos {id : String} (hid : id ∈ P.organizations.flatten) : 0 < (P.events id).length :=
  List.length_pos_iff.2 (P.events_ne id hid)

/-- At the beginning of a page of organizations. -/
theorem at_first {i : ℕ} {page : List String} (h : P.organizations[i]? = some page) : P.At ⟨i + 1, 0, 1⟩ page := by
  refine ⟨by dsimp only; omega, h, ?_⟩
  cases page with
  | nil => exact .inr ⟨rfl, rfl⟩
  | cons id page =>
    have hid : id ∈ P.organizations.flatten := List.mem_flatten.2 ⟨_, List.mem_of_getElem? h, List.mem_cons_self⟩
    exact .inl ⟨id, rfl, le_rfl, P.length_events_pos hid⟩

theorem at_next {p : Position} (hmore : p.orgPage < P.organizations.length) :
    ∃ next, P.At (Call.nextOrganizations p) next :=
  ⟨_, P.at_first (List.getElem?_eq_getElem hmore)⟩

/-- After a page of events. -/
theorem at_advance {p : Position} {page : List String} {id : String} {k : ℕ} (hat : P.At p page)
    (hid : page[p.orgIndex]? = some id) (hk : p.eventPage = k + 1) :
    P.At (Call.advance (decide (k + 1 < (P.events id).length)) p) page := by
  by_cases hmore : k + 1 < (P.events id).length
  · rw [decide_eq_true hmore, Call.advance, if_pos rfl]
    exact ⟨hat.orgPage_pos, hat.stands, .inl ⟨id, hid, by dsimp only; omega, by dsimp only; omega⟩⟩
  · rw [decide_eq_false hmore, Call.advance, if_neg Bool.false_ne_true]
    refine ⟨hat.orgPage_pos, hat.stands, ?_⟩
    have hlt := (List.getElem?_eq_some_iff.1 hid).1
    by_cases hlast : p.orgIndex + 1 < page.length
    · have hnext : page[p.orgIndex + 1]? = some page[p.orgIndex + 1] := List.getElem?_eq_getElem hlast
      have hmem := P.mem_flatten hat (List.mem_of_getElem? hnext)
      exact .inl ⟨_, hnext, le_rfl, P.length_events_pos hmem⟩
    · exact .inr ⟨by dsimp only; omega, rfl⟩

/-- The numbers of a position are within the bound of a cursor. -/
theorem inRange_of_at {p : Position} {page : List String} (hat : P.At p page) (hpage : page.length ≤ 50) :
    p.inRange ∧ 1 ≤ p.eventPage := by
  have hlt : p.orgPage - 1 < P.organizations.length := (List.getElem?_eq_some_iff.1 hat.stands).1
  have hlength := P.length_organizations
  have hfifty : 50 ≤ maxPosition := by decide
  have hone : 1 ≤ maxPosition := by decide
  obtain ⟨id, hid, hpos, hle⟩ | ⟨hend, hfirst⟩ := hat.here
  · have hindex := (List.getElem?_eq_some_iff.1 hid).1
    have hevents := P.length_events id (P.mem_flatten hat (List.mem_of_getElem? hid))
    exact ⟨⟨by omega, by omega, by omega⟩, hpos⟩
  · exact ⟨⟨by omega, by omega, by omega⟩, by omega⟩

/-! ### The events of a page -/

/-- The matching events of a page, added to the events by their ids. -/
def collectRows (b : Bounds) (events : List SeenEvent) (rows : List (String × EventMetadata)) :
    List (String × EventMetadata) :=
  (events.filter b.matches).foldl (fun rows event => setRow rows event.1) rows

theorem collectRows_append (b : Bounds) (events events' : List SeenEvent) (rows : List (String × EventMetadata)) :
    collectRows b (events ++ events') rows = collectRows b events' (collectRows b events rows) := by
  rw [collectRows, List.filter_append, List.foldl_append]
  rfl

theorem collect_eq (c : Call) {values : List Message} {events : List SeenEvent}
    (hvalues : values.map (seenEvent c.env.fromIso) = events.map .ok)
    (hstatus : ∀ event ∈ events, event.1.status ∈ c.query.statuses) (rows : List (String × EventMetadata)) :
    c.collect values rows = .ok (collectRows c.bounds events rows) := by
  induction values generalizing events rows with
  | nil =>
    rw [List.map_nil, eq_comm, List.map_eq_nil_iff] at hvalues
    rw [hvalues]
    rfl
  | cons value values ih =>
    cases events with
    | nil => exact absurd hvalues (List.cons_ne_nil _ _)
    | cons event events =>
      obtain ⟨hevent, hrest⟩ := List.cons.inj hvalues
      rw [seenEvent] at hevent
      cases hparse : parseEvent c.env.fromIso value with
      | error e =>
        rw [hparse] at hevent
        cases hevent
      | ok parsed =>
        rw [hparse] at hevent
        cases hevent
        have hok : parsed.status ∈ c.query.statuses := hstatus _ List.mem_cons_self
        have hcollect := ih hrest fun event hmem => hstatus event (List.mem_cons_of_mem _ hmem)
        simp only [Call.collect, hparse, ok_bind, ensure_bind hok, hcollect, collectRows]
        by_cases hmatches : c.bounds.matches (parsed, datetimeOf c.env.fromIso (value.get? "created")) = true
        · rw [if_pos hmatches, List.filter_cons_of_pos hmatches, List.foldl_cons]
        · rw [if_neg hmatches, List.filter_cons_of_neg hmatches]

theorem setRow_of_new {rows : List (String × EventMetadata)} {event : EventMetadata}
    (h : event.providerEventId ∉ rows.map Prod.fst) : setRow rows event = rows ++ [(event.providerEventId, event)] := by
  have hnone : (rows.any fun row => row.1 == event.providerEventId) = false := by
    rw [List.any_eq_false]
    intro row hrow heq
    exact h (List.mem_map.2 ⟨row, hrow, eq_of_beq heq⟩)
  rw [setRow, hnone, if_neg Bool.false_ne_true]

/-- Events of distinct ids are all kept, in their order. -/
theorem foldl_setRow {events : List SeenEvent} {rows : List (String × EventMetadata)}
    (h : (rows.map Prod.fst ++ events.map fun event => event.1.providerEventId).Nodup) :
    events.foldl (fun rows event => setRow rows event.1) rows =
      rows ++ events.map fun event => (event.1.providerEventId, event.1) := by
  induction events generalizing rows with
  | nil => rw [List.foldl_nil, List.map_nil, List.append_nil]
  | cons event events ih =>
    have hnew : event.1.providerEventId ∉ rows.map Prod.fst := by
      intro hmem
      exact (List.nodup_append.1 h).2.2 _ hmem _ List.mem_cons_self rfl
    rw [List.foldl_cons, setRow_of_new hnew, ih, List.map_cons, List.append_assoc]
    · rfl
    · rw [List.map_append, List.append_assoc]
      exact h

theorem collectRows_nil {b : Bounds} {events : List SeenEvent}
    (h : (events.map fun event => event.1.providerEventId).Nodup) :
    (collectRows b events []).map Prod.snd = (events.filter b.matches).map Prod.fst := by
  have hkept : ((events.filter b.matches).map fun event => event.1.providerEventId).Nodup :=
    h.sublist (List.filter_sublist.map _)
  rw [collectRows, foldl_setRow (by rw [List.map_nil, List.nil_append]; exact hkept), List.nil_append, List.map_map]
  rfl

/-! ### What a call takes -/

/-- A call to the provider. -/
def call : Call := ⟨env, P.get, onTime, q, P.bounds⟩

/-- **A part of a call takes pages of events from the front of what is left.** -/
structure Reads (s s' : ReadState) (read : List ReadPage) : Prop where
  taken : P.rest s.position = read ++ if s'.complete then [] else P.rest s'.position
  sent : s'.requests.filter BrowseRequest.isEvents =
    s.requests.filter BrowseRequest.isEvents ++ read.map (ReadPage.request q)
  rows : s'.rows = collectRows P.bounds (read.flatMap ReadPage.events) s.rows
  moved : s.position = s'.position ∨ s.position.Before s'.position
  bounded : s'.requests.length ≤ maxRequests

variable {P}

theorem Reads.refl {s : ReadState} (hopen : s.complete = false) (h : s.requests.length ≤ maxRequests) :
    P.Reads s s [] where
  taken := by rw [hopen, if_neg Bool.false_ne_true, List.nil_append]
  sent := (List.append_nil _).symm
  rows := rfl
  moved := .inl rfl
  bounded := h

theorem Reads.trans {s s' s'' : ReadState} {read read' : List ReadPage} (h : P.Reads s s' read)
    (hopen : s'.complete = false) (h' : P.Reads s' s'' read') : P.Reads s s'' (read ++ read') where
  taken := by rw [h.taken, hopen, if_neg Bool.false_ne_true, h'.taken, List.append_assoc]
  sent := by rw [h'.sent, h.sent, List.map_append, List.append_assoc]
  rows := by rw [h'.rows, h.rows, List.flatMap_append, collectRows_append]
  moved := by
    obtain hsame | hbefore := h.moved
    · rw [hsame]
      exact h'.moved
    · obtain hsame | hbefore' := h'.moved
      · exact .inr (hsame ▸ hbefore)
      · exact .inr (hbefore.trans hbefore')
  bounded := h'.bounded

theorem Reads.before {s s' s'' : ReadState} {read : List ReadPage} (h : P.Reads s' s'' read)
    (hbefore : s.position.Before s'.position) : s.position.Before s''.position := by
  obtain hsame | hbefore' := h.moved
  · exact hsame ▸ hbefore
  · exact hbefore.trans hbefore'

variable (P)

theorem send_eq {request : BrowseRequest} {payload : Message} (h : P.get request = .ok payload) (s : ReadState) :
    P.call.send request s = .ok (payload, { s with requests := s.requests ++ [request] }) := by
  have hget : P.call.get request = .ok payload := h
  have htime : ¬P.call.late s.requests.length = true := Bool.false_ne_true
  rw [Call.send, ensure_bind htime, hget]
  rfl

theorem length_snoc_le {s : ReadState} (h : s.requests.length < maxRequests) (request : BrowseRequest) :
    (s.requests ++ [request]).length ≤ maxRequests := by
  rw [List.length_append, List.length_singleton]
  omega

/-- **One pass of the inner loop** takes one page of events. -/
theorem readEvents_pass {organizations : List Message} {page : List String} {s : ReadState} (fuel : ℕ)
    (hat : P.At s.position page) (hopen : s.complete = false)
    (horganizations : organizations.map organizationId = page.map .ok) (hindex : s.position.orgIndex < page.length)
    (hpass : s.requests.length < maxRequests ∧ s.rows.length < q.pageSize) :
    ∃ s' read, P.call.readEvents organizations (fuel + 1) s =
        (if s'.rows ≠ [] then .ok s' else P.call.readEvents organizations fuel s') ∧
      P.Reads s s' [read] ∧ P.At s'.position page ∧ s'.complete = false ∧
      s'.position.orgPage = s.position.orgPage ∧ s.position.Before s'.position := by
  have hlength : organizations.length = page.length := by
    rw [← List.length_map, horganizations, List.length_map]
  have hid : page[s.position.orgIndex]? = some page[s.position.orgIndex] := List.getElem?_eq_getElem hindex
  have horganization : organizations[s.position.orgIndex]? = some organizations[s.position.orgIndex] :=
    List.getElem?_eq_getElem (by omega)
  have hname : organizationId organizations[s.position.orgIndex] = .ok page[s.position.orgIndex] := by
    have hmap := congrArg (fun l => l[s.position.orgIndex]?) horganizations
    simp only [List.getElem?_map, horganization, hid, Option.map_some, Option.some.injEq] at hmap
    exact hmap
  -- The position stands at a page of events of the organization, which the provider serves.
  obtain ⟨id, hid', hpos, hle⟩ | ⟨hend, -⟩ := hat.here
  swap
  · omega
  obtain rfl : page[s.position.orgIndex] = id := Option.some.inj (hid.symm.trans hid')
  set id := page[s.position.orgIndex] with hdef
  obtain ⟨k, hk⟩ : ∃ k, s.position.eventPage = k + 1 := ⟨s.position.eventPage - 1, by omega⟩
  have hevents : (P.events id)[k]? = some (P.events id)[k] := List.getElem?_eq_getElem (by omega)
  have hmem : id ∈ P.organizations.flatten := P.mem_flatten hat (List.mem_of_getElem? hid)
  obtain ⟨payload, values, hget, hrows, hvalues⟩ := P.serves_events id hmem k _ hevents
  have hcollect := collect_eq P.call hvalues (P.statuses id hmem _ (List.mem_of_getElem? hevents)) s.rows
  set read : ReadPage := ⟨id, k + 1, (P.events id)[k]⟩ with hread
  set s' : ReadState := {
    position := Call.advance (decide (k + 1 < (P.events id).length)) s.position
    rows := collectRows P.bounds (P.events id)[k] s.rows
    requests := s.requests ++ [read.request q]
    complete := s.complete } with hs'
  refine ⟨s', read, ?_, ?_, P.at_advance hat hid hk, hopen, advance_orgPage, before_advance⟩
  · have hsend := P.send_eq hget s
    have hrows' : productRows payload "events" P.call.query.pageSize = _ := hrows
    rw [Call.readEvents, horganization]
    simp only [if_pos (show s.requests.length < maxRequests ∧ s.rows.length < P.call.query.pageSize from hpass), hname,
      ok_bind, hk]
    rw [show P.call.send (.events id (k + 1) P.call.query.pageSize P.call.query.statuses) s = _ from hsend]
    simp only [ok_bind, hrows', hcollect]
    rfl
  · refine ⟨?_, ?_, ?_, .inr before_advance, length_snoc_le hpass.1 _⟩
    · rw [hopen, if_neg Bool.false_ne_true]
      exact P.rest_cons hat hid hk hevents
    · rw [List.filter_append]
      rfl
    · rw [List.flatMap_singleton]

/-- The inner loop stays on its page of organizations, and moves if it may make a request. -/
theorem readEvents_spec {organizations : List Message} {page : List String}
    (horganizations : organizations.map organizationId = page.map .ok) (fuel : ℕ) {s : ReadState}
    (hat : P.At s.position page) (hopen : s.complete = false) (hbound : s.requests.length ≤ maxRequests) :
    ∃ s' read, P.call.readEvents organizations fuel s = .ok s' ∧ P.Reads s s' read ∧ P.At s'.position page ∧
      s'.complete = false ∧ s'.position.orgPage = s.position.orgPage ∧ (fuel ≠ 0 → s.position.orgIndex < page.length → s.requests.length < maxRequests →
        s.rows.length < q.pageSize → s.position.Before s'.position) := by
  induction fuel generalizing s with
  | zero => exact ⟨s, [], rfl, .refl hopen hbound, hat, hopen, rfl, fun h => absurd rfl h⟩
  | succ fuel ih =>
    have hlength : organizations.length = page.length := by
      rw [← List.length_map, horganizations, List.length_map]
    by_cases hindex : s.position.orgIndex < page.length
    · by_cases hpass : s.requests.length < maxRequests ∧ s.rows.length < q.pageSize
      · obtain ⟨s₁, page₁, heq, hreads, hat₁, hopen₁, horg₁, hbefore⟩ :=
          P.readEvents_pass fuel hat hopen horganizations hindex hpass
        by_cases hrows : s₁.rows ≠ []
        · rw [heq, if_pos hrows]
          exact ⟨s₁, [page₁], rfl, hreads, hat₁, hopen₁, horg₁, fun _ _ _ _ => hbefore⟩
        · rw [heq, if_neg hrows]
          obtain ⟨s', read, hrun, hreads', hat', hopen', horg', -⟩ := ih hat₁ hopen₁ hreads.bounded
          exact ⟨s', _, hrun, hreads.trans hopen₁ hreads', hat', hopen', horg'.trans horg₁,
            fun _ _ _ _ => hreads'.before hbefore⟩
      · refine ⟨s, [], ?_, .refl hopen hbound, hat, hopen, rfl, fun _ _ hlt hrows => absurd ⟨hlt, hrows⟩ hpass⟩
        rw [Call.readEvents, List.getElem?_eq_getElem (by omega)]
        exact if_neg hpass
    · refine ⟨s, [], ?_, .refl hopen hbound, hat, hopen, rfl, fun _ hlt => absurd hlt hindex⟩
      rw [Call.readEvents, List.getElem?_eq_none (by omega)]

/-- The state after a request for a page of organizations. -/
def asked (s : ReadState) : ReadState :=
  { s with requests := s.requests ++ [.organizations s.position.orgPage] }

theorem reads_asked {s : ReadState} (hopen : s.complete = false) (h : s.requests.length < maxRequests) :
    P.Reads s (asked s) [] where
  taken := by
    rw [asked, hopen, if_neg Bool.false_ne_true]
    rfl
  sent := by
    rw [asked, List.filter_append]
    rfl
  rows := rfl
  moved := .inl rfl
  bounded := length_snoc_le h _

/-- At the end of a page of organizations, the reader goes to the next one. -/
theorem reads_next {s : ReadState} {page : List String} (hat : P.At s.position page) (hopen : s.complete = false)
    (hend : s.position.orgIndex = page.length) (hbound : s.requests.length ≤ maxRequests) :
    P.Reads s { s with position := Call.nextOrganizations s.position } [] where
  taken := by
    rw [hopen, if_neg Bool.false_ne_true, List.nil_append]
    exact P.rest_next hat hend
  sent := (List.append_nil _).symm
  rows := rfl
  moved := .inr (.inl (Nat.lt_succ_self _))
  bounded := hbound

/-- At the end of the last page of organizations, the reader is done. -/
theorem reads_last {s : ReadState} {page : List String} (hat : P.At s.position page)
    (hend : s.position.orgIndex = page.length) (hlast : ¬s.position.orgPage < P.organizations.length)
    (hbound : s.requests.length ≤ maxRequests) : P.Reads s { s with complete := true } [] where
  taken := P.rest_last hat hend hlast
  sent := (List.append_nil _).symm
  rows := rfl
  moved := .inl rfl
  bounded := hbound

/-- A pass of the outer loop asks for the page of organizations on which the position stands. -/
theorem readPages_pass {page : List String} {s : ReadState} (fuel : ℕ) (hat : P.At s.position page)
    (hpass : s.requests.length < maxRequests ∧ s.rows.length < q.pageSize) :
    ∃ organizations, organizations.map organizationId = page.map .ok ∧ P.call.readPages (fuel + 1) s =
      (if page.length ≤ s.position.orgIndex then
        if page.length < s.position.orgIndex then .error .invalidResponse
        else if s.position.orgPage < P.organizations.length then
          P.call.readPages fuel { asked s with position := Call.nextOrganizations s.position }
        else .ok { asked s with complete := true }
      else do
        let s' ← P.call.readEvents organizations maxRequests (asked s)
        if s'.position.orgIndex = page.length then
          if s.position.orgPage < P.organizations.length then
            if s'.rows ≠ [] then .ok { s' with position := Call.nextOrganizations s'.position }
            else P.call.readPages fuel { s' with position := Call.nextOrganizations s'.position }
          else .ok { s' with complete := true }
        else if s'.rows ≠ [] then .ok s'
        else P.call.readPages fuel s') := by
  obtain ⟨payload, organizations, hget, hrows, horganizations⟩ := P.serves_organizations _ _ hat.stands
  have hlength : organizations.length = page.length := by
    rw [← List.length_map, horganizations, List.length_map]
  have hpage : s.position.orgPage - 1 + 1 = s.position.orgPage := Nat.sub_add_cancel hat.orgPage_pos
  rw [hpage] at hget hrows
  refine ⟨organizations, horganizations, ?_⟩
  have hsend := P.send_eq hget s
  rw [Call.readPages, if_pos (show s.requests.length < maxRequests ∧ s.rows.length < P.call.query.pageSize from hpass),
    hsend]
  simp only [ok_bind, hrows, hlength, decide_eq_true_eq]
  rfl

/-- What a part of a call leaves, if it moves: it is done, or the position stands further on. -/
structure Leaves (s s' : ReadState) (read : List ReadPage) (moves : Prop) : Prop where
  reads : P.Reads s s' read
  stands : s'.complete = false → ∃ page, P.At s'.position page
  moved : moves → s'.complete = true ∨ s.position.Before s'.position

/-- The outer loop goes on after a move, unless it has found an event. -/
theorem leaves_of_move {s s₁ : ReadState} {read₁ : List ReadPage} {fuel : ℕ} {moves : Prop} (hreads : P.Reads s s₁ read₁)
    (hopen : s₁.complete = false) (hbefore : moves → s.position.Before s₁.position)
    (hgo : ∃ s' read, P.call.readPages fuel s₁ = .ok s' ∧ P.Leaves s₁ s' read False) {c : Prop} [Decidable c]
    (hat : ∃ page, P.At s₁.position page) :
    ∃ s' read, (if c then .ok s₁ else P.call.readPages fuel s₁) = Except.ok s' ∧ P.Leaves s s' read moves := by
  by_cases hstop : c
  · rw [if_pos hstop]
    exact ⟨s₁, read₁, rfl, hreads, fun _ => hat, fun h => .inr (hbefore h)⟩
  · rw [if_neg hstop]
    obtain ⟨s', read, hrun, hleaves⟩ := hgo
    exact ⟨s', _, hrun, hreads.trans hopen hleaves.reads, hleaves.stands, fun h => .inr (hleaves.reads.before (hbefore h))⟩

/-- **What a call takes from what is left**: it moves if it may make two requests. -/
theorem readPages_spec (fuel : ℕ) {s : ReadState} {page : List String} (hat : P.At s.position page)
    (hopen : s.complete = false) (hbound : s.requests.length ≤ maxRequests) :
    ∃ s' read, P.call.readPages fuel s = .ok s' ∧
      P.Leaves s s' read (fuel ≠ 0 ∧ s.requests.length + 2 ≤ maxRequests ∧ s.rows.length < q.pageSize) := by
  induction fuel generalizing s page with
  | zero => exact ⟨s, [], rfl, .refl hopen hbound, fun _ => ⟨page, hat⟩, fun h => absurd rfl h.1⟩
  | succ fuel ih =>
    have hgo : ∀ {s₁ : ReadState} {page₁ : List String}, P.At s₁.position page₁ → s₁.complete = false →
        s₁.requests.length ≤ maxRequests →
        ∃ s' read, P.call.readPages fuel s₁ = .ok s' ∧ P.Leaves s₁ s' read False := by
      intro s₁ page₁ hat₁ hopen₁ hbound₁
      obtain ⟨s', read, hrun, hreads, hstands, -⟩ := ih hat₁ hopen₁ hbound₁
      exact ⟨s', read, hrun, hreads, hstands, False.elim⟩
    by_cases hpass : s.requests.length < maxRequests ∧ s.rows.length < q.pageSize
    swap
    · refine ⟨s, [], if_neg hpass, .refl hopen hbound, fun _ => ⟨page, hat⟩, fun h => absurd ⟨?_, h.2.2⟩ hpass⟩
      omega
    obtain ⟨organizations, horganizations, heq⟩ := P.readPages_pass fuel hat hpass
    have hasked := P.reads_asked hopen hpass.1
    have hopenAsked : (asked s).complete = false := hopen
    rw [heq]
    by_cases hend : page.length ≤ s.position.orgIndex
    · have hindex : s.position.orgIndex = page.length := by
        obtain ⟨id, hid, -⟩ | ⟨hlast, -⟩ := hat.here
        · exact absurd (List.getElem?_eq_some_iff.1 hid).1 (by omega)
        · exact hlast
      rw [if_pos hend, if_neg (by omega)]
      by_cases hmore : s.position.orgPage < P.organizations.length
      · rw [if_pos hmore]
        obtain ⟨next, hnext⟩ := P.at_next hmore
        have hreads := hasked.trans hopenAsked (P.reads_next (s := asked s) hat hopen hindex hasked.bounded)
        exact P.leaves_of_move (c := False) hreads hopen (fun _ => .inl (Nat.lt_succ_self _))
          (hgo hnext hopen hasked.bounded) ⟨next, hnext⟩
      · rw [if_neg hmore]
        have hreads := hasked.trans hopenAsked (P.reads_last (s := asked s) hat hindex hmore hasked.bounded)
        exact ⟨_, _, rfl, hreads, nofun, fun _ => .inl rfl⟩
    · obtain ⟨s₁, read₁, hrun, hreads₁, hat₁, hopen₁, horg₁, hmoves⟩ :=
        P.readEvents_spec horganizations maxRequests (s := asked s) hat hopen hasked.bounded
      have hreads := hasked.trans hopenAsked hreads₁
      have horg : s₁.position.orgPage = s.position.orgPage := horg₁
      rw [if_neg hend, hrun]
      simp only [ok_bind]
      by_cases hend₁ : s₁.position.orgIndex = page.length
      · rw [if_pos hend₁]
        by_cases hmore : s.position.orgPage < P.organizations.length
        · rw [if_pos hmore]
          obtain ⟨next, hnext⟩ := P.at_next (horg ▸ hmore)
          have hnext₁ := P.reads_next hat₁ hopen₁ hend₁ hreads.bounded
          refine P.leaves_of_move (hreads.trans hopen₁ hnext₁) hopen₁ (fun _ => ?_) (hgo hnext hopen₁ hreads.bounded)
            ⟨next, hnext⟩
          exact .inl (horg ▸ Nat.lt_succ_self _)
        · rw [if_neg hmore]
          have hlast₁ := P.reads_last hat₁ hend₁ (horg ▸ hmore) hreads.bounded
          exact ⟨_, _, rfl, hreads.trans hopen₁ hlast₁, nofun, fun _ => .inl rfl⟩
      · rw [if_neg hend₁]
        refine P.leaves_of_move hreads hopen₁ (fun h => ?_) (hgo hat₁ hopen₁ hreads.bounded) ⟨page, hat₁⟩
        refine hmoves (by decide) (lt_of_not_ge hend) ?_ h.2.2
        rw [asked, List.length_append, List.length_singleton]
        omega

/-! ### A call -/

theorem length_le_of_productRows {payload : Message} {key : String} {limit : ℕ} {rows : List Message} {more : Bool}
    (h : productRows payload key limit = .ok (rows, more)) : rows.length ≤ limit := by
  unfold productRows at h
  split at h
  · split at h
    · split_ifs at h with hrows
      cases h
      exact hrows.1
    · cases h
  · cases h

theorem length_page_le {p : Position} {page : List String} (hat : P.At p page) : page.length ≤ 50 := by
  obtain ⟨payload, organizations, -, hrows, horganizations⟩ := P.serves_organizations _ _ hat.stands
  have hlength : organizations.length = page.length := by
    rw [← List.length_map, horganizations, List.length_map]
  exact hlength ▸ length_le_of_productRows hrows

omit P in
/-- A cursor holds its position. -/
theorem readCursor_encrypt {p : Position} (h : p.inRange) (horgPage : 1 ≤ p.orgPage) (heventPage : 1 ≤ p.eventPage) :
    readCursor env q (env.encrypt (cursorState (env.binding q) p)) = .ok p := by
  have hlength := env.length_encrypt q p h
  have hrange := h
  unfold Position.inRange at hrange
  have hbinding : ((cursorState (env.binding q) p).text? "binding").map Text.plain = some (env.binding q) := rfl
  have hposition : (cursorState (env.binding q) p).get? "position" =
      some (.arr [.int p.orgPage, .int p.orgIndex, .int p.eventPage]) := rfl
  rw [readCursor, ensure_bind hlength, fetch_bind (env.decrypt_encrypt q p), ensure_bind hbinding, hposition]
  dsimp only
  rw [ensure_bind (by omega)]
  rfl

omit P in
theorem pageSize_pos {b : Bounds} (h : q.check env.fromIso = .ok b) : 0 < q.pageSize := by
  simp only [EventQuery.check, bind_eq_ok, ensure_eq_ok] at h
  obtain ⟨_, ⟨hpos, -⟩, -⟩ := h
  exact hpos

/-- What a call returns: the matching events of the pages that it has read, and a cursor that stands further on. -/
structure Returns (p : Position) (page : EventPage) (read : List ReadPage) : Prop where
  bounded : page.requests.length ≤ maxRequests
  sent : page.requests.filter BrowseRequest.isEvents = read.map (ReadPage.request q)
  events : ((read.flatMap ReadPage.events).map fun event => event.1.providerEventId).Nodup →
    page.events.Perm (((read.flatMap ReadPage.events).filter P.bounds.matches).map Prod.fst)
  next : (page.nextCursor = none ∧ P.rest p = read) ∨ ∃ cursor p' organizations, page.nextCursor = some cursor ∧
    positionOf env q (some cursor) = .ok p' ∧ P.At p' organizations ∧ p.Before p' ∧ P.rest p = read ++ P.rest p'

theorem listPage_spec {cursor : Option String} {p : Position} {page : List String}
    (hcursor : positionOf env q cursor = .ok p) (hat : P.At p page) :
    ∃ result read, listPage env P.get onTime q cursor = .ok result ∧ P.Returns p result read := by
  obtain ⟨s, read, hrun, hreads, hstands, hmoved⟩ := P.readPages_spec maxRequests (s := ⟨p, [], [], false⟩) hat rfl
    (Nat.zero_le _)
  have hmoves : s.complete = true ∨ p.Before s.position :=
    hmoved ⟨by decide, Nat.le_of_ble_eq_true rfl, pageSize_pos P.accepted⟩
  have htime : ¬onTime s.requests.length = true := Bool.false_ne_true
  refine ⟨s.page env q, read, ?_, ?_⟩
  · rw [listPage, P.accepted, ok_bind, hcursor, ok_bind]
    rw [show Call.readPages ⟨env, P.get, onTime, q, P.bounds⟩ maxRequests ⟨p, [], [], false⟩ = _ from hrun, ok_bind,
      ensure_bind htime]
    rfl
  · refine ⟨hreads.bounded, hreads.sent, fun hnodup => ?_, ?_⟩
    · rw [← collectRows_nil hnodup, ← hreads.rows]
      exact List.mergeSort_perm _ _
    · have htaken := hreads.taken
      cases hcomplete : s.complete with
      | true =>
        rw [hcomplete, if_pos rfl, List.append_nil] at htaken
        exact .inl ⟨if_pos hcomplete, htaken⟩
      | false =>
        rw [hcomplete, if_neg Bool.false_ne_true] at htaken
        obtain ⟨next, hnext⟩ := hstands hcomplete
        have hbefore := hmoves.resolve_left (by rw [hcomplete]; exact Bool.false_ne_true)
        obtain ⟨hrange, heventPage⟩ := P.inRange_of_at hnext (P.length_page_le hnext)
        refine .inr ⟨_, s.position, next, ?_, readCursor_encrypt hrange hnext.orgPage_pos heventPage, hnext, hbefore, htaken⟩
        exact if_neg (by rw [hcomplete]; exact Bool.false_ne_true)

/-! ### The clock -/

omit P in
/-- A computation that is late does not end, and is the one that is not late otherwise. -/
def OrTimeout {α : Type} (x y : Except ReadCategory α) : Prop := x = .error .timeout ∨ x = y

omit P in
theorem OrTimeout.bind {α β : Type} {x y : Except ReadCategory α} {f g : α → Except ReadCategory β}
    (h : OrTimeout x y) (hf : ∀ a, OrTimeout (f a) (g a)) : OrTimeout (x >>= f) (y >>= g) := by
  obtain rfl | rfl := h
  · exact .inl rfl
  · cases x with
    | error e => exact .inr rfl
    | ok a => exact hf a

omit P in
theorem orTimeout_ensure (p : Prop) [Decidable p] : OrTimeout (ensure p ReadCategory.timeout) (.ok ()) := by
  by_cases h : p
  · exact .inr (if_pos h)
  · exact .inl (if_neg h)

variable {get : BrowseRequest → Except ReadCategory Message} {bounds : Bounds}

omit P in
theorem orTimeout_send (late : ℕ → Bool) (request : BrowseRequest) (s : ReadState) :
    OrTimeout (Call.send ⟨env, get, late, q, bounds⟩ request s) (Call.send ⟨env, get, onTime, q, bounds⟩ request s) :=
  (orTimeout_ensure _).bind fun _ => .inr rfl

omit P in
theorem collect_late (late : ℕ → Bool) (values : List Message) (rows : List (String × EventMetadata)) :
    Call.collect ⟨env, get, late, q, bounds⟩ values rows = Call.collect ⟨env, get, onTime, q, bounds⟩ values rows := by
  induction values generalizing rows with
  | nil => rfl
  | cons value values ih => simp only [Call.collect, ih]

omit P in
theorem orTimeout_readEvents (late : ℕ → Bool) (organizations : List Message) (fuel : ℕ) (s : ReadState) :
    OrTimeout (Call.readEvents ⟨env, get, late, q, bounds⟩ organizations fuel s)
      (Call.readEvents ⟨env, get, onTime, q, bounds⟩ organizations fuel s) := by
  induction fuel generalizing s with
  | zero => exact .inr rfl
  | succ fuel ih =>
    rw [Call.readEvents, Call.readEvents]
    cases organizations[s.position.orgIndex]? with
    | none => exact .inr rfl
    | some organization =>
      dsimp only
      split_ifs
      · refine OrTimeout.bind (.inr rfl) fun id => (orTimeout_send late _ s).bind fun sent => ?_
        refine OrTimeout.bind (.inr rfl) fun answer => ?_
        refine OrTimeout.bind (.inr (collect_late late _ _)) fun rows => ?_
        split_ifs
        · exact .inr rfl
        · exact ih _
      · exact .inr rfl

omit P in
theorem orTimeout_readPages (late : ℕ → Bool) (fuel : ℕ) (s : ReadState) :
    OrTimeout (Call.readPages ⟨env, get, late, q, bounds⟩ fuel s)
      (Call.readPages ⟨env, get, onTime, q, bounds⟩ fuel s) := by
  induction fuel generalizing s with
  | zero => exact .inr rfl
  | succ fuel ih =>
    rw [Call.readPages, Call.readPages]
    split_ifs
    · refine (orTimeout_send late _ s).bind fun sent => OrTimeout.bind (.inr rfl) fun answer => ?_
      obtain ⟨organizations, more⟩ := answer
      dsimp only
      split_ifs
      · exact .inr rfl
      · exact ih _
      · exact .inr rfl
      · refine (orTimeout_readEvents late _ _ _).bind fun s => ?_
        split_ifs
        · exact .inr rfl
        · exact ih _
        · exact .inr rfl
        · exact ih _
      · refine (orTimeout_readEvents late _ _ _).bind fun s => ?_
        split_ifs
        · exact .inr rfl
        · exact .inr rfl
        · exact ih _
    · exact .inr rfl

omit P in
/-- A call that is not late returns what it returns with any other clock. -/
theorem orTimeout_listPage (late : ℕ → Bool) (cursor : Option String) :
    OrTimeout (listPage env get late q cursor) (listPage env get onTime q cursor) := by
  refine OrTimeout.bind (.inr rfl) fun bounds => OrTimeout.bind (.inr rfl) fun position => ?_
  refine (orTimeout_readPages late _ _).bind fun s => (OrTimeout.bind ?_ fun _ => .inr rfl)
  have htime : ensure (¬onTime s.requests.length = true) ReadCategory.timeout = .ok () := if_pos Bool.false_ne_true
  rw [htime]
  exact orTimeout_ensure _

end StaticProvider

/-! ### Browsing -/

/-- The calls from a cursor on to the end, each with its cursor and what it returns. -/
inductive Browse (env : BrowseEnv) (get : BrowseRequest → Except ReadCategory Message) (q : EventQuery) :
    Option String → List (Option String × EventPage) → Prop
  | last {cursor : Option String} {page : EventPage} (call : listPage env get onTime q cursor = .ok page)
      (complete : page.nextCursor = none) : Browse env get q cursor [(cursor, page)]
  | more {cursor : Option String} {page : EventPage} {next : String} {calls : List (Option String × EventPage)}
      (call : listPage env get onTime q cursor = .ok page) (more : page.nextCursor = some next)
      (browse : Browse env get q (some next) calls) : Browse env get q cursor ((cursor, page) :: calls)

/-- How many positions are left, at most. -/
def Position.left (p : Position) : ℕ :=
  (maxPosition - p.orgPage) * (maxPosition + 1) ^ 2 + (maxPosition - p.orgIndex) * (maxPosition + 1) +
    (maxPosition - p.eventPage)

theorem Position.Before.left_lt {p p' : Position} (h : p.Before p') (hp : p'.inRange) : p'.left < p.left := by
  unfold Before at h
  unfold inRange maxPosition at hp
  unfold left maxPosition
  omega

namespace StaticProvider

variable {env : BrowseEnv} {q : EventQuery} (P : StaticProvider env q)

/-- The calls can be made to the end, from wherever a cursor stands. -/
theorem exists_browse {cursor : Option String} {p : Position} {page : List String}
    (hcursor : positionOf env q cursor = .ok p) (hat : P.At p page) : ∃ calls, Browse env P.get q cursor calls := by
  induction hleft : p.left using Nat.strong_induction_on generalizing cursor p page with
  | _ n ih =>
    obtain ⟨result, read, hcall, hreturns⟩ := P.listPage_spec hcursor hat
    obtain ⟨hnone, -⟩ | ⟨next, p', page', hsome, hcursor', hat', hbefore, -⟩ := hreturns.next
    · exact ⟨_, .last hcall hnone⟩
    · have hlt : p'.left < n := hleft ▸ hbefore.left_lt (P.inRange_of_at hat' (P.length_page_le hat')).1
      obtain ⟨calls, hbrowse⟩ := ih _ hlt hcursor' hat' rfl
      exact ⟨_, .more hcall hsome hbrowse⟩

/-- The calls of a browse read what is left, each page of events once. -/
structure ReadsAll (left : List ReadPage) (calls : List (Option String × EventPage)) : Prop where
  bounded : ∀ call ∈ calls, call.2.requests.length ≤ maxRequests
  advances : ∀ call ∈ calls, ∀ next, call.2.nextCursor = some next → ∃ p p', positionOf env q call.1 = .ok p ∧
    positionOf env q (some next) = .ok p' ∧ p.Before p'
  readOnce : (calls.flatMap fun call => call.2.requests).filter BrowseRequest.isEvents = left.map (ReadPage.request q)
  events : (calls.flatMap fun call => call.2.events).Perm
    (((left.flatMap ReadPage.events).filter P.bounds.matches).map Prod.fst)

theorem readsAll_of_browse {cursor : Option String} {calls : List (Option String × EventPage)}
    (h : Browse env P.get q cursor calls) {p : Position} {page : List String}
    (hcursor : positionOf env q cursor = .ok p) (hat : P.At p page)
    (hnodup : (((P.rest p).flatMap ReadPage.events).map fun event => event.1.providerEventId).Nodup) :
    P.ReadsAll (P.rest p) calls := by
  induction h generalizing p page with
  | last call complete =>
    obtain ⟨result, read, hcall, hreturns⟩ := P.listPage_spec hcursor hat
    cases Except.ok.inj (call.symm.trans hcall)
    obtain ⟨-, hrest⟩ | ⟨next, -, -, hsome, -⟩ := hreturns.next
    · rw [hrest] at hnodup ⊢
      refine ⟨?_, ?_, ?_, ?_⟩
      · rw [List.forall_mem_singleton]
        exact hreturns.bounded
      · rw [List.forall_mem_singleton]
        intro next hnext
        exact absurd (complete.symm.trans hnext) (Option.some_ne_none _).symm
      · rw [List.flatMap_singleton]
        exact hreturns.sent
      · rw [List.flatMap_singleton]
        exact hreturns.events hnodup
    · exact absurd (complete.symm.trans hsome) (Option.some_ne_none _).symm
  | more call more browse ih =>
    obtain ⟨result, read, hcall, hreturns⟩ := P.listPage_spec hcursor hat
    cases Except.ok.inj (call.symm.trans hcall)
    obtain ⟨hnone, -⟩ | ⟨next, p', page', hsome, hcursor', hat', hbefore, hrest⟩ := hreturns.next
    · exact absurd (hnone.symm.trans more) (Option.some_ne_none _).symm
    · cases Option.some.inj (more.symm.trans hsome)
      rw [hrest] at hnodup ⊢
      rw [List.flatMap_append, List.map_append] at hnodup
      obtain ⟨hread, hleft, -⟩ := List.nodup_append.1 hnodup
      obtain ⟨hbounded, hadvances, hreadOnce, hevents⟩ := ih hcursor' hat' hleft
      refine ⟨?_, ?_, ?_, ?_⟩
      · exact List.forall_mem_cons.2 ⟨hreturns.bounded, hbounded⟩
      · refine List.forall_mem_cons.2 ⟨fun next hnext => ?_, hadvances⟩
        cases Option.some.inj (more.symm.trans hnext)
        exact ⟨p, p', hcursor, hcursor', hbefore⟩
      · rw [List.flatMap_cons, List.filter_append, hreturns.sent, hreadOnce, List.map_append]
      · rw [List.flatMap_cons, List.flatMap_append, List.filter_append, List.map_append]
        exact (hreturns.events hread).append hevents

theorem events_pagesOf (id : String) : (P.pagesOf id).flatMap ReadPage.events = (P.events id).flatten := by
  rw [pagesOf, pagesFrom, Nat.sub_self, List.drop_zero, List.flatMap_def, List.map_map]
  exact congrArg List.flatten (List.zipIdx_map_fst 1 (P.events id))

theorem nodup_allEvents : (P.allEvents.map fun event => event.1.providerEventId).Nodup := by
  have hall : P.allEvents = P.organizations.flatten.flatMap fun id => (P.events id).flatten := by
    rw [allEvents, pages, List.flatMap_assoc]
    simp only [events_pagesOf]
  rw [hall]
  exact P.distinct

/-- Browsing reads everything that the provider has. -/
structure BrowsesAll : Prop where
  ends : ∃ calls, Browse env P.get q none calls
  readsAll : ∀ calls, Browse env P.get q none calls → P.ReadsAll P.pages calls
  once : ∀ calls, Browse env P.get q none calls →
    ((calls.flatMap fun call => call.2.events).map EventMetadata.providerEventId).Nodup
  late : ∀ late cursor, OrTimeout (listPage env P.get late q cursor) (listPage env P.get onTime q cursor)

end StaticProvider

end CivicLoop.LaunchLoop
