import CivicLoop.Foundation.PyText

/-!
# The campaign package

A package is made of one event revision, by rules: which facts are missing, which audience the place of
the event has, and whether the discount of the sponsor is the one of its tier. It holds the drafts of an
invitation, a reminder and a post, and the questions about the missing facts.

## Main definitions

* `newYorkEvent` : the facts of the demo event.
* `Interpreter` : how the interpreter writes values as text.
* `preparePackage` : the package of a revision.
-/

namespace CivicLoop.LaunchLoop

/-- `NEW_YORK_EVENT`. -/
def newYorkEvent : Message :=
  .obj [("synthetic", .bool true),
    ("title", .lit "New York International Youth Day Networking Breakfast"),
    ("city", .lit "New York"), ("region", .lit "NY"), ("country", .lit "US"),
    ("date", .lit "2026-08-12"), ("start_time", .lit "09:00"), ("end_time", .lit "12:00"),
    ("timezone", .lit "America/New_York"), ("venue_name", .lit ""), ("venue_address", .lit ""),
    ("access_instructions", .lit ""),
    ("description", .lit "A breakfast networking program for young nonprofit professionals."),
    ("general_ticket_price", .int 40),
    ("signup_url", .lit "https://example.test/eventbrite/ny-youth-day"),
    ("sponsor_tier", .lit "gold"), ("sponsor_discount_percent", .int 25)]

/-! ### Values -/

/-- How the interpreter writes values: `repr` of a list or a dictionary, `str.lower`, and the float
`round(price * (1 - discount / 100), 2)` of a price that is a float or converts to one. -/
structure Interpreter where
  repr : Message → String
  lower : String → String
  discounted : Message → ℤ → String

/-- `str`; a list or a dictionary is written as `repr` writes it. -/
def pyStr (py : Interpreter) : Message → String
  | .null => "None"
  | .bool b => if b then "True" else "False"
  | .int n => toString n
  | .float text => text
  | .str t => t.plain
  | j => py.repr j

mutual

/-- No integer of the value is over the interpreter's limit of 4300 digits for texts. -/
def printable : Message → Bool
  | .int n => n.natAbs < 10 ^ 4300
  | .arr items => printableList items
  | .obj items => printableItems items
  | _ => true

def printableList : List Message → Bool
  | [] => true
  | j :: items => printable j && printableList items

def printableItems : List (String × Message) → Bool
  | [] => true
  | (_, j) :: items => printable j && printableItems items

end

/-- `str`, or nothing where it raises. -/
def pyStr? (py : Interpreter) (j : Message) : Option String := if printable j then some (pyStr py j) else none

/-- The truth value. -/
def truthy : Message → Bool
  | .null => false
  | .bool b => b
  | .int n => n ≠ 0
  | .float text => text ≠ "0.0" ∧ text ≠ "-0.0"
  | .str t => t.plain ≠ ""
  | .arr items => !items.isEmpty
  | .obj items => !items.isEmpty

/-- `event.get(key)`. -/
def valueOf (event : Message) (key : String) : Message := (event.get? key).getD .null

/-- The text ends in a full stop, an exclamation mark or a question mark. -/
def isSentence (s : String) : Bool :=
  match s.toList.getLast? with
  | some c => c = '.' || c = '!' || c = '?'
  | none => false

/-- A price with two decimals at most, as a float is written. -/
def centsText (cents : ℤ) : String :=
  let whole := cents.natAbs / 100
  let rest := cents.natAbs % 100
  let fraction := if rest % 10 = 0 then toString (rest / 10)
    else toString (rest / 10) ++ toString (rest % 10)
  (if cents < 0 then "-" else "") ++ toString whole ++ "." ++ fraction

/-- An interpreter that is right about ASCII texts and about the small whole prices of the demo. -/
def plainInterpreter : Interpreter where
  repr _ := ""
  lower := String.toLower
  discounted price discount := match price with
    | .int n => centsText (n * (100 - discount))
    | _ => ""

/-- The magnitude from which an integer does not convert to a float, `2 ^ 1024 - 2 ^ 970`. -/
def floatLimit : ℕ := (2 ^ 54 - 1) * (2 ^ 194) ^ 5

/-- Equality with an integer of two digits: the float of that value is equal to it. -/
def equalsInt (n : ℤ) : Message → Bool
  | .int m => m = n
  | .float text => text = toString n ++ ".0"
  | _ => false

/-- The value has a hash. -/
def hashable : Message → Bool
  | .arr _ => false
  | .obj _ => false
  | _ => true

/-! ### The rules -/

/-- `REQUIRED_FIELDS`. -/
def requiredFields : List String :=
  ["title", "city", "date", "start_time", "end_time", "timezone", "venue_name", "venue_address",
    "access_instructions", "general_ticket_price", "signup_url"]

/-- `AUDIENCES.get((region, country))`. -/
def audienceOf (region country : Message) : Option Message :=
  if region = .lit "NY" ∧ country = .lit "US" then
    some (.obj [("id", .lit "new_york_active_members"), ("name", .lit "New York Active Members"),
      ("member_count", .int 418), ("language", .lit "English")])
  else none

/-- `SPONSOR_DISCOUNTS`. -/
def sponsorDiscount (tier : String) : Option ℤ :=
  [("platinum", (25 : ℤ)), ("gold", 25), ("silver", 15), ("bronze", 15)].lookup tier

section Package

variable (py : Interpreter)

/-- `event.get(key) or default`, as text. -/
def textOr (event : Message) (key default_ : String) : Option String :=
  if truthy (valueOf event key) then pyStr? py (valueOf event key) else some default_

/-- `event[key]`, as text. -/
def textOf (event : Message) (key : String) : Option String := event.get? key >>= pyStr? py

/-- `_draft`; without one of the facts there is none. -/
def draft (event : Message) (kind : String) : Option Message := do
  let venue ← textOr py event "venue_name" "[Venue TBD]"
  let address ← textOr py event "venue_address" "[Venue Address TBD]"
  let access ← textOr py event "access_instructions" "[Access Instructions TBD]"
  let accessSentence := if isSentence access then access else access ++ "."
  let title ← textOf py event "title"
  let date ← textOf py event "date"
  let startTime ← textOf py event "start_time"
  let endTime ← textOf py event "end_time"
  let timezone ← textOf py event "timezone"
  let signupUrl ← textOf py event "signup_url"
  return .obj [
    ("subject", .lit (kind ++ ": " ++ title)),
    ("body", .lit (title ++ " is scheduled for " ++ date ++ " from " ++ startTime ++ " to " ++ endTime ++
      " " ++ timezone ++ " at " ++ venue ++ ". Address: " ++ address ++ ". Access: " ++ accessSentence ++
      " Register: " ++ signupUrl))]

/-- The fact is missing. -/
def isMissing (event : Message) (field : String) : Bool :=
  valueOf event field = .lit "" ∨ valueOf event field = .null

/-- The question about a missing fact. -/
def prompt (field : String) : String :=
  ([("venue_name", "What is the confirmed venue name?"),
    ("venue_address", "What is the complete venue address?"),
    ("access_instructions", "What arrival or accessibility instructions should guests receive?")].lookup
      field).getD ("What is the confirmed " ++
        String.ofList (field.toList.map fun c => if c = '_' then ' ' else c) ++ "?")

/-- The float of a price less a discount: only numbers have one, and of the integers those within the
range of the floats. -/
def discountedPrice (price : Message) (discount : ℤ) : Option Message :=
  match price with
  | .int n => if n.natAbs < floatLimit then some (.float (py.discounted price discount)) else none
  | .float _ => some (.float (py.discounted price discount))
  | .bool _ => some (.float (py.discounted price discount))
  | _ => none

/-- The price for a sponsor of a tier with a discount; the price of the event is read only then. -/
def sponsorPrice (event : Message) (discount : Option ℤ) : Option Message :=
  match discount with
  | none => some .null
  | some d => event.get? "general_ticket_price" >>= fun price => discountedPrice py price d

/-- `str(event.get("sponsor_tier", "")).lower()`. -/
def sponsorTier (event : Message) : Option String :=
  (pyStr? py ((event.get? "sponsor_tier").getD (.lit ""))).map py.lower

/-- `prepare_package`; where it raises there is none. -/
def preparePackage (event : Message) : Option Message := do
  let missing := requiredFields.filter (isMissing event)
  let _ ← guard (hashable (valueOf event "region") ∧ hashable (valueOf event "country"))
  let audience := audienceOf (valueOf event "region") (valueOf event "country")
  let tier ← sponsorTier py event
  let expected := sponsorDiscount tier
  let actual := valueOf event "sponsor_discount_percent"
  let sponsorPassed := expected.any fun d => equalsInt d actual
  let status := if missing ≠ [] then "needs_input"
    else if audience.isNone || !sponsorPassed then "blocked"
    else "ready_for_review"
  let laneStatus := if status = "ready_for_review" then "complete"
    else if status = "blocked" then "blocked"
    else "needs_input"
  let policyPassed := audience.isSome && sponsorPassed
  let invitation ← draft py event "Invitation"
  let reminder ← draft py event "Reminder"
  let title ← textOf py event "title"
  let city ← textOf py event "city"
  let date ← textOf py event "date"
  let venue ← textOr py event "venue_name" "[Venue TBD]"
  let signupUrl ← textOf py event "signup_url"
  let price ← sponsorPrice py event expected
  return .obj [
    ("status", .lit status),
    ("missing_fields", .arr (missing.map .lit)),
    ("questions", .arr (missing.map fun field =>
      .obj [("field", .lit field), ("prompt", .lit (prompt field))])),
    ("assets", .obj [
      ("invitation", invitation),
      ("reminder", reminder),
      ("social", .obj [("body", .lit ("Join us for " ++ title ++ " in " ++ city ++ " on " ++ date ++
        ". Venue: " ++ venue ++ ". Register: " ++ signupUrl))])]),
    ("audience", audience.getD (.obj [("id", .null), ("name", .lit "Clarification required"),
      ("member_count", .int 0), ("language", .lit "Unknown")])),
    ("sponsor", .obj [
      ("passed", .bool sponsorPassed),
      ("tier", .lit tier),
      ("expected_discount_percent", (expected.map .int).getD .null),
      ("actual_discount_percent", actual),
      ("general_ticket_price", valueOf event "general_ticket_price"),
      ("sponsor_ticket_price", price)]),
    ("lanes", .obj [
      ("event_readiness", .obj [
        ("label", .lit "Event Readiness"),
        ("status", .lit (if missing = [] then "complete" else "needs_input")),
        ("summary", .lit (if missing = [] then "All required event facts are grounded."
          else toString missing.length ++ " event facts need an operator response."))]),
      ("campaign_composer", .obj [
        ("label", .lit "Campaign Composer"),
        ("status", .lit laneStatus),
        ("summary", .lit "Prepared invitation, reminder, and social drafts.")]),
      ("audience_policy", .obj [
        ("label", .lit "Audience and Policy"),
        ("status", .lit (if policyPassed then "complete" else "blocked")),
        ("summary", .lit (if policyPassed then
          "Matched the approved New York audience and validated sponsor pricing."
          else "Audience or sponsor policy needs human review."))])]),
    ("evidence", .arr [
      .lit "Read one immutable event revision.",
      .lit "Matched only an approved geography-specific audience.",
      .lit "Recomputed sponsor discount math deterministically.",
      .lit "Prepared review-only drafts; no external action was taken."])]

end Package

end CivicLoop.LaunchLoop
