import CivicLoop.LaunchLoop.Services

/-!
# The demo in the browser

The browser has the demo once more, without a server: one workflow, kept in the local storage, and the
package of its facts. A request that is refused throws, and leaves the stored state as it is.

## Main definitions

* `BrowserState` : the stored state.
* `campaignPackage` : the package of its facts.
* `requestStaticDemo` : the state after a request.
-/

namespace CivicLoop.LaunchLoop

/-! ### Values -/

/-- A character that `String.prototype.trim` removes. -/
def isJsSpace (c : Char) : Bool :=
  let n := c.toNat
  (9 ≤ n && n ≤ 13) || n == 32 || n == 0xA0 || n == 0x1680 || (0x2000 ≤ n && n ≤ 0x200A) ||
    n == 0x2028 || n == 0x2029 || n == 0x202F || n == 0x205F || n == 0x3000 || n == 0xFEFF

/-- A text without the characters of a class at its ends. -/
def trimWith (p : Char → Bool) (s : String) : String :=
  String.ofList ((s.toList.dropWhile p).reverse.dropWhile p).reverse

/-- `String(value)`, of a fact: a text, a number, a truth value, or one that is missing. -/
def jsText : Option Message → String
  | some (.str t) => t.plain
  | some (.int n) => toString n
  | some (.bool b) => if b then "true" else "false"
  | some (.float text) => text
  | some .null => "null"
  | _ => "undefined"

/-- `String(facts[field] ?? "")`. -/
def factOrEmpty (facts : Message) (field : String) : String :=
  match facts.get? field with
  | none | some .null => ""
  | value => jsText value

/-! ### The state -/

structure BrowserRevision where
  id : ℕ
  version : ℕ
  facts : Message
  author : String
deriving DecidableEq

structure BrowserApproval where
  status : ApprovalStatus
  packageHash : String
  submitter : String
  approver : Option String
  reason : String
deriving DecidableEq

structure BrowserTransition where
  id : ℕ
  actor : String
  action : String
  fromStatus : Option Status
  toStatus : Status
deriving DecidableEq

structure BrowserState where
  revision : BrowserRevision
  status : Status
  package : Option Message
  packageHash : Option String
  approval : Option BrowserApproval
  execution : Option Message
  timeline : List BrowserTransition
deriving DecidableEq

/-- `PACKAGE_HASH`. -/
def browserPackageHash : String := "d7dae933f7448ca1f50b0f4f8f83b9b18c0dfe023a32a715f8029fa138ce1587"

/-- `initialFacts`. -/
def initialFacts : Message :=
  .obj [("title", .lit "New York International Youth Day Networking Breakfast"),
    ("city", .lit "New York"), ("region", .lit "NY"), ("country", .lit "US"),
    ("date", .lit "2026-08-12"), ("start_time", .lit "09:00"), ("end_time", .lit "12:00"),
    ("timezone", .lit "America/New_York"), ("venue_name", .lit ""), ("venue_address", .lit ""),
    ("access_instructions", .lit ""), ("general_ticket_price", .int 40),
    ("signup_url", .lit "https://example.test/eventbrite/ny-youth-day"),
    ("sponsor_tier", .lit "gold"), ("sponsor_discount_percent", .int 25)]

/-- `initialState`. -/
def initialState : BrowserState where
  revision := ⟨1, 1, initialFacts, "maya"⟩
  status := .draft
  package := none
  packageHash := none
  approval := none
  execution := none
  timeline := [⟨1, "Maya Chen", "demo_reset", none, .draft⟩]

/-- `addTimeline`, and the new status. -/
def BrowserState.moveTo (s : BrowserState) (actor action : String) (toStatus : Status) : BrowserState :=
  { s with
    status := toStatus
    timeline := s.timeline ++ [⟨s.timeline.length + 1,
      if actor = "jordan" then "Jordan Brooks" else "Maya Chen", action, some s.status, toStatus⟩] }

/-! ### The package -/

/-- The facts that are blank. -/
def missingFacts (facts : Message) : List String :=
  requiredAnswers.filter fun field => trimWith isJsSpace (factOrEmpty facts field) = ""

/-- `campaignPackage`. -/
def campaignPackage (facts : Message) : Message :=
  let text (field : String) := jsText (facts.get? field)
  let missing := missingFacts facts
  let complete : Bool := missing = []
  let venue := if complete then text "venue_name" else "[Venue TBD]"
  let address := if complete then text "venue_address" else "[Venue Address TBD]"
  let access := if complete then text "access_instructions" else "[Access Instructions TBD]"
  let accessSentence := if isSentence access then access else access ++ "."
  let body := text "title" ++ " is scheduled for " ++ text "date" ++ " from " ++ text "start_time" ++ " to " ++
    text "end_time" ++ " " ++ text "timezone" ++ " at " ++ venue ++ ". Address: " ++ address ++ ". Access: " ++
    accessSentence ++ " Register: " ++ text "signup_url"
  .obj [
    ("status", .lit (if complete then "ready_for_review" else "needs_input")),
    ("missing_fields", .arr (missing.map .lit)),
    ("questions", .arr (if complete then [] else [
      .obj [("field", .lit "venue_name"), ("prompt", .lit "What is the confirmed venue name?")],
      .obj [("field", .lit "venue_address"), ("prompt", .lit "What is the complete venue address?")],
      .obj [("field", .lit "access_instructions"),
        ("prompt", .lit "What arrival or accessibility instructions should guests receive?")]])),
    ("assets", .obj [
      ("invitation", .obj [("subject", .lit ("Invitation: " ++ text "title")), ("body", .lit body)]),
      ("reminder", .obj [("subject", .lit ("Reminder: " ++ text "title")), ("body", .lit body)]),
      ("social", .obj [("body", .lit ("Join us for " ++ text "title" ++ " in New York on " ++ text "date" ++
        ". Venue: " ++ venue ++ ". Register: " ++ text "signup_url"))])]),
    ("audience", .obj [("id", .lit "new_york_active_members"), ("name", .lit "New York Active Members"),
      ("member_count", .int 418), ("language", .lit "English")]),
    ("sponsor", .obj [("passed", .bool true), ("tier", .lit "gold"), ("expected_discount_percent", .int 25),
      ("actual_discount_percent", .int 25), ("general_ticket_price", .int 40),
      ("sponsor_ticket_price", .int 30)]),
    ("lanes", .obj [
      ("event_readiness", .obj [("label", .lit "Event Readiness"),
        ("status", .lit (if complete then "complete" else "needs_input")),
        ("summary", .lit (if complete then "All required event facts are grounded."
          else "3 event facts need an operator response."))]),
      ("campaign_composer", .obj [("label", .lit "Campaign Composer"),
        ("status", .lit (if complete then "complete" else "needs_input")),
        ("summary", .lit "Prepared invitation, reminder, and social drafts.")]),
      ("audience_policy", .obj [("label", .lit "Audience and Policy"), ("status", .lit "complete"),
        ("summary", .lit "Matched the approved New York audience and validated sponsor pricing.")])]),
    ("evidence", .arr [
      .lit "Read one immutable event revision.",
      .lit "Matched only an approved geography-specific audience.",
      .lit "Recomputed sponsor discount math deterministically.",
      .lit "Prepared review-only drafts; no external action was taken."])]

/-! ### Requests -/

/-- A request, by its path, with the texts of its body. -/
inductive BrowserRequest
  | reset
  | runs
  | answers (body : List (String × String))
  | submit
  | decision (body : List (String × String))

/-- The receipt of the sandbox delivery. -/
def browserReceipt : Message :=
  .obj [("connector", .lit "sandbox_iterable"), ("audience_count", .int 418), ("mode", .lit "simulation"),
    ("external_actions", .int 0),
    ("message", .lit "Sandbox delivery recorded. No email or social post was sent.")]

/-- The answers of a body that are not blank. -/
def answeredBy (body : List (String × String)) : List (String × String) :=
  (requiredAnswers.map fun field => (field, trimWith isJsSpace ((body.lookup field).getD ""))).filter
    fun a => a.2 ≠ ""

/-- The decision of an approval, by the one actor that may make it. -/
def decideStatic (actor : String) (body : List (String × String)) (approval : BrowserApproval)
    (s : BrowserState) : Option BrowserState :=
  if actor = approval.submitter then none
  else if actor ≠ "jordan" ∨ s.status ≠ .inReview then none
  else if body.lookup "package_hash" ≠ some approval.packageHash then none
  else if body.lookup "decision" = some "reject" then
    let s := { s with
      approval := some { approval with
        status := .rejected, approver := some "jordan", reason := (body.lookup "reason").getD "" }
      package := none
      packageHash := none }
    some (s.moveTo actor "package_rejected" .needsInput)
  else
    let s := { s with approval := some { approval with status := .approved, approver := some "jordan" } }
    let s := (s.moveTo actor "package_approved" .approved).moveTo actor "sandbox_receipt_recorded" .completed
    some { s with execution := some browserReceipt }

/-- `requestStaticDemo`; there is no state when it throws. -/
def requestStaticDemo (actor : String) (request : BrowserRequest) (s : BrowserState) : Option BrowserState :=
  match request with
  | .reset => some initialState
  | .runs =>
    if actor ≠ "maya" ∨ s.status ≠ .draft then none
    else
      let nextStatus := if missingFacts s.revision.facts = [] then .readyForReview else .needsInput
      let s := { s with
        package := some (campaignPackage s.revision.facts), packageHash := some browserPackageHash }
      some (s.moveTo actor "launchloop_ran" nextStatus)
  | .answers body =>
    if actor ≠ "maya" ∨ s.status ≠ .needsInput then none
    else
      let answered := answeredBy body
      if answered = [] then none
      else
        let facts := updateSnapshot s.revision.facts answered
        let complete : Bool := missingFacts facts = []
        let s := { s with
          revision := ⟨s.revision.id + 1, s.revision.version + 1, facts, "maya"⟩
          package := none
          packageHash := none
          approval := none }
        some (s.moveTo actor (if complete then "event_facts_resolved" else "event_facts_saved")
          (if complete then .draft else .needsInput))
  | .submit =>
    if actor ≠ "maya" ∨ s.status ≠ .readyForReview then none
    else
      let s := { s with approval := some ⟨.pending, browserPackageHash, "maya", none, ""⟩ }
      some (s.moveTo actor "package_submitted" .inReview)
  | .decision body =>
    match s.approval with
    | none => none
    | some approval => decideStatic actor body approval s

end CivicLoop.LaunchLoop
