import CivicLoop.LaunchLoop.BrowserDemo
import Mathlib

/-!
# The protocol of the demo

What the demo is for, without its tables and its storage: two users, a workflow with a status, the three
answers that its event lacks, and the request that one of them makes and the other decides. The browser
follows this protocol.

## Main definitions

* `Demo`, `Demo.step` : the protocol.
* `Demo.Consistent` : its invariant.
* `BrowserRel` : the state of the browser that stands for a state of the protocol.

## Main results

* `Demo.Consistent.step` : the invariant is kept.
* `browser_step` : the browser accepts and refuses as the protocol does.
-/

namespace CivicLoop.LaunchLoop

/-! ### Texts with clean ends -/

theorem dropWhile_dropWhile {p q : Char → Bool} (h : ∀ c, q c = true → p c = true) (cs : List Char) :
    (cs.dropWhile q).dropWhile p = cs.dropWhile p := by
  induction cs with
  | nil => rfl
  | cons c cs ih =>
    by_cases hq : q c = true
    · rw [List.dropWhile_cons_of_pos hq, List.dropWhile_cons_of_pos (h c hq), ih]
    · rw [List.dropWhile_cons_of_neg hq]

theorem dropWhile_of_head {p : Char → Bool} {cs : List Char} (h : ∀ c, cs.head? = some c → p c = false) :
    cs.dropWhile p = cs := by
  cases cs with
  | nil => rfl
  | cons c cs => rw [List.dropWhile_cons_of_neg (by simp [h c rfl])]

theorem getLast?_dropWhile_concat {p : Char → Bool} {c : Char} (hc : p c = false) (cs : List Char) :
    ((cs ++ [c]).dropWhile p).getLast? = some c := by
  induction cs with
  | nil => simp [hc]
  | cons d cs ih =>
    rw [List.cons_append]
    by_cases hd : p d = true
    · rw [List.dropWhile_cons_of_pos hd, ih]
    · rw [List.dropWhile_cons_of_neg hd, ← List.cons_append, List.getLast?_concat]

/-- Neither end of the text is a blank, of either language. -/
def CleanEnds (s : String) : Prop :=
  ∀ c, s.toList.head? = some c ∨ s.toList.getLast? = some c → isSpace c = false ∧ isJsSpace c = false

/-- The blanks around the text are ordinary spaces. -/
def OuterSpaces (s : String) : Prop := CleanEnds (trimWith (fun c => c = ' ') s)

theorem trimWith_of_clean {p : Char → Bool} {s : String}
    (h : ∀ c, s.toList.head? = some c ∨ s.toList.getLast? = some c → p c = false) : trimWith p s = s := by
  rw [trimWith, dropWhile_of_head fun c hc => h c (.inl hc),
    dropWhile_of_head fun c hc => h c (.inr (by rwa [List.head?_reverse] at hc)), List.reverse_reverse,
    String.ofList_toList]

/-- A class with the space trims like the space, where what is left has no other blank at its ends. -/
theorem trimWith_eq {p : Char → Bool} (hp : p ' ' = true) {s : String}
    (h : ∀ c, (trimWith (fun c => c = ' ') s).toList.head? = some c ∨
      (trimWith (fun c => c = ' ') s).toList.getLast? = some c → p c = false) :
    trimWith p s = trimWith (fun c => c = ' ') s := by
  have hsub (c : Char) (hc : decide (c = ' ') = true) : p c = true := by
    rw [of_decide_eq_true hc, hp]
  simp only [trimWith, String.toList_ofList, List.head?_reverse, List.getLast?_reverse] at h ⊢
  have hleft : s.toList.dropWhile p = s.toList.dropWhile fun c => decide (c = ' ') := by
    rw [← dropWhile_dropWhile hsub]
    refine dropWhile_of_head fun c hc => h c (.inl ?_)
    -- the first character is not a space, so the spaces at the other end leave it
    cases hrest : s.toList.dropWhile fun c => decide (c = ' ') with
    | nil =>
      rw [hrest] at hc
      cases hc
    | cons d cs =>
      rw [hrest] at hc
      obtain rfl := Option.some.inj hc
      have hd : decide (d = ' ') = false := by
        have hnot := List.head?_dropWhile_not (fun c => decide (c = ' ')) s.toList
        rw [hrest] at hnot
        simpa using hnot
      rw [List.reverse_cons, getLast?_dropWhile_concat hd]
  rw [hleft, ← dropWhile_dropWhile hsub, dropWhile_of_head fun c hc => h c (.inr hc)]

/-- A text with clean ends. -/
abbrev CleanText := { s : String // CleanEnds s }

/-- The text without the spaces around it. -/
def cleaned (s : String) (h : OuterSpaces s) : CleanText := ⟨trimWith (fun c => c = ' ') s, h⟩

theorem strip_of_outerSpaces {s : String} (h : OuterSpaces s) : strip s = (cleaned s h).1 :=
  trimWith_eq (by decide) fun c hc => (h c hc).1

theorem jsTrim_of_outerSpaces {s : String} (h : OuterSpaces s) : trimWith isJsSpace s = (cleaned s h).1 :=
  trimWith_eq (by decide) fun c hc => (h c hc).2

theorem strip_cleanText (s : CleanText) : strip s.1 = s.1 := trimWith_of_clean fun c hc => (s.2 c hc).1

theorem jsTrim_cleanText (s : CleanText) : trimWith isJsSpace s.1 = s.1 :=
  trimWith_of_clean fun c hc => (s.2 c hc).2

theorem cleanEnds_empty : CleanEnds "" := by
  intro c hc
  rcases hc with hc | hc <;> cases hc

theorem outerSpaces_empty : OuterSpaces "" := cleanEnds_empty

/-! ### The protocol -/

/-- The answers that the event lacks; an empty one is missing. -/
structure Answers where
  venueName : CleanText
  venueAddress : CleanText
  accessInstructions : CleanText

namespace Answers

def empty : Answers := ⟨⟨"", cleanEnds_empty⟩, ⟨"", cleanEnds_empty⟩, ⟨"", cleanEnds_empty⟩⟩

/-- No answer is missing. -/
def Complete (a : Answers) : Prop := a.venueName.1 ≠ "" ∧ a.venueAddress.1 ≠ "" ∧ a.accessInstructions.1 ≠ ""

/-- Every answer is missing. -/
def Blank (a : Answers) : Prop := a.venueName.1 = "" ∧ a.venueAddress.1 = "" ∧ a.accessInstructions.1 = ""

instance (a : Answers) : Decidable a.Complete := inferInstanceAs (Decidable (_ ∧ _))

end Answers

/-- A body of answers, with ordinary spaces around them. -/
abbrev AnswerBody := { body : List (String × String) // ∀ field, OuterSpaces ((body.lookup field).getD "") }

/-- The answer of a body. -/
def AnswerBody.given (body : AnswerBody) (field : String) : CleanText :=
  cleaned ((body.1.lookup field).getD "") (body.2 field)

/-- A given answer, or else the old one. -/
def CleanText.orElse (given old : CleanText) : CleanText := if given.1 = "" then old else given

namespace Answers

/-- The answers after those of a body. -/
def update (a : Answers) (body : AnswerBody) : Answers :=
  ⟨(body.given "venue_name").orElse a.venueName, (body.given "venue_address").orElse a.venueAddress,
    (body.given "access_instructions").orElse a.accessInstructions⟩

end Answers

/-- The body gives an answer. -/
def AnswerBody.Gives (body : AnswerBody) : Prop :=
  (body.given "venue_name").1 ≠ "" ∨ (body.given "venue_address").1 ≠ "" ∨
    (body.given "access_instructions").1 ≠ ""

instance (body : AnswerBody) : Decidable body.Gives := inferInstanceAs (Decidable (_ ∨ _))

inductive DemoUser
  | maya
  | jordan
deriving DecidableEq

def DemoUser.slug : DemoUser → String
  | maya => "maya"
  | jordan => "jordan"

/-- A request about the current workflow and its approval. The hash of a decision is the one of the
approval, or another. -/
inductive DemoAction
  | reset
  | run
  | answers (body : AnswerBody)
  | submit
  | decide (hash : Option String) (decision reason : String)

structure DemoApproval where
  status : ApprovalStatus
  approver : Option String
  reason : String

/-- A state of the protocol. `prepared` says that the package is there. -/
structure Demo where
  status : Status
  version : ℕ
  answers : Answers
  prepared : Bool
  approval : Option DemoApproval

namespace Demo

def initial : Demo := ⟨.draft, 1, .empty, false, none⟩

/-- The decision of the pending request. -/
def decide (decision reason : String) (d : Demo) : Demo :=
  if decision = "reject" then
    { d with
      status := .needsInput
      prepared := false
      approval := some ⟨.rejected, some "jordan", reason⟩ }
  else
    { d with status := .completed, approval := some ⟨.approved, some "jordan", reason⟩ }

/-- The state after a request; there is none when it is refused. -/
def step (user : DemoUser) (action : DemoAction) (d : Demo) : Option Demo :=
  match action with
  | .reset => some initial
  | .run =>
    if user = .maya ∧ d.status = .draft then
      some { d with status := if d.answers.Complete then .readyForReview else .needsInput, prepared := true }
    else none
  | .answers body =>
    if (user = .maya ∧ d.status = .needsInput) ∧ body.Gives then
      some {
        status := if (d.answers.update body).Complete then .draft else .needsInput
        version := d.version + 1
        answers := d.answers.update body
        prepared := false
        approval := none }
    else none
  | .submit =>
    if user = .maya ∧ d.status = .readyForReview then
      some { d with status := .inReview, approval := some ⟨.pending, none, ""⟩ }
    else none
  | .decide hash decision reason =>
    if (user = .jordan ∧ d.status = .inReview) ∧ hash = none then some (d.decide decision reason) else none

/-- How the state fits together, by its status. -/
def Consistent (d : Demo) : Prop :=
  match d.status with
  | .draft => (d.answers.Blank ∨ d.answers.Complete) ∧ d.prepared = false ∧ d.approval = none
  | .needsInput => (d.prepared = true → d.answers.Blank) ∧ ∀ a, d.approval = some a → a.status = .rejected
  | .readyForReview => d.answers.Complete ∧ d.prepared = true ∧ d.approval = none
  | .inReview => d.answers.Complete ∧ d.prepared = true ∧
      ∃ a, d.approval = some a ∧ a.status = .pending ∧ a.reason = ""
  | .approved => False
  | .completed => d.answers.Complete ∧ d.prepared = true ∧ ∃ a, d.approval = some a ∧ a.status = .approved

theorem consistent_initial : initial.Consistent := ⟨.inl ⟨rfl, rfl, rfl⟩, rfl, rfl⟩

/-- The package was made of answers that were all missing or all given. -/
theorem Consistent.prepared {d : Demo} (hd : d.Consistent) (h : d.prepared = true) :
    d.answers.Blank ∨ d.answers.Complete := by
  unfold Consistent at hd
  cases hs : d.status with
  | draft =>
    simp only [hs] at hd
    exact hd.1
  | needsInput =>
    simp only [hs] at hd
    exact .inl (hd.1 h)
  | readyForReview =>
    simp only [hs] at hd
    exact .inr hd.1
  | inReview =>
    simp only [hs] at hd
    exact .inr hd.1
  | approved =>
    simp only [hs] at hd
  | completed =>
    simp only [hs] at hd
    exact .inr hd.1

/-- Every request keeps the invariant. -/
theorem Consistent.step {d d' : Demo} {user : DemoUser} {action : DemoAction} (hd : d.Consistent)
    (h : d.step user action = some d') : d'.Consistent := by
  cases action with
  | reset =>
    obtain rfl := Option.some.inj h
    exact consistent_initial
  | run =>
    simp only [Demo.step] at h
    split_ifs at h with hcond hcomplete
    · obtain rfl := Option.some.inj h
      simp only [Consistent, hcond.2] at hd
      exact ⟨hcomplete, rfl, hd.2.2⟩
    · obtain rfl := Option.some.inj h
      simp only [Consistent, hcond.2] at hd
      refine ⟨fun _ => hd.1.resolve_right hcomplete, fun a ha => ?_⟩
      rw [show d.approval = some a from ha] at hd
      cases hd.2.2
  | answers body =>
    simp only [Demo.step] at h
    split_ifs at h with hcond hcomplete
    · obtain rfl := Option.some.inj h
      exact ⟨.inr hcomplete, rfl, rfl⟩
    · obtain rfl := Option.some.inj h
      exact ⟨fun e => (by cases e), fun a ha => (by cases ha)⟩
  | submit =>
    simp only [Demo.step] at h
    split_ifs at h with hcond
    obtain rfl := Option.some.inj h
    simp only [Consistent, hcond.2] at hd
    exact ⟨hd.1, hd.2.1, _, rfl, rfl, rfl⟩
  | decide hash decision reason =>
    simp only [Demo.step] at h
    split_ifs at h with hcond
    obtain rfl := Option.some.inj h
    simp only [Consistent, hcond.1.2] at hd
    unfold Demo.decide
    split_ifs
    · exact ⟨fun e => (by cases e), fun a ha => by rw [← Option.some.inj ha]⟩
    · exact ⟨hd.1, hd.2.1, _, rfl, rfl⟩

end Demo

/-! ### The browser -/

/-- The facts of the browser, with the answers. -/
def browserFacts (a : Answers) : Message :=
  .obj [("title", .lit "New York International Youth Day Networking Breakfast"),
    ("city", .lit "New York"), ("region", .lit "NY"), ("country", .lit "US"),
    ("date", .lit "2026-08-12"), ("start_time", .lit "09:00"), ("end_time", .lit "12:00"),
    ("timezone", .lit "America/New_York"), ("venue_name", .lit a.venueName.1),
    ("venue_address", .lit a.venueAddress.1), ("access_instructions", .lit a.accessInstructions.1),
    ("general_ticket_price", .int 40), ("signup_url", .lit "https://example.test/eventbrite/ny-youth-day"),
    ("sponsor_tier", .lit "gold"), ("sponsor_discount_percent", .int 25)]

/-- The hash that a decision names: the current one, or another. -/
def submittedHash (hash : Option String) (current : String) : String :=
  match hash with
  | none => current
  | some s => if s = current then s ++ "*" else s

theorem submittedHash_eq_iff {hash : Option String} {current : String} :
    submittedHash hash current = current ↔ hash = none := by
  cases hash with
  | none => simp [submittedHash]
  | some s =>
    simp only [submittedHash, reduceCtorEq, iff_false]
    split_ifs with h
    · intro e
      have hlength := congrArg String.length e
      rw [String.length_append, h] at hlength
      simp at hlength
    · exact h

/-- The request of an action, to the browser. -/
def browserRequest (action : DemoAction) (s : BrowserState) : BrowserRequest :=
  match action with
  | .reset => .reset
  | .run => .runs
  | .answers body => .answers body.1
  | .submit => .submit
  | .decide hash decision reason =>
    .decision [("package_hash", submittedHash hash ((s.approval.map BrowserApproval.packageHash).getD "")),
      ("decision", decision), ("reason", reason)]

/-- The state of the browser after an action; there is none when it throws. -/
def browserStep (user : DemoUser) (action : DemoAction) (s : BrowserState) : Option BrowserState :=
  requestStaticDemo user.slug (browserRequest action s) s

/-- The approval as the browser keeps it: an approval keeps no reason. -/
def browserApproval (a : DemoApproval) : BrowserApproval :=
  ⟨a.status, browserPackageHash, "maya", a.approver, if a.status = .approved then "" else a.reason⟩

/-- The state of the browser stands for a state of the protocol. -/
structure BrowserRel (s : BrowserState) (d : Demo) : Prop where
  status : s.status = d.status
  version : s.revision.version = d.version
  facts : s.revision.facts = browserFacts d.answers
  package : s.package = if d.prepared then some (campaignPackage (browserFacts d.answers)) else none
  approval : s.approval = d.approval.map browserApproval

theorem browserRel_initial : BrowserRel initialState Demo.initial := ⟨rfl, rfl, rfl, rfl, rfl⟩

theorem missingFacts_eq_nil (a : Answers) : missingFacts (browserFacts a) = [] ↔ a.Complete := by
  have hname : factOrEmpty (browserFacts a) "venue_name" = a.venueName.1 := rfl
  have haddress : factOrEmpty (browserFacts a) "venue_address" = a.venueAddress.1 := rfl
  have haccess : factOrEmpty (browserFacts a) "access_instructions" = a.accessInstructions.1 := rfl
  simp [missingFacts, requiredAnswers, hname, haddress, haccess, jsTrim_cleanText, Answers.Complete]

theorem answeredBy_eq (body : AnswerBody) :
    answeredBy body.1 = ([("venue_name", (body.given "venue_name").1),
      ("venue_address", (body.given "venue_address").1),
      ("access_instructions", (body.given "access_instructions").1)].filter fun a => a.2 ≠ "") := by
  have hgiven (field : String) :
      trimWith isJsSpace ((body.1.lookup field).getD "") = (body.given field).1 :=
    jsTrim_of_outerSpaces (body.2 field)
  simp only [answeredBy, requiredAnswers, List.map_cons, List.map_nil, hgiven]

theorem filter_eq_nil_iff_not_gives (body : AnswerBody) :
    ([("venue_name", (body.given "venue_name").1), ("venue_address", (body.given "venue_address").1),
      ("access_instructions", (body.given "access_instructions").1)].filter fun a => a.2 ≠ "") = [] ↔
      ¬body.Gives := by
  simp [AnswerBody.Gives]

/-- What the given answers make of the facts. -/
theorem updateSnapshot_browserFacts (a : Answers) (body : AnswerBody) :
    updateSnapshot (browserFacts a) ([("venue_name", (body.given "venue_name").1),
      ("venue_address", (body.given "venue_address").1),
      ("access_instructions", (body.given "access_instructions").1)].filter fun a => a.2 ≠ "") =
      browserFacts (a.update body) := by
  simp only [Answers.update, CleanText.orElse]
  by_cases hname : (body.given "venue_name").1 = "" <;>
    by_cases haddress : (body.given "venue_address").1 = "" <;>
      by_cases haccess : (body.given "access_instructions").1 = "" <;>
        simp [hname, haddress, haccess, updateSnapshot, updateItem, browserFacts]

theorem slug_eq_maya {user : DemoUser} : user.slug = "maya" ↔ user = .maya := by cases user <;> decide

theorem slug_eq_jordan {user : DemoUser} : user.slug = "jordan" ↔ user = .jordan := by cases user <;> decide

/-- What the browser refuses by its user and its status. -/
theorem refused_iff {user : DemoUser} {status wanted : Status} :
    user.slug ≠ "maya" ∨ status ≠ wanted ↔ ¬(user = .maya ∧ status = wanted) := by
  rw [← slug_eq_maya, not_and_or]

/-- The decision of the browser is the one of the protocol. -/
theorem decideStatic_browserApproval {s : BrowserState} {d : Demo} (h : BrowserRel s d) {a : DemoApproval}
    (hreason : d.status = .inReview → (browserApproval a).reason = "") (user : DemoUser)
    (hash : Option String) (decision reason : String) :
    Option.Rel BrowserRel
      (decideStatic user.slug [("package_hash", submittedHash hash (browserApproval a).packageHash),
        ("decision", decision), ("reason", reason)] (browserApproval a) s)
      (d.step user (.decide hash decision reason)) := by
  have hfound : ([("package_hash", submittedHash hash (browserApproval a).packageHash), ("decision", decision),
      ("reason", reason)] : List (String × String)).lookup "package_hash" =
        some (submittedHash hash (browserApproval a).packageHash) := rfl
  have hhash : (some (submittedHash hash (browserApproval a).packageHash) ≠
      some (browserApproval a).packageHash) ↔ ¬hash = none := by
    rw [Ne, Option.some.injEq, submittedHash_eq_iff]
  unfold decideStatic
  simp only [Demo.step, hfound, hhash, h.status]
  cases user with
  | maya =>
    have hself : DemoUser.maya.slug = (browserApproval a).submitter := rfl
    rw [if_pos hself, if_neg (by simp)]
    exact .none
  | jordan =>
    have hself : ¬DemoUser.jordan.slug = (browserApproval a).submitter := by
      show ¬"jordan" = "maya"
      decide
    rw [if_neg hself]
    by_cases hstatus : d.status = .inReview
    · have hallowed : ¬(DemoUser.jordan.slug ≠ "jordan" ∨ d.status ≠ .inReview) := by
        rw [hstatus]
        decide
      rw [if_neg hallowed]
      by_cases hnone : hash = none
      · have hboth : (DemoUser.jordan = .jordan ∧ d.status = .inReview) ∧ hash = none := ⟨⟨rfl, hstatus⟩, hnone⟩
        rw [if_neg (not_not.2 hnone), if_pos hboth]
        have hdecision : ([("package_hash", submittedHash hash (browserApproval a).packageHash), ("decision", decision),
            ("reason", reason)] : List (String × String)).lookup "decision" = some decision := rfl
        by_cases hreject : decision = "reject"
        · rw [hdecision, if_pos (congrArg some hreject), Demo.decide, if_pos hreject]
          exact .some ⟨rfl, h.version, h.facts, rfl, rfl⟩
        · rw [hdecision, if_neg fun e => hreject (Option.some.inj e), Demo.decide, if_neg hreject]
          refine .some ⟨rfl, h.version, h.facts, h.package, ?_⟩
          simp only [BrowserState.moveTo, hreason hstatus]
          rfl
      · rw [if_pos hnone, if_neg fun e => hnone e.2]
        exact .none
    · rw [if_pos (.inr hstatus), if_neg fun e => hstatus e.1.2]
      exact .none

/-- **The browser follows the protocol**: it accepts the same requests, and its state goes on to stand for
the state of the protocol. -/
theorem browser_step {s : BrowserState} {d : Demo} (h : BrowserRel s d) (hd : d.Consistent) (user : DemoUser)
    (action : DemoAction) :
    Option.Rel BrowserRel (browserStep user action s) (d.step user action) := by
  cases action with
  | reset => exact .some browserRel_initial
  | run =>
    simp only [browserStep, browserRequest, requestStaticDemo, Demo.step, h.status, refused_iff]
    by_cases hcond : user = .maya ∧ d.status = .draft
    · rw [if_neg (not_not.2 hcond), if_pos hcond]
      refine .some ⟨?_, h.version, h.facts, ?_, h.approval⟩
      · simp only [BrowserState.moveTo, h.facts, missingFacts_eq_nil]
      · simp only [BrowserState.moveTo, h.facts, if_true]
    · rw [if_pos hcond, if_neg hcond]
      exact .none
  | answers body =>
    simp only [browserStep, browserRequest, requestStaticDemo, Demo.step, h.status, refused_iff, answeredBy_eq,
      filter_eq_nil_iff_not_gives]
    by_cases hcond : user = .maya ∧ d.status = .needsInput
    · rw [if_neg (not_not.2 hcond)]
      by_cases hgives : body.Gives
      · have hboth : (user = .maya ∧ d.status = .needsInput) ∧ body.Gives := ⟨hcond, hgives⟩
        rw [if_neg (not_not.2 hgives), if_pos hboth]
        refine .some ⟨?_, ?_, ?_, rfl, rfl⟩
        · simp only [BrowserState.moveTo, h.facts, updateSnapshot_browserFacts, missingFacts_eq_nil,
            decide_eq_true_eq]
        · simp only [BrowserState.moveTo, h.version]
        · simp only [BrowserState.moveTo, h.facts, updateSnapshot_browserFacts]
      · rw [if_pos hgives, if_neg fun e => hgives e.2]
        exact .none
    · rw [if_pos hcond, if_neg fun e => hcond e.1]
      exact .none
  | submit =>
    simp only [browserStep, browserRequest, requestStaticDemo, Demo.step, h.status, refused_iff]
    by_cases hcond : user = .maya ∧ d.status = .readyForReview
    · rw [if_neg (not_not.2 hcond), if_pos hcond]
      exact .some ⟨rfl, h.version, h.facts, h.package, rfl⟩
    · rw [if_pos hcond, if_neg hcond]
      exact .none
  | decide hash decision reason =>
    cases happroval : d.approval with
    | none =>
      have hnone : s.approval = none := by rw [h.approval, happroval]; rfl
      have hrefused : ¬((user = .jordan ∧ d.status = .inReview) ∧ hash = none) := by
        rintro ⟨⟨-, hstatus⟩, -⟩
        simp only [Demo.Consistent, hstatus, happroval] at hd
        obtain ⟨-, -, a, ha, -⟩ := hd
        cases ha
      simp only [browserStep, browserRequest, requestStaticDemo, Demo.step, hnone]
      rw [if_neg hrefused]
      exact .none
    | some a =>
      have hsome : s.approval = some (browserApproval a) := by rw [h.approval, happroval]; rfl
      have hreason : d.status = .inReview → (browserApproval a).reason = "" := by
        intro hstatus
        simp only [Demo.Consistent, hstatus, happroval] at hd
        obtain ⟨-, -, a', ha', hpending, hempty⟩ := hd
        obtain rfl := Option.some.inj ha'
        simp only [browserApproval, hpending, hempty, ite_self]
      have hstep := decideStatic_browserApproval h hreason user hash decision reason
      simp only [browserStep, browserRequest, requestStaticDemo, hsome, Option.map_some, Option.getD_some]
      exact hstep

end CivicLoop.LaunchLoop
