import CivicLoop.LaunchLoop.Package

/-!
# Packages of incomplete events

The facts that are missing from an event are collected before anything is written from it, and the status
of the package follows from them, from the audience and from the discount of the sponsor. The drafts and
the price are still written from the same event whatever is missing. They read some facts without a
default, so that a package is made of an incomplete event only where these are present.

## Main definitions

* `WellTyped` : each required fact is absent, empty, or of its type.
* `Reviews` : what a package says about the event it is made of.
* `Readable` : the facts that are read without a default are present.

## Main results

* `preparePackage_reviews` : a package says what is missing, and its status follows the rules.
* `preparePackage_iff` : of a well-typed event a package is made if and only if it is readable.
-/

namespace CivicLoop.LaunchLoop

/-! ### What a package says -/

/-- The fact is absent, `None` or an empty string. -/
def Unanswered (event : Message) (field : String) : Prop :=
  event.get? field = none ∨ event.get? field = some .null ∨ event.get? field = some (.lit "")

instance (event : Message) (field : String) : Decidable (Unanswered event field) :=
  inferInstanceAs (Decidable (_ ∨ _))

/-- The required facts that are absent, `None` or empty, in the order of the fields. -/
def unanswered (event : Message) : List String := requiredFields.filter fun field => Unanswered event field

/-- The event is at a place of an approved audience. -/
def AudienceMatched (event : Message) : Prop :=
  audienceOf (valueOf event "region") (valueOf event "country") ≠ none

/-- The discount is the one of the tier of the sponsor. -/
def DiscountMatched (py : Interpreter) (event : Message) : Prop :=
  ∃ tier discount, sponsorTier py event = some tier ∧ sponsorDiscount tier = some discount ∧
    equalsInt discount (valueOf event "sponsor_discount_percent")

/-- A question about a fact. -/
def AsksFor (field : String) (question : Message) : Prop :=
  question.get? "field" = some (.lit field) ∧ ∃ text, question.get? "prompt" = some (.lit text)

/-- The package lists exactly the missing facts, with one question about each, and its status follows from
them, from the audience and from the discount. -/
structure Reviews (py : Interpreter) (event package : Message) : Prop where
  missing : package.get? "missing_fields" = some (.arr ((unanswered event).map .lit))
  questions : ∃ questions, package.get? "questions" = some (.arr questions) ∧
    List.Forall₂ AsksFor (unanswered event) questions
  needsInput : package.get? "status" = some (.lit "needs_input") ↔ unanswered event ≠ []
  ready : package.get? "status" = some (.lit "ready_for_review") ↔
    unanswered event = [] ∧ AudienceMatched event ∧ DiscountMatched py event
  blocked : package.get? "status" = some (.lit "blocked") ↔
    unanswered event = [] ∧ ¬ (AudienceMatched event ∧ DiscountMatched py event)

/-! ### The events -/

/-- A float, or an integer. -/
def IsNumber (value : Message) : Prop := (∃ n, value = .int n) ∨ ∃ text, value = .float text

/-- A value of the type of a required field. -/
def OfType (field : String) (value : Message) : Prop :=
  if field = "general_ticket_price" then IsNumber value else ∃ text, value = .str text

/-- A snapshot in which each required fact is absent, `None`, empty, or of its type. -/
structure WellTyped (event : Message) : Prop where
  dict : event.isObj = true
  field : ∀ field ∈ requiredFields, ∀ value, event.get? field = some value →
    value = .null ∨ value = .lit "" ∨ OfType field value

/-- The facts that are read without a default. -/
def readFields : List String := ["title", "city", "date", "start_time", "end_time", "timezone", "signup_url"]

/-- The price is a number within the range of the floats. -/
def Priced (event : Message) : Prop :=
  (∃ n, event.get? "general_ticket_price" = some (.int n) ∧ n.natAbs < floatLimit) ∨
    ∃ text, event.get? "general_ticket_price" = some (.float text)

/-- The facts that are read without a default are present, the place has a hash, the tier has a text, and
the price is there if the tier has a discount. -/
structure Readable (py : Interpreter) (event : Message) : Prop where
  present : ∀ field ∈ readFields, event.get? field ≠ none
  place : hashable (valueOf event "region") ∧ hashable (valueOf event "country")
  tier : printable ((event.get? "sponsor_tier").getD (.lit ""))
  price : ∀ tier discount, sponsorTier py event = some tier → sponsorDiscount tier = some discount →
    Priced event

variable {py : Interpreter} {event : Message}

/-! ### The rules -/

theorem isMissing_iff {field : String} : isMissing event field = true ↔ Unanswered event field := by
  unfold isMissing Unanswered valueOf
  cases event.get? field with
  | none => simp
  | some value => simp [or_comm]

theorem filter_isMissing : requiredFields.filter (isMissing event) = unanswered event := by
  unfold unanswered
  congr 1
  funext field
  rw [Bool.eq_iff_iff, isMissing_iff, decide_eq_true_iff]

/-- The discount passes if and only if it is the one of the tier. -/
theorem any_equalsInt {tier : String} (h : sponsorTier py event = some tier) :
    ((sponsorDiscount tier).any fun d => equalsInt d (valueOf event "sponsor_discount_percent")) = true ↔
      DiscountMatched py event := by
  rw [Option.any_eq_true, DiscountMatched]
  constructor
  · rintro ⟨discount, hdiscount, hequal⟩
    exact ⟨tier, discount, h, hdiscount, hequal⟩
  · rintro ⟨tier', discount, htier', hdiscount, hequal⟩
    obtain rfl := Option.some.inj (h.symm.trans htier')
    exact ⟨discount, hdiscount, hequal⟩

theorem asksFor_question (field : String) :
    AsksFor field (.obj [("field", .lit field), ("prompt", .lit (prompt field))]) := ⟨rfl, prompt field, rfl⟩

/-- **What a package says.** A package of an event lists the facts that are missing from it and its status
follows the rules, whatever the event is. -/
theorem preparePackage_reviews {package : Message} (h : preparePackage py event = some package) :
    Reviews py event package := by
  simp only [preparePackage, Option.bind_eq_bind, Option.bind_eq_some_iff, Option.pure_def,
    Option.some.injEq] at h
  obtain ⟨-, -, tier, htier, invitation, -, reminder, -, title, -, city, -, date, -, venue, -, signupUrl, -,
    price, -, rfl⟩ := h
  rw [filter_isMissing]
  have hpassed := any_equalsInt htier
  have hmatched : (audienceOf (valueOf event "region") (valueOf event "country")).isNone = false ↔
      AudienceMatched event := by
    rw [AudienceMatched, Option.isNone_eq_false_iff, Option.isSome_iff_ne_none]
  generalize (audienceOf (valueOf event "region") (valueOf event "country")).isNone = unmatched at hmatched ⊢
  generalize ((sponsorDiscount tier).any fun d => equalsInt d (valueOf event "sponsor_discount_percent")) =
    passed at hpassed ⊢
  refine ⟨rfl, ⟨_, rfl, ?_⟩, ?_, ?_, ?_⟩
  · rw [List.forall₂_map_right_iff, List.forall₂_same]
    exact fun field _ => asksFor_question field
  all_goals
    simp only [Json.get?, List.lookup, beq_self_eq_true, ← hpassed, ← hmatched, Json.lit]
    by_cases hmissing : unanswered event = []
    · cases unmatched <;> cases passed <;> simp [hmissing]
    · simp [hmissing]

/-! ### When a package is made -/

variable (py) in
theorem pyStr?_isSome (j : Message) : (pyStr? py j).isSome = printable j := by
  unfold pyStr?
  cases printable j <;> rfl

theorem valueOf_of_get? {field : String} {value : Message} (h : event.get? field = some value) :
    valueOf event field = value := by
  rw [valueOf, h]
  rfl

/-- A required fact with a text has one that can be written. -/
theorem WellTyped.printable (h : WellTyped event) {field : String} (hfield : field ∈ requiredFields)
    (hprice : field ≠ "general_ticket_price") {value : Message} (hvalue : event.get? field = some value) :
    LaunchLoop.printable value = true := by
  rcases h.field field hfield value hvalue with rfl | rfl | htype
  · rfl
  · rfl
  · rw [OfType, if_neg hprice] at htype
    obtain ⟨text, rfl⟩ := htype
    rfl

variable (py) in
/-- A default is written for a fact that is absent, and its text for one that is there. -/
theorem WellTyped.textOr_isSome (h : WellTyped event) {field : String} (hfield : field ∈ requiredFields)
    (hprice : field ≠ "general_ticket_price") (default_ : String) :
    (textOr py event field default_).isSome = true := by
  unfold textOr
  split_ifs with htrue
  · rw [pyStr?_isSome]
    cases hvalue : event.get? field with
    | none =>
      rw [valueOf, hvalue]
      rfl
    | some value =>
      rw [valueOf_of_get? hvalue]
      exact h.printable hfield hprice hvalue
  · rfl

variable (py) in
/-- A fact without a default is written if it is present. -/
theorem WellTyped.textOf_isSome (h : WellTyped event) {field : String} (hfield : field ∈ requiredFields)
    (hprice : field ≠ "general_ticket_price") :
    (textOf py event field).isSome = true ↔ event.get? field ≠ none := by
  unfold textOf
  cases hvalue : event.get? field with
  | none => simp
  | some value =>
    have hprinted : (pyStr? py value).isSome = true := by
      rw [pyStr?_isSome]
      exact h.printable hfield hprice hvalue
    simpa using hprinted

variable (py) in
/-- A price is found if and only if the price of the event is a number within the range of the floats. -/
theorem WellTyped.discountedPrice_isSome (h : WellTyped event) (discount : ℤ) :
    (event.get? "general_ticket_price" >>= fun price => discountedPrice py price discount).isSome = true ↔
      Priced event := by
  unfold Priced
  cases hvalue : event.get? "general_ticket_price" with
  | none => simp
  | some value =>
    rcases h.field _ (by decide) value hvalue with rfl | rfl | htype
    · simp [discountedPrice]
    · simp [discountedPrice, Json.lit]
    · rw [OfType, if_pos rfl] at htype
      rcases htype with ⟨n, rfl⟩ | ⟨text, rfl⟩
      · by_cases hn : n.natAbs < floatLimit <;> simp [discountedPrice, hn]
      · simp [discountedPrice]

variable (py) in
/-- The price for a sponsor is found if and only if a tier with a discount has a priced event. -/
theorem WellTyped.sponsorPrice_isSome (h : WellTyped event) (expected : Option ℤ) :
    (sponsorPrice py event expected).isSome = true ↔ ∀ discount, expected = some discount → Priced event := by
  cases expected with
  | none => simp [sponsorPrice]
  | some discount => simpa [sponsorPrice] using h.discountedPrice_isSome py discount

/-- The facts that a draft reads without a default. -/
def draftFields : List String := ["title", "date", "start_time", "end_time", "timezone", "signup_url"]

variable (py) in
/-- A draft is written if and only if the facts it reads without a default are present. -/
theorem WellTyped.draft_isSome (h : WellTyped event) (kind : String) :
    (draft py event kind).isSome = true ↔ ∀ field ∈ draftFields, event.get? field ≠ none := by
  have hread (field : String) (hfield : field ∈ draftFields) :
      (textOf py event field).isSome = true ↔ event.get? field ≠ none :=
    h.textOf_isSome py ((by decide : ∀ field ∈ draftFields, field ∈ requiredFields) field hfield)
      ((by decide : ∀ field ∈ draftFields, field ≠ "general_ticket_price") field hfield)
  constructor
  · intro hdraft
    obtain ⟨d, hd⟩ := Option.isSome_iff_exists.1 hdraft
    simp only [draft, Option.bind_eq_bind, Option.bind_eq_some_iff] at hd
    obtain ⟨-, -, -, -, -, -, title, htitle, date, hdate, startTime, hstart, endTime, hend, timezone, htimezone,
      signupUrl, hsignup, -⟩ := hd
    intro field hfield
    refine (hread field hfield).1 ?_
    simp only [draftFields, List.mem_cons, List.not_mem_nil, or_false] at hfield
    rcases hfield with rfl | rfl | rfl | rfl | rfl | rfl
    · rw [htitle]; rfl
    · rw [hdate]; rfl
    · rw [hstart]; rfl
    · rw [hend]; rfl
    · rw [htimezone]; rfl
    · rw [hsignup]; rfl
  · intro hpresent
    have htext (field : String) (hfield : field ∈ draftFields) : ∃ text, textOf py event field = some text :=
      Option.isSome_iff_exists.1 ((hread field hfield).2 (hpresent field hfield))
    obtain ⟨title, htitle⟩ := htext "title" (by decide)
    obtain ⟨date, hdate⟩ := htext "date" (by decide)
    obtain ⟨startTime, hstart⟩ := htext "start_time" (by decide)
    obtain ⟨endTime, hend⟩ := htext "end_time" (by decide)
    obtain ⟨timezone, htimezone⟩ := htext "timezone" (by decide)
    obtain ⟨signupUrl, hsignup⟩ := htext "signup_url" (by decide)
    obtain ⟨venue, hvenue⟩ := Option.isSome_iff_exists.1
      (h.textOr_isSome py (by decide : "venue_name" ∈ requiredFields) (by decide) "[Venue TBD]")
    obtain ⟨address, haddress⟩ := Option.isSome_iff_exists.1
      (h.textOr_isSome py (by decide : "venue_address" ∈ requiredFields) (by decide) "[Venue Address TBD]")
    obtain ⟨access, haccess⟩ := Option.isSome_iff_exists.1
      (h.textOr_isSome py (by decide : "access_instructions" ∈ requiredFields) (by decide)
        "[Access Instructions TBD]")
    simp [draft, htitle, hdate, hstart, hend, htimezone, hsignup, hvenue, haddress, haccess]

/-- **When a package is made.** Of a well-typed event a package is made, and says what is missing, if and
only if the event is readable. -/
theorem preparePackage_iff (h : WellTyped event) :
    (∃ package, preparePackage py event = some package ∧ Reviews py event package) ↔ Readable py event := by
  constructor
  · rintro ⟨package, hpackage, -⟩
    simp only [preparePackage, Option.bind_eq_bind, Option.bind_eq_some_iff, Option.guard_eq_some'] at hpackage
    obtain ⟨_, hplace, tier, htier, invitation, hdraft, -, -, -, -, city, hcity, -, -, -, -, -, -, price, hprice,
      -⟩ := hpackage
    have hdrafted := (h.draft_isSome py "Invitation").1 (by rw [hdraft]; rfl)
    refine ⟨?_, ?_, ?_, ?_⟩
    · intro field hfield
      by_cases hc : field = "city"
      · subst hc
        exact (h.textOf_isSome py (by decide) (by decide)).1 (by rw [hcity]; rfl)
      · refine hdrafted field ?_
        simp only [readFields, draftFields, List.mem_cons, List.not_mem_nil, or_false] at hfield ⊢
        tauto
    · exact hplace
    · unfold sponsorTier at htier
      obtain ⟨text, htext, -⟩ := Option.map_eq_some_iff.1 htier
      rw [← pyStr?_isSome py, htext]
      rfl
    · intro tier' discount htier' hdiscount
      obtain rfl := Option.some.inj (htier.symm.trans htier')
      exact (h.sponsorPrice_isSome py _).1 (by rw [hprice]; rfl) discount hdiscount
  · intro hread
    have hdrafted (kind : String) : (draft py event kind).isSome = true := by
      refine (h.draft_isSome py kind).2 fun field hfield => hread.present field ?_
      revert field
      decide
    obtain ⟨invitation, hinvitation⟩ := Option.isSome_iff_exists.1 (hdrafted "Invitation")
    obtain ⟨reminder, hreminder⟩ := Option.isSome_iff_exists.1 (hdrafted "Reminder")
    have htext (field : String) (hfield : field ∈ ["title", "city", "date", "signup_url"]) :
        ∃ text, textOf py event field = some text := by
      refine Option.isSome_iff_exists.1 ((h.textOf_isSome py ?_ ?_).2 (hread.present field ?_)) <;>
        (revert field; decide)
    obtain ⟨title, htitle⟩ := htext "title" (by decide)
    obtain ⟨city, hcity⟩ := htext "city" (by decide)
    obtain ⟨date, hdate⟩ := htext "date" (by decide)
    obtain ⟨signupUrl, hsignup⟩ := htext "signup_url" (by decide)
    obtain ⟨venue, hvenue⟩ := Option.isSome_iff_exists.1
      (h.textOr_isSome py (by decide : "venue_name" ∈ requiredFields) (by decide) "[Venue TBD]")
    obtain ⟨tier, htier⟩ : ∃ tier, sponsorTier py event = some tier := by
      rw [sponsorTier, pyStr?, if_pos hread.tier]
      exact ⟨_, rfl⟩
    obtain ⟨price, hprice⟩ := Option.isSome_iff_exists.1
      ((h.sponsorPrice_isSome py (sponsorDiscount tier)).2 fun discount hdiscount =>
        hread.price tier discount htier hdiscount)
    obtain ⟨package, hpackage⟩ : ∃ package, preparePackage py event = some package := by
      simp [preparePackage, guard, hread.place, htier, hinvitation, hreminder, htitle, hcity, hdate, hvenue,
        hsignup, hprice]
    exact ⟨package, hpackage, preparePackage_reviews hpackage⟩

/-- Of the event of the demo a package is made. -/
theorem preparePackage_iff_newYork : WellTyped newYorkEvent ∧
    ((∃ package, preparePackage plainInterpreter newYorkEvent = some package ∧
      Reviews plainInterpreter newYorkEvent package) ↔ Readable plainInterpreter newYorkEvent) := by
  have h : WellTyped newYorkEvent := by
    refine ⟨rfl, fun field hfield value hvalue => ?_⟩
    simp only [requiredFields, List.mem_cons, List.not_mem_nil, or_false] at hfield
    rcases hfield with rfl | rfl | rfl | rfl | rfl | rfl | rfl | rfl | rfl | rfl | rfl <;>
      obtain rfl := Option.some.inj hvalue
    case inr.inr.inr.inr.inr.inr.inr.inr.inr.inl => exact .inr (.inr (.inl ⟨40, rfl⟩))
    all_goals exact .inr (.inr ⟨_, rfl⟩)
  exact ⟨h, preparePackage_iff h⟩

/-- Of an event without any fact no package is made, though all eleven facts are missing from it. -/
theorem not_preparePackage_empty : WellTyped (.obj []) ∧
    ¬ ∃ package, preparePackage plainInterpreter (.obj []) = some package ∧
      Reviews plainInterpreter (.obj []) package := by
  have hnone : preparePackage plainInterpreter (.obj []) = none := by decide +kernel
  refine ⟨⟨rfl, fun _ _ _ h => by cases h⟩, ?_⟩
  rintro ⟨package, hpackage, -⟩
  rw [hnone] at hpackage
  cases hpackage

end CivicLoop.LaunchLoop
