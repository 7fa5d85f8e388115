import CivicLoop.Operations.SqlTokens

/-!
# Arrays of string literals

A server may write one array of string literals in several ways: the elements are cast to unbounded `character
varying` one by one, and either the whole array or every element is coerced to text. The recogniser reads such an
array from the front of a list of tokens.

## Main definitions

* `literalTextArray` : the literals of an array, and what comes after it.
* `ArrayForm.items`, `SpellsArray` : the spellings, as lists of words, symbols and literals.

## Main results

* `literalTextArray_eq_some_iff` : the recogniser reads the spellings, and nothing else.

## References

Source: `scripts/validate_postgres_restore.py`, lines 287–339.
-/

namespace CivicLoop.Operations

/-! ### The recogniser -/

/-- `take`: the tokens after a word or symbol with a value, if it comes first. -/
def take (value : String) : List SqlToken → Option (List SqlToken)
  | [] => none
  | t :: ts => if (t.kind = .word ∨ t.kind = .symbol) ∧ t.value = value.toList then some ts else none

/-- `take` where its answer is used: whether the value comes first, and the tokens after it. -/
def takeIf (value : String) (ts : List SqlToken) : Bool × List SqlToken :=
  match take value ts with
  | some ts => (true, ts)
  | none => (false, ts)

/-- `take` of what has to come if `b` is true. -/
def takeWhen (b : Bool) (value : String) (ts : List SqlToken) : Option (List SqlToken) :=
  if b then take value ts else some ts

/-- An element of an array: its literal, whether its cast is in parentheses, and whether it is coerced to text. -/
structure Element where
  literal : List Char
  wrapped : Bool
  coerced : Bool

/-- One element, up to what comes after its cast to text. -/
def element (ts : List SqlToken) : Option (Element × List SqlToken) :=
  let (wrapped, ts) := takeIf "(" ts
  match ts with
  | [] => none
  | t :: ts =>
    if t.kind = .literal then do
      let ts ← take "::" ts
      let ts ← take "character" ts
      let ts ← take "varying" ts
      let ts ← takeWhen wrapped ")" ts
      let (coerced, ts) := takeIf "::" ts
      let ts ← takeWhen coerced "text" ts
      return (⟨t.text, wrapped, coerced⟩, ts)
    else none

/-- The elements, up to the closing bracket; at most `fuel` of them. -/
def elements : ℕ → List SqlToken → Option (List Element × List SqlToken)
  | 0, _ => none
  | fuel + 1, ts => do
    let (e, ts) ← element ts
    match take "]" ts with
    | some ts => return ([e], ts)
    | none => do
      let ts ← take "," ts
      let (es, ts) ← elements fuel ts
      return (e :: es, ts)

/-- What comes after the closing bracket: the literals, if all of them are coerced to text. -/
def arrayEnd (wrapped : Bool) (es : List Element) (ts : List SqlToken) :
    Option (List (List Char) × List SqlToken) := do
  let ts ← takeWhen wrapped ")" ts
  if (es.any fun e => e.coerced) = false then do
    let ts ← take "::" ts
    let ts ← take "text" ts
    let ts ← take "[" ts
    let ts ← take "]" ts
    return (es.map Element.literal, ts)
  else if (es.all fun e => e.coerced) = false ∨ wrapped = true ∨
      (ts.head?.any fun t => t.value == "::".toList) = true then none
  else return (es.map Element.literal, ts)

/-- `_literal_text_array`: the literals, and the tokens after the array. -/
def literalTextArray (ts : List SqlToken) : Option (List (List Char) × List SqlToken) :=
  let (wrapped, ts) := takeIf "(" ts
  do
    let ts ← take "array" ts
    let ts ← take "[" ts
    let (es, ts) ← elements ts.length ts
    arrayEnd wrapped es ts

/-! ### The spellings -/

/-- A word or symbol, or a literal. -/
inductive Item
  | mark (value : String)
  | literal (text : List Char)

def Item.Matches : Item → SqlToken → Prop
  | .mark value, t => (t.kind = .word ∨ t.kind = .symbol) ∧ t.value = value.toList
  | .literal text, t => t.kind = .literal ∧ t.text = text

/-- Tokens that spell the items, whatever white space is between them. -/
abbrev Spells (items : List Item) (ts : List SqlToken) : Prop := List.Forall₂ Item.Matches items ts

/-- An optional item. -/
def itemIf (b : Bool) (items : List Item) : List Item := if b then items else []

def Element.items (e : Element) : List Item :=
  itemIf e.wrapped [.mark "("] ++
    (.literal e.literal :: .mark "::" :: .mark "character" :: .mark "varying" ::
      (itemIf e.wrapped [.mark ")"] ++ itemIf e.coerced [.mark "::", .mark "text"]))

/-- The elements between the brackets, and the closing one. -/
def elementsItems : List Element → List Item
  | [] => []
  | [e] => e.items ++ [.mark "]"]
  | e :: es => e.items ++ .mark "," :: elementsItems es

/-- How the array is coerced: as a whole, in parentheses or not, or one element after the other. -/
inductive ArrayForm
  | whole (wrapped : Bool)
  | elementwise

/-- The elements of a spelling, given by their literals and whether they are in parentheses. -/
def uniform (coerced : Bool) (es : List (List Char × Bool)) : List Element := es.map fun e => ⟨e.1, e.2, coerced⟩

def ArrayForm.wrapped : ArrayForm → Bool
  | .whole wrapped => wrapped
  | .elementwise => false

/-- What comes after the word. -/
def ArrayForm.bracketed (es : List (List Char × Bool)) : ArrayForm → List Item
  | .whole wrapped =>
    .mark "[" :: (elementsItems (uniform false es) ++
      (itemIf wrapped [.mark ")"] ++ [.mark "::", .mark "text", .mark "[", .mark "]"]))
  | .elementwise => .mark "[" :: elementsItems (uniform true es)

def ArrayForm.items (es : List (List Char × Bool)) (form : ArrayForm) : List Item :=
  itemIf form.wrapped [.mark "("] ++ .mark "array" :: form.bracketed es

/-- Tokens that spell one nonempty array. -/
def SpellsArray (form : ArrayForm) (literals : List (List Char)) (ts : List SqlToken) : Prop :=
  ∃ es, es ≠ [] ∧ literals = es.map Prod.fst ∧ Spells (form.items es) ts

/-! ### Reading a spelling -/

theorem take_eq_some {value : String} {ts rest : List SqlToken} :
    take value ts = some rest ↔ ∃ t, ts = t :: rest ∧ (Item.mark value).Matches t := by
  cases ts with
  | nil => simp [take]
  | cons t ts =>
    simp only [take, Item.Matches]
    split_ifs with h
    · simp [h]
    · simp [h]

theorem take_of_matches {value : String} {t : SqlToken} (h : (Item.mark value).Matches t) (ts : List SqlToken) :
    take value (t :: ts) = some ts :=
  take_eq_some.2 ⟨t, rfl, h⟩

theorem take_of_ne {value value' : String} {t : SqlToken} (h : (Item.mark value').Matches t) (hne : value ≠ value')
    (ts : List SqlToken) : take value (t :: ts) = none := by
  rw [take, if_neg]
  rintro ⟨-, heq⟩
  exact hne (String.toList_inj.1 (heq.symm.trans h.2))

theorem take_of_literal {value : String} {text : List Char} {t : SqlToken} (h : (Item.literal text).Matches t)
    (ts : List SqlToken) : take value (t :: ts) = none := by
  rw [take, if_neg]
  rintro ⟨hkind | hkind, -⟩ <;> rw [h.1] at hkind <;> cases hkind

theorem takeIf_cases (value : String) (ts : List SqlToken) :
    (∃ t rest, ts = t :: rest ∧ (Item.mark value).Matches t ∧ takeIf value ts = (true, rest)) ∨
      take value ts = none ∧ takeIf value ts = (false, ts) := by
  cases h : take value ts with
  | none => exact .inr ⟨rfl, by rw [takeIf, h]⟩
  | some rest =>
    obtain ⟨t, rfl, ht⟩ := take_eq_some.1 h
    exact .inl ⟨t, rest, rfl, ht, by rw [takeIf, h]⟩

theorem takeIf_of_none {value : String} {ts : List SqlToken} (h : take value ts = none) :
    takeIf value ts = (false, ts) := by
  rw [takeIf, h]

theorem takeIf_of_matches {value : String} {t : SqlToken} (h : (Item.mark value).Matches t) (ts : List SqlToken) :
    takeIf value (t :: ts) = (true, ts) := by
  rw [takeIf, take_of_matches h]

/-- An optional item is read. -/
theorem takeIf_of_spells {value : String} {b : Bool} {us : List SqlToken} (h : Spells (itemIf b [.mark value]) us)
    {rest : List SqlToken} (hrest : take value rest = none) : takeIf value (us ++ rest) = (b, rest) := by
  cases b with
  | false =>
    obtain rfl : us = [] := by
      cases h
      rfl
    exact takeIf_of_none hrest
  | true =>
    cases h with
    | cons ht hnil =>
      cases hnil
      exact takeIf_of_matches ht rest

theorem takeWhen_of_spells {value : String} {b : Bool} {us : List SqlToken} (h : Spells (itemIf b [.mark value]) us)
    (rest : List SqlToken) : takeWhen b value (us ++ rest) = some rest := by
  cases b with
  | false =>
    obtain rfl : us = [] := by
      cases h
      rfl
    rfl
  | true =>
    cases h with
    | cons ht hnil =>
      cases hnil
      exact take_of_matches ht rest

theorem takeWhen_eq_some {value : String} {b : Bool} {ts rest : List SqlToken} (h : takeWhen b value ts = some rest) :
    ∃ us, ts = us ++ rest ∧ Spells (itemIf b [.mark value]) us := by
  cases b with
  | false =>
    obtain rfl := Option.some.inj h
    exact ⟨[], rfl, .nil⟩
  | true =>
    obtain ⟨t, rfl, ht⟩ := take_eq_some.1 h
    exact ⟨[t], rfl, .cons ht .nil⟩

theorem takeIf_eq {value : String} {b : Bool} {ts rest : List SqlToken} (h : takeIf value ts = (b, rest)) :
    ∃ us, ts = us ++ rest ∧ Spells (itemIf b [.mark value]) us := by
  obtain ⟨t, rest', rfl, ht, hyes⟩ | ⟨-, hno⟩ := takeIf_cases value ts
  · obtain ⟨rfl, rfl⟩ := Prod.mk.inj (hyes.symm.trans h)
    exact ⟨[t], rfl, .cons ht .nil⟩
  · obtain ⟨rfl, rfl⟩ := Prod.mk.inj (hno.symm.trans h)
    exact ⟨[], rfl, .nil⟩

theorem spells_append_iff {items items' : List Item} {ts : List SqlToken} :
    Spells (items ++ items') ts ↔ ∃ us us', ts = us ++ us' ∧ Spells items us ∧ Spells items' us' := by
  constructor
  · intro h
    induction items generalizing ts with
    | nil => exact ⟨[], ts, rfl, .nil, h⟩
    | cons item items ih =>
      cases h with
      | cons ht h =>
        obtain ⟨us, us', rfl, hus, hus'⟩ := ih h
        exact ⟨_ :: us, us', rfl, .cons ht hus, hus'⟩
  · rintro ⟨us, us', rfl, hus, hus'⟩
    induction hus with
    | nil => exact hus'
    | cons ht _ ih => exact .cons ht ih

theorem Spells.append {items items' : List Item} {us us' : List SqlToken} (h : Spells items us)
    (h' : Spells items' us') : Spells (items ++ items') (us ++ us') :=
  spells_append_iff.2 ⟨us, us', rfl, h, h'⟩

theorem element_eq_some {ts rest : List SqlToken} {e : Element} (h : element ts = some (e, rest)) :
    ∃ us, ts = us ++ rest ∧ Spells e.items us := by
  rcases hw : takeIf "(" ts with ⟨wrapped, ts₁⟩
  obtain ⟨open', rfl, hopen⟩ := takeIf_eq hw
  unfold element at h
  rw [hw] at h
  cases ts₁ with
  | nil => cases h
  | cons t ts =>
    simp only at h
    split_ifs at h with hkind
    simp only [Option.bind_eq_bind, Option.bind_eq_some_iff] at h
    obtain ⟨ts₂, h₂, ts₃, h₃, ts₄, h₄, ts₅, h₅, h⟩ := h
    rcases hc : takeIf "::" ts₅ with ⟨coerced, ts₆⟩
    rw [hc] at h
    simp only [Option.pure_def, Option.some.injEq, Prod.mk.injEq] at h
    obtain ⟨ts₇, h₇, rfl, rfl⟩ := h
    obtain ⟨t₂, rfl, ht₂⟩ := take_eq_some.1 h₂
    obtain ⟨t₃, rfl, ht₃⟩ := take_eq_some.1 h₃
    obtain ⟨t₄, rfl, ht₄⟩ := take_eq_some.1 h₄
    obtain ⟨close, rfl, hclose⟩ := takeWhen_eq_some h₅
    obtain ⟨text, rfl, htext⟩ : ∃ us, ts₅ = us ++ ts₇ ∧ Spells (itemIf coerced [.mark "::", .mark "text"]) us := by
      obtain ⟨us, rfl, hus⟩ := takeIf_eq hc
      obtain ⟨us', rfl, hus'⟩ := takeWhen_eq_some h₇
      refine ⟨us ++ us', (List.append_assoc _ _ _).symm, ?_⟩
      cases coerced with
      | false => exact hus.append hus'
      | true => exact hus.append hus'
    refine ⟨open' ++ t :: t₂ :: t₃ :: t₄ :: (close ++ text), by simp, ?_⟩
    exact hopen.append (.cons ⟨hkind, rfl⟩ (.cons ht₂ (.cons ht₃ (.cons ht₄ (hclose.append htext)))))

/-- An element is read, unless the coercion that it lacks comes after it. -/
theorem element_of_spells {e : Element} {us rest : List SqlToken} (h : Spells e.items us)
    (hrest : e.coerced = true ∨ take "::" rest = none) : element (us ++ rest) = some (e, rest) := by
  obtain ⟨literal, wrapped, coerced⟩ := e
  obtain ⟨open', us, rfl, hopen, hparts⟩ := spells_append_iff.1 h
  cases hparts with
  | @cons _ t _ us ht h₁ =>
    cases h₁ with
    | @cons _ t₂ _ us ht₂ h₂ =>
      cases h₂ with
      | @cons _ t₃ _ us ht₃ h₃ =>
        cases h₃ with
        | @cons _ t₄ _ us ht₄ h₄ =>
          obtain ⟨close, text, rfl, hclose, htext⟩ := spells_append_iff.1 h₄
          have hw : takeIf "(" (open' ++ t :: t₂ :: t₃ :: t₄ :: (close ++ text) ++ rest) =
              (wrapped, t :: t₂ :: t₃ :: t₄ :: (close ++ (text ++ rest))) := by
            simpa using takeIf_of_spells hopen (take_of_literal ht (t₂ :: t₃ :: t₄ :: (close ++ (text ++ rest))))
          have hc : ∃ ts, takeIf "::" (text ++ rest) = (coerced, ts) ∧
              takeWhen coerced "text" ts = some rest := by
            cases coerced with
            | false =>
              obtain rfl : text = [] := by
                cases htext
                rfl
              exact ⟨rest, takeIf_of_none (hrest.resolve_left nofun), rfl⟩
            | true =>
              cases htext with
              | @cons _ t₅ _ us ht₅ htext =>
                cases htext with
                | @cons _ t₆ _ us ht₆ htext =>
                  cases htext
                  exact ⟨t₆ :: rest, takeIf_of_matches ht₅ _, take_of_matches ht₆ rest⟩
          obtain ⟨ts, hts, htext'⟩ := hc
          unfold element
          rw [hw]
          simp only [if_pos ht.1, take_of_matches ht₂, take_of_matches ht₃, take_of_matches ht₄, Option.bind_eq_bind,
            Option.bind_some, takeWhen_of_spells hclose, hts, htext', ht.2, Option.pure_def]

theorem elementsItems_cons (e : Element) {es : List Element} (hne : es ≠ []) :
    elementsItems (e :: es) = e.items ++ .mark "," :: elementsItems es := by
  cases es with
  | nil => exact absurd rfl hne
  | cons e' es => rfl

theorem elements_eq_some {fuel : ℕ} {ts rest : List SqlToken} {es : List Element}
    (h : elements fuel ts = some (es, rest)) : es ≠ [] ∧ ∃ us, ts = us ++ rest ∧ Spells (elementsItems es) us := by
  induction fuel generalizing ts es with
  | zero => cases h
  | succ fuel ih =>
    unfold elements at h
    simp only [Option.bind_eq_bind, Option.bind_eq_some_iff, Prod.exists] at h
    obtain ⟨e, ts₁, he, h⟩ := h
    obtain ⟨us, rfl, hus⟩ := element_eq_some he
    cases hclose : take "]" ts₁ with
    | some ts₂ =>
      rw [hclose] at h
      obtain ⟨rfl, rfl⟩ := Prod.mk.inj (Option.some.inj h)
      obtain ⟨t, rfl, ht⟩ := take_eq_some.1 hclose
      exact ⟨List.cons_ne_nil _ _, us ++ [t], by simp, hus.append (.cons ht .nil)⟩
    | none =>
      rw [hclose] at h
      simp only [Option.bind_eq_some_iff, Prod.exists, Option.pure_def, Option.some.injEq, Prod.mk.injEq] at h
      obtain ⟨ts₂, hcomma, es, ts₃, hes, rfl, rfl⟩ := h
      obtain ⟨t, rfl, ht⟩ := take_eq_some.1 hcomma
      obtain ⟨hne, us', rfl, hus'⟩ := ih hes
      refine ⟨List.cons_ne_nil _ _, us ++ t :: us', by simp, ?_⟩
      rw [elementsItems_cons e hne]
      exact hus.append (.cons ht hus')

theorem elements_of_spells {es : List Element} (hne : es ≠ []) {us : List SqlToken} (h : Spells (elementsItems es) us)
    (rest : List SqlToken) {fuel : ℕ} (hfuel : es.length ≤ fuel) :
    elements fuel (us ++ rest) = some (es, rest) := by
  induction es generalizing us fuel with
  | nil => exact absurd rfl hne
  | cons e es ih =>
    obtain ⟨fuel, rfl⟩ := Nat.exists_eq_succ_of_ne_zero (by simp at hfuel; omega : fuel ≠ 0)
    rw [elements]
    cases es with
    | nil =>
      obtain ⟨us, close, rfl, hus, hclose⟩ := spells_append_iff.1 h
      cases hclose with
      | @cons _ t _ _ ht hnil =>
        cases hnil
        rw [List.append_assoc, List.singleton_append, element_of_spells hus (.inr (take_of_ne ht (by decide) _))]
        simp only [Option.bind_eq_bind, Option.bind_some, take_of_matches ht, Option.pure_def]
    | cons e' es =>
      obtain ⟨us, more, rfl, hus, hmore⟩ := spells_append_iff.1 h
      cases hmore with
      | @cons _ t _ us' ht hus' =>
        rw [List.append_assoc, List.cons_append, element_of_spells hus (.inr (take_of_ne ht (by decide) _))]
        simp only [Option.bind_eq_bind, Option.bind_some, take_of_ne ht (show "]" ≠ "," by decide), take_of_matches ht,
          ih (List.cons_ne_nil _ _) hus' (by simpa using hfuel), Option.pure_def]

theorem length_le_elementsItems (es : List Element) : es.length ≤ (elementsItems es).length := by
  induction es with
  | nil => exact le_rfl
  | cons e es ih =>
    cases es with
    | nil => simp [elementsItems]
    | cons e' es =>
      rw [elementsItems_cons e (List.cons_ne_nil _ _)]
      simp only [List.length_append, List.length_cons] at ih ⊢
      omega

/-! ### Whole arrays -/

theorem uniform_map {b : Bool} {es : List Element} (h : ∀ e ∈ es, e.coerced = b) :
    uniform b (es.map fun e => (e.literal, e.wrapped)) = es := by
  rw [uniform, List.map_map]
  refine (List.map_congr_left fun e he => ?_).trans (List.map_id es)
  simp [← h e he]

theorem uniform_literals (b : Bool) (es : List (List Char × Bool)) :
    (uniform b es).map Element.literal = es.map Prod.fst := by
  rw [uniform, List.map_map]
  rfl

theorem arrayEnd_eq_some {wrapped : Bool} {es : List Element} {ts rest : List SqlToken} {literals : List (List Char)}
    (h : arrayEnd wrapped es ts = some (literals, rest)) :
    literals = es.map Element.literal ∧
      ((∀ e ∈ es, e.coerced = false) ∧ (∃ us, ts = us ++ rest ∧
          Spells (itemIf wrapped [.mark ")"] ++ [.mark "::", .mark "text", .mark "[", .mark "]"]) us) ∨
        (∀ e ∈ es, e.coerced = true) ∧ wrapped = false ∧ ts = rest ∧
          ∀ t ∈ rest.head?, t.value ≠ "::".toList) := by
  unfold arrayEnd at h
  simp only [Option.bind_eq_bind, Option.bind_eq_some_iff] at h
  obtain ⟨ts₁, h₁, h⟩ := h
  obtain ⟨close, rfl, hclose⟩ := takeWhen_eq_some h₁
  split_ifs at h with hany hbad
  · simp only [Option.bind_eq_some_iff, Option.pure_def, Option.some.injEq, Prod.mk.injEq] at h
    obtain ⟨ts₂, h₂, ts₃, h₃, ts₄, h₄, ts₅, h₅, rfl, rfl⟩ := h
    obtain ⟨t₂, rfl, ht₂⟩ := take_eq_some.1 h₂
    obtain ⟨t₃, rfl, ht₃⟩ := take_eq_some.1 h₃
    obtain ⟨t₄, rfl, ht₄⟩ := take_eq_some.1 h₄
    obtain ⟨t₅, rfl, ht₅⟩ := take_eq_some.1 h₅
    refine ⟨rfl, .inl ⟨?_, close ++ [t₂, t₃, t₄, t₅], by simp, ?_⟩⟩
    · simpa using hany
    · exact hclose.append (.cons ht₂ (.cons ht₃ (.cons ht₄ (.cons ht₅ .nil))))
  · obtain ⟨rfl, rfl⟩ := Prod.mk.inj (Option.some.inj h)
    simp only [not_or, Bool.not_eq_false, Bool.not_eq_true, List.all_eq_true] at hbad
    obtain ⟨hall, rfl, hhead⟩ := hbad
    obtain rfl : close = [] := by
      cases hclose
      rfl
    refine ⟨rfl, .inr ⟨hall, rfl, rfl, fun t ht heq => ?_⟩⟩
    rw [Option.mem_def.1 ht] at hhead
    simp [heq] at hhead

theorem arrayEnd_whole {wrapped : Bool} {es : List Element} {us : List SqlToken}
    (h : Spells (itemIf wrapped [.mark ")"] ++ [.mark "::", .mark "text", .mark "[", .mark "]"]) us)
    (hes : ∀ e ∈ es, e.coerced = false) (rest : List SqlToken) :
    arrayEnd wrapped es (us ++ rest) = some (es.map Element.literal, rest) := by
  obtain ⟨close, us, rfl, hclose, hus⟩ := spells_append_iff.1 h
  have hany : (es.any fun e => e.coerced) = false := by simpa using hes
  cases hus with
  | cons h₁ hus =>
    cases hus with
    | cons h₂ hus =>
      cases hus with
      | cons h₃ hus =>
        cases hus with
        | cons h₄ hus =>
          cases hus
          simp only [arrayEnd, List.append_assoc, takeWhen_of_spells hclose, Option.bind_eq_bind, Option.bind_some,
            if_pos hany, List.cons_append, List.nil_append, take_of_matches h₁, take_of_matches h₂,
            take_of_matches h₃, take_of_matches h₄, Option.pure_def]

theorem arrayEnd_elementwise {es : List Element} (hne : es ≠ []) (hes : ∀ e ∈ es, e.coerced = true)
    {rest : List SqlToken} (hrest : ∀ t ∈ rest.head?, t.value ≠ "::".toList) :
    arrayEnd false es rest = some (es.map Element.literal, rest) := by
  obtain ⟨e, es', rfl⟩ := List.exists_cons_of_ne_nil hne
  have hany : ¬(((e :: es').any fun e => e.coerced) = false) := by simp [hes e List.mem_cons_self]
  have hbad : ¬((((e :: es').all fun e => e.coerced) = false) ∨ false = true ∨
      (rest.head?.any fun t => t.value == "::".toList) = true) := by
    rintro (hall | hfalse | hhead)
    · rw [List.all_eq_true.2 hes] at hall
      cases hall
    · cases hfalse
    · obtain ⟨t, ht, hvalue⟩ := (Option.any_eq_true _ _).1 hhead
      exact hrest t ht (beq_iff_eq.1 hvalue)
  have hread : takeWhen false ")" rest = some rest := rfl
  simp only [arrayEnd, hread, Option.bind_eq_bind, Option.bind_some]
  rw [if_neg hany, if_neg hbad]
  rfl

/-- Elements are read; what comes after them decides. -/
theorem literalTextArray_elements {wrapped : Bool} {es : List Element} (hne : es ≠ [])
    {opening us : List SqlToken} {word bracket : SqlToken} (hopening : Spells (itemIf wrapped [.mark "("]) opening)
    (hword : (Item.mark "array").Matches word) (hbracket : (Item.mark "[").Matches bracket)
    (hus : Spells (elementsItems es) us) (ts : List SqlToken) :
    literalTextArray (opening ++ word :: bracket :: (us ++ ts)) = arrayEnd wrapped es ts := by
  have hfuel : es.length ≤ (us ++ ts).length := by
    have hlength := length_le_elementsItems es
    rw [List.Forall₂.length_eq hus] at hlength
    rw [List.length_append]
    omega
  unfold literalTextArray
  rw [takeIf_of_spells hopening (take_of_ne hword (by decide) _)]
  simp only [Option.bind_eq_bind, take_of_matches hword, take_of_matches hbracket, Option.bind_some,
    elements_of_spells hne hus ts hfuel]

/-- The recogniser reads the spellings, and nothing else. -/
theorem literalTextArray_eq_some_iff {ts rest : List SqlToken} {literals : List (List Char)} :
    literalTextArray ts = some (literals, rest) ↔
      ∃ form us, ts = us ++ rest ∧ SpellsArray form literals us ∧
        (form = .elementwise → ∀ t ∈ rest.head?, t.value ≠ "::".toList) := by
  constructor
  · intro h
    rcases hw : takeIf "(" ts with ⟨wrapped, ts₁⟩
    obtain ⟨open', rfl, hopen⟩ := takeIf_eq hw
    unfold literalTextArray at h
    rw [hw] at h
    simp only [Option.bind_eq_bind, Option.bind_eq_some_iff, Prod.exists] at h
    obtain ⟨ts₂, h₂, ts₃, h₃, es, ts₄, hes, hend⟩ := h
    obtain ⟨t₂, rfl, ht₂⟩ := take_eq_some.1 h₂
    obtain ⟨t₃, rfl, ht₃⟩ := take_eq_some.1 h₃
    obtain ⟨hne, us, rfl, hus⟩ := elements_eq_some hes
    obtain ⟨rfl, ⟨hcoerced, close, rfl, hclose⟩ | ⟨hcoerced, rfl, rfl, hhead⟩⟩ := arrayEnd_eq_some hend
    · refine ⟨.whole wrapped, open' ++ t₂ :: t₃ :: (us ++ close), by simp,
        ⟨es.map fun e => (e.literal, e.wrapped), by simpa using hne, by simp, ?_⟩, fun hform => ArrayForm.noConfusion hform⟩
      rw [← uniform_map hcoerced] at hus
      exact hopen.append (.cons ht₂ (.cons ht₃ (hus.append hclose)))
    · refine ⟨.elementwise, open' ++ t₂ :: t₃ :: us, by simp,
        ⟨es.map fun e => (e.literal, e.wrapped), by simpa using hne, by simp, ?_⟩, fun _ => hhead⟩
      rw [← uniform_map hcoerced] at hus
      exact hopen.append (.cons ht₂ (.cons ht₃ hus))
  · rintro ⟨form, us, rfl, ⟨es, hne, rfl, hspells⟩, hhead⟩
    have hne' : ∀ b, uniform b es ≠ [] := fun b => by simpa [uniform] using hne
    obtain ⟨opening, us, rfl, hopening, hrest⟩ := spells_append_iff.1 hspells
    cases form with
    | whole wrapped =>
      cases hrest with
      | @cons _ word _ us hword hrest =>
        cases hrest with
        | @cons _ bracket _ us hbracket hrest =>
          obtain ⟨us, ending, rfl, hus, hending⟩ := spells_append_iff.1 hrest
          have hread := literalTextArray_elements (hne' false) hopening hword hbracket hus (ending ++ rest)
          simp only [List.append_assoc, List.cons_append] at hread ⊢
          rw [hread, ← uniform_literals false]
          exact arrayEnd_whole hending (fun e he => by obtain ⟨x, -, rfl⟩ := List.mem_map.1 he; rfl) rest
    | elementwise =>
      cases hrest with
      | @cons _ word _ us hword hrest =>
        cases hrest with
        | @cons _ bracket _ us hbracket hus =>
          have hread := literalTextArray_elements (hne' true) hopening hword hbracket hus rest
          simp only [List.append_assoc, List.cons_append] at hread ⊢
          rw [hread, ← uniform_literals true]
          exact arrayEnd_elementwise (hne' true)
            (fun e he => by obtain ⟨x, -, rfl⟩ := List.mem_map.1 he; rfl) (hhead rfl)

theorem SpellsArray.ne_nil {form : ArrayForm} {literals : List (List Char)} {us : List SqlToken}
    (h : SpellsArray form literals us) : us ≠ [] := by
  obtain ⟨es, -, -, hspells⟩ := h
  obtain ⟨opening, us, rfl, -, hrest⟩ := spells_append_iff.1 hspells
  cases hrest
  simp

/-- The word of a spelling, and what comes before and after it. -/
theorem SpellsArray.split {form : ArrayForm} {literals : List (List Char)} {us : List SqlToken}
    (h : SpellsArray form literals us) :
    ∃ es opening word us', us = opening ++ word :: us' ∧ es ≠ [] ∧ Spells (itemIf form.wrapped [.mark "("]) opening ∧
      (Item.mark "array").Matches word ∧ Spells (form.bracketed es) us' := by
  obtain ⟨es, hne, -, hspells⟩ := h
  obtain ⟨opening, us, rfl, hopening, hrest⟩ := spells_append_iff.1 hspells
  cases hrest with
  | cons hword hrest => exact ⟨es, opening, _, _, rfl, hne, hopening, hword, hrest⟩

/-! ### The word comes once -/

theorem Item.not_array {item : Item} {t : SqlToken} (h : item.Matches t) (hne : item ≠ .mark "array") :
    ¬(Item.mark "array").Matches t := by
  rintro ⟨hkind, hvalue⟩
  cases item with
  | mark value =>
    have heq : value = "array" := String.toList_inj.1 (h.2.symm.trans hvalue)
    exact hne (congrArg Item.mark heq)
  | literal text =>
    rw [h.1] at hkind
    obtain hkind | hkind := hkind <;> cases hkind

theorem Element.not_mem_items (e : Element) : Item.mark "array" ∉ e.items := by
  obtain ⟨literal, wrapped, coerced⟩ := e
  cases wrapped <;> cases coerced <;> simp [Element.items, itemIf]

theorem not_mem_elementsItems (es : List Element) : Item.mark "array" ∉ elementsItems es := by
  induction es with
  | nil => exact List.not_mem_nil
  | cons e es ih =>
    cases es with
    | nil => simp [elementsItems, e.not_mem_items]
    | cons e' es =>
      rw [elementsItems_cons e (List.cons_ne_nil _ _)]
      simp [e.not_mem_items, ih]

theorem ArrayForm.not_mem_bracketed (form : ArrayForm) (es : List (List Char × Bool)) :
    Item.mark "array" ∉ form.bracketed es := by
  cases form with
  | whole wrapped =>
    have := not_mem_elementsItems (uniform false es)
    cases wrapped <;> simp [ArrayForm.bracketed, itemIf, this]
  | elementwise =>
    have := not_mem_elementsItems (uniform true es)
    simp [ArrayForm.bracketed, this]

theorem getLast?_elementsItems {es : List Element} (hne : es ≠ []) :
    (elementsItems es).getLast? = some (.mark "]") := by
  induction es with
  | nil => exact absurd rfl hne
  | cons e es ih =>
    cases es with
    | nil => simp [elementsItems]
    | cons e' es =>
      rw [elementsItems_cons e (List.cons_ne_nil _ _)]
      simp [List.getLast?_cons, ih (List.cons_ne_nil _ _)]

theorem ArrayForm.getLast?_bracketed (form : ArrayForm) {es : List (List Char × Bool)} (hne : es ≠ []) :
    (form.bracketed es).getLast? = some (.mark "]") := by
  cases form with
  | whole wrapped => cases wrapped <;> simp [ArrayForm.bracketed, itemIf, List.getLast?_cons]
  | elementwise =>
    have hne' : uniform true es ≠ [] := by simpa [uniform] using hne
    simp [ArrayForm.bracketed, List.getLast?_cons, getLast?_elementsItems hne']

theorem arrayEnd_paren_whole {es : List Element} {t : SqlToken} (ht : (Item.mark "::").Matches t)
    (ts : List SqlToken) : arrayEnd true es (t :: ts) = none := by
  have hread : takeWhen true ")" (t :: ts) = none := take_of_ne ht (by decide) ts
  simp only [arrayEnd, hread, Option.bind_eq_bind, Option.bind_none]

theorem arrayEnd_paren_elementwise {es : List Element} (hne : es ≠ []) (hes : ∀ e ∈ es, e.coerced = true)
    (ts : List SqlToken) : arrayEnd true es ts = none := by
  obtain ⟨e, es', rfl⟩ := List.exists_cons_of_ne_nil hne
  have hany : ¬(((e :: es').any fun e => e.coerced) = false) := by simp [hes e List.mem_cons_self]
  unfold arrayEnd
  cases takeWhen true ")" ts with
  | none => rfl
  | some ts =>
    rw [Option.bind_eq_bind, Option.bind_some, if_neg hany, if_pos (.inr (.inl rfl))]

/-- An array without parentheses is not read together with an opening one before it. -/
theorem SpellsArray.read_paren {form : ArrayForm} {literals : List (List Char)} {us : List SqlToken}
    (h : SpellsArray form literals us) (hform : form.wrapped = false) {t : SqlToken} (ht : t.value = "(".toList)
    (rest : List SqlToken) : literalTextArray (t :: (us ++ rest)) = none := by
  by_cases hparen : (Item.mark "(").Matches t
  · obtain ⟨es, hne, -, hspells⟩ := h
    have hne' : ∀ b, uniform b es ≠ [] := fun b => by simpa [uniform] using hne
    obtain ⟨opening, us, rfl, hopening, hrest⟩ := spells_append_iff.1 hspells
    rw [hform] at hopening
    cases hopening
    have hparen' : Spells (itemIf true [.mark "("]) [t] := .cons hparen .nil
    cases form with
    | whole wrapped =>
      obtain rfl : wrapped = false := hform
      cases hrest with
      | @cons _ word _ us hword hrest =>
        cases hrest with
        | @cons _ bracket _ us hbracket hrest =>
          obtain ⟨us, ending, rfl, hus, hending⟩ := spells_append_iff.1 hrest
          cases hending with
          | @cons _ cast _ ending hcast hending =>
            have hread := literalTextArray_elements (hne' false) hparen' hword hbracket hus
              (cast :: (ending ++ rest))
            simp only [List.append_assoc, List.cons_append, List.nil_append] at hread ⊢
            rw [hread]
            exact arrayEnd_paren_whole hcast _
    | elementwise =>
      cases hrest with
      | @cons _ word _ us hword hrest =>
        cases hrest with
        | @cons _ bracket _ us hbracket hus =>
          have hread := literalTextArray_elements (hne' true) hparen' hword hbracket hus rest
          simp only [List.cons_append, List.nil_append] at hread ⊢
          rw [hread]
          exact arrayEnd_paren_elementwise (hne' true)
            (fun e he => by obtain ⟨x, -, rfl⟩ := List.mem_map.1 he; rfl) rest
  · have hkind : ¬(t.kind = .word ∨ t.kind = .symbol) := fun hkind => hparen ⟨hkind, ht⟩
    have htake : ∀ value, take value (t :: (us ++ rest)) = none := fun value =>
      if_neg fun hboth => hkind hboth.1
    unfold literalTextArray
    rw [takeIf_of_none (htake "(")]
    simp only [htake "array", Option.bind_eq_bind, Option.bind_none]

/-- An array is not read before a cast if its elements are coerced one by one. -/
theorem SpellsArray.not_read_cast {literals : List (List Char)} {us : List SqlToken}
    (h : SpellsArray .elementwise literals us) {rest : List SqlToken} {t : SqlToken} (ht : t ∈ rest.head?)
    (hvalue : t.value = "::".toList) : literalTextArray (us ++ rest) = none := by
  obtain ⟨es, hne, -, hspells⟩ := h
  have hne' : uniform true es ≠ [] := by simpa [uniform] using hne
  have hnil : Spells (itemIf false [.mark "("]) [] := .nil
  cases hspells with
  | @cons _ word _ us hword hrest =>
    cases hrest with
    | @cons _ bracket _ us hbracket hus =>
      have hread := literalTextArray_elements hne' hnil hword hbracket hus rest
      simp only [List.nil_append, List.cons_append] at hread ⊢
      rw [hread]
      by_contra hsome
      obtain ⟨⟨literals, rest'⟩, hend⟩ := Option.ne_none_iff_exists'.1 hsome
      obtain ⟨-, ⟨hcoerced, -⟩ | ⟨-, -, rfl, hhead⟩⟩ := arrayEnd_eq_some hend
      · obtain ⟨e, es, rfl⟩ := List.exists_cons_of_ne_nil hne
        have := hcoerced _ List.mem_cons_self
        cases this
      · exact hhead t ht hvalue

theorem Spells.getLast? {items : List Item} {us : List SqlToken} (h : Spells items us) {item : Item}
    (hitem : item ∈ items.getLast?) : ∃ t ∈ us.getLast?, item.Matches t := by
  have hreverse : Spells items.reverse us.reverse := List.forall₂_reverse_iff.2 h
  rw [← List.head?_reverse] at hitem ⊢
  generalize items.reverse = items' at hreverse hitem
  generalize us.reverse = us' at hreverse
  cases hreverse with
  | nil => cases hitem
  | cons ht hus =>
    obtain rfl := Option.some.inj hitem
    exact ⟨_, rfl, ht⟩

theorem SpellsArray.getLast? {form : ArrayForm} {literals : List (List Char)} {us : List SqlToken}
    (h : SpellsArray form literals us) : ∃ t ∈ us.getLast?, (Item.mark "]").Matches t := by
  obtain ⟨es, hne, -, hspells⟩ := h
  refine hspells.getLast? ?_
  rw [ArrayForm.items, List.getLast?_append, List.getLast?_cons, form.getLast?_bracketed hne]
  rfl

theorem Spells.exists_of_mem {items : List Item} {us : List SqlToken} (h : Spells items us) {t : SqlToken}
    (ht : t ∈ us) : ∃ item ∈ items, item.Matches t := by
  induction h with
  | nil => cases ht
  | cons hmatch hus ih =>
    obtain rfl | ht := List.mem_cons.1 ht
    · exact ⟨_, List.mem_cons_self, hmatch⟩
    · obtain ⟨item, hitem, hmatch⟩ := ih ht
      exact ⟨item, List.mem_cons_of_mem _ hitem, hmatch⟩

theorem Spells.literal_mem {items : List Item} {us : List SqlToken} (h : Spells items us) {text : List Char}
    (hmem : Item.literal text ∈ items) : ∃ t ∈ us, t.kind = .literal ∧ t.text = text := by
  induction h with
  | nil => cases hmem
  | cons ht hus ih =>
    obtain rfl | hmem := List.mem_cons.1 hmem
    · exact ⟨_, List.mem_cons_self, ht⟩
    · obtain ⟨t, ht, htext⟩ := ih hmem
      exact ⟨t, List.mem_cons_of_mem _ ht, htext⟩

theorem literal_mem_elementsItems {es : List Element} {e : Element} (he : e ∈ es) :
    Item.literal e.literal ∈ elementsItems es := by
  have hitems : Item.literal e.literal ∈ e.items := by simp [Element.items]
  induction es with
  | nil => cases he
  | cons e' es ih =>
    cases es with
    | nil =>
      obtain rfl := List.mem_singleton.1 he
      exact List.mem_append_left _ hitems
    | cons e'' es =>
      rw [elementsItems_cons e' (List.cons_ne_nil _ _)]
      obtain rfl | he := List.mem_cons.1 he
      · exact List.mem_append_left _ hitems
      · exact List.mem_append_right _ (List.mem_cons_of_mem _ (ih he))

/-- The literals of an array are among its tokens. -/
theorem SpellsArray.literal_mem {form : ArrayForm} {literals : List (List Char)} {us : List SqlToken}
    (h : SpellsArray form literals us) {literal : List Char} (hmem : literal ∈ literals) :
    ∃ t ∈ us, t.kind = .literal ∧ t.text = literal := by
  obtain ⟨es, -, rfl, hspells⟩ := h
  refine hspells.literal_mem (List.mem_append_right _ (List.mem_cons_of_mem _ ?_))
  have hitem : ∀ b, Item.literal literal ∈ elementsItems (uniform b es) := by
    intro b
    obtain ⟨e, he, rfl⟩ := List.mem_map.1 ((uniform_literals b es).symm ▸ hmem)
    exact literal_mem_elementsItems he
  cases form with
  | whole wrapped => exact List.mem_cons_of_mem _ (List.mem_append_left _ (hitem false))
  | elementwise => exact List.mem_cons_of_mem _ (hitem true)

end CivicLoop.Operations
