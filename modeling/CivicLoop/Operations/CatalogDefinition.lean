import CivicLoop.Operations.LiteralArrays

/-!
# Definitions of the catalog in canonical form

Before a restored database is compared with its source, each definition is brought into canonical form: an array of
string literals is written with every element coerced to text, in whatever way a server has written it. Everything
else stays as it is. An array that is not of this kind is passed over together with its brackets.

What is left of a definition is scanned with the token before it, since a parenthesis before the word may belong to
a call. A canonical array may be followed by another cast, and is then passed over at the next scan, which leaves
the same text.

## Main definitions

* `normalizeCatalogDefinition` : the canonical form.
* `Replaces` : a text is a list of tokens in which arrays have been replaced.
* `ArraysClosed` : the end of a list of tokens is not inside the brackets of an array.

## Main results

* `normalizeCatalogDefinition_canonicalForm` : only arrays are replaced, a second time nothing is, and all the
  spellings of one array have one canonical form.

## References

Source: `scripts/validate_postgres_restore.py`, lines 235–394, and
`tests/operations/test_postgres_restore_contract.py`, lines 125–215.
-/

namespace CivicLoop.Operations

/-! ### The scan -/

/-- `array_start`. -/
def arrayStart (t : SqlToken) : Bool := t.kind == .word && t.value == "array".toList

/-- Whether a parenthesis after this token may belong to an array. -/
def allowedBefore : Option SqlToken → Bool
  | none => true
  | some t =>
    t.kind == .symbol &&
      ["(", "[", ",", "=", "<", ">", "+", "-", "*", "/", "!", "|", "&"].any fun value => t.value == value.toList

/-- `wrapped_start`. -/
def wrappedStart (previous : Option SqlToken) (t : SqlToken) (ts : List SqlToken) : Bool :=
  t.value == "(".toList && ts.head?.any arrayStart && allowedBefore previous

/-- The tokens up to the bracket that closes, at a depth, and the ones after it. -/
def skipBrackets : ℕ → List SqlToken → List SqlToken × List SqlToken
  | _, [] => ([], [])
  | depth, t :: ts =>
    let depth := depth + (if t.value = "[".toList then 1 else 0) - (if t.value = "]".toList then 1 else 0)
    if depth = 0 then ([t], ts)
    else
      let (skipped, rest) := skipBrackets depth ts
      (t :: skipped, rest)

/-- `canonical`. -/
def canonical (literals : List (List Char)) : List Char :=
  "ARRAY[".toList ++ ",".toList.intercalate (literals.map fun value => value ++ "::character varying::text".toList) ++
    "]".toList

/-- The white space before the first token. -/
def gapBefore (ts : List SqlToken) : List Char := ts.head?.elim [] SqlToken.before

/-- A piece of a definition: tokens that stay, or an array. -/
inductive Segment
  | copied (ts : List SqlToken)
  | array (region : List SqlToken) (literals : List (List Char))

def Segment.tokens : Segment → List SqlToken
  | .copied ts => ts
  | .array region _ => region

def Segment.rendered : Segment → List Char
  | .copied ts => sourceText ts
  | .array region literals => gapBefore region ++ canonical literals

/-- The piece that starts with a token, and the tokens after it. -/
def nextSegment (previous : Option SqlToken) (t : SqlToken) (ts : List SqlToken) : Segment × List SqlToken :=
  if arrayStart t = true ∨ wrappedStart previous t ts = true then
    match literalTextArray (t :: ts) with
    | some (literals, rest) => (.array ((t :: ts).take ((t :: ts).length - rest.length)) literals, rest)
    | none =>
      -- the parenthesis may belong to a call, and the array after it is read on its own
      if wrappedStart previous t ts = true then (.copied [t], ts)
      -- the brackets of an array of another kind
      else if (ts.head?.any fun bracket => bracket.value == "[".toList) = true then
        let (skipped, rest) := skipBrackets 0 ts
        (.copied (t :: skipped), rest)
      else (.copied [t], ts)
  else (.copied [t], ts)

/-- The pieces of what is left of a definition, of which at most `fuel` are cut. -/
def segments : ℕ → Option SqlToken → List SqlToken → List Segment
  | 0, _, _ => []
  | _, _, [] => []
  | fuel + 1, previous, t :: ts =>
    let (segment, rest) := nextSegment previous t ts
    segment :: segments fuel segment.tokens.getLast? rest

def scan (previous : Option SqlToken) (ts : List SqlToken) : List Segment := segments ts.length previous ts

/-- `normalize_catalog_definition`. -/
def normalizeCatalogDefinition (definition : List Char) : List Char :=
  match sqlTokens definition with
  | none => definition
  | some (ts, trailing) => (scan none ts).flatMap Segment.rendered ++ trailing

/-! ### One piece -/

theorem skipBrackets_append {depth : ℕ} {ts skipped rest : List SqlToken}
    (h : skipBrackets depth ts = (skipped, rest)) :
    ts = skipped ++ rest ∧
      ∀ rest', (rest = [] → rest' = []) → skipBrackets depth (skipped ++ rest') = (skipped, rest') := by
  induction ts generalizing depth skipped with
  | nil =>
    obtain ⟨rfl, rfl⟩ := Prod.mk.inj h
    exact ⟨rfl, fun rest' hrest' => by rw [hrest' rfl]; rfl⟩
  | cons t ts ih =>
    unfold skipBrackets at h
    by_cases hdepth : depth + (if t.value = "[".toList then 1 else 0) - (if t.value = "]".toList then 1 else 0) = 0
    · rw [if_pos hdepth] at h
      obtain ⟨rfl, rfl⟩ := Prod.mk.inj h
      refine ⟨rfl, fun rest' _ => ?_⟩
      show skipBrackets depth (t :: rest') = _
      unfold skipBrackets
      rw [if_pos hdepth]
    · rw [if_neg hdepth] at h
      obtain ⟨rfl, rfl⟩ := Prod.mk.inj h
      obtain ⟨heq, hmore⟩ := ih rfl
      refine ⟨congrArg (t :: ·) heq, fun rest' hrest' => ?_⟩
      rw [List.cons_append, skipBrackets.eq_2]
      dsimp only
      rw [if_neg hdepth, hmore rest' hrest']

/-- What the piece that starts with a token is. -/
inductive Piece (previous : Option SqlToken) (t : SqlToken) (ts : List SqlToken) : Segment → List SqlToken → Prop
  | array {form region literals rest} (hstart : arrayStart t = true ∨ wrappedStart previous t ts = true)
      (htokens : t :: ts = region ++ rest) (hspells : SpellsArray form literals region)
      (hnext : form = .elementwise → ∀ t ∈ rest.head?, t.value ≠ "::".toList) :
      Piece previous t ts (.array region literals) rest
  | paren (hstart : wrappedStart previous t ts = true) (hread : literalTextArray (t :: ts) = none) :
      Piece previous t ts (.copied [t]) ts
  | bracket {skipped rest} (hstart : arrayStart t = true) (hread : literalTextArray (t :: ts) = none)
      (hbracket : (ts.head?.any fun bracket => bracket.value == "[".toList) = true)
      (hskip : skipBrackets 0 ts = (skipped, rest)) : Piece previous t ts (.copied (t :: skipped)) rest
  | word (hstart : arrayStart t = true) (hread : literalTextArray (t :: ts) = none)
      (hbracket : (ts.head?.any fun bracket => bracket.value == "[".toList) = false) :
      Piece previous t ts (.copied [t]) ts
  | other (hstart : arrayStart t = false) (hwrapped : wrappedStart previous t ts = false) :
      Piece previous t ts (.copied [t]) ts

theorem not_wrappedStart {previous : Option SqlToken} {t : SqlToken} (h : arrayStart t = true) (ts : List SqlToken) :
    wrappedStart previous t ts = false := by
  simp only [arrayStart, Bool.and_eq_true, beq_iff_eq] at h
  simp only [wrappedStart, h.2, Bool.and_eq_false_iff]
  exact .inl (.inl (by decide))

theorem piece_nextSegment (previous : Option SqlToken) (t : SqlToken) (ts : List SqlToken) :
    Piece previous t ts (nextSegment previous t ts).1 (nextSegment previous t ts).2 := by
  unfold nextSegment
  by_cases hstart : arrayStart t = true ∨ wrappedStart previous t ts = true
  · rw [if_pos hstart]
    cases hread : literalTextArray (t :: ts) with
    | some result =>
      obtain ⟨literals, rest⟩ := result
      obtain ⟨form, us, htokens, hspells, hnext⟩ := literalTextArray_eq_some_iff.1 hread
      dsimp only
      rw [htokens, List.length_append, Nat.add_sub_cancel, List.take_left]
      exact .array hstart htokens hspells hnext
    | none =>
      dsimp only
      by_cases hwrapped : wrappedStart previous t ts = true
      · rw [if_pos hwrapped]
        exact .paren hwrapped hread
      · rw [if_neg hwrapped]
        by_cases hbracket : (ts.head?.any fun bracket => bracket.value == "[".toList) = true
        · rw [if_pos hbracket]
          exact .bracket (hstart.resolve_right hwrapped) hread hbracket rfl
        · rw [if_neg hbracket]
          exact .word (hstart.resolve_right hwrapped) hread (Bool.eq_false_of_not_eq_true hbracket)
  · rw [if_neg hstart]
    rw [not_or, Bool.not_eq_true, Bool.not_eq_true] at hstart
    exact .other hstart.1 hstart.2

/-- The piece that starts with a token is the only one. -/
theorem Piece.nextSegment {previous : Option SqlToken} {t : SqlToken} {ts rest : List SqlToken} {segment : Segment}
    (h : Piece previous t ts segment rest) : nextSegment previous t ts = (segment, rest) := by
  unfold Operations.nextSegment
  cases h with
  | array hstart htokens hspells hnext =>
    rw [if_pos hstart, literalTextArray_eq_some_iff.2 ⟨_, _, htokens, hspells, hnext⟩]
    simp only [htokens, List.length_append, Nat.add_sub_cancel, List.take_left]
  | paren hstart hread => simp only [if_pos (Or.inr hstart), hread, if_pos hstart]
  | bracket hstart hread hbracket hskip =>
    simp only [if_pos (Or.inl hstart), hread, not_wrappedStart hstart, Bool.false_eq_true, if_false, if_pos hbracket,
      hskip]
  | word hstart hread hbracket =>
    simp only [if_pos (Or.inl hstart), hread, not_wrappedStart hstart, hbracket, Bool.false_eq_true, if_false]
  | other hstart hwrapped => simp only [hstart, hwrapped, Bool.false_eq_true, or_self, if_false]

theorem Piece.tokens {previous : Option SqlToken} {t : SqlToken} {ts rest : List SqlToken} {segment : Segment}
    (h : Piece previous t ts segment rest) : t :: ts = segment.tokens ++ rest ∧ segment.tokens ≠ [] := by
  cases h with
  | array hstart htokens hspells hnext => exact ⟨htokens, hspells.ne_nil⟩
  | paren hstart hread => exact ⟨rfl, List.cons_ne_nil _ _⟩
  | bracket hstart hread hbracket hskip =>
    exact ⟨congrArg (t :: ·) (skipBrackets_append hskip).1, List.cons_ne_nil _ _⟩
  | word hstart hread hbracket => exact ⟨rfl, List.cons_ne_nil _ _⟩
  | other hstart hwrapped => exact ⟨rfl, List.cons_ne_nil _ _⟩

theorem Piece.length_le {previous : Option SqlToken} {t : SqlToken} {ts rest : List SqlToken} {segment : Segment}
    (h : Piece previous t ts segment rest) : rest.length ≤ ts.length := by
  obtain ⟨htokens, hne⟩ := h.tokens
  have hlength := congrArg List.length htokens
  have hpos := List.length_pos_iff.2 hne
  rw [List.length_cons, List.length_append] at hlength
  omega

/-! ### The scan, piece by piece -/

theorem segments_succ (fuel : ℕ) (previous : Option SqlToken) (t : SqlToken) (ts : List SqlToken) :
    segments (fuel + 1) previous (t :: ts) =
      (nextSegment previous t ts).1 ::
        segments fuel (nextSegment previous t ts).1.tokens.getLast? (nextSegment previous t ts).2 := rfl

theorem segments_of_le {fuel : ℕ} {previous : Option SqlToken} {ts : List SqlToken} (h : ts.length ≤ fuel) :
    segments fuel previous ts = scan previous ts := by
  induction fuel using Nat.strong_induction_on generalizing previous ts with
  | _ fuel ih =>
    cases ts with
    | nil => cases fuel <;> rfl
    | cons t ts =>
      obtain ⟨fuel, rfl⟩ := Nat.exists_eq_succ_of_ne_zero (by simp at h; omega : fuel ≠ 0)
      have hle := (piece_nextSegment previous t ts).length_le
      have hts : ts.length ≤ fuel := Nat.succ_le_succ_iff.1 h
      rw [scan, List.length_cons, segments_succ, segments_succ, ih fuel (Nat.lt_succ_self fuel) (hle.trans hts),
        ih ts.length (Nat.lt_succ_of_le hts) hle]

theorem scan_cons {previous : Option SqlToken} {t : SqlToken} {ts rest : List SqlToken} {segment : Segment}
    (h : Piece previous t ts segment rest) :
    scan previous (t :: ts) = segment :: scan segment.tokens.getLast? rest := by
  rw [← segments_of_le h.length_le, scan, List.length_cons, segments_succ, h.nextSegment]

/-- The pieces of the rest of a definition, one by one. -/
inductive Scans : Option SqlToken → List SqlToken → List Segment → Prop
  | nil {previous} : Scans previous [] []
  | cons {previous t ts segment rest segments} (h : Piece previous t ts segment rest)
      (hrest : Scans segment.tokens.getLast? rest segments) : Scans previous (t :: ts) (segment :: segments)

theorem scans_scan (previous : Option SqlToken) (ts : List SqlToken) : Scans previous ts (scan previous ts) := by
  induction hn : ts.length using Nat.strong_induction_on generalizing previous ts with
  | _ n ih =>
    cases ts with
    | nil => exact .nil
    | cons t ts =>
      have hpiece := piece_nextSegment previous t ts
      have hle := hpiece.length_le
      rw [List.length_cons] at hn
      rw [scan_cons hpiece]
      exact .cons hpiece (ih _ (by omega) _ _ rfl)

/-! ### Canonical arrays -/

def canonicalElement (literal : List Char) : List SqlToken :=
  [⟨.literal, [], literal⟩, ⟨.symbol, [], "::".toList⟩, ⟨.word, [], "character".toList⟩,
    ⟨.word, [' '], "varying".toList⟩, ⟨.symbol, [], "::".toList⟩, ⟨.word, [], "text".toList⟩]

def canonicalElements : List (List Char) → List SqlToken
  | [] => []
  | [literal] => canonicalElement literal ++ [⟨.symbol, [], "]".toList⟩]
  | literal :: literals => canonicalElement literal ++ ⟨.symbol, [], ",".toList⟩ :: canonicalElements literals

/-- The tokens of a canonical array after white space. -/
def canonicalTokens (gap : List Char) (literals : List (List Char)) : List SqlToken :=
  ⟨.word, gap, "ARRAY".toList⟩ :: ⟨.symbol, [], "[".toList⟩ :: canonicalElements literals

theorem canonicalElements_cons (literal : List Char) {literals : List (List Char)} (hne : literals ≠ []) :
    canonicalElements (literal :: literals) =
      canonicalElement literal ++ ⟨.symbol, [], ",".toList⟩ :: canonicalElements literals := by
  cases literals with
  | nil => exact absurd rfl hne
  | cons literal' literals => rfl

theorem sourceText_canonicalElement (literal : List Char) :
    sourceText (canonicalElement literal) = literal ++ "::character varying::text".toList := by
  simp [canonicalElement, sourceText]

theorem sourceText_canonicalElements {literals : List (List Char)} (hne : literals ≠ []) :
    sourceText (canonicalElements literals) =
      ",".toList.intercalate (literals.map fun value => value ++ "::character varying::text".toList) ++
        "]".toList := by
  induction literals with
  | nil => exact absurd rfl hne
  | cons literal literals ih =>
    cases literals with
    | nil =>
      rw [canonicalElements, sourceText_append, sourceText_canonicalElement]
      simp [sourceText]
    | cons literal' literals =>
      rw [canonicalElements_cons literal (List.cons_ne_nil _ _), sourceText_append, sourceText_cons,
        sourceText_canonicalElement, ih (List.cons_ne_nil _ _)]
      simp [List.intercalate_cons_cons]

theorem sourceText_canonicalTokens (gap : List Char) {literals : List (List Char)} (hne : literals ≠ []) :
    sourceText (canonicalTokens gap literals) = gap ++ canonical literals := by
  rw [canonicalTokens, sourceText_cons, sourceText_cons, sourceText_canonicalElements hne, canonical]
  simp

theorem spells_canonicalElements (literals : List (List Char)) :
    Spells (elementsItems (uniform true (literals.map fun literal => (literal, false))))
      (canonicalElements literals) := by
  induction literals with
  | nil => exact .nil
  | cons literal literals ih =>
    have helement : Spells (Element.items ⟨literal, false, true⟩) (canonicalElement literal) :=
      .cons ⟨rfl, rfl⟩ (.cons ⟨.inr rfl, rfl⟩ (.cons ⟨.inl rfl, rfl⟩ (.cons ⟨.inl rfl, rfl⟩
        (.cons ⟨.inr rfl, rfl⟩ (.cons ⟨.inl rfl, rfl⟩ .nil)))))
    cases literals with
    | nil => exact helement.append (.cons ⟨.inr rfl, rfl⟩ .nil)
    | cons literal' literals => exact helement.append (.cons ⟨.inr rfl, rfl⟩ ih)

theorem spellsArray_canonicalTokens (gap : List Char) {literals : List (List Char)} (hne : literals ≠ []) :
    SpellsArray .elementwise literals (canonicalTokens gap literals) := by
  refine ⟨literals.map fun literal => (literal, false), by simpa using hne, ?_, ?_⟩
  · rw [List.map_map]
    exact (List.map_id literals).symm
  · exact .cons ⟨.inl rfl, rfl⟩ (.cons ⟨.inr rfl, rfl⟩ (spells_canonicalElements literals))

theorem getLast?_canonicalElements {literals : List (List Char)} (hne : literals ≠ []) :
    (canonicalElements literals).getLast? = some ⟨.symbol, [], "]".toList⟩ := by
  induction literals with
  | nil => exact absurd rfl hne
  | cons literal literals ih =>
    cases literals with
    | nil => rfl
    | cons literal' literals =>
      rw [canonicalElements_cons literal (List.cons_ne_nil _ _), List.getLast?_append, List.getLast?_cons,
        ih (List.cons_ne_nil _ _)]
      rfl

/-- The brackets of a canonical array close at its end. -/
theorem skipBrackets_canonicalElements {literals : List (List Char)} (hne : literals ≠ [])
    (hquote : ∀ literal ∈ literals, literal.head? = some '\'') (rest : List SqlToken) :
    skipBrackets 1 (canonicalElements literals ++ rest) = (canonicalElements literals, rest) := by
  induction literals with
  | nil => exact absurd rfl hne
  | cons literal literals ih =>
    obtain ⟨cs, rfl⟩ : ∃ cs, literal = '\'' :: cs := List.head?_eq_some_iff.1 (hquote literal List.mem_cons_self)
    cases literals with
    | nil => simp [canonicalElements, canonicalElement, skipBrackets, SqlToken.value]
    | cons literal' literals =>
      have hrest := ih (List.cons_ne_nil _ _) fun x hx => hquote x (List.mem_cons_of_mem _ hx)
      rw [canonicalElements_cons _ (List.cons_ne_nil _ _)]
      simp [canonicalElement, skipBrackets, SqlToken.value, hrest]

/-! ### Arrays replaced by canonical ones -/

/-- Tokens in which arrays have been replaced, after a token. -/
inductive Rewritten : Option SqlToken → List SqlToken → List SqlToken → Prop
  | nil {previous} : Rewritten previous [] []
  | copied {previous} {t : SqlToken} {ts ts'} (h : Rewritten (some t) ts ts') :
      Rewritten previous (t :: ts) (t :: ts')
  | array {previous form literals region ts ts'} (hspells : SpellsArray form literals region)
      (hhead : ∀ t ∈ region.head?, arrayStart t = true ∨ t.value = "(".toList ∧ allowedBefore previous = true)
      (hnext : form = .elementwise → ∀ t ∈ ts.head?, t.value ≠ "::".toList)
      (h : Rewritten region.getLast? ts ts') :
      Rewritten previous (region ++ ts) (canonicalTokens (gapBefore region) literals ++ ts')

theorem Rewritten.append {previous : Option SqlToken} {ts ts' : List SqlToken} (us : List SqlToken)
    (h : Rewritten (us.getLast?.or previous) ts ts') : Rewritten previous (us ++ ts) (us ++ ts') := by
  induction us generalizing previous with
  | nil => exact h
  | cons u us ih =>
    refine .copied (ih ?_)
    rw [List.getLast?_cons] at h
    cases hlast : us.getLast? with
    | none => rw [hlast] at h; exact h
    | some v => rw [hlast] at h; exact h

def Segment.rewritten : Segment → List SqlToken
  | .copied ts => ts
  | .array region literals => canonicalTokens (gapBefore region) literals

theorem SpellsArray.literals_ne_nil {form : ArrayForm} {literals : List (List Char)} {us : List SqlToken}
    (h : SpellsArray form literals us) : literals ≠ [] := by
  obtain ⟨es, hne, rfl, -⟩ := h
  simpa using hne

/-- An array is replaced; the other pieces stay. -/
theorem Piece.rewritten {previous : Option SqlToken} {t : SqlToken} {ts rest ts' : List SqlToken} {segment : Segment}
    (h : Piece previous t ts segment rest) (hrest : Rewritten segment.tokens.getLast? rest ts') :
    Rewritten previous (t :: ts) (segment.rewritten ++ ts') := by
  cases h with
  | array hstart htokens hspells hnext =>
    rw [htokens]
    refine .array hspells (fun x hx => ?_) hnext hrest
    obtain rfl : t = x := by
      obtain ⟨y, ys, rfl⟩ := List.exists_cons_of_ne_nil hspells.ne_nil
      obtain rfl := Option.some.inj hx
      exact (List.cons.inj htokens).1
    refine hstart.imp id fun hwrapped => ?_
    simp only [wrappedStart, Bool.and_eq_true, beq_iff_eq] at hwrapped
    exact ⟨hwrapped.1.1, hwrapped.2⟩
  | paren hstart hread => exact .copied hrest
  | bracket hstart hread hbracket hskip =>
    rw [(skipBrackets_append hskip).1]
    refine .append (t :: _) ?_
    rw [Segment.tokens] at hrest
    rwa [List.getLast?_cons, Option.some_or, ← List.getLast?_cons]
  | word hstart hread hbracket => exact .copied hrest
  | other hstart hwrapped => exact .copied hrest

theorem Scans.rewritten {previous : Option SqlToken} {ts : List SqlToken} {segments : List Segment}
    (h : Scans previous ts segments) : Rewritten previous ts (segments.flatMap Segment.rewritten) := by
  induction h with
  | nil => exact .nil
  | cons h hrest ih => exact h.rewritten ih

theorem Piece.rendered {previous : Option SqlToken} {t : SqlToken} {ts rest : List SqlToken} {segment : Segment}
    (h : Piece previous t ts segment rest) : segment.rendered = sourceText segment.rewritten := by
  cases h with
  | array hstart htokens hspells hnext => exact (sourceText_canonicalTokens _ hspells.literals_ne_nil).symm
  | paren hstart hread => rfl
  | bracket hstart hread hbracket hskip => rfl
  | word hstart hread hbracket => rfl
  | other hstart hwrapped => rfl

theorem Scans.rendered {previous : Option SqlToken} {ts : List SqlToken} {segments : List Segment}
    (h : Scans previous ts segments) :
    segments.flatMap Segment.rendered = sourceText (segments.flatMap Segment.rewritten) := by
  induction h with
  | nil => rfl
  | cons h hrest ih => rw [List.flatMap_cons, List.flatMap_cons, sourceText_append, ← ih, h.rendered]

/-- Words, symbols and literals that are read after replacement, without the word of an array, were there before. -/
theorem Rewritten.spells {previous : Option SqlToken} {ts us rest : List SqlToken}
    (h : Rewritten previous ts (us ++ rest)) {items : List Item} (hspells : Spells items us)
    (hitems : Item.mark "array" ∉ items) : ∃ rest' previous', ts = us ++ rest' ∧ Rewritten previous' rest' rest := by
  induction hspells generalizing previous ts with
  | nil => exact ⟨ts, previous, rfl, h⟩
  | @cons item t items us ht hus ih =>
    rw [List.mem_cons, not_or] at hitems
    generalize hts' : t :: us ++ rest = ts' at h
    cases h with
    | nil => cases hts'
    | copied h =>
      obtain ⟨rfl, rfl⟩ := List.cons.inj hts'
      obtain ⟨rest', previous', rfl, hrest⟩ := ih h hitems.2
      exact ⟨rest', previous', rfl, hrest⟩
    | array hspells hhead hnext h =>
      obtain ⟨rfl, -⟩ := List.cons.inj hts'
      exact absurd ⟨.inl rfl, rfl⟩ (Item.not_array ht fun heq => hitems.1 heq.symm)

/-- A cast that is next after replacement was next before. -/
theorem Rewritten.head_ne {previous : Option SqlToken} {ts ts' : List SqlToken} (h : Rewritten previous ts ts')
    {value : List Char} (hvalue : value ≠ "array".toList) (hparen : value ≠ "(".toList)
    (hne : ∀ t ∈ ts'.head?, t.value ≠ value) : ∀ t ∈ ts.head?, t.value ≠ value := by
  cases h with
  | nil => exact hne
  | copied h => exact hne
  | array hspells hhead hnext h =>
    intro t ht heq
    obtain ⟨y, ys, hregion⟩ := List.exists_cons_of_ne_nil hspells.ne_nil
    rw [hregion] at ht hhead
    obtain rfl := Option.some.inj ht
    obtain hstart | ⟨hopen, -⟩ := hhead y rfl
    · simp only [arrayStart, Bool.and_eq_true, beq_iff_eq] at hstart
      exact hvalue (heq.symm.trans hstart.2)
    · exact hparen (heq.symm.trans hopen)

/-- How an array can start: with the word, or with a parenthesis and the word. -/
inductive Starts : List SqlToken → Prop
  | word {t : SqlToken} (ht : (Item.mark "array").Matches t) : Starts [t]
  | paren {t word : SqlToken} (ht : t.value = "(".toList) (hword : (Item.mark "array").Matches word) :
      Starts [t, word]

/-- What is read after a start is the rest of a spelling. -/
theorem Starts.read {start ts rest : List SqlToken} (hstart : Starts start) {literals : List (List Char)}
    (h : literalTextArray (start ++ ts) = some (literals, rest)) :
    ∃ form us es, ts = us ++ rest ∧ SpellsArray form literals (start ++ us) ∧ es ≠ [] ∧
      Spells (ArrayForm.bracketed es form) us ∧
      (form = .elementwise → ∀ t ∈ rest.head?, t.value ≠ "::".toList) := by
  obtain ⟨form, us, htokens, hspells, hnext⟩ := literalTextArray_eq_some_iff.1 h
  obtain ⟨es, opening, word, us', rfl, hne, hopening, hword, hbracketed⟩ := hspells.split
  have hdiff : ∀ {t : SqlToken}, t.value = "(".toList → t.value = "array".toList → False := fun h h' => by
    rw [h] at h'
    exact absurd h' (by decide)
  have hstarts : start = opening ++ [word] ∧ ts = us' ++ rest := by
    cases hwrapped : form.wrapped with
    | false =>
      rw [hwrapped] at hopening
      cases hopening
      cases hstart with
      | word ht =>
        obtain ⟨rfl, rfl⟩ := List.cons.inj htokens
        exact ⟨rfl, rfl⟩
      | paren ht hword' =>
        obtain ⟨rfl, -⟩ := List.cons.inj htokens
        exact (hdiff ht hword.2).elim
    | true =>
      rw [hwrapped] at hopening
      cases hopening with
      | cons hp hnil =>
        cases hnil
        cases hstart with
        | word ht =>
          obtain ⟨rfl, -⟩ := List.cons.inj htokens
          exact (hdiff hp.2 ht.2).elim
        | paren ht hword' =>
          obtain ⟨rfl, htail⟩ := List.cons.inj htokens
          obtain ⟨rfl, rfl⟩ := List.cons.inj htail
          exact ⟨rfl, rfl⟩
  obtain ⟨rfl, rfl⟩ := hstarts
  refine ⟨form, us', es, rfl, ?_, hne, hbracketed, hnext⟩
  rwa [List.append_assoc]

/-- What is not read before replacement is not read after it. -/
theorem Rewritten.not_read {previous : Option SqlToken} {ts ts' : List SqlToken} (h : Rewritten previous ts ts')
    {start : List SqlToken} (hstart : Starts start) (hread : literalTextArray (start ++ ts) = none) :
    literalTextArray (start ++ ts') = none := by
  by_contra hsome
  obtain ⟨⟨literals, rest⟩, hread'⟩ := Option.ne_none_iff_exists'.1 hsome
  obtain ⟨form, us, es, rfl, hspells, -, hbracketed, hnext⟩ := hstart.read hread'
  obtain ⟨rest', previous', rfl, hrest⟩ := h.spells hbracketed (form.not_mem_bracketed es)
  have hread'' : literalTextArray (start ++ (us ++ rest')) = some (literals, rest') :=
    literalTextArray_eq_some_iff.2 ⟨form, start ++ us, (List.append_assoc _ _ _).symm, hspells,
      fun hform => hrest.head_ne (by decide) (by decide) (hnext hform)⟩
  rw [hread] at hread''
  cases hread''

/-! ### The second scan -/

theorem matches_of_arrayStart {t : SqlToken} (h : arrayStart t = true) : (Item.mark "array").Matches t := by
  simp only [arrayStart, Bool.and_eq_true, beq_iff_eq] at h
  exact ⟨.inl h.1, h.2⟩

theorem arrayStart_canonical (gap : List Char) : arrayStart ⟨.word, gap, "ARRAY".toList⟩ = true := by
  simp only [arrayStart, SqlToken.value]
  decide

theorem wrappedStart_iff {previous : Option SqlToken} {t : SqlToken} {ts : List SqlToken} :
    wrappedStart previous t ts = true ↔
      t.value = "(".toList ∧ (∃ word us, ts = word :: us ∧ arrayStart word = true) ∧ allowedBefore previous = true := by
  simp only [wrappedStart, Bool.and_eq_true, beq_iff_eq, and_assoc]
  refine and_congr_right fun _ => and_congr_left fun _ => ?_
  cases ts with
  | nil => simp
  | cons word us => simp

theorem Rewritten.eq_nil {previous : Option SqlToken} {ts' : List SqlToken} (h : Rewritten previous [] ts') :
    ts' = [] := by
  generalize hts : [] = ts at h
  cases h with
  | nil => rfl
  | copied h => cases hts
  | array hspells hhead hnext h => exact absurd (List.append_eq_nil_iff.1 hts.symm).1 hspells.ne_nil

/-- A bracket that is next after replacement was next before, and the other way round. -/
theorem Rewritten.head?_any_bracket {previous : Option SqlToken} {ts ts' : List SqlToken}
    (h : Rewritten previous ts ts') :
    (ts'.head?.any fun bracket => bracket.value == "[".toList) =
      ts.head?.any fun bracket => bracket.value == "[".toList := by
  cases h with
  | nil => rfl
  | copied h => rfl
  | array hspells hhead hnext h =>
    obtain ⟨y, ys, hregion⟩ := List.exists_cons_of_ne_nil hspells.ne_nil
    rw [hregion] at hhead
    have hy : y.value ≠ "[".toList := by
      obtain hstart | ⟨hopen, -⟩ := hhead y rfl
      · simp only [arrayStart, Bool.and_eq_true, beq_iff_eq] at hstart
        rw [hstart.2]
        decide
      · rw [hopen]
        decide
    rw [hregion]
    show (_ == _) = (y.value == _)
    rw [beq_eq_false_iff_ne.2 hy]
    rfl

/-- No array may start right after one. -/
theorem SpellsArray.allowedBefore_getLast? {form : ArrayForm} {literals : List (List Char)} {us : List SqlToken}
    (h : SpellsArray form literals us) : allowedBefore us.getLast? = false := by
  obtain ⟨t, ht, hclose⟩ := h.getLast?
  rw [Option.mem_def.1 ht, allowedBefore, hclose.2]
  exact Bool.and_eq_false_iff.2 (.inr (by decide))

theorem lex_literal {text : List Char} (h : lex text = some (.literal, text, [])) : text.head? = some '\'' := by
  cases text with
  | nil => cases h
  | cons c cs =>
    simp only [lex] at h
    split_ifs at h with hquote
    · rw [hquote]
      rfl
    · obtain ⟨r, -, hr⟩ := Option.map_eq_some_iff.1 h
      cases hr
    all_goals cases h

/-- What was a piece stays one when arrays after it have been replaced, and so does its replacement. -/
theorem Piece.again {previous previous' : Option SqlToken} {t : SqlToken} {ts rest rest' : List SqlToken}
    {segment : Segment} (h : Piece previous t ts segment rest) (hvalid : ∀ u ∈ t :: ts, u.Valid)
    (hprevious : allowedBefore previous' = allowedBefore previous)
    (hrest : Rewritten segment.tokens.getLast? rest rest') :
    ∃ t' us segment', segment.rewritten ++ rest' = t' :: us ∧ Piece previous' t' us segment' rest' ∧
      segment'.rendered = sourceText segment.rewritten ∧
      allowedBefore segment'.tokens.getLast? = allowedBefore segment.tokens.getLast? := by
  cases h with
  | @array form region literals _ hstart htokens hspells hnext =>
    have hne := hspells.literals_ne_nil
    have hcanonical := spellsArray_canonicalTokens (gapBefore region) hne
    by_cases hcast : ∀ u ∈ rest'.head?, u.value ≠ "::".toList
    · refine ⟨_, _, .array (canonicalTokens (gapBefore region) literals) literals, rfl,
        .array (.inl (arrayStart_canonical _)) rfl hcanonical fun _ => hcast,
        (sourceText_canonicalTokens _ hne).symm, ?_⟩
      exact hcanonical.allowedBefore_getLast?.trans hspells.allowedBefore_getLast?.symm
    · -- the array is not read before a cast, and its brackets are passed over
      simp only [not_forall, not_not] at hcast
      obtain ⟨u, hu, hvalue⟩ := hcast
      have hquote : ∀ literal ∈ literals, literal.head? = some '\'' := by
        intro literal hliteral
        obtain ⟨x, hx, hkind, rfl⟩ := hspells.literal_mem hliteral
        have hlex := (hvalid x (htokens ▸ List.mem_append_left _ hx)).lex
        rw [hkind] at hlex
        exact lex_literal hlex
      refine ⟨_, _, .copied (canonicalTokens (gapBefore region) literals), rfl,
        .bracket (arrayStart_canonical _) (hcanonical.not_read_cast hu hvalue) rfl ?_, rfl, ?_⟩
      · show skipBrackets 0 (⟨.symbol, [], "[".toList⟩ :: (canonicalElements literals ++ rest')) = _
        rw [skipBrackets.eq_2]
        exact congrArg (fun r : List SqlToken × List SqlToken => (_ :: r.1, r.2))
          (skipBrackets_canonicalElements hne hquote rest')
      · exact hcanonical.allowedBefore_getLast?.trans hspells.allowedBefore_getLast?.symm
  | paren hstart hread =>
    obtain ⟨hvalue, ⟨word, us, rfl, hword⟩, hallowed⟩ := wrappedStart_iff.1 hstart
    refine ⟨t, rest', .copied [t], rfl, ?_, rfl, rfl⟩
    generalize hts : word :: us = ts at hrest
    cases hrest with
    | nil => cases hts
    | copied hrest =>
      obtain ⟨rfl, rfl⟩ := List.cons.inj hts
      exact .paren (wrappedStart_iff.2 ⟨hvalue, ⟨_, _, rfl, hword⟩, hprevious.trans hallowed⟩)
        (hrest.not_read (.paren hvalue (matches_of_arrayStart hword)) hread)
    | @array _ form literals region _ _ hspells hhead hnext hrest =>
      have hcanonical := spellsArray_canonicalTokens (gapBefore region) hspells.literals_ne_nil
      exact .paren (wrappedStart_iff.2 ⟨hvalue, ⟨_, _, rfl, arrayStart_canonical _⟩, hprevious.trans hallowed⟩)
        (hcanonical.read_paren rfl hvalue _)
  | @bracket skipped _ hstart hread hbracket hskip =>
    obtain ⟨rfl, hskips⟩ := skipBrackets_append hskip
    rw [Segment.tokens] at hrest
    have hskipped : Rewritten (some t) (skipped ++ rest) (skipped ++ rest') := by
      refine .append skipped ?_
      rwa [Option.or_some, ← List.getLast?_cons]
    refine ⟨t, skipped ++ rest', .copied (t :: skipped), rfl,
      .bracket hstart (hskipped.not_read (.word (matches_of_arrayStart hstart)) hread) ?_
        (hskips rest' fun hnil => ?_), rfl, rfl⟩
    · rwa [hskipped.head?_any_bracket]
    · rw [hnil] at hrest
      exact hrest.eq_nil
  | word hstart hread hbracket =>
    refine ⟨t, rest', .copied [t], rfl,
      .word hstart (hrest.not_read (.word (matches_of_arrayStart hstart)) hread) ?_, rfl, rfl⟩
    rwa [hrest.head?_any_bracket]
  | other hstart hwrapped =>
    refine ⟨t, rest', .copied [t], rfl, ?_, rfl, rfl⟩
    by_cases hwrapped' : wrappedStart previous' t rest' = true
    · -- the word now comes after the parenthesis, in place of another one
      obtain ⟨hvalue, ⟨word, us, rfl, hword⟩, hallowed⟩ := wrappedStart_iff.1 hwrapped'
      generalize hts' : word :: us = ts' at hrest
      cases hrest with
      | nil => cases hts'
      | copied hrest =>
        obtain ⟨rfl, rfl⟩ := List.cons.inj hts'
        rw [wrappedStart_iff.2 ⟨hvalue, ⟨_, _, rfl, hword⟩, hprevious.symm.trans hallowed⟩] at hwrapped
        cases hwrapped
      | @array _ form literals region _ _ hspells hhead hnext hrest =>
        have hcanonical := spellsArray_canonicalTokens (gapBefore region) hspells.literals_ne_nil
        rw [hts'] at hwrapped'
        exact .paren hwrapped' (hcanonical.read_paren rfl hvalue _)
    · exact .other hstart (Bool.eq_false_of_not_eq_true hwrapped')

/-- A second scan changes nothing. -/
theorem Scans.again {previous : Option SqlToken} {ts : List SqlToken} {segments : List Segment}
    (h : Scans previous ts segments) (hvalid : ∀ t ∈ ts, t.Valid) {previous' : Option SqlToken}
    (hprevious : allowedBefore previous' = allowedBefore previous) :
    (scan previous' (segments.flatMap Segment.rewritten)).flatMap Segment.rendered =
      sourceText (segments.flatMap Segment.rewritten) := by
  induction h generalizing previous' with
  | nil => rfl
  | @cons previous t ts segment rest segments h hrest ih =>
    obtain ⟨t', us, segment', htokens, hpiece, hrendered, hlast⟩ := h.again hvalid hprevious hrest.rewritten
    have hvalid' : ∀ u ∈ rest, u.Valid := fun u hu => hvalid u (h.tokens.1 ▸ List.mem_append_right _ hu)
    rw [List.flatMap_cons, htokens, scan_cons hpiece, List.flatMap_cons, ih hvalid' hlast, hrendered, ← htokens,
      sourceText_append]

/-! ### The tokens of a canonical form -/

theorem SqlToken.Valid.text_ne_nil {t : SqlToken} (h : t.Valid) : t.text ≠ [] := (lex_eq_some h.lex).2.1

theorem head?_sourceText_cons {t : SqlToken} (ht : t.text ≠ []) (ts : List SqlToken) (cs : List Char) :
    (sourceText (t :: ts) ++ cs).head? = (t.before ++ t.text).head? := by
  obtain ⟨c, text, htext⟩ := List.exists_cons_of_ne_nil ht
  rw [sourceText_cons, htext]
  cases t.before with
  | nil => rfl
  | cons x xs => rfl

theorem isWordChar_of_toLower {c : Char} (h : c.toLower = 'a') : isWordChar c = true := by
  by_cases hupper : c.isUpper = true
  · simp [isWordChar, Char.isAlphanum, Char.isAlpha, hupper]
  · have hsame : c.toLower = c := by
      refine dif_neg fun hbounds => hupper ?_
      simp only [Char.isUpper, decide_eq_true_eq]
      exact hbounds
    rw [← hsame, h]
    rfl

theorem isWordChar_of_arrayStart {t : SqlToken} (h : arrayStart t = true) {c : Char} (hc : c ∈ t.text.head?) :
    isWordChar c = true := by
  simp only [arrayStart, Bool.and_eq_true, beq_iff_eq] at h
  rw [SqlToken.value, if_pos h.1] at h
  cases htext : t.text with
  | nil =>
    rw [htext] at hc
    cases hc
  | cons x xs =>
    rw [htext] at hc h
    obtain rfl := Option.some.inj hc
    exact isWordChar_of_toLower (List.cons.inj h.2).1

/-- The word in capitals may come wherever an array starts. -/
theorem mayFollow_array {p t : SqlToken} {c : Char} (hc : c ∈ t.text.head?)
    (ht : arrayStart t = true ∨ t.value = "(".toList ∧ allowedBefore (some p) = true)
    (h : mayFollow p.kind p.text c = true) : mayFollow p.kind p.text 'A' = true := by
  cases hkind : p.kind with
  | literal => rfl
  | quoted => rfl
  | symbol => simp [mayFollow]
  | word =>
    obtain hstart | ⟨-, hallowed⟩ := ht
    · rw [hkind, mayFollow, isWordChar_of_arrayStart hstart hc] at h
      cases h
    · rw [allowedBefore, hkind] at hallowed
      cases hallowed

theorem ends_cons {kind : TokenKind} {text : List Char} {t : SqlToken} (ht : t.Valid) {c : Char}
    (hc : (t.before ++ t.text).head? = some c) (h : mayFollow kind text c = true) (ts : List SqlToken)
    (cs : List Char) : Ends kind text (sourceText (t :: ts) ++ cs) := by
  intro x hx
  rw [head?_sourceText_cons ht.text_ne_nil, hc] at hx
  obtain rfl := Option.some.inj hx
  exact h

/-- A symbol that no other one starts with may be followed by everything. -/
theorem ends_symbol {c : Char} (hc : c ≠ ':' ∧ c ≠ '-' ∧ c ≠ '/') (rest : List Char) : Ends .symbol [c] rest := by
  intro x _
  simp [mayFollow, hc]

theorem isGap_nil : IsGap [] := fun _ hc => absurd hc List.not_mem_nil

theorem valid_of_lex {kind : TokenKind} {before text : List Char} (hbefore : IsGap before)
    (hlex : lex text = some (kind, text, [])) (hhead : (text.head?.all fun c => !isSpace c) = true) :
    SqlToken.Valid ⟨kind, before, text⟩ := by
  refine ⟨hbefore, fun c hc => ?_, hlex⟩
  rw [Option.mem_def.1 hc] at hhead
  simpa using hhead

theorem lexes_canonicalElement {literal : List Char} (hliteral : lex literal = some (.literal, literal, []))
    {c : Char} (hc : c = ',' ∨ c = ']') {ts : List SqlToken} {trailing : List Char}
    (h : Lexes (sourceText (⟨.symbol, [], [c]⟩ :: ts) ++ trailing) (⟨.symbol, [], [c]⟩ :: ts) trailing) :
    Lexes (sourceText (canonicalElement literal ++ ⟨.symbol, [], [c]⟩ :: ts) ++ trailing)
      (canonicalElement literal ++ ⟨.symbol, [], [c]⟩ :: ts) trailing := by
  have hspace : IsGap [' '] := fun x hx => by
    obtain rfl := List.mem_singleton.1 hx
    rfl
  have hcolons : SqlToken.Valid ⟨.symbol, [], "::".toList⟩ := valid_of_lex isGap_nil (by decide) (by decide)
  have hcharacter : SqlToken.Valid ⟨.word, [], "character".toList⟩ := valid_of_lex isGap_nil (by decide) (by decide)
  have hvarying : SqlToken.Valid ⟨.word, [' '], "varying".toList⟩ := valid_of_lex hspace (by decide) (by decide)
  have htext : SqlToken.Valid ⟨.word, [], "text".toList⟩ := valid_of_lex isGap_nil (by decide) (by decide)
  have hfirst := valid_of_lex isGap_nil hliteral (by rw [lex_literal hliteral]; rfl)
  have hnext := (lexes_cons_iff.1 h).1
  refine lexes_cons_iff.2 ⟨hfirst, ends_cons hcolons rfl rfl _ _, ?_⟩
  refine lexes_cons_iff.2 ⟨hcolons, ends_cons hcharacter rfl rfl _ _, ?_⟩
  refine lexes_cons_iff.2 ⟨hcharacter, ends_cons hvarying rfl rfl _ _, ?_⟩
  refine lexes_cons_iff.2 ⟨hvarying, ends_cons hcolons rfl rfl _ _, ?_⟩
  refine lexes_cons_iff.2 ⟨hcolons, ends_cons htext rfl rfl _ _, ?_⟩
  refine lexes_cons_iff.2 ⟨htext, ends_cons hnext rfl ?_ _ _, h⟩
  obtain rfl | rfl := hc <;> rfl

theorem lexes_symbol {c : Char} (hc : c ≠ ':' ∧ c ≠ '-' ∧ c ≠ '/') (hspace : isSpace c = false)
    (hlex : lex [c] = some (.symbol, [c], [])) {ts : List SqlToken} {trailing : List Char}
    (h : Lexes (sourceText ts ++ trailing) ts trailing) :
    Lexes (sourceText (⟨.symbol, [], [c]⟩ :: ts) ++ trailing) (⟨.symbol, [], [c]⟩ :: ts) trailing :=
  lexes_cons_iff.2 ⟨valid_of_lex isGap_nil hlex (by simp [hspace]), ends_symbol hc _, h⟩

theorem lexes_canonicalElements {literals : List (List Char)} (hne : literals ≠ [])
    (hliterals : ∀ literal ∈ literals, lex literal = some (.literal, literal, [])) {ts : List SqlToken}
    {trailing : List Char} (h : Lexes (sourceText ts ++ trailing) ts trailing) :
    Lexes (sourceText (canonicalElements literals ++ ts) ++ trailing) (canonicalElements literals ++ ts) trailing := by
  induction literals with
  | nil => exact absurd rfl hne
  | cons literal literals ih =>
    have hliteral := hliterals literal List.mem_cons_self
    cases literals with
    | nil =>
      rw [canonicalElements, List.append_assoc]
      exact lexes_canonicalElement hliteral (.inr rfl) (lexes_symbol (by decide) rfl (by decide) h)
    | cons literal' literals =>
      rw [canonicalElements_cons literal (List.cons_ne_nil _ _), List.append_assoc, List.cons_append]
      exact lexes_canonicalElement hliteral (.inl rfl) (lexes_symbol (by decide) rfl (by decide)
        (ih (List.cons_ne_nil _ _) fun x hx => hliterals x (List.mem_cons_of_mem _ hx)))

theorem lexes_canonicalTokens {gap : List Char} (hgap : IsGap gap) {literals : List (List Char)}
    (hne : literals ≠ []) (hliterals : ∀ literal ∈ literals, lex literal = some (.literal, literal, []))
    {ts : List SqlToken} {trailing : List Char} (h : Lexes (sourceText ts ++ trailing) ts trailing) :
    Lexes (sourceText (canonicalTokens gap literals ++ ts) ++ trailing) (canonicalTokens gap literals ++ ts)
      trailing := by
  have hword : SqlToken.Valid ⟨.word, gap, "ARRAY".toList⟩ := valid_of_lex hgap (by decide) (by decide)
  have hbracket := lexes_symbol (c := '[') (by decide) rfl (by decide) (lexes_canonicalElements hne hliterals h)
  exact lexes_cons_iff.2 ⟨hword, ends_cons (lexes_cons_iff.1 hbracket).1 rfl rfl _ _, hbracket⟩

theorem lexes_append {us ts : List SqlToken} {trailing : List Char}
    (h : Lexes (sourceText (us ++ ts) ++ trailing) (us ++ ts) trailing) :
    (∀ t ∈ us, t.Valid) ∧ Lexes (sourceText ts ++ trailing) ts trailing := by
  induction us with
  | nil => exact ⟨fun t ht => absurd ht List.not_mem_nil, h⟩
  | cons u us ih =>
    obtain ⟨hu, -, hrest⟩ := lexes_cons_iff.1 h
    obtain ⟨hus, hts⟩ := ih hrest
    refine ⟨fun t ht => ?_, hts⟩
    obtain rfl | ht := List.mem_cons.1 ht
    · exact hu
    · exact hus t ht

/-- The replaced tokens are the tokens of their text, and the token before them is left as it is. -/
theorem Rewritten.lexes {previous : Option SqlToken} {ts ts' : List SqlToken} (h : Rewritten previous ts ts')
    {trailing : List Char} (hlexes : Lexes (sourceText ts ++ trailing) ts trailing) :
    Lexes (sourceText ts' ++ trailing) ts' trailing ∧
      ∀ p ∈ previous, Ends p.kind p.text (sourceText ts ++ trailing) →
        Ends p.kind p.text (sourceText ts' ++ trailing) := by
  induction h with
  | nil => exact ⟨hlexes, fun _ _ hends => hends⟩
  | @copied previous t ts ts' h ih =>
    obtain ⟨ht, hends, hts⟩ := lexes_cons_iff.1 hlexes
    obtain ⟨hts', hends'⟩ := ih hts
    refine ⟨lexes_cons_iff.2 ⟨ht, hends' t rfl hends, hts'⟩, fun p _ hp => ?_⟩
    rw [Ends, head?_sourceText_cons ht.text_ne_nil] at hp ⊢
    exact hp
  | @array previous form literals region ts ts' hspells hhead hnext h ih =>
    obtain ⟨hregion, hts⟩ := lexes_append hlexes
    have hliterals : ∀ literal ∈ literals, lex literal = some (.literal, literal, []) := by
      intro literal hliteral
      obtain ⟨x, hx, hkind, rfl⟩ := hspells.literal_mem hliteral
      rw [(hregion x hx).lex, hkind]
    obtain ⟨y, ys, rfl⟩ := List.exists_cons_of_ne_nil hspells.ne_nil
    have hy := hregion y List.mem_cons_self
    have hcanonical := lexes_canonicalTokens hy.before hspells.literals_ne_nil hliterals (ih hts).1
    refine ⟨hcanonical, fun p hp hends => ?_⟩
    obtain rfl := Option.mem_def.1 hp
    rw [Ends, List.cons_append, head?_sourceText_cons hy.text_ne_nil] at hends
    intro c hc
    rw [canonicalTokens, List.cons_append, head?_sourceText_cons (List.cons_ne_nil _ _)] at hc
    show mayFollow p.kind p.text c = true
    cases hbefore : y.before with
    | nil =>
      obtain ⟨x, xs, htext⟩ := List.exists_cons_of_ne_nil hy.text_ne_nil
      rw [hbefore, htext] at hends
      simp only [gapBefore, List.head?_cons, Option.elim_some, hbefore] at hc
      obtain rfl := Option.some.inj hc
      exact mayFollow_array (t := y) (by rw [htext]; rfl) (hhead y rfl) (hends x rfl)
    | cons x xs =>
      rw [hbefore] at hends
      simp only [gapBefore, List.head?_cons, Option.elim_some, hbefore] at hc
      exact hends c hc

/-- The canonical form of a definition that has tokens, and the tokens of it. -/
theorem normalizeCatalogDefinition_of_tokens {definition trailing : List Char} {ts : List SqlToken}
    (h : sqlTokens definition = some (ts, trailing)) :
    normalizeCatalogDefinition definition = sourceText ((scan none ts).flatMap Segment.rewritten) ++ trailing ∧
      sqlTokens (normalizeCatalogDefinition definition) =
        some ((scan none ts).flatMap Segment.rewritten, trailing) := by
  have hlexes := sqlTokens_eq_some_iff.1 h
  have hscans := scans_scan none ts
  have heq : normalizeCatalogDefinition definition =
      sourceText ((scan none ts).flatMap Segment.rewritten) ++ trailing := by
    rw [normalizeCatalogDefinition, h, ← hscans.rendered]
  refine ⟨heq, ?_⟩
  rw [heq, sqlTokens_eq_some_iff]
  refine (hscans.rewritten.lexes ?_).1
  rwa [← hlexes.sourceText]

theorem Lexes.valid {cs trailing : List Char} {ts : List SqlToken} (h : Lexes cs ts trailing) :
    ∀ t ∈ ts, t.Valid := by
  induction h with
  | done hgap => exact fun t ht => absurd ht List.not_mem_nil
  | token ht hends h ih =>
    intro u hu
    obtain rfl | hu := List.mem_cons.1 hu
    · exact ht
    · exact ih u hu

/-- A canonical form is its own canonical form. -/
theorem normalizeCatalogDefinition_again (definition : List Char) :
    normalizeCatalogDefinition (normalizeCatalogDefinition definition) = normalizeCatalogDefinition definition := by
  cases h : sqlTokens definition with
  | none =>
    have hsame : normalizeCatalogDefinition definition = definition := by rw [normalizeCatalogDefinition, h]
    rw [hsame, hsame]
  | some result =>
    obtain ⟨ts, trailing⟩ := result
    obtain ⟨heq, htokens⟩ := normalizeCatalogDefinition_of_tokens h
    have hagain : (scan none ((scan none ts).flatMap Segment.rewritten)).flatMap Segment.rendered = _ :=
      (scans_scan none ts).again (sqlTokens_eq_some_iff.1 h).valid rfl
    rw [normalizeCatalogDefinition.eq_def (normalizeCatalogDefinition definition), htokens]
    dsimp only
    rw [hagain, heq]

/-! ### What comes before an array -/

/-- Tokens that start with an array. -/
def Opening (w : List SqlToken) : Prop := ∃ form literals us rest, w = us ++ rest ∧ SpellsArray form literals us

theorem Opening.head {w : List SqlToken} (h : Opening w) :
    ∃ y ys, w = y :: ys ∧ ((Item.mark "array").Matches y ∨
      (Item.mark "(").Matches y ∧ ∃ z zs, ys = z :: zs ∧ (Item.mark "array").Matches z) := by
  obtain ⟨form, literals, us, rest, rfl, hspells⟩ := h
  obtain ⟨es, opening, word, us', rfl, -, hopening, hword, -⟩ := hspells.split
  cases hwrapped : form.wrapped with
  | false =>
    rw [hwrapped] at hopening
    cases hopening
    exact ⟨word, _, rfl, .inl hword⟩
  | true =>
    rw [hwrapped] at hopening
    cases hopening with
    | cons hparen hnil =>
      cases hnil
      exact ⟨_, _, rfl, .inr ⟨hparen, word, _, rfl, hword⟩⟩

theorem Opening.head_ne {w : List SqlToken} (h : Opening w) : ∀ t ∈ w.head?, t.value ≠ "::".toList := by
  obtain ⟨y, ys, rfl, hy | ⟨hy, -⟩⟩ := h.head
  all_goals
    intro t ht heq
    obtain rfl := Option.some.inj ht
    rw [hy.2] at heq
    exact absurd heq (by decide)

/-- An array after a parenthesis is not read together with it. -/
theorem Opening.read_paren {w : List SqlToken} (h : Opening w) {t : SqlToken} (ht : t.value = "(".toList)
    (hword : w.head?.any arrayStart = true) : literalTextArray (t :: w) = none := by
  obtain ⟨form, literals, us, rest, rfl, hspells⟩ := h
  refine hspells.read_paren ?_ ht rest
  obtain ⟨es, opening, word, us', rfl, -, hopening, -, -⟩ := hspells.split
  by_contra hwrapped
  rw [Bool.not_eq_false] at hwrapped
  rw [hwrapped] at hopening
  cases hopening with
  | @cons _ paren _ _ hparen hnil =>
    cases hnil
    have hstart : arrayStart paren = true := hword
    have hvalue := (matches_of_arrayStart hstart).2
    rw [hparen.2] at hvalue
    exact absurd hvalue (by decide)

/-- What an array is read of does not reach into the next array. -/
theorem Opening.spells {w us rest ts : List SqlToken} (hw : Opening w) (h : ts ++ w = us ++ rest) {items : List Item}
    (hspells : Spells items us) (hitems : Item.mark "array" ∉ items) (hlast : items.getLast? = some (.mark "]")) :
    ∃ r, ts = us ++ r ∧ rest = r ++ w := by
  obtain ⟨a, rfl, rfl⟩ | ⟨a, rfl, hrest⟩ := List.append_eq_append_iff.1 h
  · -- the array would end inside the next one
    have hmem : ∀ t ∈ a, ¬(Item.mark "array").Matches t := by
      intro t ht
      obtain ⟨item, hitem, hmatch⟩ := hspells.exists_of_mem (List.mem_append_right ts ht)
      exact Item.not_array hmatch fun heq => hitems (heq ▸ hitem)
    obtain ⟨y, ys, hw', hy⟩ := hw.head
    cases a with
    | nil => exact ⟨[], by simp, rfl⟩
    | cons x xs =>
      obtain ⟨rfl, rfl⟩ := List.cons.inj hw'
      have hparen := (hy.resolve_left (hmem x List.mem_cons_self))
      obtain ⟨hx, z, zs, hxs, hz⟩ := hparen
      cases xs with
      | nil =>
        obtain ⟨t, ht, hclose⟩ := hspells.getLast? hlast
        rw [List.getLast?_append] at ht
        obtain rfl := Option.some.inj ht
        have hvalue : "]".toList = "(".toList := hclose.2.symm.trans hx.2
        exact absurd hvalue (by decide)
      | cons z' zs' =>
        obtain ⟨rfl, -⟩ := List.cons.inj hxs
        exact absurd hz (hmem z' (List.mem_cons_of_mem _ List.mem_cons_self))
  · exact ⟨a, rfl, hrest⟩

/-- An array that starts before another one is read in the same way before every other one. -/
theorem Starts.read_before {start ts w w' rest : List SqlToken} (hstart : Starts start) (hw : Opening w)
    (hw' : Opening w') {literals : List (List Char)}
    (h : literalTextArray (start ++ (ts ++ w)) = some (literals, rest)) :
    ∃ form us r, ts = us ++ r ∧ rest = r ++ w ∧ SpellsArray form literals (start ++ us) ∧
      (form = .elementwise → ∀ t ∈ (r ++ w').head?, t.value ≠ "::".toList) := by
  obtain ⟨form, us, es, htokens, hspells, hne, hbracketed, hnext⟩ := hstart.read h
  obtain ⟨r, rfl, rfl⟩ := hw.spells htokens hbracketed (form.not_mem_bracketed es) (form.getLast?_bracketed hne)
  refine ⟨form, us, r, rfl, rfl, hspells, fun hform t ht => ?_⟩
  cases r with
  | nil => exact hw'.head_ne t ht
  | cons x xs => exact hnext hform t ht

theorem Starts.not_read_before {start ts w w' : List SqlToken} (hstart : Starts start) (hw : Opening w)
    (hw' : Opening w') (h : literalTextArray (start ++ (ts ++ w)) = none) :
    literalTextArray (start ++ (ts ++ w')) = none := by
  by_contra hsome
  obtain ⟨⟨literals, rest⟩, hread⟩ := Option.ne_none_iff_exists'.1 hsome
  obtain ⟨form, us, r, rfl, rfl, hspells, hnext⟩ := hstart.read_before hw' hw hread
  have hread' : literalTextArray (start ++ (us ++ r ++ w)) = some (literals, r ++ w) :=
    literalTextArray_eq_some_iff.2 ⟨form, start ++ us, by simp, hspells, hnext⟩
  rw [h] at hread'
  cases hread'

/-- The end of a list of tokens is not inside the brackets of an array. -/
def ArraysClosed (ts : List SqlToken) : Prop :=
  ∀ before word rest, ts = before ++ word :: rest → arrayStart word = true →
    (rest.head?.any fun bracket => bracket.value == "[".toList) = true →
      ∃ inside after, rest = inside ++ after ∧ inside ≠ [] ∧
        inside.countP (fun t => t.value = "[".toList) = inside.countP (fun t => t.value = "]".toList)

theorem ArraysClosed.append {us ts : List SqlToken} (h : ArraysClosed (us ++ ts)) : ArraysClosed ts := by
  rintro before word rest rfl
  exact h (us ++ before) word rest (List.append_assoc _ _ _).symm

/-- Brackets that close are passed over alike whatever comes after them. -/
theorem skipBrackets_of_closed {depth : ℕ} {inside : List SqlToken} (hne : inside ≠ [])
    (h : depth + inside.countP (fun t => t.value = "[".toList) = inside.countP (fun t => t.value = "]".toList)) :
    ∃ skipped more, inside = skipped ++ more ∧
      ∀ w, skipBrackets depth (inside ++ w) = (skipped, more ++ w) := by
  induction inside generalizing depth with
  | nil => exact absurd rfl hne
  | cons t ts ih =>
    simp only [List.countP_cons, decide_eq_true_eq] at h
    by_cases hdepth : depth + (if t.value = "[".toList then 1 else 0) - (if t.value = "]".toList then 1 else 0) = 0
    · refine ⟨[t], ts, rfl, fun w => ?_⟩
      rw [List.cons_append, skipBrackets.eq_2]
      dsimp only
      rw [if_pos hdepth]
    · have hts : ts ≠ [] := by
        rintro rfl
        simp only [List.countP_nil] at h
        omega
      have hrest : depth + (if t.value = "[".toList then 1 else 0) - (if t.value = "]".toList then 1 else 0) +
          ts.countP (fun t => t.value = "[".toList) = ts.countP (fun t => t.value = "]".toList) := by
        omega
      obtain ⟨skipped, more, rfl, hskips⟩ := ih hts hrest
      refine ⟨t :: skipped, more, rfl, fun w => ?_⟩
      rw [List.cons_append, skipBrackets.eq_2]
      dsimp only
      rw [if_neg hdepth, hskips w]

/-- A piece that starts before an array is the same before every other one. -/
theorem Piece.before {previous : Option SqlToken} {t : SqlToken} {ts w w' rest : List SqlToken} {segment : Segment}
    (h : Piece previous t (ts ++ w) segment rest) (hw : Opening w) (hw' : Opening w') (hclosed : ArraysClosed (t :: ts))
    (hlast : allowedBefore (t :: ts).getLast? = true) :
    ∃ r, t :: ts = segment.tokens ++ r ∧ rest = r ++ w ∧ Piece previous t (ts ++ w') segment (r ++ w') := by
  have hnil : ts = [] → arrayStart t = false := by
    rintro rfl
    simp only [List.getLast?_singleton, allowedBefore, Bool.and_eq_true, beq_iff_eq] at hlast
    simp [arrayStart, hlast.1]
  -- a parenthesis right before an array is the only token that looks at it
  have hpiece : arrayStart t = false → Piece previous t w' (.copied [t]) w' := by
    intro hstart
    by_cases hwrapped : wrappedStart previous t w' = true
    · obtain ⟨hvalue, ⟨word, us, rfl, hword⟩, -⟩ := wrappedStart_iff.1 hwrapped
      exact .paren hwrapped (hw'.read_paren hvalue hword)
    · exact .other hstart (Bool.eq_false_of_not_eq_true hwrapped)
  cases h with
  | @array form region literals _ hstart htokens hspells hnext =>
    have hread : literalTextArray (t :: (ts ++ w)) = some (literals, rest) :=
      literalTextArray_eq_some_iff.2 ⟨form, region, htokens, hspells, hnext⟩
    have harray : ∀ start mid, Starts start → t :: ts = start ++ mid →
        (arrayStart t = true ∨ wrappedStart previous t (ts ++ w') = true) →
        ∃ r, t :: ts = region ++ r ∧ rest = r ++ w ∧
          Piece previous t (ts ++ w') (.array region literals) (r ++ w') := by
      intro start mid hstarts hmid hstart'
      rw [← List.cons_append, hmid, List.append_assoc] at hread
      obtain ⟨form', us, r, rfl, rfl, hspells', hnext'⟩ := hstarts.read_before hw hw' hread
      obtain rfl : start ++ us = region := by
        rw [← List.cons_append, hmid, ← List.append_assoc, List.append_assoc (start ++ us)] at htokens
        exact List.append_cancel_right htokens
      refine ⟨r, hmid.trans (List.append_assoc _ _ _).symm, rfl, .array hstart' ?_ hspells' hnext'⟩
      rw [← List.cons_append, hmid]
      simp
    by_cases hword : arrayStart t = true
    · exact harray [t] ts (.word (matches_of_arrayStart hword)) rfl (.inl hword)
    · have hwrapped := hstart.resolve_left hword
      obtain ⟨hvalue, ⟨word, us, hts, hword'⟩, -⟩ := wrappedStart_iff.1 hwrapped
      cases ts with
      | nil =>
        rw [List.nil_append] at hts
        rw [List.nil_append, hw.read_paren hvalue (by rw [hts]; exact hword')] at hread
        cases hread
      | cons p ps =>
        obtain ⟨rfl, -⟩ := List.cons.inj hts
        exact harray [t, p] ps (.paren hvalue (matches_of_arrayStart hword')) rfl (.inr hwrapped)
  | paren hstart hread =>
    obtain ⟨hvalue, ⟨word, us, hts, hword⟩, -⟩ := wrappedStart_iff.1 hstart
    refine ⟨ts, rfl, rfl, ?_⟩
    cases ts with
    | nil => exact hpiece (by simp [arrayStart, hvalue])
    | cons p ps =>
      obtain ⟨rfl, -⟩ := List.cons.inj hts
      have hstarts : Starts [t, p] := .paren hvalue (matches_of_arrayStart hword)
      exact .paren hstart (hstarts.not_read_before hw hw' hread)
  | bracket hstart hread hbracket hskip =>
    have hstarts : Starts [t] := .word (matches_of_arrayStart hstart)
    have hbracket' : ∀ v, ((ts ++ v).head?.any fun bracket => bracket.value == "[".toList) =
        ts.head?.any fun bracket => bracket.value == "[".toList := by
      intro v
      cases ts with
      | nil => exact absurd hstart (by simp [hnil rfl])
      | cons p ps => rfl
    obtain ⟨inside, after, rfl, hinside, hcount⟩ := hclosed [] t ts rfl hstart ((hbracket' w).symm.trans hbracket)
    obtain ⟨skipped, more, rfl, hskips⟩ := skipBrackets_of_closed hinside ((Nat.zero_add _).trans hcount)
    rw [List.append_assoc, hskips] at hskip
    obtain ⟨rfl, rfl⟩ := Prod.mk.inj hskip
    refine ⟨more ++ after, by simp [Segment.tokens], by simp,
      .bracket hstart (hstarts.not_read_before hw hw' hread) ((hbracket' w').trans ((hbracket' w).symm.trans hbracket)) ?_⟩
    rw [List.append_assoc, hskips]
    simp
  | word hstart hread hbracket =>
    have hstarts : Starts [t] := .word (matches_of_arrayStart hstart)
    refine ⟨ts, rfl, rfl, .word hstart (hstarts.not_read_before hw hw' hread) ?_⟩
    cases ts with
    | nil => exact absurd hstart (by simp [hnil rfl])
    | cons p ps => exact hbracket
  | other hstart hwrapped =>
    refine ⟨ts, rfl, rfl, ?_⟩
    cases ts with
    | nil => exact hpiece hstart
    | cons p ps => exact .other hstart hwrapped

/-- A scan looks at the token before it only for whether an array may follow. -/
theorem scan_congr {previous previous' : Option SqlToken} (h : allowedBefore previous = allowedBefore previous')
    (ts : List SqlToken) : scan previous ts = scan previous' ts := by
  cases ts with
  | nil => rfl
  | cons t ts =>
    have hnext : nextSegment previous t ts = nextSegment previous' t ts := by
      simp only [nextSegment, wrappedStart, h]
    rw [scan, scan, List.length_cons, segments_succ, segments_succ, hnext]

/-- What comes before an array is scanned alike whatever the array is. -/
theorem scan_before {previous : Option SqlToken} {ps w w' : List SqlToken} (hw : Opening w) (hw' : Opening w')
    (hclosed : ArraysClosed ps) (hlast : allowedBefore (ps.getLast?.or previous) = true)
    (h : ∀ p, allowedBefore p = true → (scan p w).flatMap Segment.rendered = (scan p w').flatMap Segment.rendered) :
    (scan previous (ps ++ w)).flatMap Segment.rendered = (scan previous (ps ++ w')).flatMap Segment.rendered := by
  induction hn : ps.length using Nat.strong_induction_on generalizing previous ps with
  | _ n ih =>
    cases ps with
    | nil => exact h previous hlast
    | cons t ts =>
      have hlast' : allowedBefore (t :: ts).getLast? = true := by
        rwa [List.getLast?_cons, Option.some_or, ← List.getLast?_cons] at hlast
      have hpiece := piece_nextSegment previous t (ts ++ w)
      obtain ⟨r, htokens, hrest, hpiece'⟩ := hpiece.before hw hw' hclosed hlast'
      have hlength : r.length < n := by
        have hcount := congrArg List.length htokens
        have hpos := List.length_pos_iff.2 hpiece.tokens.2
        rw [List.length_append] at hcount
        omega
      have hr : allowedBefore (r.getLast?.or (nextSegment previous t (ts ++ w)).1.tokens.getLast?) = true := by
        rwa [← List.getLast?_append, ← htokens]
      rw [htokens] at hclosed
      rw [List.cons_append, List.cons_append, scan_cons hpiece, scan_cons hpiece', List.flatMap_cons,
        List.flatMap_cons, hrest, ih r.length hlength hclosed.append hr rfl]

theorem lex_symbol {cs text rest : List Char} (h : lex cs = some (.symbol, text, rest)) : text.length ≤ 2 := by
  cases cs with
  | nil => cases h
  | cons c cs =>
    simp only [lex] at h
    split_ifs at h
    · obtain ⟨r, -, hr⟩ := Option.map_eq_some_iff.1 h
      cases hr
    · obtain ⟨r, -, hr⟩ := Option.map_eq_some_iff.1 h
      cases hr
    · cases h
    · cases h
      exact le_rfl
    · cases h
      exact Nat.le_succ 1

theorem SqlToken.Valid.arrayStart {t : SqlToken} (ht : t.Valid) (h : (Item.mark "array").Matches t) :
    arrayStart t = true := by
  obtain ⟨hkind | hkind, hvalue⟩ := h
  · simp [Operations.arrayStart, hkind, hvalue]
  · rw [SqlToken.value, if_neg (by rw [hkind]; decide)] at hvalue
    have hlex := ht.lex
    rw [hkind] at hlex
    have hlength := lex_symbol hlex
    rw [hvalue] at hlength
    exact absurd hlength (by decide)

/-- An array is replaced where it may start. -/
theorem scan_array {form : ArrayForm} {literals : List (List Char)} {us ss : List SqlToken}
    (hspells : SpellsArray form literals us) (hvalid : ∀ t ∈ us, t.Valid)
    (hnext : form = .elementwise → ∀ t ∈ ss.head?, t.value ≠ "::".toList) {previous : Option SqlToken}
    (hprevious : allowedBefore previous = true) :
    (scan previous (us ++ ss)).flatMap Segment.rendered =
      gapBefore us ++ canonical literals ++
        (scan (some ⟨.symbol, [], "]".toList⟩) ss).flatMap Segment.rendered := by
  obtain ⟨y, ys, rfl⟩ := List.exists_cons_of_ne_nil hspells.ne_nil
  have hstart : arrayStart y = true ∨ wrappedStart previous y (ys ++ ss) = true := by
    obtain ⟨es, opening, word, us', htokens, -, hopening, hword, -⟩ := hspells.split
    have hword' : arrayStart word = true :=
      (hvalid word (htokens ▸ List.mem_append_right _ List.mem_cons_self)).arrayStart hword
    cases hwrapped : form.wrapped with
    | false =>
      rw [hwrapped] at hopening
      cases hopening
      obtain ⟨rfl, -⟩ := List.cons.inj htokens
      exact .inl hword'
    | true =>
      rw [hwrapped] at hopening
      cases hopening with
      | cons hparen hnil =>
        cases hnil
        obtain ⟨rfl, rfl⟩ := List.cons.inj htokens
        exact .inr (wrappedStart_iff.2 ⟨hparen.2, ⟨word, _, rfl, hword'⟩, hprevious⟩)
  have hclose : allowedBefore (y :: ys).getLast? = allowedBefore (some ⟨.symbol, [], "]".toList⟩) :=
    hspells.allowedBefore_getLast?.trans (by decide)
  rw [List.cons_append, scan_cons (.array hstart rfl hspells hnext), List.flatMap_cons]
  show _ ++ (scan (y :: ys).getLast? ss).flatMap Segment.rendered = _
  rw [scan_congr hclose]
  rfl

/-! ### Texts around an array -/

/-- A text that spells an array. -/
def IsSpelling (literals : List (List Char)) (text : List Char) : Prop :=
  ∃ form ts, sqlTokens text = some (ts, []) ∧ gapBefore ts = [] ∧ SpellsArray form literals ts

/-- Texts before and after an array where it may be of its kind: the text before it ends outside the brackets of
another array, with one of the symbols or with nothing, and no cast comes next. -/
structure ArrayContext (before after : List Char) : Prop where
  before : ∃ ps gap, sqlTokens before = some (ps, gap) ∧ ArraysClosed ps ∧ allowedBefore ps.getLast? = true
  after : ∃ ss trailing, sqlTokens after = some (ss, trailing) ∧ ∀ t ∈ ss.head?, t.value ≠ "::".toList

theorem Lexes.concat {cs gap rest trailing : List Char} {us vs : List SqlToken} (h : Lexes cs us gap)
    (h' : Lexes (gap ++ rest) vs trailing)
    (hends : ∀ t ∈ us.getLast?, Ends t.kind t.text (gap ++ rest)) : Lexes (cs ++ rest) (us ++ vs) trailing := by
  induction h with
  | done hgap => exact h'
  | @token t cs gap ts ht hend h ih =>
    rw [List.append_assoc]
    cases ts with
    | nil =>
      cases h
      exact .token ht (hends t rfl) h'
    | cons u us =>
      refine .token ht ?_ (ih h' hends)
      have hu := h.valid u List.mem_cons_self
      have hcs := h.sourceText
      rw [Ends, hcs, head?_sourceText_cons hu.text_ne_nil] at hend
      rw [Ends, hcs, List.append_assoc, head?_sourceText_cons hu.text_ne_nil]
      exact hend

theorem eq_of_toLower {c x : Char} (h : c.toLower = x) (hx : x.isLower = false) : c = x := by
  by_cases hupper : c.val ≥ 'A'.val ∧ c.val ≤ 'Z'.val
  · have hval : x.val = c.val + ('a'.val - 'A'.val) := by
      rw [← h]
      exact congrArg Char.val (dif_pos hupper)
    have hbounds : 65 ≤ c.val.toNat ∧ c.val.toNat ≤ 90 := ⟨hupper.1, hupper.2⟩
    have hnat : x.val.toNat = c.val.toNat + 32 := by
      rw [hval, UInt32.toNat_add]
      exact Nat.mod_eq_of_lt (by show c.val.toNat + 32 < _; omega)
    have hlower : x.isLower = true := by
      simp only [Char.isLower, Bool.and_eq_true, decide_eq_true_eq, UInt32.le_iff_toNat_le, ge_iff_le]
      rw [hnat]
      show 97 ≤ _ ∧ _ ≤ 122
      omega
    rw [hx] at hlower
    cases hlower
  · exact (dif_neg hupper).symm.trans h

/-- A symbol that is not a letter is read from a symbol. -/
theorem SqlToken.Valid.eq_symbol {t : SqlToken} (ht : t.Valid) {value : String} (h : (Item.mark value).Matches t)
    {x : Char} (hvalue : value.toList = [x]) (hlower : x.isLower = false) (hword : isWordStart x = false) :
    t.kind = .symbol ∧ t.text = [x] := by
  obtain ⟨hkind | hkind, hsame⟩ := h
  · rw [SqlToken.value, if_pos hkind, hvalue] at hsame
    obtain ⟨c, htext, hc⟩ := List.map_eq_singleton_iff.1 hsame
    obtain rfl := eq_of_toLower hc hlower
    have hlex := ht.lex
    rw [hkind, htext] at hlex
    simp only [Operations.lex, hword, Bool.false_eq_true, if_false] at hlex
    split_ifs at hlex
    · obtain ⟨r, -, hr⟩ := Option.map_eq_some_iff.1 hlex
      cases hr
    · obtain ⟨r, -, hr⟩ := Option.map_eq_some_iff.1 hlex
      cases hr
    all_goals cases hlex
  · rw [SqlToken.value, if_neg (by rw [hkind]; decide), hvalue] at hsame
    exact ⟨hkind, hsame⟩

theorem mayFollow_symbol (text : List Char) {c : Char} (hc : c ≠ ':' ∧ c ≠ '-' ∧ c ≠ '*') :
    mayFollow .symbol text c = true := by
  simp [mayFollow, hc]

/-- A spelling may come after an allowed token. -/
theorem ends_spelling {p : SqlToken} (hp : allowedBefore (some p) = true) {gap : List Char} (hgap : IsGap gap)
    {form : ArrayForm} {literals : List (List Char)} {ts : List SqlToken} (hspells : SpellsArray form literals ts)
    (hvalid : ∀ t ∈ ts, t.Valid) (hfirst : gapBefore ts = []) (rest : List Char) :
    Ends p.kind p.text (gap ++ (sourceText ts ++ rest)) := by
  simp only [allowedBefore, Bool.and_eq_true, beq_iff_eq] at hp
  rw [hp.1]
  intro c hc
  refine mayFollow_symbol _ ?_
  cases gap with
  | cons x xs =>
    obtain rfl := Option.some.inj hc
    have hspace := hgap x List.mem_cons_self
    refine ⟨?_, ?_, ?_⟩ <;> rintro rfl <;> cases hspace
  | nil =>
    obtain ⟨y, ys, hts, hy⟩ := Opening.head ⟨form, literals, ts, [], (List.append_nil ts).symm, hspells⟩
    have hyvalid := hvalid y (hts ▸ List.mem_cons_self)
    rw [hts] at hfirst
    rw [List.nil_append, hts, head?_sourceText_cons hyvalid.text_ne_nil, show y.before = [] from hfirst,
      List.nil_append] at hc
    obtain hy | ⟨hy, -⟩ := hy
    · have hword := isWordChar_of_arrayStart (hyvalid.arrayStart hy) hc
      refine ⟨?_, ?_, ?_⟩ <;> rintro rfl <;> cases hword
    · rw [(hyvalid.eq_symbol hy (x := '(') rfl rfl rfl).2] at hc
      obtain rfl := Option.some.inj hc
      decide

/-- The tokens of a text around a spelling. -/
theorem IsSpelling.tokens {literals : List (List Char)} {text before after : List Char} (h : IsSpelling literals text)
    {ps ss : List SqlToken} {gap trailing : List Char} (hbefore : sqlTokens before = some (ps, gap))
    (hlast : allowedBefore ps.getLast? = true) (hafter : sqlTokens after = some (ss, trailing)) :
    ∃ form ts, sqlTokens (before ++ text ++ after) = some (ps ++ (ts ++ ss), trailing) ∧
      SpellsArray form literals ts ∧ (∀ t ∈ ts, t.Valid) ∧ gapBefore ts = gap := by
  obtain ⟨form, ts, htext, hfirst, hspells⟩ := h
  rw [sqlTokens_eq_some_iff] at hbefore hafter htext
  have hvalid := htext.valid
  have hgap := hbefore.trailing
  have hsource := htext.sourceText
  rw [List.append_nil] at hsource
  have hwith : Lexes (text ++ after) (ts ++ ss) trailing := by
    refine htext.concat hafter fun t ht => ?_
    obtain ⟨t', ht', hclose⟩ := hspells.getLast?
    obtain rfl := Option.some.inj (ht.symm.trans ht')
    have hsymbol := (hvalid t (List.mem_of_getLast? ht)).eq_symbol hclose (x := ']') rfl rfl rfl
    rw [hsymbol.1, hsymbol.2]
    exact ends_symbol (by decide) _
  obtain ⟨y, ys, rfl⟩ := List.exists_cons_of_ne_nil hspells.ne_nil
  have hy := hvalid y List.mem_cons_self
  refine ⟨form, { y with before := gap } :: ys, ?_, ?_, ?_, rfl⟩
  · rw [sqlTokens_eq_some_iff, List.append_assoc]
    refine hbefore.concat ?_ fun p hp => ?_
    · have hnil : y.before = [] := hfirst
      have hwhole := hwith.sourceText
      rw [hwhole] at hwith ⊢
      obtain ⟨-, hends, hrest⟩ := lexes_cons_iff.1 hwith
      have hfilled : gap ++ (sourceText (y :: ys ++ ss) ++ trailing) =
          sourceText ({ y with before := gap } :: (ys ++ ss)) ++ trailing := by
        rw [List.cons_append, sourceText_cons, sourceText_cons, hnil]
        simp
      rw [hfilled]
      exact lexes_cons_iff.2 ⟨⟨hgap, hy.head, hy.lex⟩, hends, hrest⟩
    · rw [hsource]
      exact ends_spelling (hp ▸ hlast) hgap hspells hvalid hfirst after
  · obtain ⟨es, hne, rfl, hitems⟩ := hspells
    refine ⟨es, hne, rfl, ?_⟩
    generalize form.items es = items at hitems ⊢
    cases hitems with
    | cons hmatch hrest => exact .cons (by cases ‹Item› <;> exact hmatch) hrest
  · intro t ht
    obtain rfl | ht := List.mem_cons.1 ht
    · exact ⟨hgap, hy.head, hy.lex⟩
    · exact hvalid t (List.mem_cons_of_mem _ ht)

/-- All the spellings of one array have one canonical form. -/
theorem normalizeCatalogDefinition_spelling {before after : List Char} (h : ArrayContext before after)
    {literals : List (List Char)} {text text' : List Char} (htext : IsSpelling literals text)
    (htext' : IsSpelling literals text') :
    normalizeCatalogDefinition (before ++ text ++ after) = normalizeCatalogDefinition (before ++ text' ++ after) := by
  obtain ⟨ps, gap, hbefore, hclosed, hlast⟩ := h.before
  obtain ⟨ss, trailing, hafter, hnext⟩ := h.after
  obtain ⟨form, ts, htokens, hspells, hvalid, hgap⟩ := htext.tokens hbefore hlast hafter
  obtain ⟨form', ts', htokens', hspells', hvalid', hgap'⟩ := htext'.tokens hbefore hlast hafter
  have hopening : Opening (ts ++ ss) := ⟨form, literals, ts, ss, rfl, hspells⟩
  have hopening' : Opening (ts' ++ ss) := ⟨form', literals, ts', ss, rfl, hspells'⟩
  have hlast' : allowedBefore (ps.getLast?.or none) = true := by rwa [Option.or_none]
  have hscan := scan_before hopening hopening' hclosed hlast' fun p hp => by
    rw [scan_array hspells hvalid (fun _ => hnext) hp, scan_array hspells' hvalid' (fun _ => hnext) hp, hgap, hgap']
  rw [normalizeCatalogDefinition, htokens, normalizeCatalogDefinition, htokens']
  dsimp only
  rw [hscan]

/-! ### The canonical form -/

/-- A text is a list of tokens in which arrays have been replaced. -/
inductive Replaces : List SqlToken → List Char → Prop
  | nil : Replaces [] []
  | copied {t ts text} (h : Replaces ts text) : Replaces (t :: ts) (t.before ++ t.text ++ text)
  | array {form literals region ts text} (hspells : SpellsArray form literals region)
      (hnext : form = .elementwise → ∀ t ∈ ts.head?, t.value ≠ "::".toList) (h : Replaces ts text) :
      Replaces (region ++ ts) (gapBefore region ++ canonical literals ++ text)

theorem Rewritten.replaces {previous : Option SqlToken} {ts ts' : List SqlToken} (h : Rewritten previous ts ts') :
    Replaces ts (sourceText ts') := by
  induction h with
  | nil => exact .nil
  | copied h ih => exact .copied ih
  | array hspells hhead hnext h ih =>
    rw [sourceText_append, sourceText_canonicalTokens _ hspells.literals_ne_nil]
    exact .array hspells hnext ih

/-- What a canonical form of definitions is. -/
structure CanonicalForm (f : List Char → List Char) : Prop where
  /-- A definition without tokens stays as it is. -/
  unchanged : ∀ definition, sqlTokens definition = none → f definition = definition
  /-- Of any other definition only arrays are replaced. -/
  sound : ∀ definition ts trailing, sqlTokens definition = some (ts, trailing) →
    definition = sourceText ts ++ trailing ∧ ∃ text, Replaces ts text ∧ f definition = text ++ trailing
  idempotent : ∀ definition, f (f definition) = f definition
  complete : ∀ before after, ArrayContext before after → ∀ literals text text', IsSpelling literals text →
    IsSpelling literals text' → f (before ++ text ++ after) = f (before ++ text' ++ after)

/-- Only arrays are replaced, a second time nothing is, and all the spellings of one array have one form. -/
theorem normalizeCatalogDefinition_canonicalForm : CanonicalForm normalizeCatalogDefinition where
  unchanged definition h := by rw [normalizeCatalogDefinition, h]
  sound definition ts trailing h := by
    refine ⟨(sqlTokens_eq_some_iff.1 h).sourceText, _, (scans_scan none ts).rewritten.replaces, ?_⟩
    exact (normalizeCatalogDefinition_of_tokens h).1
  idempotent := normalizeCatalogDefinition_again
  complete _ _ h _ _ _ htext htext' := normalizeCatalogDefinition_spelling h htext htext'

-- A canonical array before a cast is passed over at the next scan.
example :
    String.ofList (normalizeCatalogDefinition "f(ARRAY['a'::character varying]::text[])::text[]".toList) =
      "f(ARRAY['a'::character varying::text])::text[]" := by
  decide +kernel

end CivicLoop.Operations
