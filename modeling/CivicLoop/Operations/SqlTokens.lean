import CivicLoop.Foundation.PyText
import Mathlib

/-!
# The tokens of a definition of the catalog

The validator of a restore compares definitions of tables and indexes as texts. It cuts a definition into
literals, quoted names, words and symbols; a definition with other quoting, with a comment or with a backslash has
no tokens. A token is given here with the white space before it, in place of its offsets.

A token ends where it does because of the next character alone. Tokens can be put together in another order
wherever each may be followed by the first character of the next one.

## Main definitions

* `lex`, `sqlTokens` : the first token of a text, and all of them.
* `mayFollow` : whether a character after a token leaves it as it is.
* `Lexes` : a text has these tokens and this white space at the end.

## Main results

* `sqlTokens_eq_some_iff` : the tokens are the ones of the relation.
* `lexes_cons_iff` : the tokens of a text, one by one.

## References

Source: `scripts/validate_postgres_restore.py`, lines 235–284.
-/

namespace CivicLoop.Operations

/-! ### Tokens -/

inductive TokenKind
  | literal
  | quoted
  | word
  | symbol
deriving DecidableEq, Repr

/-- A token, with the white space before it. -/
structure SqlToken where
  kind : TokenKind
  before : List Char
  text : List Char
deriving DecidableEq, Repr

/-- What a token is compared by: its text, of a word in lower case. -/
def SqlToken.value (t : SqlToken) : List Char := if t.kind = .word then t.text.map Char.toLower else t.text

/-- What tokens are cut out of. -/
def sourceText (ts : List SqlToken) : List Char := ts.flatMap fun t => t.before ++ t.text

/-- `[A-Za-z_]`. -/
def isWordStart (c : Char) : Bool := c.isAlpha || c == '_'

/-- `[A-Za-z_0-9]`. -/
def isWordChar (c : Char) : Bool := c.isAlphanum || c == '_'

/-- The rest of a quoted text, up to its closing quote, and what comes after; a doubled quote does not close. -/
def quotedRest (quote : Char) : List Char → Option (List Char × List Char)
  | [] => none
  | c :: cs =>
    if c = '\\' then none
    else if c = quote then
      match cs with
      | [] => some ([c], [])
      | c' :: cs' =>
        if c' = quote then (quotedRest quote cs').map fun r => (c :: c' :: r.1, r.2) else some ([c], c' :: cs')
    else (quotedRest quote cs).map fun r => (c :: r.1, r.2)

/-- The first token of a text that does not start with white space: its kind, its text, and what comes after. -/
def lex : List Char → Option (TokenKind × List Char × List Char)
  | [] => none
  | c :: cs =>
    if c = '\'' then (quotedRest c cs).map fun r => (.literal, c :: r.1, r.2)
    else if c = '"' then (quotedRest c cs).map fun r => (.quoted, c :: r.1, r.2)
    else if c = '$' ∨ c = '\\' ∨ (c = '-' ∧ cs.head? = some '-') ∨ (c = '/' ∧ cs.head? = some '*') then none
    else if (c = 'e' ∨ c = 'E') ∧ cs.head? = some '\'' then none
    else if isWordStart c then some (.word, c :: cs.takeWhile isWordChar, cs.dropWhile isWordChar)
    else if c = ':' ∧ cs.head? = some ':' then some (.symbol, [c, ':'], cs.tail)
    else some (.symbol, [c], cs)

/-- The tokens of a text, of which at most `fuel` are cut, and the white space at its end. -/
def sqlTokensFrom : ℕ → List Char → Option (List SqlToken × List Char)
  | 0, _ => none
  | fuel + 1, cs =>
    match cs.dropWhile isSpace with
    | [] => some ([], cs)
    | c :: rest => do
      let (kind, text, rest) ← lex (c :: rest)
      let (ts, trailing) ← sqlTokensFrom fuel rest
      return (⟨kind, cs.takeWhile isSpace, text⟩ :: ts, trailing)

/-- `_sql_tokens`, with the white space at the end. -/
def sqlTokens (definition : List Char) : Option (List SqlToken × List Char) :=
  sqlTokensFrom (definition.length + 1) definition

/-! ### Where a token ends -/

/-- Whether a character after a token leaves it as it is. -/
def mayFollow (kind : TokenKind) (text : List Char) (c : Char) : Bool :=
  match kind with
  | .literal => c != '\''
  | .quoted => c != '"'
  | .word => !isWordChar c && !((text == ['e'] || text == ['E']) && c == '\'')
  | .symbol => !(text == [':'] && c == ':' || text == ['-'] && c == '-' || text == ['/'] && c == '*')

/-- What comes after a token leaves it as it is. -/
def Ends (kind : TokenKind) (text rest : List Char) : Prop := ∀ c ∈ rest.head?, mayFollow kind text c = true

theorem quotedRest_eq_some {quote : Char} {cs text rest : List Char} (h : quotedRest quote cs = some (text, rest)) :
    cs = text ++ rest ∧ (∀ c ∈ rest.head?, c ≠ quote) ∧
      ∀ rest' : List Char, (∀ c ∈ rest'.head?, c ≠ quote) → quotedRest quote (text ++ rest') = some (text, rest') := by
  fun_induction quotedRest quote cs generalizing text with
  | case1 => cases h
  | case2 => cases h
  | case3 hq =>
    obtain ⟨rfl, rfl⟩ := Prod.mk.inj (Option.some.inj h)
    refine ⟨rfl, fun c hc => (by cases hc), fun rest' hrest' => ?_⟩
    cases rest' with
    | nil => simp [quotedRest, hq]
    | cons x xs => simp [quotedRest, hq, hrest' x rfl]
  | case4 cs' hq ih =>
    obtain ⟨⟨text', rest'⟩, hr, heq⟩ := Option.map_eq_some_iff.1 h
    obtain ⟨rfl, rfl⟩ := Prod.mk.inj heq
    obtain ⟨rfl, hrest, hlocal⟩ := ih hr
    refine ⟨rfl, hrest, fun rest'' hrest'' => ?_⟩
    simp [quotedRest, hq, hlocal rest'' hrest'']
  | case5 c' cs' hne hq =>
    obtain ⟨rfl, rfl⟩ := Prod.mk.inj (Option.some.inj h)
    refine ⟨rfl, fun x hx => ?_, fun rest' hrest' => ?_⟩
    · obtain rfl := Option.some.inj hx
      exact hne
    · cases rest' with
      | nil => simp [quotedRest, hq]
      | cons x xs => simp [quotedRest, hq, hrest' x rfl]
  | case6 c cs hc hq ih =>
    obtain ⟨⟨text', rest'⟩, hr, heq⟩ := Option.map_eq_some_iff.1 h
    obtain ⟨rfl, rfl⟩ := Prod.mk.inj heq
    obtain ⟨rfl, hrest, hlocal⟩ := ih hr
    refine ⟨rfl, hrest, fun rest'' hrest'' => ?_⟩
    show quotedRest quote (c :: (text' ++ rest'')) = _
    unfold quotedRest
    rw [if_neg hc, if_neg hq, hlocal rest'' hrest'']
    rfl

theorem takeWhile_append_of_head {p : Char → Bool} {xs ys : List Char} (hxs : ∀ c ∈ xs, p c = true)
    (hys : ∀ c ∈ ys.head?, p c = false) :
    (xs ++ ys).takeWhile p = xs ∧ (xs ++ ys).dropWhile p = ys := by
  rw [List.takeWhile_append_of_pos hxs, List.dropWhile_append_of_pos hxs]
  cases ys with
  | nil => simp
  | cons y ys => simp [hys y rfl]

theorem head?_dropWhile {p : Char → Bool} {cs : List Char} {c : Char} (h : c ∈ (cs.dropWhile p).head?) :
    p c = false := by
  have := List.head?_dropWhile_not p cs
  rw [Option.mem_def.1 h] at this
  simpa using this

/-- A token ends before a character that may not follow it, and what comes after does not change it. -/
theorem lex_eq_some {cs text rest : List Char} {kind : TokenKind} (h : lex cs = some (kind, text, rest)) :
    cs = text ++ rest ∧ text ≠ [] ∧ Ends kind text rest ∧
      ∀ rest', Ends kind text rest' → lex (text ++ rest') = some (kind, text, rest') := by
  cases cs with
  | nil => cases h
  | cons c cs =>
    simp only [lex] at h
    split_ifs at h with h₁ h₂ h₃ h₄ h₅ h₆
    · obtain ⟨⟨text', rest'⟩, hr, heq⟩ := Option.map_eq_some_iff.1 h
      obtain ⟨rfl, hpair⟩ := Prod.mk.inj heq
      obtain ⟨rfl, rfl⟩ := Prod.mk.inj hpair
      obtain ⟨rfl, hrest, hlocal⟩ := quotedRest_eq_some hr
      subst h₁
      refine ⟨rfl, List.cons_ne_nil _ _, fun x hx => bne_iff_ne.2 (hrest x hx), fun rest'' hrest'' => ?_⟩
      simp [lex, hlocal rest'' fun x hx => bne_iff_ne.1 (hrest'' x hx)]
    · obtain ⟨⟨text', rest'⟩, hr, heq⟩ := Option.map_eq_some_iff.1 h
      obtain ⟨rfl, hpair⟩ := Prod.mk.inj heq
      obtain ⟨rfl, rfl⟩ := Prod.mk.inj hpair
      obtain ⟨rfl, hrest, hlocal⟩ := quotedRest_eq_some hr
      subst h₂
      refine ⟨rfl, List.cons_ne_nil _ _, fun x hx => bne_iff_ne.2 (hrest x hx), fun rest'' hrest'' => ?_⟩
      simp [lex, hlocal rest'' fun x hx => bne_iff_ne.1 (hrest'' x hx)]
    · obtain ⟨rfl, heq⟩ := Prod.mk.inj (Option.some.inj h)
      obtain ⟨rfl, rfl⟩ := Prod.mk.inj heq
      have hword : ∀ x ∈ cs.takeWhile isWordChar, isWordChar x = true := fun x hx => List.mem_takeWhile_imp hx
      refine ⟨by rw [List.cons_append, List.takeWhile_append_dropWhile], List.cons_ne_nil _ _, fun x hx => ?_,
        fun rest' hrest' => ?_⟩
      · have hnot := head?_dropWhile hx
        simp only [mayFollow, hnot, Bool.not_false, Bool.true_and, Bool.not_eq_true', Bool.and_eq_false_iff]
        by_contra hcon
        simp only [not_or, Bool.not_eq_false, beq_iff_eq, Bool.or_eq_true, List.cons.injEq] at hcon
        obtain ⟨he, rfl⟩ := hcon
        have hnil : cs.takeWhile isWordChar = [] := by
          obtain he | he := he
          · exact he.2
          · exact he.2
        have hrest : cs.dropWhile isWordChar = cs := by
          conv_rhs => rw [← List.takeWhile_append_dropWhile (p := isWordChar) (l := cs), hnil]
          rfl
        rw [hrest] at hx
        exact h₄ ⟨he.imp And.left And.left, hx⟩
      · have htake := takeWhile_append_of_head hword fun x hx => by
          have := hrest' x hx
          simp only [mayFollow, Bool.and_eq_true, Bool.not_eq_true'] at this
          exact this.1
        have he : ¬((c = 'e' ∨ c = 'E') ∧ (cs.takeWhile isWordChar ++ rest').head? = some '\'') := by
          rintro ⟨hc, hhead⟩
          cases hcs : cs.takeWhile isWordChar with
          | nil =>
            rw [hcs] at hhead hrest'
            have hfollow := hrest' '\'' hhead
            obtain rfl | rfl := hc
            · cases hfollow
            · cases hfollow
          | cons y ys =>
            rw [hcs] at hhead hword
            have hy := hword y List.mem_cons_self
            obtain rfl := Option.some.inj hhead
            cases hy
        have hdash : ∀ ys : List Char, ¬(c = '$' ∨ c = '\\' ∨ (c = '-' ∧ ys.head? = some '-') ∨
            (c = '/' ∧ ys.head? = some '*')) := by
          rintro ys (rfl | rfl | ⟨rfl, -⟩ | ⟨rfl, -⟩) <;> cases h₅
        rw [List.cons_append]
        simp only [lex]
        rw [if_neg h₁, if_neg h₂, if_neg (hdash _), if_neg he, if_pos h₅, htake.1, htake.2]
    · obtain ⟨rfl, heq⟩ := Prod.mk.inj (Option.some.inj h)
      obtain ⟨rfl, rfl⟩ := Prod.mk.inj heq
      obtain ⟨rfl, hhead⟩ := h₆
      cases cs with
      | nil => cases hhead
      | cons x xs =>
        obtain rfl := Option.some.inj hhead
        refine ⟨rfl, List.cons_ne_nil _ _, fun x hx => ?_, fun rest' _ => ?_⟩
        · simp [mayFollow]
        · simp [lex, isWordStart]
    · obtain ⟨rfl, heq⟩ := Prod.mk.inj (Option.some.inj h)
      obtain ⟨rfl, rfl⟩ := Prod.mk.inj heq
      refine ⟨rfl, List.cons_ne_nil _ _, fun x hx => ?_, fun rest' hrest' => ?_⟩
      · rw [Option.mem_def] at hx
        simp only [mayFollow, Bool.not_eq_true', Bool.or_eq_false_iff, Bool.and_eq_false_iff]
        refine ⟨⟨?_, ?_⟩, ?_⟩
        · by_contra hcon
          simp only [not_or, Bool.not_eq_false, beq_iff_eq, List.cons.injEq, and_true] at hcon
          exact h₆ ⟨hcon.1, by rw [hx, hcon.2]⟩
        · by_contra hcon
          simp only [not_or, Bool.not_eq_false, beq_iff_eq, List.cons.injEq, and_true] at hcon
          exact h₃ (.inr (.inr (.inl ⟨hcon.1, by rw [hx, hcon.2]⟩)))
        · by_contra hcon
          simp only [not_or, Bool.not_eq_false, beq_iff_eq, List.cons.injEq, and_true] at hcon
          exact h₃ (.inr (.inr (.inr ⟨hcon.1, by rw [hx, hcon.2]⟩)))
      · have hfollow : ∀ x, rest'.head? = some x → mayFollow .symbol [c] x = true := fun x hx => hrest' x hx
        have hcolon : ¬(c = ':' ∧ rest'.head? = some ':') := by
          rintro ⟨rfl, hhead⟩
          have := hfollow _ hhead
          cases this
        have hdash : ¬(c = '$' ∨ c = '\\' ∨ (c = '-' ∧ rest'.head? = some '-') ∨
            (c = '/' ∧ rest'.head? = some '*')) := by
          rintro (rfl | rfl | ⟨rfl, hhead⟩ | ⟨rfl, hhead⟩)
          · exact h₃ (.inl rfl)
          · exact h₃ (.inr (.inl rfl))
          · have := hfollow _ hhead
            cases this
          · have := hfollow _ hhead
            cases this
        have he : ¬((c = 'e' ∨ c = 'E') ∧ rest'.head? = some '\'') := by
          rintro ⟨rfl | rfl, -⟩
          · exact h₅ rfl
          · exact h₅ rfl
        show lex (c :: rest') = _
        simp only [lex]
        rw [if_neg h₁, if_neg h₂, if_neg hdash, if_neg he, if_neg h₅, if_neg hcolon]

/-! ### The tokens of a text -/

/-- White space. -/
def IsGap (gap : List Char) : Prop := ∀ c ∈ gap, isSpace c = true

/-- A token as it is cut out of a text: white space, and a text that is one token and does not start with white
space. -/
structure SqlToken.Valid (t : SqlToken) : Prop where
  before : IsGap t.before
  head : ∀ c ∈ t.text.head?, isSpace c = false
  lex : lex t.text = some (t.kind, t.text, [])

/-- A text has these tokens, and this white space at the end. -/
inductive Lexes : List Char → List SqlToken → List Char → Prop
  | done {gap : List Char} (hgap : IsGap gap) : Lexes gap [] gap
  | token {t : SqlToken} {rest trailing : List Char} {ts : List SqlToken} (ht : t.Valid)
      (hends : Ends t.kind t.text rest) (h : Lexes rest ts trailing) :
      Lexes (t.before ++ t.text ++ rest) (t :: ts) trailing

theorem sourceText_cons (t : SqlToken) (ts : List SqlToken) :
    sourceText (t :: ts) = t.before ++ t.text ++ sourceText ts := rfl

theorem sourceText_append (ts us : List SqlToken) : sourceText (ts ++ us) = sourceText ts ++ sourceText us :=
  List.flatMap_append

theorem Lexes.sourceText {cs trailing : List Char} {ts : List SqlToken} (h : Lexes cs ts trailing) :
    cs = sourceText ts ++ trailing := by
  induction h with
  | done hgap => rfl
  | @token t rest trailing ts ht hends h ih =>
    rw [sourceText_cons, List.append_assoc (t.before ++ t.text), ← ih]

theorem Lexes.trailing {cs trailing : List Char} {ts : List SqlToken} (h : Lexes cs ts trailing) :
    IsGap trailing := by
  induction h with
  | done hgap => exact hgap
  | token ht hends h ih => exact ih

/-- The tokens of a text, one by one. -/
theorem lexes_cons_iff {t : SqlToken} {ts : List SqlToken} {trailing : List Char} :
    Lexes (sourceText (t :: ts) ++ trailing) (t :: ts) trailing ↔
      t.Valid ∧ Ends t.kind t.text (sourceText ts ++ trailing) ∧ Lexes (sourceText ts ++ trailing) ts trailing := by
  rw [sourceText_cons, List.append_assoc]
  constructor
  · intro h
    generalize hcs : t.before ++ t.text ++ (sourceText ts ++ trailing) = cs at h
    cases h with
    | token ht hends h =>
      rw [List.append_cancel_left_eq] at hcs
      subst hcs
      exact ⟨ht, hends, h⟩
  · rintro ⟨ht, hends, h⟩
    exact .token ht hends h

theorem lex_self {cs text rest : List Char} {kind : TokenKind} (h : lex cs = some (kind, text, rest)) :
    lex text = some (kind, text, []) := by
  obtain ⟨-, -, -, hlocal⟩ := lex_eq_some h
  have hself := hlocal [] fun c hc => by cases hc
  rwa [List.append_nil] at hself

theorem lexes_of_sqlTokensFrom {fuel : ℕ} {cs trailing : List Char} {ts : List SqlToken}
    (h : sqlTokensFrom fuel cs = some (ts, trailing)) : Lexes cs ts trailing := by
  induction fuel generalizing cs ts with
  | zero => cases h
  | succ fuel ih =>
    unfold sqlTokensFrom at h
    cases hdrop : cs.dropWhile isSpace with
    | nil =>
      rw [hdrop] at h
      obtain ⟨rfl, rfl⟩ := Prod.mk.inj (Option.some.inj h)
      exact .done (List.dropWhile_eq_nil_iff.1 hdrop)
    | cons c rest =>
      rw [hdrop] at h
      simp only [Option.bind_eq_bind, Option.bind_eq_some_iff, Prod.exists, Option.pure_def, Option.some.injEq,
        Prod.mk.injEq] at h
      obtain ⟨kind, text, rest', hlex, us, trailing', hrest, rfl, rfl⟩ := h
      obtain ⟨heq, hne, hends, -⟩ := lex_eq_some hlex
      have hcs : cs = cs.takeWhile isSpace ++ text ++ rest' := by
        rw [List.append_assoc, ← heq, ← hdrop, List.takeWhile_append_dropWhile]
      have hhead : ∀ x ∈ text.head?, isSpace x = false := by
        intro x hx
        have hxcs : x ∈ (cs.dropWhile isSpace).head? := by
          rw [hdrop, heq]
          cases text with
          | nil => exact absurd rfl hne
          | cons y ys => exact hx
        exact head?_dropWhile hxcs
      have htoken := Lexes.token (t := ⟨kind, cs.takeWhile isSpace, text⟩)
        ⟨fun x hx => List.mem_takeWhile_imp hx, hhead, lex_self hlex⟩ hends (ih hrest)
      rw [← hcs] at htoken
      exact htoken

theorem sqlTokensFrom_of_lexes {cs trailing : List Char} {ts : List SqlToken} (h : Lexes cs ts trailing) {fuel : ℕ}
    (hfuel : cs.length < fuel) : sqlTokensFrom fuel cs = some (ts, trailing) := by
  induction h generalizing fuel with
  | done hgap =>
    obtain ⟨fuel, rfl⟩ := Nat.exists_eq_succ_of_ne_zero (by omega : fuel ≠ 0)
    rw [sqlTokensFrom, List.dropWhile_eq_nil_iff.2 hgap]
  | @token t rest trailing ts ht hends h ih =>
    obtain ⟨fuel, rfl⟩ := Nat.exists_eq_succ_of_ne_zero (by omega : fuel ≠ 0)
    obtain ⟨-, hne, -, hlocal⟩ := lex_eq_some ht.lex
    obtain ⟨c, cs, hcs⟩ := List.exists_cons_of_ne_nil hne
    have hhead : ∀ x ∈ (t.text ++ rest).head?, isSpace x = false := fun x hx => by
      rw [hcs] at hx
      exact ht.head x (by rw [hcs]; exact hx)
    have hsplit := takeWhile_append_of_head ht.before hhead
    rw [List.append_assoc, sqlTokensFrom, hsplit.1, hsplit.2]
    have hlex := hlocal rest hends
    rw [hcs] at hlex ⊢
    simp only [List.cons_append, List.length_append, hcs, List.length_cons] at hlex hfuel ⊢
    rw [hlex]
    simp only [Option.bind_eq_bind, Option.bind_some]
    rw [ih (by omega), ← hcs]
    rfl

/-- The tokens are the ones that a text has. -/
theorem sqlTokens_eq_some_iff {cs trailing : List Char} {ts : List SqlToken} :
    sqlTokens cs = some (ts, trailing) ↔ Lexes cs ts trailing :=
  ⟨lexes_of_sqlTokensFrom, fun h => sqlTokensFrom_of_lexes h (Nat.lt_succ_self _)⟩

-- A doubled quote stays in its literal, and a colon alone is a symbol.
example : (sqlTokens "A ='it''s':: b:1".toList).map (fun r => r.1.map fun t => String.ofList t.value) =
    some ["a", "=", "'it''s'", "::", "b", ":", "1"] := by
  decide +kernel

end CivicLoop.Operations
