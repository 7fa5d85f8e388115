import CivicLoop.Drafts.Payload
import CivicLoop.Foundation.PrefixCode

/-!
# The HTML of a template

The body of a template is written from plain text, character by character: a line break becomes a `<br>` and a line
break, and the characters that mean something in HTML become escapes. The markup of an accepted template is therefore
its own: the paragraph around the body, the line breaks and the fixed footer of the second version.

## Main definitions

* `lineEscape` : what stands in the HTML for one character of the text.
* `bodyOffset`, `footerOffset` : where it stands, and where the footer begins.
* `PlainTemplate` : a template without markup or merge code from its text.

## Main results

* `plainHtml_injective` : the text is determined by its HTML.
* `templateHtml` : every accepted template is plain, and so is every authored one.

## References

Source: `backend/integrations/iterable_templates.py`, lines 57–131.
-/

namespace CivicLoop.IterableTemplates

variable {D : Type}

/-! ### Characters -/

/-- What stands in the HTML for a character of the text. -/
def lineEscape (c : Char) : List Char := if c = '\n' then "<br>\n".toList else htmlEscape c

/-- The escapes of HTML. -/
def htmlEscapes : List (List Char) := ["&amp;", "&lt;", "&gt;", "&quot;", "&#x27;"].map String.toList

/-- A character of the text becomes a line break, an escape, or stands for itself. -/
theorem lineEscape_cases (c : Char) :
    (c = '\n' ∧ lineEscape c = "<br>\n".toList) ∨ lineEscape c ∈ htmlEscapes ∨
      (lineEscape c = [c] ∧ c ≠ '<' ∧ c ≠ '>' ∧ c ≠ '&' ∧ c ≠ '"' ∧ c.toNat ≠ 39) := by
  unfold lineEscape htmlEscape
  split_ifs with hline hamp hlt hgt hquote happ
  · exact .inl ⟨hline, rfl⟩
  · exact .inr (.inl (by decide))
  · exact .inr (.inl (by decide))
  · exact .inr (.inl (by decide))
  · exact .inr (.inl (by decide))
  · exact .inr (.inl (by decide))
  · exact .inr (.inr ⟨rfl, hlt, hgt, hamp, hquote, happ⟩)

theorem htmlEscape_flatMap_line (c : Char) :
    (htmlEscape c).flatMap (fun c => if c = '\n' then "<br>\n".toList else [c]) = lineEscape c := by
  unfold lineEscape htmlEscape
  split_ifs with hline hamp <;> simp_all

theorem plainHtml_eq (body : List Char) :
    plainHtml body = "<p>".toList ++ body.flatMap lineEscape ++ "</p>".toList := by
  rw [plainHtml, List.flatMap_assoc]
  simp only [htmlEscape_flatMap_line]

/-- The characters that do not stand for themselves. -/
def replaced : List Char := ['\n', '&', '<', '>', '"', Char.ofNat 39]

theorem lineEscape_of_notMem {c : Char} (h : c ∉ replaced) : lineEscape c = [c] := by
  simp only [replaced, List.mem_cons, List.not_mem_nil, or_false, not_or] at h
  obtain ⟨hline, hamp, hlt, hgt, hquote, happ⟩ := h
  have happ' : c.toNat ≠ 39 := fun hc => happ (by rw [← hc, Char.ofNat_toNat])
  simp only [lineEscape, htmlEscape, if_neg hline, if_neg hamp, if_neg hlt, if_neg hgt, if_neg hquote, if_neg happ']

/-- No character's HTML is the beginning of another one's. -/
theorem prefixCode_lineEscape : PrefixCode lineEscape where
  ne_nil c := by
    by_cases hc : c ∈ replaced
    · have hall : ∀ c ∈ replaced, lineEscape c ≠ [] := List.forall_iff_forall_mem.1 (by decide)
      exact hall c hc
    · rw [lineEscape_of_notMem hc]
      simp
  eq_of_prefix x y h := by
    by_cases hx : x ∈ replaced
    · by_cases hy : y ∈ replaced
      · have hall : ∀ pair ∈ replaced.product replaced, lineEscape pair.1 <+: lineEscape pair.2 → pair.1 = pair.2 := by
          decide
        exact hall (x, y) (List.pair_mem_product.2 ⟨hx, hy⟩) h
      · -- an escape is longer than a character
        have hall : ∀ x ∈ replaced, 1 < (lineEscape x).length := List.forall_iff_forall_mem.1 (by decide)
        have hlong := hall x hx
        have hle := h.length_le
        rw [lineEscape_of_notMem hy, List.length_singleton] at hle
        omega
    · rw [lineEscape_of_notMem hx] at h
      by_cases hy : y ∈ replaced
      · -- an escape begins with a character that is replaced
        have hall : ∀ y ∈ replaced, (lineEscape y).head?.any (· ∈ replaced) = true :=
          List.forall_iff_forall_mem.1 (by decide)
        obtain ⟨c, hhead, hc⟩ := (Option.any_eq_true _ _).1 (hall y hy)
        obtain ⟨rest, hrest⟩ := h
        rw [← hrest] at hhead
        obtain rfl : x = c := by simpa using hhead
        exact absurd (of_decide_eq_true hc) hx
      · rw [lineEscape_of_notMem hy] at h
        simpa using h

/-- **The text is determined by its HTML.** -/
theorem plainHtml_injective : Function.Injective plainHtml := by
  intro body body' h
  rw [plainHtml_eq, plainHtml_eq] at h
  exact prefixCode_lineEscape.flatMap_injective (List.append_cancel_left (List.append_cancel_right h))

/-! ### Positions -/

/-- A mark stands at a position of a text. -/
def StandsAt (mark text : List Char) (i : ℕ) : Prop := mark <+: text.drop i

/-- Where the HTML of a character of the text begins. -/
def bodyOffset (plain : List Char) (k : ℕ) : ℕ := 3 + codeOffset lineEscape plain k

/-- Where the end of the paragraph begins. -/
def closingOffset (plain : List Char) : ℕ := 3 + (plain.flatMap lineEscape).length

/-- Where the footer begins. -/
def footerOffset (plain : List Char) : ℕ := closingOffset plain + 4

/-- The marks of a template language. -/
def mergeMarks : List (List Char) := "\x7b\x7d[]".toList.map fun c => [c, c]

/-- A template whose markup and merge code are its own: the paragraph, a line break for each one of the text, and
the footer of the second version. -/
structure PlainTemplate (version : PayloadVersion) (subject plain html : List Char) : Prop where
  opening : StandsAt "<p>".toList html 0
  closing : StandsAt "</p>".toList html (closingOffset plain)
  footer : html.drop (footerOffset plain) = if version = .two then marketingFooter.toList else []
  brackets : ∀ i c, html[i]? = some c → c = '<' ∨ c = '>' →
    i < 3 ∨
      (∃ k, plain[k]? = some '\n' ∧ StandsAt "<br>".toList html (bodyOffset plain k) ∧ bodyOffset plain k ≤ i ∧
        i < bodyOffset plain k + 4) ∨
      (closingOffset plain ≤ i ∧ i < closingOffset plain + 4) ∨ (version = .two ∧ footerOffset plain ≤ i)
  oneBreak : ∀ j k, j < k → k < plain.length → bodyOffset plain j < bodyOffset plain k
  quotes : ∀ i c, html[i]? = some c → i < footerOffset plain → c ≠ '"' ∧ c.toNat ≠ 39
  escapes : ∀ i, html[i]? = some '&' → i < footerOffset plain → ∃ escape ∈ htmlEscapes, StandsAt escape html i
  marks : ∀ mark ∈ mergeMarks, ∀ i, StandsAt mark html i → version = .two ∧ footerOffset plain ≤ i
  noMarks : ∀ mark ∈ mergeMarks, ∀ i, ¬StandsAt mark subject i ∧ ¬StandsAt mark plain i

theorem length_plainHtml (plain : List Char) : (plainHtml plain).length = footerOffset plain := by
  rw [plainHtml_eq, List.length_append, List.length_append, footerOffset, closingOffset]
  rfl

/-- The HTML of a character stands at its offset. -/
theorem standsAt_lineEscape {plain rest : List Char} {k : ℕ} {x : Char} (hx : plain[k]? = some x) :
    StandsAt (lineEscape x) (plainHtml plain ++ rest) (bodyOffset plain k) := by
  have hprefix := prefix_drop_codeOffset (f := lineEscape) hx
  have hle : codeOffset lineEscape plain k ≤ (plain.flatMap lineEscape).length := by
    rw [← codeOffset_length]
    have hk : k < plain.length := (List.getElem?_eq_some_iff.1 hx).1
    exact monotone_codeOffset lineEscape plain hk.le
  rw [StandsAt, plainHtml_eq, bodyOffset, List.append_assoc, List.append_assoc, ← List.drop_drop]
  have hopen : ("<p>".toList ++ (plain.flatMap lineEscape ++ ("</p>".toList ++ rest))).drop 3 =
      plain.flatMap lineEscape ++ ("</p>".toList ++ rest) := rfl
  rw [hopen, List.drop_append_of_le_length hle]
  exact hprefix.trans (List.prefix_append _ _)

/-- Where a character of the HTML comes from. -/
theorem getElem?_html_cases {plain rest : List Char} {i : ℕ} {c : Char}
    (h : (plainHtml plain ++ rest)[i]? = some c) :
    "<p>".toList[i]? = some c ∨
      (∃ k x j, plain[k]? = some x ∧ (lineEscape x)[j]? = some c ∧ i = bodyOffset plain k + j) ∨
        (∃ j, "</p>".toList[j]? = some c ∧ i = closingOffset plain + j) ∨ footerOffset plain ≤ i := by
  rw [plainHtml_eq, List.append_assoc, List.append_assoc, List.getElem?_append] at h
  split_ifs at h with hopen
  · exact .inl h
  · have hthree : "<p>".toList.length = 3 := rfl
    rw [hthree] at h hopen
    rw [List.getElem?_append] at h
    split_ifs at h with hbody
    · obtain ⟨k, x, j, hx, hc, hi⟩ := exists_of_getElem?_flatMap h
      refine .inr (.inl ⟨k, x, j, hx, hc, ?_⟩)
      rw [bodyOffset]
      omega
    · rw [List.getElem?_append] at h
      split_ifs at h with hclose
      · refine .inr (.inr (.inl ⟨_, h, ?_⟩))
        rw [closingOffset]
        omega
      · have hfour : "</p>".toList.length = 4 := rfl
        rw [hfour] at hclose
        refine .inr (.inr (.inr ?_))
        rw [footerOffset, closingOffset]
        omega

/-! ### What stands where -/

/-- No escape holds a bracket, a quote, or an ampersand after its first character. -/
theorem mem_htmlEscapes {escape : List Char} (h : escape ∈ htmlEscapes) :
    (∀ c ∈ escape, c ≠ '<' ∧ c ≠ '>' ∧ c ≠ '"' ∧ c.toNat ≠ 39 ∧ [c, c] ∉ mergeMarks) ∧ '&' ∉ escape.tail := by
  have hall : ∀ escape ∈ htmlEscapes,
      escape.Forall (fun c => c ≠ '<' ∧ c ≠ '>' ∧ c ≠ '"' ∧ c.toNat ≠ 39 ∧ [c, c] ∉ mergeMarks) ∧
        '&' ∉ escape.tail := by
    decide
  exact ⟨List.forall_iff_forall_mem.1 (hall escape h).1, (hall escape h).2⟩

/-- The brackets of the body are those of its line breaks. -/
theorem bracket_lineEscape {x c : Char} {j : ℕ} (h : (lineEscape x)[j]? = some c) (hc : c = '<' ∨ c = '>') :
    x = '\n' ∧ j < 4 := by
  have hmem := List.mem_of_getElem? h
  obtain ⟨rfl, hline⟩ | hescape | ⟨hself, hlt, hgt, -⟩ := lineEscape_cases x
  · refine ⟨rfl, ?_⟩
    rw [hline] at h
    by_contra hj
    have hlen : j < 5 := (List.getElem?_eq_some_iff.1 h).1
    obtain rfl : j = 4 := by omega
    obtain rfl : '\n' = c := Option.some.inj h
    revert hc
    decide
  · obtain ⟨hlt, hgt, -⟩ := (mem_htmlEscapes hescape).1 c hmem
    exact absurd hc (not_or.2 ⟨hlt, hgt⟩)
  · rw [hself, List.mem_singleton] at hmem
    subst hmem
    exact absurd hc (not_or.2 ⟨hlt, hgt⟩)

theorem quote_lineEscape {x c : Char} (h : c ∈ lineEscape x) : c ≠ '"' ∧ c.toNat ≠ 39 := by
  obtain ⟨-, hline⟩ | hescape | ⟨hself, -, -, -, hquote, happ⟩ := lineEscape_cases x
  · rw [hline] at h
    have hall : ∀ c ∈ "<br>\n".toList, c ≠ '"' ∧ c.toNat ≠ 39 := List.forall_iff_forall_mem.1 (by decide)
    exact hall c h
  · obtain ⟨-, -, hquote, happ, -⟩ := (mem_htmlEscapes hescape).1 c h
    exact ⟨hquote, happ⟩
  · rw [hself, List.mem_singleton] at h
    subst h
    exact ⟨hquote, happ⟩

/-- An ampersand of the body begins an escape. -/
theorem amp_lineEscape {x : Char} {j : ℕ} (h : (lineEscape x)[j]? = some '&') : lineEscape x ∈ htmlEscapes ∧ j = 0 := by
  have hmem := List.mem_of_getElem? h
  obtain ⟨-, hline⟩ | hescape | ⟨hself, -, -, hamp, -⟩ := lineEscape_cases x
  · rw [hline] at hmem
    exact absurd hmem (by decide)
  · refine ⟨hescape, ?_⟩
    cases j with
    | zero => rfl
    | succ j =>
      rw [← List.getElem?_tail] at h
      exact absurd (List.mem_of_getElem? h) (mem_htmlEscapes hescape).2
  · rw [hself, List.mem_singleton] at hmem
    exact absurd hmem.symm hamp

/-- A character of a mark stands for itself only. -/
theorem mark_lineEscape {x c : Char} {j : ℕ} (h : (lineEscape x)[j]? = some c) (hmark : [c, c] ∈ mergeMarks) :
    x = c ∧ lineEscape x = [c] ∧ j = 0 := by
  have hmem := List.mem_of_getElem? h
  obtain ⟨-, hline⟩ | hescape | ⟨hself, -⟩ := lineEscape_cases x
  · rw [hline] at hmem
    have hall : ∀ c ∈ "<br>\n".toList, [c, c] ∉ mergeMarks := List.forall_iff_forall_mem.1 (by decide)
    exact absurd hmark (hall c hmem)
  · obtain ⟨-, -, -, -, hno⟩ := (mem_htmlEscapes hescape).1 c hmem
    exact absurd hmark hno
  · have hj : j < 1 := by
      have hlen := (List.getElem?_eq_some_iff.1 h).1
      rwa [hself, List.length_singleton] at hlen
    rw [hself, List.mem_singleton] at hmem
    subst hmem
    exact ⟨rfl, hself, by omega⟩

theorem getElem?_of_standsAt {text : List Char} {c : Char} {i : ℕ} (h : StandsAt [c, c] text i) :
    text[i]? = some c ∧ text[i + 1]? = some c := by
  obtain ⟨rest, hrest⟩ := h
  have hfirst : (text.drop i)[0]? = some c := by rw [← hrest]; rfl
  have hsecond : (text.drop i)[1]? = some c := by rw [← hrest]; rfl
  rw [List.getElem?_drop] at hfirst hsecond
  exact ⟨hfirst, hsecond⟩

theorem hasDouble_of_getElem? {c : Char} {text : List Char} {i : ℕ} (h : text[i]? = some c)
    (h' : text[i + 1]? = some c) : hasDouble c text = true := by
  induction text generalizing i with
  | nil => simp at h
  | cons a text ih =>
    cases text with
    | nil => simp at h'
    | cons b text =>
      cases i with
      | zero => simp_all [hasDouble]
      | succ i =>
        rw [hasDouble, ih (i := i) (by simpa using h) (by simpa using h'), Bool.or_true]

/-- **A mark of the HTML stands in the footer**, unless the text has one. -/
theorem footer_of_mark {plain rest : List Char} {c : Char} {i : ℕ} (hmark : [c, c] ∈ mergeMarks)
    (hplain : hasDouble c plain = false) (h : StandsAt [c, c] (plainHtml plain ++ rest) i) :
    footerOffset plain ≤ i := by
  have hparagraph : c ∉ "<p>".toList ∧ c ∉ "</p>".toList := by
    have hall : ∀ mark ∈ mergeMarks, mark.Forall fun c => c ∉ "<p>".toList ∧ c ∉ "</p>".toList := by decide
    exact List.forall_iff_forall_mem.1 (hall _ hmark) c (by simp)
  -- a character of a mark before the footer is one of the text
  have hbody : ∀ i, (plainHtml plain ++ rest)[i]? = some c → i < footerOffset plain →
      ∃ k, plain[k]? = some c ∧ lineEscape c = [c] ∧ i = bodyOffset plain k := by
    intro i hi hlt
    obtain hopen | ⟨k, x, j, hx, hc, rfl⟩ | ⟨j, hclose, -⟩ | hfooter := getElem?_html_cases hi
    · exact absurd (List.mem_of_getElem? hopen) hparagraph.1
    · obtain ⟨rfl, hself, rfl⟩ := mark_lineEscape hc hmark
      exact ⟨k, hx, hself, rfl⟩
    · exact absurd (List.mem_of_getElem? hclose) hparagraph.2
    · omega
  obtain ⟨hfirst, hsecond⟩ := getElem?_of_standsAt h
  by_contra hi
  obtain ⟨k, hk, hself, hik⟩ := hbody i hfirst (by omega)
  have hnext : bodyOffset plain (k + 1) = i + 1 := by
    rw [bodyOffset, codeOffset_succ hk, hself, hik, bodyOffset, List.length_singleton]
    omega
  have hinside : bodyOffset plain (k + 1) ≤ closingOffset plain := by
    have hlt : k < plain.length := (List.getElem?_eq_some_iff.1 hk).1
    have hmono := monotone_codeOffset lineEscape plain (Nat.succ_le_of_lt hlt)
    rw [codeOffset_length] at hmono
    rw [bodyOffset, closingOffset]
    exact Nat.add_le_add_left hmono 3
  obtain ⟨k', hk', -, hik'⟩ := hbody (i + 1) hsecond (by rw [footerOffset]; omega)
  -- the second character stands right after the first one in the text too
  have hkk : k' = k + 1 := by
    have hlt : k < plain.length := (List.getElem?_eq_some_iff.1 hk).1
    have hlt' : k' < plain.length := (List.getElem?_eq_some_iff.1 hk').1
    rcases lt_trichotomy k' (k + 1) with hless | heq | hmore
    · have hmono := monotone_codeOffset lineEscape plain (Nat.le_of_lt_succ hless)
      rw [bodyOffset] at hik hik'
      omega
    · exact heq
    · have hoffset := prefixCode_lineEscape.codeOffset_lt (hmore.trans hlt') hmore
      rw [bodyOffset] at hnext hik'
      omega
  rw [hkk] at hk'
  rw [hasDouble_of_getElem? hk hk'] at hplain
  cases hplain

/-! ### Templates -/

theorem htmlOf_eq (version : PayloadVersion) (plain : List Char) :
    htmlOf version plain = plainHtml plain ++ if version = .two then marketingFooter.toList else [] := rfl

/-- A position at or after the footer is one of the second version. -/
theorem footer_of_le {version : PayloadVersion} {plain : List Char} {i : ℕ} {c : Char}
    (h : (htmlOf version plain)[i]? = some c) (hi : footerOffset plain ≤ i) :
    version = .two ∧ footerOffset plain ≤ i := by
  refine ⟨?_, hi⟩
  by_contra hversion
  rw [htmlOf_eq, if_neg hversion, List.append_nil] at h
  have hlt := (List.getElem?_eq_some_iff.1 h).1
  rw [length_plainHtml] at hlt
  omega

/-- No mark of a template language stands in the text. -/
def NoMarks (text : List Char) : Prop := ∀ c, [c, c] ∈ mergeMarks → hasDouble c text = false

theorem NoMarks.not_standsAt {text : List Char} (h : NoMarks text) {mark : List Char} (hmark : mark ∈ mergeMarks)
    (i : ℕ) : ¬StandsAt mark text i := by
  intro hstands
  obtain ⟨c, -, rfl⟩ := List.mem_map.1 hmark
  obtain ⟨hfirst, hsecond⟩ := getElem?_of_standsAt hstands
  have hdouble := hasDouble_of_getElem? hfirst hsecond
  rw [h c hmark] at hdouble
  cases hdouble

/-- **The HTML of a text without marks is plain.** -/
theorem plainTemplate_htmlOf (version : PayloadVersion) {subject plain : List Char} (hsubject : NoMarks subject)
    (hplain : NoMarks plain) : PlainTemplate version subject plain (htmlOf version plain) where
  opening := by
    rw [htmlOf_eq, plainHtml_eq, List.append_assoc, List.append_assoc]
    exact List.prefix_append _ _
  closing := by
    have hlength : ("<p>".toList ++ plain.flatMap lineEscape).length = closingOffset plain := by
      rw [List.length_append, closingOffset]
      rfl
    rw [htmlOf_eq, plainHtml_eq, List.append_assoc, StandsAt, ← hlength, List.drop_left]
    exact List.prefix_append _ _
  footer := by rw [htmlOf_eq, ← length_plainHtml, List.drop_left]
  brackets i c h hc := by
    obtain hopen | ⟨k, x, j, hx, hline, rfl⟩ | ⟨j, hclose, rfl⟩ | hfooter := getElem?_html_cases h
    · exact .inl (List.getElem?_eq_some_iff.1 hopen).1
    · obtain ⟨rfl, hj⟩ := bracket_lineEscape hline hc
      have hstands : StandsAt "<br>\n".toList (htmlOf version plain) (bodyOffset plain k) := standsAt_lineEscape hx
      have hbreak : "<br>".toList <+: "<br>\n".toList := ⟨['\n'], rfl⟩
      exact .inr (.inl ⟨k, hx, hbreak.trans hstands, by omega, by omega⟩)
    · have hj : j < 4 := (List.getElem?_eq_some_iff.1 hclose).1
      exact .inr (.inr (.inl ⟨by omega, by omega⟩))
    · exact .inr (.inr (.inr (footer_of_le h hfooter)))
  oneBreak j k hjk hk := Nat.add_lt_add_left (prefixCode_lineEscape.codeOffset_lt (hjk.trans hk) hjk) 3
  quotes i c h hi := by
    have hparagraph : ∀ c ∈ "<p>".toList ++ "</p>".toList, c ≠ '"' ∧ c.toNat ≠ 39 :=
      List.forall_iff_forall_mem.1 (by decide)
    obtain hopen | ⟨k, x, j, -, hline, -⟩ | ⟨j, hclose, -⟩ | hfooter := getElem?_html_cases h
    · exact hparagraph c (List.mem_append_left _ (List.mem_of_getElem? hopen))
    · exact quote_lineEscape (List.mem_of_getElem? hline)
    · exact hparagraph c (List.mem_append_right _ (List.mem_of_getElem? hclose))
    · omega
  escapes i h hi := by
    have hparagraph : '&' ∉ "<p>".toList ++ "</p>".toList := by decide
    obtain hopen | ⟨k, x, j, hx, hline, rfl⟩ | ⟨j, hclose, -⟩ | hfooter := getElem?_html_cases h
    · exact absurd (List.mem_append_left _ (List.mem_of_getElem? hopen)) hparagraph
    · obtain ⟨hescape, rfl⟩ := amp_lineEscape hline
      exact ⟨_, hescape, standsAt_lineEscape hx⟩
    · exact absurd (List.mem_append_right _ (List.mem_of_getElem? hclose)) hparagraph
    · omega
  marks mark hmark i h := by
    obtain ⟨c, -, rfl⟩ := List.mem_map.1 hmark
    exact footer_of_le (getElem?_of_standsAt h).1 (footer_of_mark hmark (hplain c hmark) h)
  noMarks mark hmark i := ⟨hsubject.not_standsAt hmark i, hplain.not_standsAt hmark i⟩

/-- The text is determined by the HTML, whatever the version: the first one has no quote, and the footer has. -/
theorem htmlOf_injective {version version' : PayloadVersion} {plain plain' : List Char}
    (h : htmlOf version plain = htmlOf version' plain') : plain = plain' := by
  have hquote : ∀ {plain plain' : List Char}, htmlOf .one plain ≠ htmlOf .two plain' := by
    intro plain plain' heq
    have hmem : '"' ∈ htmlOf .one plain := by
      rw [heq]
      exact List.mem_append_right _ (by decide)
    rw [htmlOf_eq, if_neg (by decide), List.append_nil, plainHtml_eq] at hmem
    simp only [List.mem_append, List.mem_flatMap] at hmem
    obtain (hopen | ⟨x, -, hx⟩) | hclose := hmem
    · exact absurd hopen (by decide)
    · exact (quote_lineEscape hx).1 rfl
    · exact absurd hclose (by decide)
  cases version with
  | one =>
    cases version' with
    | one =>
      simp only [htmlOf_eq, if_neg (by decide : PayloadVersion.one ≠ .two), List.append_nil] at h
      exact plainHtml_injective h
    | two => exact absurd h hquote
  | two =>
    cases version' with
    | one => exact absurd h.symm hquote
    | two =>
      simp only [htmlOf_eq, if_true] at h
      exact plainHtml_injective (List.append_cancel_right h)

/-- The template of a payload carries no markup or merge code from its text. -/
def PlainPayload (H : Hash D) (payload : Json D) : Prop :=
  ∃ version subject plain html, payloadVersion payload = some version ∧ payload.text? "subject" = some subject ∧
    payload.text? "plainText" = some plain ∧ payload.text? "html" = some html ∧
    PlainTemplate version (subject.render H) (plain.render H) (html.render H)

/-- What the checks of a template leave. -/
theorem validateTemplatePayload_eq_some {H : Hash D} {payload payload' : Json D}
    (h : validateTemplatePayload H payload = some payload') :
    payload' = payload ∧ ∃ version subject plain html, payloadVersion payload = some version ∧
      payload.text? "subject" = some subject ∧ payload.text? "plainText" = some plain ∧
      payload.text? "html" = some html ∧ NoMarks (subject.render H) ∧ NoMarks (plain.render H) ∧
      html.render H = htmlOf version (plain.render H) := by
  have hnoMarks : ∀ t : Text D, isPlain H t = true → NoMarks (t.render H) := by
    intro t ht c hc
    rw [isPlain, List.all_eq_true] at ht
    obtain ⟨c', hmem, hcc⟩ := List.mem_map.1 hc
    obtain rfl : c' = c := by simpa using hcc
    simpa using ht c' hmem
  unfold validateTemplatePayload at h
  split at h
  · rename_i version items plain html hversion hplain hhtml
    split_ifs at h with hchecks
    cases h
    simp only [Bool.and_eq_true] at hchecks
    obtain ⟨⟨⟨-, hmarks⟩, hexpected⟩, -⟩ := hchecks
    simp only [List.all_cons, List.all_nil, Bool.and_true, Bool.and_eq_true, textIs] at hmarks
    obtain ⟨hplainMarks, hsubjectMarks⟩ := hmarks
    rw [hplain, Option.any_some] at hplainMarks
    obtain ⟨subject, hsubject, hsubjectMarks⟩ := (Option.any_eq_true _ _).1 hsubjectMarks
    exact ⟨rfl, version, subject, plain, html, hversion, hsubject, hplain, hhtml, hnoMarks _ hsubjectMarks,
      hnoMarks _ hplainMarks, by simpa using hexpected⟩
  · cases h

theorem plainPayload_of_validateTemplatePayload {H : Hash D} {payload payload' : Json D}
    (h : validateTemplatePayload H payload = some payload') : PlainPayload H payload' := by
  obtain ⟨rfl, version, subject, plain, html, hversion, hsubject, hplain, hhtml, hsubjectMarks, hplainMarks,
    hexpected⟩ := validateTemplatePayload_eq_some h
  refine ⟨version, subject, plain, html, hversion, hsubject, hplain, hhtml, ?_⟩
  rw [hexpected]
  exact plainTemplate_htmlOf version hsubjectMarks hplainMarks

/-- An authored template has passed the checks. -/
theorem validateTemplatePayload_of_authorPayload {H : Hash D} {intentId : Uuid} {operationKind : OperationKind}
    {content sender payload : Json D} {version : PayloadVersion}
    (h : authorPayload H intentId operationKind content sender version = .ok payload) :
    ∃ written, validateTemplatePayload H written = some payload := by
  simp only [authorPayload, bind_eq_ok, ensure_eq_ok, fetch_eq_ok] at h
  obtain ⟨-, -, kind, -, contentOfKind, -, subject, -, body, -, h⟩ := h
  split at h
  · exact ⟨_, (fetch_eq_ok).1 h⟩
  · cases h

/-- Templates carry no markup or merge code from their text, and their HTML determines the text. -/
structure TemplateHtml (H : Hash D) : Prop where
  accepted : ∀ payload payload', validateTemplatePayload H payload = some payload' → PlainPayload H payload'
  authored : ∀ intentId operationKind content sender version payload,
    authorPayload H intentId operationKind content sender version = .ok payload → PlainPayload H payload
  injective : Function.Injective plainHtml
  determined : ∀ written written' payload payload' html html' plain plain',
    validateTemplatePayload H written = some payload → validateTemplatePayload H written' = some payload' →
      payload.text? "html" = some html → payload'.text? "html" = some html' → html.render H = html'.render H →
        payload.text? "plainText" = some plain → payload'.text? "plainText" = some plain' →
          plain.render H = plain'.render H

/-- **The HTML of a template carries no markup or merge code from its text**: for every accepted payload, and so
for every authored one, the brackets are those of the paragraph, the line breaks and the footer, quotes are
escaped and ampersands begin escapes before the footer, marks of a template language stand in the footer only, and
the text is determined by the HTML. -/
theorem templateHtml (H : Hash D) : TemplateHtml H where
  accepted _ _ h := plainPayload_of_validateTemplatePayload h
  authored _ _ _ _ _ _ h := by
    obtain ⟨written, hwritten⟩ := validateTemplatePayload_of_authorPayload h
    exact plainPayload_of_validateTemplatePayload hwritten
  injective := plainHtml_injective
  determined written written' payload payload' html html' plain plain' h h' hhtml hhtml' hrender hplain hplain' := by
    obtain ⟨rfl, version, -, text, markup, -, -, htext, hmarkup, -, -, hexpected⟩ := validateTemplatePayload_eq_some h
    obtain ⟨rfl, version', -, text', markup', -, -, htext', hmarkup', -, -, hexpected'⟩ :=
      validateTemplatePayload_eq_some h'
    obtain rfl := Option.some.inj (hhtml.symm.trans hmarkup)
    obtain rfl := Option.some.inj (hhtml'.symm.trans hmarkup')
    obtain rfl := Option.some.inj (hplain.symm.trans htext)
    obtain rfl := Option.some.inj (hplain'.symm.trans htext')
    exact htmlOf_injective (hexpected.symm.trans (hrender.trans hexpected'))

end CivicLoop.IterableTemplates
