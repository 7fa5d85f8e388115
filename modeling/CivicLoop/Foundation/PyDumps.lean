import CivicLoop.Foundation.PyValue
import Mathlib

/-!
# The JSON text of a value determines it

Two values with one text are equal, when the keys of their dictionaries are written in the order in which they stand.
The texts are read from the left. A string ends with the first quote that is not escaped, and its code units are read
one after another; a number ends before a comma or a closing bracket; and the first character of a text tells which
kind of value it is. The code units determine the string unless a high surrogate stands before a low one, which is
the code point that the two stand for.

## Main definitions

* `NoPair` : no high surrogate stands before a low one.
* `PyValue.noPairs` : no string of a value has such a pair.
* `Delimited` : what follows a value in a text.

## Main results

* `encodeString_inj` : a string is determined by its text.
* `PyValue.encode_inj` : a value is determined by its text.
-/

namespace CivicLoop

/-! ### Strings -/

/-- The code unit is a high surrogate. -/
def IsHigh (u : ℕ) : Prop := 0xD800 ≤ u ∧ u < 0xDC00

/-- The code unit is a low surrogate. -/
def IsLow (u : ℕ) : Prop := 0xDC00 ≤ u ∧ u < 0xE000

instance : DecidablePred IsHigh := fun u => inferInstanceAs (Decidable (0xD800 ≤ u ∧ u < 0xDC00))

instance : DecidablePred IsLow := fun u => inferInstanceAs (Decidable (0xDC00 ≤ u ∧ u < 0xE000))

/-- No high surrogate stands directly before a low one. -/
def NoPair (s : PyStr) : Prop := s.IsChain fun a b => ¬(IsHigh a.val ∧ IsLow b.val)

instance : DecidablePred NoPair := fun s =>
  inferInstanceAs (Decidable (s.IsChain fun a b => ¬(IsHigh a.val ∧ IsLow b.val)))

variable {F : Type}

namespace PyValue

theorem codeUnits_cases (c : CodePoint) :
    (∃ u : CodeUnit, codeUnits c = [u] ∧ u.val = c.val) ∨
      ∃ high low : CodeUnit, codeUnits c = [high, low] ∧ IsHigh high.val ∧ IsLow low.val ∧
        c.val = 0x10000 + (high.val - 0xD800) * 0x400 + (low.val - 0xDC00) := by
  have hc := c.isLt
  unfold codeUnits
  split_ifs with hplane
  · exact .inl ⟨_, rfl, rfl⟩
  · refine .inr ⟨_, _, rfl, ⟨?_, ?_⟩, ⟨?_, ?_⟩, ?_⟩ <;> dsimp only <;> omega

/-- A low surrogate that comes first is a code point of its own. -/
theorem exists_of_isLow {s : PyStr} {low : CodeUnit} {rest : List CodeUnit} (h : s.flatMap codeUnits = low :: rest)
    (hlow : IsLow low.val) : ∃ c s', s = c :: s' ∧ c.val = low.val := by
  cases s with
  | nil => cases h
  | cons c s =>
    rw [List.flatMap_cons] at h
    obtain ⟨u, hunits, hu⟩ | ⟨high, low', hunits, hhigh, -, -⟩ := codeUnits_cases c
    · rw [hunits] at h
      obtain ⟨rfl, -⟩ := List.cons.inj h
      exact ⟨c, s, rfl, hu.symm⟩
    · rw [hunits] at h
      obtain ⟨rfl, -⟩ := List.cons.inj h
      have hlt := hhigh.2
      have hle := hlow.1
      omega

/-- A string without a pair does not begin with the surrogates of another code point. -/
theorem false_of_pair {c : CodePoint} {s : PyStr} {u high low : CodeUnit} {rest : List CodeUnit}
    (hs : NoPair (c :: s)) (hu : u.val = c.val) (hhigh : IsHigh high.val) (hlow : IsLow low.val)
    (h : u :: s.flatMap codeUnits = high :: low :: rest) : False := by
  obtain ⟨rfl, htail⟩ := List.cons.inj h
  obtain ⟨d, s, rfl, hd⟩ := exists_of_isLow htail hlow
  refine (List.isChain_cons_cons.1 hs).1 ⟨?_, ?_⟩
  · rwa [← hu]
  · rwa [hd]

/-- **The code units determine a string** without a pair of surrogates. -/
theorem eq_of_codeUnits {s s' : PyStr} (hs : NoPair s) (hs' : NoPair s')
    (h : s.flatMap codeUnits = s'.flatMap codeUnits) : s = s' := by
  induction s generalizing s' with
  | nil =>
    cases s' with
    | nil => rfl
    | cons d s' => obtain ⟨_, hunits, -⟩ | ⟨_, _, hunits, -⟩ := codeUnits_cases d <;> simp [hunits] at h
  | cons c s ih =>
    cases s' with
    | nil => obtain ⟨_, hunits, -⟩ | ⟨_, _, hunits, -⟩ := codeUnits_cases c <;> simp [hunits] at h
    | cons d s' =>
      have htail : ∀ (c : CodePoint) (s : PyStr), NoPair (c :: s) → NoPair s := fun _ _ hs => hs.tail
      rw [List.flatMap_cons, List.flatMap_cons] at h
      obtain ⟨u, hc, hu⟩ | ⟨high, low, hc, hhigh, hlow, hval⟩ := codeUnits_cases c
      · obtain ⟨u', hd, hu'⟩ | ⟨high', low', hd, hhigh', hlow', -⟩ := codeUnits_cases d
        · rw [hc, hd] at h
          obtain ⟨rfl, hrest⟩ := List.cons.inj h
          rw [Fin.ext (hu.symm.trans hu'), ih (htail c s hs) (htail d s' hs') hrest]
        · rw [hc, hd] at h
          exact (false_of_pair hs hu hhigh' hlow' h).elim
      · obtain ⟨u', hd, hu'⟩ | ⟨high', low', hd, -, -, hval'⟩ := codeUnits_cases d
        · rw [hc, hd] at h
          exact (false_of_pair hs' hu' hhigh hlow h.symm).elim
        · simp only [hc, hd, List.cons_append, List.nil_append, List.cons.injEq] at h
          obtain ⟨rfl, rfl, hrest⟩ := h
          rw [Fin.ext (hval.trans hval'.symm), ih (htail c s hs) (htail d s' hs') hrest]

/-! ### Escapes -/

theorem hexDigits_injective (length : ℕ) {n m : ℕ} (hn : n < 16 ^ length) (hm : m < 16 ^ length)
    (h : hexDigits length n = hexDigits length m) : n = m := by
  induction length generalizing n m with
  | zero => omega
  | succ length ih =>
    rw [hexDigits, hexDigits] at h
    obtain ⟨hinit, hlast⟩ := List.append_inj' h rfl
    have hdigit : ∀ a < 16, ∀ b < 16, Nat.digitChar a = Nat.digitChar b → a = b := by decide
    have hmod := hdigit _ (Nat.mod_lt n (by decide)) _ (Nat.mod_lt m (by decide)) (List.cons.inj hlast).1
    have hdiv := ih (by rw [Nat.pow_succ] at hn; omega) (by rw [Nat.pow_succ] at hm; omega) hinit
    omega

/-- The code units with an escape of two characters. -/
def shortUnits : List CodeUnit := [34, 92, 8, 9, 10, 12, 13]

/-- A code unit has an escape of two characters, is a printable character, or is written in hexadecimal. -/
theorem escapeUnit_cases (u : CodeUnit) :
    u ∈ shortUnits ∨ (u ∉ shortUnits ∧ 32 ≤ u.val ∧ u.val ≤ 126 ∧ escapeUnit u = [Char.ofNat u.val]) ∨
      (u ∉ shortUnits ∧ escapeUnit u = '\\' :: 'u' :: hexDigits 4 u.val) := by
  by_cases hu : u ∈ shortUnits
  · exact .inl hu
  · have hne : ∀ v ∈ shortUnits, u.val ≠ v.val := fun v hv hval => hu (Fin.ext hval ▸ hv)
    simp only [shortUnits, List.forall_mem_cons, List.not_mem_nil, IsEmpty.forall_iff, implies_true, and_true] at hne
    obtain ⟨(hquote : u.val ≠ 34), (hslash : u.val ≠ 92), (hb : u.val ≠ 8), (ht : u.val ≠ 9), (hn : u.val ≠ 10),
      (hf : u.val ≠ 12), (hr : u.val ≠ 13)⟩ := hne
    unfold escapeUnit
    rw [if_neg hquote, if_neg hslash, if_neg hb, if_neg ht, if_neg hn, if_neg hf, if_neg hr]
    split_ifs with hprint
    · exact .inr (.inl ⟨hu, hprint.1, hprint.2, rfl⟩)
    · exact .inr (.inr ⟨hu, rfl⟩)

/-- The escapes of two characters begin with a backslash and are told apart by the other one. -/
theorem shortUnit_spec {u : CodeUnit} (h : u ∈ shortUnits) :
    ∃ c, escapeUnit u = ['\\', c] ∧ c ≠ 'u' ∧ ∀ v ∈ shortUnits, escapeUnit v = ['\\', c] → v = u := by
  simp only [shortUnits, List.mem_cons, List.not_mem_nil, or_false] at h
  obtain rfl | rfl | rfl | rfl | rfl | rfl | rfl := h
  all_goals
    refine ⟨_, rfl, by decide, ?_⟩
    simp only [shortUnits, List.forall_mem_cons, List.not_mem_nil, IsEmpty.forall_iff, implies_true, and_true]
    decide

theorem toNat_ofNat_of_le {n : ℕ} (h : n ≤ 126) : (Char.ofNat n).toNat = n := by
  have hall : ∀ n < 127, (Char.ofNat n).toNat = n := by decide +kernel
  exact hall n (by omega)

/-- A printable character is the backslash or the quote of its code unit only. -/
theorem ofNat_ne {u : CodeUnit} (hu : u ∉ shortUnits) (hle : u.val ≤ 126) {c : Char} (hc : c.toNat = 34 ∨ c.toNat = 92) :
    Char.ofNat u.val ≠ c := by
  rintro rfl
  refine hu ?_
  rw [toNat_ofNat_of_le hle] at hc
  rcases hc with hc | hc
  · rw [show u = 34 from Fin.ext hc]
    decide
  · rw [show u = 92 from Fin.ext hc]
    decide

/-- **No escape is the beginning of another one.** -/
theorem prefixCode_escapeUnit : PrefixCode escapeUnit where
  ne_nil u := by
    obtain hu | ⟨-, -, -, hu⟩ | ⟨-, hu⟩ := escapeUnit_cases u
    · obtain ⟨c, hc, -⟩ := shortUnit_spec hu
      simp [hc]
    · simp [hu]
    · simp [hu]
  eq_of_prefix u v h := by
    obtain ⟨rest, hrest⟩ := h
    obtain hu | ⟨hu, -, hle, hchar⟩ | ⟨-, hhex⟩ := escapeUnit_cases u
    · obtain ⟨c, hc, hne, -⟩ := shortUnit_spec hu
      rw [hc] at hrest
      obtain hv | ⟨-, -, -, hchar'⟩ | ⟨-, hhex'⟩ := escapeUnit_cases v
      · obtain ⟨c', hc', -, hunique⟩ := shortUnit_spec hv
        rw [hc'] at hrest
        obtain ⟨rfl, -⟩ := List.cons.inj (List.cons.inj hrest).2
        exact hunique u hu hc
      · rw [hchar'] at hrest
        exact absurd (congrArg List.length hrest) (by simp)
      · rw [hhex'] at hrest
        exact absurd (List.cons.inj (List.cons.inj hrest).2).1 hne
    · rw [hchar] at hrest
      have hslash : Char.ofNat u.val ≠ '\\' := ofNat_ne hu hle (.inr rfl)
      obtain hv | ⟨-, -, hle', hchar'⟩ | ⟨-, hhex'⟩ := escapeUnit_cases v
      · obtain ⟨c', hc', -⟩ := shortUnit_spec hv
        rw [hc'] at hrest
        exact absurd (List.cons.inj hrest).1 hslash
      · rw [hchar'] at hrest
        have hchars := congrArg Char.toNat (List.cons.inj hrest).1
        rw [toNat_ofNat_of_le hle, toNat_ofNat_of_le hle'] at hchars
        exact Fin.ext hchars
      · rw [hhex'] at hrest
        exact absurd (List.cons.inj hrest).1 hslash
    · rw [hhex] at hrest
      have hlen := congrArg List.length hrest
      simp only [List.length_append, List.length_cons, length_hexDigits] at hlen
      obtain hv | ⟨-, -, -, hchar'⟩ | ⟨-, hhex'⟩ := escapeUnit_cases v
      · obtain ⟨c', hc', -⟩ := shortUnit_spec hv
        rw [hc', List.length_cons, List.length_singleton] at hlen
        omega
      · rw [hchar', List.length_singleton] at hlen
        omega
      · rw [hhex', List.length_cons, List.length_cons, length_hexDigits] at hlen
        obtain rfl := List.eq_nil_of_length_eq_zero (show rest.length = 0 by omega)
        rw [List.append_nil, hhex'] at hrest
        have hdigits := (List.cons.inj (List.cons.inj hrest).2).2
        exact Fin.ext (hexDigits_injective 4 u.isLt v.isLt hdigits)

/-- No escape begins with the quote that ends a string. -/
theorem head?_escapeUnit (u : CodeUnit) : (escapeUnit u).head? ≠ some '"' := by
  obtain hu | ⟨hu, -, hle, hchar⟩ | ⟨-, hhex⟩ := escapeUnit_cases u
  · obtain ⟨c, hc, -⟩ := shortUnit_spec hu
    rw [hc, List.head?_cons]
    decide
  · rw [hchar]
    intro hquote
    exact ofNat_ne hu hle (.inl rfl) (Option.some.inj hquote)
  · rw [hhex, List.head?_cons]
    decide

/-- **A string is determined by its text**, and so is what follows it. -/
theorem encodeString_inj {s s' : PyStr} (hs : NoPair s) (hs' : NoPair s') {r r' : List Char}
    (h : encodeString s ++ r = encodeString s' ++ r') : s = s' ∧ r = r' := by
  simp only [encodeString, List.cons_append, List.append_assoc, List.nil_append, List.cons.injEq, true_and] at h
  obtain ⟨hunits, hrest⟩ := prefixCode_escapeUnit.eq_of_flatMap_append_cons head?_escapeUnit h
  exact ⟨eq_of_codeUnits hs hs' hunits, hrest⟩

/-! ### Numbers -/

/-- What follows a value does not go on with a number. -/
def Delimited (s : List Char) : Prop := ∀ c, s.head? = some c → isNumberChar c = false

theorem isNumberChar_of_isDigit {c : Char} (h : c.isDigit = true) : isNumberChar c = true := by
  simp [isNumberChar, h]

theorem mem_writeInt {n : ℤ} {c : Char} (h : c ∈ Json.writeInt n) : c.isDigit = true ∨ c = '-' := by
  have hdigit : ∀ c ∈ Nat.toDigits 10 n.natAbs, c.isDigit = true := fun c hc =>
    Nat.isDigit_of_mem_toDigits (by omega) (by omega) hc
  rw [Json.writeInt] at h
  split_ifs at h
  · rcases List.mem_cons.1 h with rfl | h
    · exact .inr rfl
    · exact .inl (hdigit c h)
  · exact .inl (hdigit c h)

theorem writeInt_injective : Function.Injective Json.writeInt := by
  intro n m h
  have hread : ∀ n, Json.readScalar (Json.writeInt n ++ []) = some (.int n, []) := fun n =>
    Json.readScalar_writeScalar (j := .int n) rfl nofun
  have heq := hread n
  rw [h, hread m] at heq
  cases heq
  rfl

/-- The text of a number ends where the number characters end. -/
theorem eq_of_number {a b s t : List Char} (ha : ∀ c ∈ a, isNumberChar c = true)
    (hb : ∀ c ∈ b, isNumberChar c = true) (hs : Delimited s) (ht : Delimited t) (h : a ++ s = b ++ t) :
    a = b ∧ s = t := by
  obtain ⟨htake, hdrop⟩ := Json.takeWhile_append_of_all ha hs
  obtain ⟨htake', hdrop'⟩ := Json.takeWhile_append_of_all hb ht
  rw [h] at htake hdrop
  exact ⟨htake.symm.trans htake', hdrop.symm.trans hdrop'⟩

theorem isNumberChar_writeInt {n : ℤ} {c : Char} (h : c ∈ Json.writeInt n) : isNumberChar c = true := by
  obtain hdigit | rfl := mem_writeInt h
  · exact isNumberChar_of_isDigit hdigit
  · decide

theorem isNumberChar_repr {R : FloatRepr F} {x : F} (hx : R.finite x = true) {c : Char} (h : c ∈ R.repr x) :
    isNumberChar c = true := by
  have hshape := R.repr_shape x hx
  rw [isFloatText, Bool.and_eq_true, List.all_eq_true] at hshape
  exact hshape.1 c h

/-- No float is written like an integer. -/
theorem writeInt_ne_repr {R : FloatRepr F} {x : F} (hx : R.finite x = true) (n : ℤ) : Json.writeInt n ≠ R.repr x := by
  intro heq
  have hshape := R.repr_shape x hx
  rw [isFloatText, Bool.and_eq_true, Bool.or_eq_true, List.contains_iff_mem, List.contains_iff_mem, ← heq] at hshape
  rcases hshape.2 with hpoint | hexponent
  · exact absurd (mem_writeInt hpoint) (by decide)
  · exact absurd (mem_writeInt hexponent) (by decide)

/-! ### Values -/

/-- No string of the value, and no key, has a high surrogate directly before a low one. -/
def noPairs : PyValue F → Bool
  | .str s => decide (NoPair s)
  | .dict items => items.all fun item => decide (NoPair item.1)
  | _ => true

/-- The kind of a value, as far as the first character of its text tells it. -/
def kind : PyValue F → ℕ
  | .null => 0
  | .bool true => 1
  | .bool false => 2
  | .int _ | .float _ => 3
  | .str _ => 4
  | .list _ => 5
  | .dict _ => 6
  | .other _ => 7

/-- The kind of the values whose text begins with a character. -/
def headKind (c : Char) : ℕ :=
  if c = 'n' then 0
  else if c = 't' then 1
  else if c = 'f' then 2
  else if isNumberChar c then 3
  else if c = '"' then 4
  else if c = '[' then 5
  else if c = '\x7b' then 6
  else 8

theorem headKind_of_isNumberChar {c : Char} (h : isNumberChar c = true) : headKind c = 3 := by
  unfold headKind
  split_ifs with hn ht hf
  · subst hn
    exact absurd h (by decide)
  · subst ht
    exact absurd h (by decide)
  · subst hf
    exact absurd h (by decide)
  · rfl

/-- **The first character of a text tells the kind of the value.** -/
theorem exists_encode_cons {R : FloatRepr F} (sorted : Bool) {v : PyValue F} (h : v.all (encodable R) = true) :
    ∃ c cs, encode R sorted v = c :: cs ∧ headKind c = kind v := by
  have hnumber : ∀ cs : List Char, cs ≠ [] → (∀ c ∈ cs, isNumberChar c = true) →
      ∃ c cs', cs = c :: cs' ∧ headKind c = 3 := by
    intro cs hne hcs
    cases cs with
    | nil => exact absurd rfl hne
    | cons c cs => exact ⟨c, cs, rfl, headKind_of_isNumberChar (hcs c List.mem_cons_self)⟩
  cases v with
  | null => exact ⟨'n', _, rfl, rfl⟩
  | bool b => cases b <;> exact ⟨_, _, rfl, rfl⟩
  | int n =>
    refine hnumber (Json.writeInt n) ?_ fun c hc => isNumberChar_writeInt hc
    rw [Json.writeInt]
    split_ifs <;> simp [Nat.toDigits_ne_nil]
  | float x =>
    refine hnumber (R.repr x) ?_ fun c hc => isNumberChar_repr h hc
    intro hnil
    have hshape := R.repr_shape x h
    rw [hnil] at hshape
    cases hshape
  | str s => exact ⟨'"', _, rfl, rfl⟩
  | list items => exact ⟨'[', _, rfl, rfl⟩
  | dict items => exact ⟨'\x7b', _, rfl, rfl⟩
  | other id => cases h

/-- Values whose texts tell them apart from any other value. -/
def Readable (R : FloatRepr F) (v : PyValue F) : Prop :=
  ∀ v', v'.all (encodable R) = true → v'.all noPairs = true → ReadBefore (encode R false) Delimited v v'

theorem delimited_cons {c : Char} (hc : isNumberChar c = false) (s : List Char) : Delimited (c :: s) := by
  rintro c' ⟨⟩
  exact hc

theorem kind_eq {R : FloatRepr F} {v v' : PyValue F} (hv : v.all (encodable R) = true)
    (hv' : v'.all (encodable R) = true) {s t : List Char} (h : encode R false v ++ s = encode R false v' ++ t) :
    v.kind = v'.kind := by
  obtain ⟨c, cs, hc, hkind⟩ := exists_encode_cons false hv
  obtain ⟨c', cs', hc', hkind'⟩ := exists_encode_cons false hv'
  rw [hc, hc'] at h
  rw [← hkind, ← hkind', (List.cons.inj h).1]

/-- No text begins with the end of a list. -/
theorem encode_ne_close {R : FloatRepr F} {v : PyValue F} (hv : v.all (encodable R) = true) {s r : List Char} :
    encode R false v ++ s ≠ ']' :: r := by
  intro heq
  obtain ⟨c, cs, hc, hkind⟩ := exists_encode_cons false hv
  rw [hc] at heq
  obtain ⟨rfl, -⟩ := List.cons.inj heq
  have hother : headKind ']' = 8 := by decide
  cases v with
  | bool b => cases b <;> cases hother.symm.trans hkind
  | _ => cases hother.symm.trans hkind

/-- A list is told apart if its values are. -/
theorem readable_list {R : FloatRepr F} {items : List (PyValue F)} (hv : (list items).all (encodable R) = true)
    (hitems : ∀ v ∈ items, Readable R v) : Readable R (.list items) := by
  intro v' hv' hp' s t hs ht h
  have hkind := kind_eq hv hv' h
  cases v' with
  | list items' =>
    simp only [all, Bool.and_eq_true, allList_iff] at hv hv' hp'
    simp only [encode, encodeList_eq, List.cons_append, List.append_assoc, List.nil_append, List.cons.injEq,
      true_and] at h
    have hbegins : ∀ v, v ∈ items ∨ v ∈ items' → ∀ s r, encode R false v ++ s ≠ ']' :: r := by
      intro v hmem s r heq
      have hencodable : v.all (encodable R) = true := by
        rcases hmem with hmem | hmem
        · exact hv.2 v hmem
        · exact hv'.2 v hmem
      exact encode_ne_close hencodable heq
    obtain ⟨rfl, hrest⟩ := eq_of_separated (by decide) (delimited_cons (by decide)) (delimited_cons (by decide))
      hbegins (fun v hmem v' hmem' => hitems v hmem v' (hv'.2 v' hmem') (hp'.2 v' hmem')) h
    exact ⟨rfl, hrest⟩
  | bool b => cases b <;> cases hkind
  | _ => cases hkind

/-- A dictionary is told apart if its values are: a key ends with its quote. -/
theorem readable_dict {R : FloatRepr F} {items : List (PyStr × PyValue F)}
    (hv : (dict items).all (encodable R) = true) (hp : (dict items).all noPairs = true)
    (hitems : ∀ item ∈ items, Readable R item.2) : Readable R (.dict items) := by
  intro v' hv' hp' s t hs ht h
  have hkind := kind_eq hv hv' h
  cases v' with
  | dict items' =>
    simp only [all, Bool.and_eq_true, allItems_iff, noPairs, List.all_eq_true, decide_eq_true_eq] at hp hv' hp'
    simp only [encode, encodeItems_eq, sortKeys_false, List.map_map, List.cons_append, List.append_assoc,
      List.nil_append, List.cons.injEq, true_and] at h
    have hbegins : ∀ item, item ∈ items ∨ item ∈ items' → ∀ s r,
        (member ∘ fun item : PyStr × PyValue F => (item.1, encode R false item.2)) item ++ s ≠ '\x7d' :: r := by
      intro item _ s r heq
      have hquote : '"' = '\x7d' := (List.cons.inj heq).1
      exact absurd hquote (by decide)
    have hread : ∀ item ∈ items, ∀ item' ∈ items',
        ReadBefore (member ∘ fun item => (item.1, encode R false item.2)) Delimited item item' := by
      rintro ⟨key, v⟩ hmem ⟨key', v'⟩ hmem' s t hs ht heq
      simp only [Function.comp_apply, member, List.append_assoc, List.cons_append] at heq
      obtain ⟨rfl, hvalue⟩ := encodeString_inj (hp.1 _ hmem) (hp'.1 _ hmem') heq
      obtain ⟨rfl, hrest⟩ :=
        hitems _ hmem v' (hv'.2 _ hmem') (hp'.2 _ hmem') s t hs ht (List.cons.inj hvalue).2
      exact ⟨rfl, hrest⟩
    obtain ⟨rfl, hrest⟩ := eq_of_separated (by decide) (delimited_cons (by decide)) (delimited_cons (by decide))
      hbegins hread h
    exact ⟨rfl, hrest⟩
  | bool b => cases b <;> cases hkind
  | _ => cases hkind

/-- A value that is no list and no dictionary is told apart from any other one. -/
theorem readable_int (R : FloatRepr F) {n : ℤ} (hv : (int n).all (encodable R) = true) : Readable R (.int n) := by
  intro v' hv' _ s t hs ht h
  have hkind := kind_eq hv hv' h
  cases v' with
  | int m =>
    obtain ⟨hnumber, hrest⟩ :=
      eq_of_number (fun _ => isNumberChar_writeInt) (fun _ => isNumberChar_writeInt) hs ht h
    exact ⟨congrArg int (writeInt_injective hnumber), hrest⟩
  | float x =>
    obtain ⟨hnumber, -⟩ :=
      eq_of_number (fun _ => isNumberChar_writeInt) (fun _ => isNumberChar_repr hv') hs ht h
    exact absurd hnumber (writeInt_ne_repr hv' n)
  | bool b => cases b <;> cases hkind
  | _ => cases hkind

theorem readable_float (R : FloatRepr F) {x : F} (hv : (float x).all (encodable R) = true) : Readable R (.float x) := by
  intro v' hv' _ s t hs ht h
  have hkind := kind_eq hv hv' h
  cases v' with
  | int m =>
    obtain ⟨hnumber, -⟩ :=
      eq_of_number (fun _ => isNumberChar_repr hv) (fun _ => isNumberChar_writeInt) hs ht h
    exact absurd hnumber.symm (writeInt_ne_repr hv m)
  | float y =>
    obtain ⟨hnumber, hrest⟩ :=
      eq_of_number (fun _ => isNumberChar_repr hv) (fun _ => isNumberChar_repr hv') hs ht h
    exact ⟨congrArg float (R.repr_injective x y hv hv' hnumber), hrest⟩
  | bool b => cases b <;> cases hkind
  | _ => cases hkind

theorem readable_str (R : FloatRepr F) {w : PyStr} (hv : (str w).all (encodable R) = true)
    (hp : (str w : PyValue F).all noPairs = true) : Readable R (.str w) := by
  intro v' hv' hp' s t _ _ h
  have hkind := kind_eq hv hv' h
  cases v' with
  | str w' =>
    obtain ⟨rfl, hrest⟩ := encodeString_inj (of_decide_eq_true hp) (of_decide_eq_true hp') h
    exact ⟨rfl, hrest⟩
  | bool b => cases b <;> cases hkind
  | _ => cases hkind

/-- The words have a kind of their own. -/
theorem readable_null (R : FloatRepr F) : Readable R .null := by
  intro v' hv' _ s t _ _ h
  have hkind := kind_eq (v := .null) rfl hv' h
  cases v' with
  | null => exact ⟨rfl, List.append_cancel_left h⟩
  | bool b => cases b <;> cases hkind
  | _ => cases hkind

theorem readable_bool (R : FloatRepr F) (b : Bool) : Readable R (.bool b) := by
  intro v' hv' _ s t _ _ h
  have hkind := kind_eq (v := .bool b) rfl hv' h
  cases v' with
  | bool b' =>
    cases b <;> cases b'
    · exact ⟨rfl, List.append_cancel_left h⟩
    · cases hkind
    · cases hkind
    · exact ⟨rfl, List.append_cancel_left h⟩
  | _ => cases b <;> cases hkind

mutual

/-- **A value is determined by its text**, and so is what follows it. -/
theorem readable (R : FloatRepr F) (v : PyValue F) (hv : v.all (encodable R) = true) (hp : v.all noPairs = true) :
    Readable R v := by
  match v with
  | .null => exact readable_null R
  | .bool b => exact readable_bool R b
  | .int n => exact readable_int R hv
  | .float x => exact readable_float R hv
  | .str s => exact readable_str R hv hp
  | .list items =>
    have hparts : allList (encodable R) items = true ∧ allList noPairs items = true := by
      rw [all, Bool.and_eq_true] at hv hp
      exact ⟨hv.2, hp.2⟩
    exact readable_list hv (readableList R items hparts.1 hparts.2)
  | .dict items =>
    have hparts : allItems (encodable R) items = true ∧ allItems noPairs items = true := by
      rw [all, Bool.and_eq_true] at hv hp
      exact ⟨hv.2, hp.2⟩
    exact readable_dict hv hp (readableItems R items hparts.1 hparts.2)
  | .other id => cases hv

theorem readableList (R : FloatRepr F) (items : List (PyValue F)) (hv : allList (encodable R) items = true)
    (hp : allList noPairs items = true) : ∀ v ∈ items, Readable R v := by
  match items with
  | [] => exact fun _ hmem => absurd hmem List.not_mem_nil
  | v :: items =>
    rw [allList, Bool.and_eq_true] at hv hp
    have hhead := readable R v hv.1 hp.1
    have htail := readableList R items hv.2 hp.2
    exact List.forall_mem_cons.2 ⟨hhead, htail⟩

theorem readableItems (R : FloatRepr F) (items : List (PyStr × PyValue F))
    (hv : allItems (encodable R) items = true) (hp : allItems noPairs items = true) :
    ∀ item ∈ items, Readable R item.2 := by
  match items with
  | [] => exact fun _ hmem => absurd hmem List.not_mem_nil
  | (key, v) :: items =>
    rw [allItems, Bool.and_eq_true] at hv hp
    have hhead := readable R v hv.1 hp.1
    have htail := readableItems R items hv.2 hp.2
    exact List.forall_mem_cons.2 ⟨hhead, htail⟩

end

/-- **Values with one text are equal**, when keys are written as they stand. -/
theorem encode_inj {R : FloatRepr F} {v v' : PyValue F} (hv : v.all (encodable R) = true)
    (hv' : v'.all (encodable R) = true) (hp : v.all noPairs = true) (hp' : v'.all noPairs = true)
    (h : encode R false v = encode R false v') : v = v' := by
  have hnil : Delimited [] := fun _ hc => absurd hc (by simp)
  exact (readable R v hv hp v' hv' hp' [] [] hnil hnil (by rw [h])).1

theorem noPairs_canon (v : PyValue F) : v.canon.all noPairs = v.all noPairs := by
  refine OrderFree.all_canon ⟨fun _ => rfl, fun items => ?_⟩ v
  rw [noPairs, noPairs, (perm_sortKeys true (canonItems items)).all_eq, canonItems_eq, List.all_map]
  rfl

end PyValue

end CivicLoop
