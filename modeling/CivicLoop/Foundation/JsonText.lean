import CivicLoop.Foundation.PyText

/-!
# The text of a flat dictionary

The JSON text, without blanks, of a dictionary of integers and of strings that need no escape, and its
reader. It serves where a program signs such a text and reads it back.

## Main definitions

* `Json.isPlain` : an integer, or a string that needs no escape.
* `Json.writeFlat`, `Json.readFlat` : the text of a dictionary, and its reader.
* `asciiBytes`, `asciiText` : texts as bytes.

## Main results

* `Json.readFlat_writeFlat` : a flat dictionary is read back.
-/

namespace CivicLoop

/-- A printable ASCII character that a JSON string holds as it is. -/
def isPlainChar (c : Char) : Bool := 32 ≤ c.toNat && c.toNat ≤ 126 && c != '"' && c != '\\'

def isPlainText (s : String) : Bool := s.toList.all isPlainChar

theorem isPlainChar_of_isRunIdChar {c : Char} (h : isRunIdChar c = true) : isPlainChar c = true := by
  have heq : ∀ a : Char, (c == a) = true ↔ c.toNat = a.toNat := by
    intro a
    rw [beq_iff_eq, Char.toNat_inj]
  have hupper : c.isUpper = true ↔ 65 ≤ c.toNat ∧ c.toNat ≤ 90 := by
    simp [Char.isUpper, UInt32.le_iff_toNat_le]
  have hlower : c.isLower = true ↔ 97 ≤ c.toNat ∧ c.toNat ≤ 122 := by
    simp [Char.isLower, UInt32.le_iff_toNat_le]
  have hdigit : c.isDigit = true ↔ 48 ≤ c.toNat ∧ c.toNat ≤ 57 := by
    simp [Char.isDigit, UInt32.le_iff_toNat_le]
  simp only [isRunIdChar, isTokenChar, Char.isAlphanum, Char.isAlpha, Bool.or_eq_true, heq, hupper,
    hlower, hdigit, Char.reduceToNat] at h
  simp only [isPlainChar, Bool.and_eq_true, decide_eq_true_eq, bne, Bool.not_eq_true',
    ← Bool.not_eq_true, heq, Char.reduceToNat]
  omega

/-- An identifier needs no escape. -/
theorem isPlainText_of_isHeaded {first p : Char → Bool} {least most : ℕ} {s : String}
    (h : isHeaded first p least most s.toList = true)
    (hfirst : ∀ c, first c = true → isRunIdChar c = true)
    (hp : ∀ c, p c = true → isRunIdChar c = true) : isPlainText s = true := by
  rw [isPlainText, List.all_eq_true]
  intro c hc
  refine isPlainChar_of_isRunIdChar ?_
  cases hs : s.toList with
  | nil =>
    rw [hs] at hc
    cases hc
  | cons a cs =>
    rw [hs] at h hc
    simp only [isHeaded, isRepeat, Bool.and_eq_true] at h
    rcases List.mem_cons.1 hc with rfl | hc
    · exact hfirst _ h.1
    · exact hp c (List.all_eq_true.1 h.2.2 c hc)

/-- The bytes of an ASCII text. -/
def asciiBytes (cs : List Char) : List UInt8 := cs.map fun c => UInt8.ofNat c.toNat

/-- The text of ASCII bytes. -/
def asciiText (bytes : List UInt8) : List Char := bytes.map fun b => Char.ofNat b.toNat

theorem asciiText_asciiBytes {cs : List Char} (h : ∀ c ∈ cs, c.toNat < 256) :
    asciiText (asciiBytes cs) = cs := by
  rw [asciiText, asciiBytes, List.map_map]
  conv_rhs => rw [← List.map_id cs]
  refine List.map_congr_left fun c hc => ?_
  rw [Function.comp_apply, UInt8.toNat_ofNat', Nat.mod_eq_of_lt (h c hc), Char.ofNat_toNat, id]

namespace Json

/-- An integer, or a string that needs no escape. -/
def isPlain : Message → Bool
  | .int _ => true
  | .str (.lit s) => isPlainText s
  | _ => false

/-! ### Writing -/

def writeString (s : String) : List Char := '"' :: (s.toList ++ ['"'])

def writeInt (n : ℤ) : List Char :=
  if n < 0 then '-' :: Nat.toDigits 10 n.natAbs else Nat.toDigits 10 n.natAbs

def writeScalar : Message → List Char
  | .int n => writeInt n
  | .str t => writeString t.plain
  | _ => []

/-- The items and the closing brace. -/
def writeItems : List (String × Message) → List Char
  | [] => ['\x7d']
  | [(key, j)] => writeString key ++ ':' :: (writeScalar j ++ ['\x7d'])
  | (key, j) :: items => writeString key ++ ':' :: (writeScalar j ++ ',' :: writeItems items)

def writeFlat (items : List (String × Message)) : List Char := '\x7b' :: writeItems items

/-! ### Reading -/

def readString : List Char → Option (String × List Char)
  | '"' :: cs =>
    match cs.dropWhile (· != '"') with
    | '"' :: rest => some (String.ofList (cs.takeWhile (· != '"')), rest)
    | _ => none
  | _ => none

def readNat (cs : List Char) : Option (ℕ × List Char) :=
  let digits := cs.takeWhile Char.isDigit
  if digits = [] then none else some (Nat.ofDigitChars 10 digits 0, cs.dropWhile Char.isDigit)

def readScalar (cs : List Char) : Option (Message × List Char) :=
  match cs with
  | '"' :: _ => (readString cs).map fun r => (.lit r.1, r.2)
  | '-' :: cs => (readNat cs).map fun r => (.int (-r.1), r.2)
  | _ => (readNat cs).map fun r => (.int r.1, r.2)

/-- The items, of which there are fewer than `fuel`. -/
def readItems : ℕ → List Char → Option (List (String × Message))
  | 0, _ => none
  | fuel + 1, cs => do
    let (key, cs) ← readString cs
    match cs with
    | ':' :: cs =>
      let (j, cs) ← readScalar cs
      match cs with
      | ',' :: cs =>
        let items ← readItems fuel cs
        return (key, j) :: items
      | ['\x7d'] => return [(key, j)]
      | _ => none
    | _ => none

def readFlat : List Char → Option Message
  | ['\x7b', '\x7d'] => some (.obj [])
  | '\x7b' :: cs => (readItems cs.length cs).map .obj
  | _ => none

/-! ### Round trip -/

theorem takeWhile_append_of_all {p : Char → Bool} {cs : List Char} (h : ∀ c ∈ cs, p c = true)
    {rest : List Char} (hrest : ∀ c, rest.head? = some c → p c = false) :
    (cs ++ rest).takeWhile p = cs ∧ (cs ++ rest).dropWhile p = rest := by
  have hstop : rest.takeWhile p = [] ∧ rest.dropWhile p = rest := by
    cases rest with
    | nil => exact ⟨rfl, rfl⟩
    | cons c rest =>
      have hc := hrest c rfl
      simp [hc]
  rw [List.takeWhile_append_of_pos h, List.dropWhile_append_of_pos h, hstop.1, hstop.2, List.append_nil]
  exact ⟨rfl, rfl⟩

theorem readString_writeString {s : String} (h : isPlainText s = true) (rest : List Char) :
    readString (writeString s ++ rest) = some (s, rest) := by
  have hplain : ∀ c ∈ s.toList, (c != '"') = true := by
    intro c hc
    have := List.all_eq_true.1 h c hc
    simp only [isPlainChar, Bool.and_eq_true] at this
    exact this.1.2
  obtain ⟨htake, hdrop⟩ := takeWhile_append_of_all hplain
    (show ∀ c, ('"' :: rest).head? = some c → (c != '"') = false from fun c hc => by
      simp [← Option.some.inj hc])
  simp only [writeString, List.cons_append, List.append_assoc, List.nil_append, readString, htake,
    hdrop, String.ofList_toList]

theorem readNat_toDigits (n : ℕ) {rest : List Char}
    (hrest : ∀ c, rest.head? = some c → c.isDigit = false) :
    readNat (Nat.toDigits 10 n ++ rest) = some (n, rest) := by
  have hdigits : ∀ c ∈ Nat.toDigits 10 n, c.isDigit = true := fun c hc =>
    Nat.isDigit_of_mem_toDigits (by omega) (by omega) hc
  obtain ⟨htake, hdrop⟩ := takeWhile_append_of_all hdigits hrest
  simp only [readNat, htake, hdrop, Nat.ofDigitChars_ten_toDigits, Nat.toDigits_ne_nil, if_false]

/-- The beginning of a text of digits is a digit. -/
theorem exists_toDigits_cons (n : ℕ) : ∃ c cs, Nat.toDigits 10 n = c :: cs ∧ c.isDigit = true := by
  cases h : Nat.toDigits 10 n with
  | nil => exact absurd h Nat.toDigits_ne_nil
  | cons c cs =>
    exact ⟨c, cs, rfl, Nat.isDigit_of_mem_toDigits (by omega) (by omega) (h ▸ List.mem_cons_self)⟩

theorem readScalar_writeScalar {j : Message} (h : j.isPlain = true) {rest : List Char}
    (hrest : ∀ c, rest.head? = some c → c.isDigit = false) :
    readScalar (writeScalar j ++ rest) = some (j, rest) := by
  cases j with
  | int n =>
    have hnat := readNat_toDigits n.natAbs hrest
    rw [writeScalar, writeInt]
    split_ifs with hn
    · simp only [List.cons_append, readScalar, hnat, Option.map_some]
      rw [show -(n.natAbs : ℤ) = n by omega]
    · obtain ⟨c, cs, hcs, hc⟩ := exists_toDigits_cons n.natAbs
      rw [hcs, List.cons_append] at hnat ⊢
      unfold readScalar
      split
      · rename_i heq
        rw [(List.cons.inj heq).1] at hc
        cases hc
      · rename_i heq
        rw [(List.cons.inj heq).1] at hc
        cases hc
      · rw [hnat, Option.map_some]
        rw [show (n.natAbs : ℤ) = n by omega]
  | str t =>
    cases t with
    | lit s =>
      have hs := readString_writeString h rest
      rw [writeString, List.cons_append] at hs
      simp only [writeScalar, Text.plain, writeString, List.cons_append, readScalar, hs,
        Option.map_some]
      rfl
    | hex d => exact d.elim
    | uuid u => cases h
  | _ => cases h

theorem readItems_writeItems (items : List (String × Message)) (hne : items ≠ [])
    (h : ∀ e ∈ items, isPlainText e.1 = true ∧ e.2.isPlain = true) (fuel : ℕ)
    (hfuel : items.length ≤ fuel) : readItems fuel (writeItems items) = some items := by
  induction items generalizing fuel with
  | nil => exact absurd rfl hne
  | cons e items ih =>
    obtain ⟨key, j⟩ := e
    obtain ⟨hkey, hj⟩ := h (key, j) List.mem_cons_self
    have hcons : ∀ rest, (∀ c, rest.head? = some c → c.isDigit = false) →
        readString (writeString key ++ ':' :: (writeScalar j ++ rest)) =
          some (key, ':' :: (writeScalar j ++ rest)) ∧
        readScalar (writeScalar j ++ rest) = some (j, rest) := fun rest hrest =>
      ⟨readString_writeString hkey _, readScalar_writeScalar hj hrest⟩
    obtain ⟨fuel, rfl⟩ : ∃ k, fuel = k + 1 := ⟨fuel - 1, by simp at hfuel; omega⟩
    cases items with
    | nil =>
      obtain ⟨hstring, hscalar⟩ := hcons ['\x7d'] (fun c hc => by rw [← Option.some.inj hc]; rfl)
      simp only [writeItems, readItems, hstring, hscalar, Option.bind_eq_bind, Option.bind_some]
      rfl
    | cons e' items =>
      obtain ⟨hstring, hscalar⟩ := hcons (',' :: writeItems (e' :: items))
        (fun c hc => by rw [← Option.some.inj hc]; rfl)
      have hrest := ih (by simp) (fun e he => h e (List.mem_cons_of_mem _ he)) fuel
        (Nat.le_of_succ_le_succ hfuel)
      simp only [writeItems, readItems, hstring, hscalar, hrest, Option.bind_eq_bind,
        Option.bind_some]
      rfl

theorem length_le_writeItems (items : List (String × Message)) :
    items.length ≤ (writeItems items).length := by
  fun_induction writeItems items with
  | case1 => simp
  | case2 =>
    simp only [List.length_cons, List.length_append, List.length_nil]
    omega
  | case3 key j items hne ih =>
    simp only [List.length_cons, List.length_append]
    omega

/-- **A flat dictionary is read back.** -/
theorem readFlat_writeFlat (items : List (String × Message))
    (h : ∀ e ∈ items, isPlainText e.1 = true ∧ e.2.isPlain = true) :
    readFlat (writeFlat items) = some (.obj items) := by
  cases items with
  | nil => rfl
  | cons e items =>
    have hitems := readItems_writeItems (e :: items) (by simp) h _ (length_le_writeItems _)
    rw [writeFlat]
    unfold readFlat
    split
    · rename_i heq
      have hlength := length_le_writeItems (e :: items)
      obtain ⟨-, htail⟩ := List.cons.inj heq
      rw [htail] at hitems
      cases hitems
    · rename_i cs _ heq
      obtain ⟨-, rfl⟩ := List.cons.inj heq
      rw [hitems, Option.map_some]
    · rename_i hother
      exact absurd rfl (hother _)

/-! ### Bytes -/

theorem ascii_of_plain {s : String} (h : isPlainText s = true) : ∀ c ∈ writeString s, c.toNat < 256 := by
  intro c hc
  simp only [writeString, List.mem_cons, List.mem_append, List.not_mem_nil, or_false] at hc
  rcases hc with rfl | hc | rfl
  · decide
  · have hplain := List.all_eq_true.1 h c hc
    simp only [isPlainChar, Bool.and_eq_true, decide_eq_true_eq] at hplain
    omega
  · decide

theorem ascii_writeScalar {j : Message} (h : j.isPlain = true) : ∀ c ∈ writeScalar j, c.toNat < 256 := by
  have hdigit : ∀ n, ∀ c ∈ Nat.toDigits 10 n, c.toNat < 256 := by
    intro n c hc
    have hdigit := Nat.isDigit_of_mem_toDigits (by omega) (by omega) hc
    simp only [Char.isDigit, Bool.and_eq_true, decide_eq_true_eq] at hdigit
    have hle : c.val.toNat ≤ 57 := UInt32.le_iff_toNat_le.1 hdigit.2
    exact lt_of_le_of_lt hle (by decide)
  cases j with
  | int n =>
    intro c hc
    rw [writeScalar, writeInt] at hc
    split_ifs at hc
    · rcases List.mem_cons.1 hc with rfl | hc
      · decide
      · exact hdigit _ c hc
    · exact hdigit _ c hc
  | str t =>
    cases t with
    | lit s => exact ascii_of_plain h
    | hex d => exact d.elim
    | uuid u => cases h
  | _ => cases h

theorem ascii_writeFlat {items : List (String × Message)}
    (h : ∀ e ∈ items, isPlainText e.1 = true ∧ e.2.isPlain = true) :
    ∀ c ∈ writeFlat items, c.toNat < 256 := by
  have hitems : ∀ c ∈ writeItems items, c.toNat < 256 := by
    fun_induction writeItems items with
    | case1 =>
      intro c hc
      rw [List.mem_singleton.1 hc]
      decide
    | case2 key j =>
      obtain ⟨hkey, hj⟩ := h (key, j) List.mem_cons_self
      intro c hc
      simp only [List.mem_append, List.mem_cons, List.not_mem_nil, or_false] at hc
      rcases hc with hc | rfl | hc | rfl
      · exact ascii_of_plain hkey c hc
      · decide
      · exact ascii_writeScalar hj c hc
      · decide
    | case3 key j items hne ih =>
      obtain ⟨hkey, hj⟩ := h (key, j) List.mem_cons_self
      have hrest := ih fun e he => h e (List.mem_cons_of_mem _ he)
      intro c hc
      simp only [List.mem_append, List.mem_cons] at hc
      rcases hc with hc | rfl | hc | rfl | hc
      · exact ascii_of_plain hkey c hc
      · decide
      · exact ascii_writeScalar hj c hc
      · decide
      · exact hrest c hc
  intro c hc
  rcases List.mem_cons.1 hc with rfl | hc
  · decide
  · exact hitems c hc

end Json

end CivicLoop
