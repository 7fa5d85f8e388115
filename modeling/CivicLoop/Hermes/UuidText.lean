import CivicLoop.Hermes.RunRequest
import Mathlib

/-!
# The text of a UUID

The canonical text of a UUID is read as this UUID.

## Main results

* `uuidOfText_uuidText` : the canonical text is read back.
* `uuidOfText_lt` : what is read has 32 hexadecimal digits.
-/

namespace CivicLoop.Hermes

/-! ### Digits -/

theorem hexDigitValue_digitChar : ∀ digit < 16, hexDigitValue (Nat.digitChar digit) = some digit := by decide

/-- A hexadecimal digit is none of the characters that are skipped. -/
theorem digitChar_ne : ∀ digit < 16, Nat.digitChar digit ∉ ['_', '-', 'u', 'x', 'X', '+'] := by decide

theorem hexDigitValue_lt {c : Char} {digit : ℕ} (h : hexDigitValue c = some digit) : digit < 16 := by
  unfold hexDigitValue at h
  split at h
  · rename_i n hdecimal
    obtain rfl := Option.some.inj h
    obtain ⟨first, hfirst, rfl⟩ := Option.map_eq_some_iff.1 hdecimal
    have hfound := List.find?_some hfirst
    simp only [Bool.and_eq_true, decide_eq_true_eq] at hfound
    omega
  · split_ifs at h with hlower hupper
    · obtain rfl := Option.some.inj h
      have hle : c.toNat ≤ 102 := hlower.2
      omega
    · obtain rfl := Option.some.inj h
      have hle : c.toNat ≤ 70 := hupper.2
      omega

/-- Digits are read from the left. -/
theorem hexNumber_hexDigits (afterDigit : Bool) (n length u : ℕ) (rest : List Char) :
    hexNumber afterDigit n (hexDigits length u ++ rest) =
      hexNumber (afterDigit || decide (0 < length)) (n * 16 ^ length + u % 16 ^ length) rest := by
  induction length generalizing u rest with
  | zero => simp [hexDigits, Nat.mod_one]
  | succ length ih =>
    have hlt : u % 16 < 16 := Nat.mod_lt u (by decide)
    have hunderscore : Nat.digitChar (u % 16) ≠ '_' := fun heq => digitChar_ne _ hlt (by rw [heq]; decide)
    have hmod : u % 16 ^ (length + 1) = 16 * (u / 16 % 16 ^ length) + u % 16 := by
      rw [Nat.pow_succ, Nat.mul_comm (16 ^ length) 16, Nat.mod_mul]
      omega
    rw [hexDigits, List.append_assoc, ih, List.singleton_append, hexNumber, if_neg hunderscore,
      hexDigitValue_digitChar _ hlt]
    have hvalue : 16 * (n * 16 ^ length + u / 16 % 16 ^ length) + u % 16 =
        n * 16 ^ (length + 1) + u % 16 ^ (length + 1) := by
      rw [hmod, Nat.pow_succ]
      ring
    simp [hvalue]

/-- A number has at most as many digits as characters. -/
theorem hexNumber_lt {afterDigit : Bool} {n m : ℕ} {cs : List Char} (h : hexNumber afterDigit n cs = some m) :
    m < (n + 1) * 16 ^ cs.length := by
  induction cs generalizing afterDigit n with
  | nil =>
    cases afterDigit with
    | false => cases h
    | true =>
      obtain rfl := Option.some.inj h
      simp
  | cons c cs ih =>
    rw [hexNumber] at h
    have hgrow : (n + 1) * 16 ^ cs.length ≤ (n + 1) * 16 ^ (cs.length + 1) :=
      Nat.mul_le_mul_left _ (Nat.pow_le_pow_right (by decide) (Nat.le_succ _))
    split_ifs at h with hunderscore hafter
    · exact (ih h).trans_le hgrow
    · cases hdigit : hexDigitValue c with
      | none =>
        rw [hdigit] at h
        cases h
      | some digit =>
        rw [hdigit] at h
        have hlt := hexDigitValue_lt hdigit
        calc m < (16 * n + digit + 1) * 16 ^ cs.length := ih h
          _ ≤ (16 * (n + 1)) * 16 ^ cs.length := Nat.mul_le_mul_right _ (by omega)
          _ = (n + 1) * 16 ^ (cs.length + 1) := by rw [Nat.pow_succ]; ring

theorem length_rdropWhile_le (p : Char → Bool) (cs : List Char) : (cs.rdropWhile p).length ≤ cs.length := by
  rw [List.rdropWhile, List.length_reverse]
  exact (List.dropWhile_sublist p).length_le.trans (List.length_reverse).le

/-- A number that is read is within the number of its characters. -/
theorem intOfHex_lt {cs : List Char} {n : ℕ} (h : intOfHex cs = some n) : n < 16 ^ cs.length := by
  obtain ⟨ds, hlength, hnumber⟩ : ∃ ds : List Char, ds.length ≤ cs.length ∧ hexNumber false 0 ds = some n := by
    have htrim : ((cs.dropWhile isSpace).rdropWhile isSpace).length ≤ cs.length :=
      (length_rdropWhile_le _ _).trans (List.dropWhile_sublist _).length_le
    simp only [intOfHex] at h
    generalize (cs.dropWhile isSpace).rdropWhile isSpace = trimmed at h htrim
    have hsign : (if trimmed.head? = some '+' then trimmed.drop 1 else trimmed).length ≤ cs.length := by
      split_ifs
      · rw [List.length_drop]
        omega
      · exact htrim
    generalize (if trimmed.head? = some '+' then trimmed.drop 1 else trimmed) = unsigned at h hsign
    split at h
    · split_ifs at h
      · rw [List.length_cons, List.length_cons] at hsign
        exact ⟨_, by rw [List.length_drop]; omega, h⟩
      · rw [List.length_cons, List.length_cons] at hsign
        exact ⟨_, by omega, h⟩
      · exact ⟨_, hsign, h⟩
    · exact ⟨_, hsign, h⟩
  calc n < (0 + 1) * 16 ^ ds.length := hexNumber_lt hnumber
    _ ≤ 16 ^ cs.length := by
      rw [Nat.zero_add, Nat.one_mul]
      exact Nat.pow_le_pow_right (by decide) hlength

/-! ### The canonical text -/

theorem removeAll_of_notMem {p : Char} {pattern cs : List Char} (h : p ∉ cs) :
    removeAll (p :: pattern) 0 cs = cs := by
  induction cs with
  | nil => rfl
  | cons c cs ih =>
    rw [List.mem_cons, not_or] at h
    have hprefix : (p :: pattern).isPrefixOf (c :: cs) = false := by simp [List.isPrefixOf, h.1]
    rw [removeAll, hprefix, if_neg (by decide), ih h.2]

/-- The characters of the canonical text. -/
theorem mem_uuidText {u : Uuid} {c : Char} (h : c ∈ (uuidText u).toList) :
    c = '-' ∨ ∃ digit < 16, c = Nat.digitChar digit := by
  have hpart : ∀ part : List Char, part.Sublist (hexDigits 32 u) → c ∈ part →
      ∃ digit < 16, c = Nat.digitChar digit := fun part hpart hc => mem_hexDigits (hpart.subset hc)
  rw [uuidText, String.toList_ofList] at h
  simp only [List.mem_append, List.mem_cons] at h
  rcases h with (((h | h | h) | h | h) | h | h) | h | h
  · exact .inr (hpart _ (List.take_sublist _ _) h)
  · exact .inl h
  · exact .inr (hpart _ ((List.take_sublist _ _).trans (List.drop_sublist _ _)) h)
  · exact .inl h
  · exact .inr (hpart _ ((List.take_sublist _ _).trans (List.drop_sublist _ _)) h)
  · exact .inl h
  · exact .inr (hpart _ ((List.take_sublist _ _).trans (List.drop_sublist _ _)) h)
  · exact .inl h
  · exact .inr (hpart _ (List.drop_sublist _ _) h)

/-- Without the hyphens, the digits are left. -/
theorem filter_uuidText (u : Uuid) : (uuidText u).toList.filter (· != '-') = hexDigits 32 u := by
  have hkeep : ∀ part : List Char, part.Sublist (hexDigits 32 u) → part.filter (· != '-') = part := by
    intro part hpart
    refine List.filter_eq_self.2 fun c hc => ?_
    obtain ⟨digit, hlt, rfl⟩ := mem_hexDigits (hpart.subset hc)
    have hne : Nat.digitChar digit ≠ '-' := fun heq => digitChar_ne digit hlt (by rw [heq]; decide)
    exact bne_iff_ne.2 hne
  rw [uuidText, String.toList_ofList]
  have hhyphen : ('-' != '-') = false := by decide
  simp only [List.filter_append, List.filter_cons, hhyphen, Bool.false_eq_true, if_false,
    hkeep _ (List.take_sublist _ _), hkeep _ (List.drop_sublist _ _),
    hkeep _ ((List.take_sublist _ _).trans (List.drop_sublist _ _)), List.append_assoc]
  have hstep : ∀ n m, ((hexDigits 32 u).drop n).take m ++ (hexDigits 32 u).drop (n + m) = (hexDigits 32 u).drop n := by
    intro n m
    rw [← List.drop_drop]
    exact List.take_append_drop m _
  rw [hstep 16 4, hstep 12 4, hstep 8 4, List.take_append_drop]

theorem dropWhile_rdropWhile_eq_self {p : Char → Bool} {cs : List Char} (h : ∀ c ∈ cs, p c = false) :
    (cs.dropWhile p).rdropWhile p = cs := by
  have hdrop : cs.dropWhile p = cs := List.dropWhile_eq_self_iff.2 fun hpos => by
    rw [h _ (List.getElem_mem hpos)]
    decide
  have hrdrop : cs.rdropWhile p = cs := List.rdropWhile_eq_self_iff.2 fun hne => by
    rw [h _ (List.getLast_mem hne)]
    decide
  rw [hdrop, hrdrop]

/-- Digits without a sign and a base are read as they are. -/
theorem intOfHex_hexDigits {u : Uuid} (h : u < 16 ^ 32) : intOfHex (hexDigits 32 u) = some u := by
  have hnumber : hexNumber false 0 (hexDigits 32 u) = some u := by
    have hread := hexNumber_hexDigits false 0 32 u []
    rw [List.append_nil] at hread
    rw [hread, Nat.zero_mul, Nat.zero_add, Nat.mod_eq_of_lt h]
    rfl
  have hspace : ∀ c ∈ hexDigits 32 u, isSpace c = false := by
    have hdigit : ∀ digit < 16, isSpace (Nat.digitChar digit) = false := by decide
    intro c hc
    obtain ⟨digit, hlt, rfl⟩ := mem_hexDigits hc
    exact hdigit digit hlt
  have hplain : ∀ c ∈ hexDigits 32 u, c ≠ 'x' ∧ c ≠ 'X' ∧ c ≠ '+' := by
    intro c hc
    obtain ⟨digit, hlt, rfl⟩ := mem_hexDigits hc
    have hne := digitChar_ne digit hlt
    refine ⟨?_, ?_, ?_⟩ <;> exact fun heq => hne (by rw [heq]; decide)
  simp only [intOfHex, dropWhile_rdropWhile_eq_self hspace]
  generalize hexDigits 32 u = digits at hnumber hplain
  have hsign : digits.head? ≠ some '+' := fun hhead => (hplain '+' (List.mem_of_mem_head? hhead)).2.2 rfl
  rw [if_neg hsign]
  split
  · next c rest =>
    have hc := hplain c (List.mem_cons_of_mem _ List.mem_cons_self)
    rw [if_neg (not_or.2 ⟨hc.1, hc.2.1⟩)]
    exact hnumber
  · exact hnumber

/-- The canonical text is read as the UUID it stands for. -/
theorem uuidOfText_uuidText {u : Uuid} (h : u < 16 ^ 32) : uuidOfText (uuidText u) = some u := by
  have hdigit : ∀ digit < 16, Nat.digitChar digit ≠ 'u' ∧
      ((Nat.digitChar digit).toNat = 123 || (Nat.digitChar digit).toNat = 125) = false := by decide
  have hu : 'u' ∉ (uuidText u).toList := by
    intro hmem
    rcases mem_uuidText hmem with heq | ⟨digit, hlt, heq⟩
    · cases heq
    · exact (hdigit digit hlt).1 heq.symm
  have hbrace : ∀ c ∈ (uuidText u).toList, (c.toNat = 123 || c.toNat = 125 : Bool) = false := by
    intro c hc
    rcases mem_uuidText hc with rfl | ⟨digit, hlt, rfl⟩
    · decide
    · exact (hdigit digit hlt).2
  have hurn : removeAll "urn:".toList 0 (uuidText u).toList = (uuidText u).toList :=
    @removeAll_of_notMem 'u' "rn:".toList _ hu
  have huuid : removeAll "uuid:".toList 0 (uuidText u).toList = (uuidText u).toList :=
    @removeAll_of_notMem 'u' "uid:".toList _ hu
  simp only [uuidOfText, hurn, huuid, dropWhile_rdropWhile_eq_self hbrace, filter_uuidText, length_hexDigits,
    if_true]
  exact intOfHex_hexDigits h

theorem uuidOfText_lt {s : String} {u : Uuid} (h : uuidOfText s = some u) : u < 16 ^ 32 := by
  simp only [uuidOfText] at h
  split_ifs at h with hlength
  have hlt := intOfHex_lt h
  rwa [hlength] at hlt

end CivicLoop.Hermes
