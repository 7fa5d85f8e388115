import Mathlib

/-!
# Base64

The URL-safe text of a list of bytes, with and without its padding. Three bytes are four symbols; the
last group is padded by `=`. A text without padding is padded again before it is read, and the reader
takes the two alphabets alike.

## Main definitions

* `Base64.encode`, `Base64.decode` : the padded text, and how it is read.
* `Base64.strip`, `Base64.pad` : the removal of the padding, and its completion.

## Main results

* `Base64.decode_encode` : what was encoded is read.
* `Base64.pad_strip_encode` : the padding of an encoded text can be restored.
-/

namespace CivicLoop.Base64

/-- The URL-safe alphabet. -/
def symbol (n : ℕ) : Char :=
  if n < 26 then Char.ofNat (65 + n)
  else if n < 52 then Char.ofNat (71 + n)
  else if n < 62 then Char.ofNat (n - 4)
  else if n = 62 then '-'
  else '_'

/-- The value of a symbol of either alphabet. -/
def sextet (c : Char) : Option ℕ :=
  if c.isUpper then some (c.toNat - 65)
  else if c.isLower then some (c.toNat - 71)
  else if c.isDigit then some (c.toNat + 4)
  else if c = '-' ∨ c = '+' then some 62
  else if c = '_' ∨ c = '/' then some 63
  else none

/-- The four symbols of three bytes. -/
def group (a b c : UInt8) : List ℕ :=
  let n := a.toNat * 65536 + b.toNat * 256 + c.toNat
  [n / 262144, n / 4096 % 64, n / 64 % 64, n % 64]

/-- `urlsafe_b64encode`. -/
def encode : List UInt8 → List Char
  | [] => []
  | [a] => ((group a 0 0).take 2).map symbol ++ ['=', '=']
  | [a, b] => ((group a b 0).take 3).map symbol ++ ['=']
  | a :: b :: c :: bytes => (group a b c).map symbol ++ encode bytes

/-- The three bytes of four symbols. -/
def ungroup (w x y z : ℕ) : List UInt8 :=
  let n := w * 262144 + x * 4096 + y * 64 + z
  [UInt8.ofNat (n / 65536), UInt8.ofNat (n / 256), UInt8.ofNat n]

/-- `b64decode` with `validate=True`. -/
def decode : List Char → Option (List UInt8)
  | [] => some []
  | [a, b, '=', '='] => do
    let w ← sextet a
    let x ← sextet b
    return (ungroup w x 0 0).take 1
  | [a, b, c, '='] => do
    let w ← sextet a
    let x ← sextet b
    let y ← sextet c
    return (ungroup w x y 0).take 2
  | a :: b :: c :: d :: cs => do
    let w ← sextet a
    let x ← sextet b
    let y ← sextet c
    let z ← sextet d
    let bytes ← decode cs
    return ungroup w x y z ++ bytes
  | _ => none

/-- `rstrip("=")`. -/
def strip (cs : List Char) : List Char := cs.rdropWhile (· == '=')

/-- The text with `-len % 4` signs added. -/
def pad (cs : List Char) : List Char := cs ++ List.replicate ((4 - cs.length % 4) % 4) '='

/-! ### Symbols -/

theorem sextet_symbol : ∀ n < 64, sextet (symbol n) = some n := by decide

theorem symbol_ne : ∀ n < 64, symbol n ≠ '=' ∧ symbol n ≠ '.' := by decide

theorem group_lt (a b c : UInt8) : ∀ n ∈ group a b c, n < 64 := by
  have ha := a.toNat_lt
  have hb := b.toNat_lt
  have hc := c.toNat_lt
  simp only [group, List.mem_cons, List.not_mem_nil, or_false]
  omega

/-- A group holds its bytes. -/
theorem ungroup_group {a b c : UInt8} {w x y z : ℕ} (h : group a b c = [w, x, y, z]) :
    ungroup w x y z = [a, b, c] := by
  have ha := a.toNat_lt
  have hb := b.toNat_lt
  have hc := c.toNat_lt
  simp only [group, List.cons.injEq, and_true] at h
  obtain ⟨hw, hx, hy, hz⟩ := h
  have hn : w * 262144 + x * 4096 + y * 64 + z = a.toNat * 65536 + b.toNat * 256 + c.toNat := by
    omega
  simp only [ungroup, hn]
  refine List.cons_eq_cons.2 ⟨?_, List.cons_eq_cons.2 ⟨?_, List.cons_eq_cons.2 ⟨?_, rfl⟩⟩⟩
  · rw [← UInt8.toNat_inj, UInt8.toNat_ofNat']
    omega
  · rw [← UInt8.toNat_inj, UInt8.toNat_ofNat']
    omega
  · rw [← UInt8.toNat_inj, UInt8.toNat_ofNat']
    omega

theorem exists_group (a b c : UInt8) : ∃ w x y z, group a b c = [w, x, y, z] ∧
    w < 64 ∧ x < 64 ∧ y < 64 ∧ z < 64 := by
  refine ⟨_, _, _, _, rfl, ?_, ?_, ?_, ?_⟩
  all_goals exact group_lt a b c _ (by simp [group])

/-! ### Round trip -/

theorem decode_cons {a b c d : Char} {w x y z : ℕ} (ha : sextet a = some w) (hb : sextet b = some x)
    (hc : sextet c = some y) (hd : sextet d = some z) (hne : d ≠ '=') (cs : List Char) :
    decode (a :: b :: c :: d :: cs) = (decode cs).map (ungroup w x y z ++ ·) := by
  rw [decode, ha, hb, hc, hd]
  · cases decode cs <;> rfl
  · rintro - rfl
    exact absurd rfl hne
  · rintro rfl
    exact absurd rfl hne

/-- **What was encoded is read.** -/
theorem decode_encode (bytes : List UInt8) : decode (encode bytes) = some bytes := by
  fun_induction encode bytes with
  | case1 => rfl
  | case2 a =>
    obtain ⟨w, x, y, z, hgroup, hw, hx, hy, hz⟩ := exists_group a 0 0
    have hyz : y = 0 ∧ z = 0 := by
      simp only [group, List.cons.injEq, and_true] at hgroup
      simp only [UInt8.toNat_zero] at hgroup
      omega
    have hbytes := ungroup_group hgroup
    rw [hyz.1, hyz.2] at hbytes
    simp [hgroup, decode, sextet_symbol, hw, hx, hbytes]
  | case3 a b =>
    obtain ⟨w, x, y, z, hgroup, hw, hx, hy, hz⟩ := exists_group a b 0
    have hz0 : z = 0 := by
      simp only [group, List.cons.injEq, and_true] at hgroup
      simp only [UInt8.toNat_zero] at hgroup
      omega
    have hbytes := ungroup_group hgroup
    rw [hz0] at hbytes
    simp [hgroup, decode, sextet_symbol, hw, hx, hy, hbytes, (symbol_ne y hy).1]
  | case4 a b c bytes ih =>
    obtain ⟨w, x, y, z, hgroup, hw, hx, hy, hz⟩ := exists_group a b c
    rw [hgroup]
    simp only [List.map_cons, List.map_nil, List.cons_append, List.nil_append]
    rw [decode_cons (sextet_symbol w hw) (sextet_symbol x hx) (sextet_symbol y hy)
      (sextet_symbol z hz) (symbol_ne z hz).1, ih, ungroup_group hgroup]
    rfl

/-- An encoded text is symbols, and then signs that complete it. -/
theorem exists_body (bytes : List UInt8) : ∃ body p, encode bytes = body ++ List.replicate p '=' ∧
    p < 4 ∧ (body.length + p) % 4 = 0 ∧ ∀ c ∈ body, c ≠ '=' ∧ c ≠ '.' := by
  have hsymbols : ∀ (a b c : UInt8) (n : ℕ), ∀ s ∈ ((group a b c).take n).map symbol,
      s ≠ '=' ∧ s ≠ '.' := by
    intro a b c n s hs
    obtain ⟨k, hk, rfl⟩ := List.mem_map.1 hs
    exact symbol_ne k (group_lt a b c k (List.mem_of_mem_take hk))
  fun_induction encode bytes with
  | case1 => exact ⟨[], 0, rfl, by omega, rfl, by simp⟩
  | case2 a => exact ⟨_, 2, rfl, by omega, by simp [group], hsymbols a 0 0 2⟩
  | case3 a b => exact ⟨_, 1, rfl, by omega, by simp [group], hsymbols a b 0 3⟩
  | case4 a b c bytes ih =>
    obtain ⟨body, p, hbody, hp, hlength, hall⟩ := ih
    refine ⟨(group a b c).map symbol ++ body, p, by rw [hbody, List.append_assoc], hp, ?_, ?_⟩
    · simp only [List.length_append, List.length_map, group, List.length_cons, List.length_nil]
      omega
    · intro s hs
      rcases List.mem_append.1 hs with hs | hs
      · exact hsymbols a b c 4 s hs
      · exact hall s hs

theorem strip_body {body : List Char} (h : ∀ c ∈ body, c ≠ '=' ∧ c ≠ '.') (p : ℕ) :
    strip (body ++ List.replicate p '=') = body := by
  induction p with
  | zero =>
    rw [List.replicate_zero, List.append_nil, strip, List.rdropWhile_eq_self_iff]
    intro hne
    simpa using (h _ (List.getLast_mem hne)).1
  | succ p ih =>
    rw [List.replicate_succ', ← List.append_assoc, strip, List.rdropWhile_concat_pos _ _ _ (by simp)]
    exact ih

/-- **The padding of an encoded text can be restored.** -/
theorem pad_strip_encode (bytes : List UInt8) : pad (strip (encode bytes)) = encode bytes := by
  obtain ⟨body, p, hbody, hp, hlength, hall⟩ := exists_body bytes
  rw [hbody, strip_body hall, pad, show (4 - body.length % 4) % 4 = p by omega]

/-- An encoded text without its padding has no dot. -/
theorem dot_notMem_strip_encode (bytes : List UInt8) : '.' ∉ strip (encode bytes) := by
  obtain ⟨body, p, hbody, -, -, hall⟩ := exists_body bytes
  rw [hbody, strip_body hall]
  exact fun h => (hall _ h).2 rfl

end CivicLoop.Base64
