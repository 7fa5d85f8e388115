import CivicLoop.Foundation.Json
import Mathlib

/-!
# A hash without collisions

The results on digests assume that the hash functions have no collisions. This file shows that the
assumption can be met: a digest is the list of the tokens of a value, written so that no value is a
beginning of another.

## Main definitions

* `Token`, `FreeDigest` : digests that spell out what they are the digest of.
* `Json.flatten` : the tokens of a value.
* `freeHash` : the hash functions.

## Main results

* `Json.flatten_injective` : the digest of a value determines it.
* `freeHash_collisionFree` : these hash functions have no collisions.
-/

namespace CivicLoop

instance encodableChar : Encodable Char := Encodable.ofLeftInverse Char.toNat Char.ofNat Char.ofNat_toNat

instance encodableString : Encodable String :=
  Encodable.ofLeftInverse String.toList String.ofList fun _ => String.ofList_toList

/-- A token of a value. Lists, dictionaries and digests are preceded by their length. -/
inductive Token
  | null
  | bool (b : Bool)
  | int (n : ℤ)
  | float (text : String)
  | lit (s : String)
  | hex (length : ℕ)
  | uuid (u : ℕ)
  | arr (length : ℕ)
  | obj (length : ℕ)
  | key (s : String)
  | bearer (token : ℕ)
deriving DecidableEq, Encodable

/-- A digest that spells out what it is the digest of. -/
abbrev FreeDigest := List Token

namespace Json

mutual

/-- The tokens of a value. -/
def flatten : Json FreeDigest → List Token
  | .null => [.null]
  | .bool b => [.bool b]
  | .int n => [.int n]
  | .float text => [.float text]
  | .str (.lit s) => [.lit s]
  | .str (.hex d) => .hex d.length :: d
  | .str (.uuid u) => [.uuid u]
  | .arr items => .arr items.length :: flattenList items
  | .obj items => .obj items.length :: flattenItems items

def flattenList : List (Json FreeDigest) → List Token
  | [] => []
  | j :: items => flatten j ++ flattenList items

def flattenItems : List (String × Json FreeDigest) → List Token
  | [] => []
  | (key, j) :: items => .key key :: (flatten j ++ flattenItems items)

end

mutual

/-- No value is a beginning of another: the first value of a list of tokens can be read off it. -/
theorem flatten_append_inj (a b : Json FreeDigest) (r r' : List Token)
    (h : a.flatten ++ r = b.flatten ++ r') : a = b ∧ r = r' := by
  cases a with
  | str t =>
    cases t with
    | hex d =>
      cases b with
      | str t' =>
        cases t' with
        | hex d' =>
          simp only [flatten, List.cons_append, List.cons.injEq, Token.hex.injEq] at h
          obtain ⟨hd, hr⟩ := List.append_inj h.2 h.1
          exact ⟨by rw [hd], hr⟩
        | lit | uuid => simp [flatten] at h
      | _ => simp [flatten] at h
    | _ =>
      cases b with
      | str t' => cases t' <;> simp_all [flatten]
      | _ => simp [flatten] at h
  | arr items =>
    cases b with
    | arr items' =>
      simp only [flatten, List.cons_append, List.cons.injEq, Token.arr.injEq] at h
      obtain ⟨hitems, hr⟩ := flattenList_append_inj items items' r r' h.1 h.2
      exact ⟨by rw [hitems], hr⟩
    | str t => cases t <;> simp [flatten] at h
    | _ => simp [flatten] at h
  | obj items =>
    cases b with
    | obj items' =>
      simp only [flatten, List.cons_append, List.cons.injEq, Token.obj.injEq] at h
      obtain ⟨hitems, hr⟩ := flattenItems_append_inj items items' r r' h.1 h.2
      exact ⟨by rw [hitems], hr⟩
    | str t => cases t <;> simp [flatten] at h
    | _ => simp [flatten] at h
  | _ =>
    cases b with
    | str t => cases t <;> simp [flatten] at h
    | _ => simp_all [flatten]

theorem flattenList_append_inj (as bs : List (Json FreeDigest)) (r r' : List Token)
    (hlen : as.length = bs.length) (h : flattenList as ++ r = flattenList bs ++ r') :
    as = bs ∧ r = r' := by
  match as, bs with
  | [], [] => exact ⟨rfl, h⟩
  | a :: as, b :: bs =>
    simp only [flattenList, List.append_assoc] at h
    obtain ⟨hab, hrest⟩ := flatten_append_inj a b _ _ h
    obtain ⟨hs, hr⟩ := flattenList_append_inj as bs r r' (Nat.succ.inj hlen) hrest
    exact ⟨by rw [hab, hs], hr⟩

theorem flattenItems_append_inj (as bs : List (String × Json FreeDigest)) (r r' : List Token)
    (hlen : as.length = bs.length) (h : flattenItems as ++ r = flattenItems bs ++ r') :
    as = bs ∧ r = r' := by
  match as, bs with
  | [], [] => exact ⟨rfl, h⟩
  | (k, a) :: as, (k', b) :: bs =>
    simp only [flattenItems, List.cons_append, List.append_assoc, List.cons.injEq,
      Token.key.injEq] at h
    obtain ⟨hab, hrest⟩ := flatten_append_inj a b _ _ h.2
    obtain ⟨hs, hr⟩ := flattenItems_append_inj as bs r r' (Nat.succ.inj hlen) hrest
    exact ⟨by rw [h.1, hab, hs], hr⟩

end

/-- **The tokens of a value determine it.** -/
theorem flatten_injective : Function.Injective flatten := fun a b h =>
  (flatten_append_inj a b [] [] (by rw [List.append_nil, List.append_nil, h])).1

end Json

/-- The hash functions without collisions. -/
def freeHash : Hash FreeDigest where
  json := Json.flatten
  utf8 := Json.flatten
  token n := [.bearer n]
  uuid5
    | _, .lit _ => 0
    | _, .uuid u => 2 * u + 1
    | _, .hex d => 2 * Encodable.encode d + 2
  hexText _ := String.ofList (List.replicate 64 '0')

theorem freeHash_collisionFree : freeHash.CollisionFree where
  json := Json.flatten_injective
  utf8 := Json.flatten_injective
  token n n' h := by simpa [freeHash] using h
  uuid5 _ d d' h := by
    have he : 2 * Encodable.encode d + 2 = 2 * Encodable.encode d' + 2 := h
    exact Encodable.encode_injective (show Encodable.encode d = Encodable.encode d' by omega)

end CivicLoop
