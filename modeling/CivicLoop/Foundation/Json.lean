import Mathlib

/-!
# JSON values and their digests

JSON values as a program holds them, with strings split by their form: a canonical UUID text, the
hexadecimal text of a digest, or any other text. The digests are symbolic. They are values of an
arbitrary type `D`, and the hash functions are a parameter `Hash D`; that they have no collisions is
a hypothesis where a result needs it, never part of the structure.

A dictionary is the list of its items. Two dictionaries with the same items in another order are one
value, and `Json.canon` picks the representative with sorted keys, as an encoder that sorts keys
does; a digest is always taken of the canonical value.

## Main definitions

* `Text`, `Json` : strings and values.
* `Json.canon` : the value with the keys of every dictionary sorted.
* `Json.same` : whether two values are the same.
* `Json.bounded` : the bounds on depth, size and encoded length under which a value is encoded.
* `Hash` : the hash functions; `Hash.digest` : the digest of a bounded value.
* `Hash.CollisionFree` : the hypothesis that there are no collisions.

## Main results

* `Json.get?_canon` : sorting the keys does not change what a key stands for.
-/

namespace CivicLoop

/-- The value of a UUID. -/
abbrev Uuid := ℕ

/-- A string: any text, the hexadecimal text of a digest, or the canonical text of a UUID. -/
inductive Text (D : Type)
  | lit (s : String)
  | hex (d : D)
  | uuid (u : Uuid)
deriving DecidableEq

/-- A JSON value. A float is given by its shortest decimal text. -/
inductive Json (D : Type)
  | null
  | bool (b : Bool)
  | int (n : ℤ)
  | float (text : String)
  | str (t : Text D)
  | arr (items : List (Json D))
  | obj (items : List (String × Json D))

variable {D : Type}

/-- The number of code points of a string. -/
def Text.length : Text D → ℕ
  | lit s => s.length
  | hex _ => 64
  | uuid _ => 36

namespace Json

/-- A string value. -/
def lit (s : String) : Json D := .str (.lit s)

/-- The value of a key of a dictionary. -/
def get? (j : Json D) (key : String) : Option (Json D) :=
  match j with
  | .obj items => items.lookup key
  | _ => none

/-- The string under a key. -/
def text? (j : Json D) (key : String) : Option (Text D) :=
  match j.get? key with
  | some (.str t) => some t
  | _ => none

/-- The UUID whose canonical text is under a key. -/
def uuid? (j : Json D) (key : String) : Option Uuid :=
  match j.get? key with
  | some (.str (.uuid u)) => some u
  | _ => none

/-- The integer under a key. -/
def int? (j : Json D) (key : String) : Option ℤ :=
  match j.get? key with
  | some (.int n) => some n
  | _ => none

/-- Whether the value of a key is `True` itself. -/
def isTrue (j : Json D) (key : String) : Bool :=
  match j.get? key with
  | some (.bool true) => true
  | _ => false

/-- Whether the value is a dictionary. -/
def isObj : Json D → Bool
  | .obj _ => true
  | _ => false

/-- Whether the value is a dictionary with exactly these keys. -/
def hasKeys (keys : List String) : Json D → Bool
  | .obj items => items.all (fun item => keys.contains item.1) &&
      keys.all fun key => (items.lookup key).isSome
  | _ => false

/-- Dictionary items in the order of their keys. -/
def sortItems (items : List (String × Json D)) : List (String × Json D) :=
  items.insertionSort fun a b => a.1 ≤ b.1

mutual

/-- The value with the keys of every dictionary sorted. -/
def canon : Json D → Json D
  | .arr items => .arr (canonList items)
  | .obj items => .obj (sortItems (canonItems items))
  | j => j

def canonList : List (Json D) → List (Json D)
  | [] => []
  | j :: items => canon j :: canonList items

def canonItems : List (String × Json D) → List (String × Json D)
  | [] => []
  | (key, j) :: items => (key, canon j) :: canonItems items

end

theorem lookup_orderedInsert (item : String × Json D) (items : List (String × Json D))
    (key : String) :
    (items.orderedInsert (fun a b => a.1 ≤ b.1) item).lookup key = (item :: items).lookup key := by
  induction items with
  | nil => rfl
  | cons b items ih =>
    rw [List.orderedInsert_cons]
    split_ifs with h
    · rfl
    · have hne : b.1 ≠ item.1 := fun e => h (e ▸ String.le_refl item.1)
      rw [List.lookup_cons, ih, List.lookup_cons, List.lookup_cons, List.lookup_cons]
      by_cases hb : key = b.1
      · have hi : (key == item.1) = false := by simpa [hb] using hne
        rw [hi]
      · have hb' : (key == b.1) = false := by simpa using hb
        rw [hb']

theorem lookup_sortItems (items : List (String × Json D)) (key : String) :
    (sortItems items).lookup key = items.lookup key := by
  induction items with
  | nil => rfl
  | cons item items ih =>
    rw [sortItems, List.insertionSort_cons, lookup_orderedInsert, List.lookup_cons,
      List.lookup_cons, ← ih]
    rfl

theorem lookup_canonItems (items : List (String × Json D)) (key : String) :
    (canonItems items).lookup key = (items.lookup key).map canon := by
  induction items with
  | nil => rfl
  | cons item items ih =>
    obtain ⟨k, j⟩ := item
    rw [canonItems, List.lookup_cons, List.lookup_cons, ih]
    cases key == k <;> rfl

/-- Sorting the keys does not change what a key stands for. -/
theorem get?_canon (j : Json D) (key : String) : j.canon.get? key = (j.get? key).map canon := by
  cases j with
  | obj items => rw [canon, get?, get?, lookup_sortItems, lookup_canonItems]
  | _ => simp [canon, get?]

theorem text?_canon (j : Json D) (key : String) : j.canon.text? key = j.text? key := by
  rw [text?, text?, get?_canon]
  cases j.get? key with
  | none => rfl
  | some v => cases v <;> simp [canon]

theorem uuid?_canon (j : Json D) (key : String) : j.canon.uuid? key = j.uuid? key := by
  rw [uuid?, uuid?, get?_canon]
  cases j.get? key with
  | none => rfl
  | some v => cases v <;> simp [canon]

theorem text?_of_uuid? {j : Json D} {key : String} {u : Uuid}
    (h : j.uuid? key = some u) : j.text? key = some (.uuid u) := by
  unfold uuid? at h
  unfold text?
  split at h
  · rename_i u' hu
    rw [hu, Option.some.inj h]
  · cases h

/-! ### Equality -/

section Equality

variable [DecidableEq D]

mutual

/-- Whether two values are the same. -/
def same : Json D → Json D → Bool
  | .null, .null => true
  | .bool b, .bool b' => b == b'
  | .int n, .int n' => n == n'
  | .float text, .float text' => text == text'
  | .str t, .str t' => t == t'
  | .arr items, .arr items' => sameList items items'
  | .obj items, .obj items' => sameItems items items'
  | _, _ => false

def sameList : List (Json D) → List (Json D) → Bool
  | [], [] => true
  | j :: items, j' :: items' => same j j' && sameList items items'
  | _, _ => false

def sameItems : List (String × Json D) → List (String × Json D) → Bool
  | [], [] => true
  | (key, j) :: items, (key', j') :: items' => key == key' && same j j' && sameItems items items'
  | _, _ => false

end

mutual

theorem same_iff (j j' : Json D) : same j j' = true ↔ j = j' := by
  cases j with
  | arr items =>
    cases j' with
    | arr items' => simpa [same] using sameList_iff items items'
    | _ => simp [same]
  | obj items =>
    cases j' with
    | obj items' => simpa [same] using sameItems_iff items items'
    | _ => simp [same]
  | _ => cases j' <;> simp [same]

theorem sameList_iff (items items' : List (Json D)) :
    sameList items items' = true ↔ items = items' := by
  match items, items' with
  | [], [] => simp [sameList]
  | j :: items, j' :: items' => simp [sameList, same_iff j j', sameList_iff items items']
  | [], _ :: _ => simp [sameList]
  | _ :: _, [] => simp [sameList]

theorem sameItems_iff (items items' : List (String × Json D)) :
    sameItems items items' = true ↔ items = items' := by
  match items, items' with
  | [], [] => simp [sameItems]
  | (key, j) :: items, (key', j') :: items' =>
    simp [sameItems, same_iff j j', sameItems_iff items items', and_assoc]
  | [], _ :: _ => simp [sameItems]
  | _ :: _, [] => simp [sameItems]

end

instance : DecidableEq (Json D) := fun j j' => decidable_of_iff _ (same_iff j j')

end Equality

/-! ### Bounds -/

mutual

/-- The number of values in a value, itself included. -/
def nodes : Json D → ℕ
  | .arr items => 1 + nodesList items
  | .obj items => 1 + nodesItems items
  | _ => 1

def nodesList : List (Json D) → ℕ
  | [] => 0
  | j :: items => nodes j + nodesList items

def nodesItems : List (String × Json D) → ℕ
  | [] => 0
  | (_, j) :: items => nodes j + nodesItems items

end

mutual

/-- The bounds on the depth and on the size of each part of a value at the depth `depth`. -/
def shapeOk (depth : ℕ) : Json D → Bool
  | .arr items => depth ≤ 8 && items.length ≤ 100 && shapeOkList (depth + 1) items
  | .obj items =>
    depth ≤ 8 && items.length ≤ 100 && items.all (fun item => item.1.length ≤ 128) &&
      shapeOkItems (depth + 1) items
  | .str t => depth ≤ 8 && t.length ≤ 65536
  | _ => depth ≤ 8

def shapeOkList (depth : ℕ) : List (Json D) → Bool
  | [] => true
  | j :: items => shapeOk depth j && shapeOkList depth items

def shapeOkItems (depth : ℕ) : List (String × Json D) → Bool
  | [] => true
  | (_, j) :: items => shapeOk depth j && shapeOkItems depth items

end

/-- The length of a character in an encoded string, when the encoder writes ASCII only. -/
def asciiLength (c : Char) : ℕ :=
  if c = '"' ∨ c = '\\' ∨ c.toNat ∈ [8, 9, 10, 12, 13] then 2
  else if 32 ≤ c.toNat ∧ c.toNat ≤ 126 then 1
  else if c.toNat ≤ 65535 then 6
  else 12

/-- The number of bytes of a character in an encoded string, when the encoder writes Unicode. -/
def utf8Length (c : Char) : ℕ :=
  if c = '"' ∨ c = '\\' ∨ c.toNat ∈ [8, 9, 10, 12, 13] then 2
  else if c.toNat < 32 then 6
  else if c.toNat ≤ 127 then 1
  else if c.toNat ≤ 2047 then 2
  else if c.toNat ≤ 65535 then 3
  else 4

def stringLength (char : Char → ℕ) (s : String) : ℕ := 2 + (s.toList.map char).sum

/-- The number of decimal digits of a natural number. -/
def digits (n : ℕ) : ℕ := Nat.log 10 n + 1

mutual

/-- The length of the encoded text, where `char` is the length of a character in a string and
`blank` the number of blanks after each separator. -/
def encodedLengthWith (char : Char → ℕ) (blank : ℕ) : Json D → ℕ
  | .null => 4
  | .bool true => 4
  | .bool false => 5
  | .int n => digits n.natAbs + if n < 0 then 1 else 0
  | .float text => text.length
  | .str (.lit s) => stringLength char s
  | .str t => 2 + t.length
  | .arr items => 2 + encodedLengthList char blank items + (1 + blank) * (items.length - 1)
  | .obj items => 2 + encodedLengthItems char blank items + (1 + blank) * (items.length - 1)

def encodedLengthList (char : Char → ℕ) (blank : ℕ) : List (Json D) → ℕ
  | [] => 0
  | j :: items => encodedLengthWith char blank j + encodedLengthList char blank items

def encodedLengthItems (char : Char → ℕ) (blank : ℕ) : List (String × Json D) → ℕ
  | [] => 0
  | (key, j) :: items =>
    stringLength char key + 1 + blank + encodedLengthWith char blank j +
      encodedLengthItems char blank items

end

/-- The length of the encoded ASCII text, without blanks. -/
def encodedLength (j : Json D) : ℕ := j.encodedLengthWith asciiLength 0

mutual

/-- Every number has an encoding: no float is infinite or not a number, and no integer is over the
interpreter's limit of 4300 digits. -/
def numbersOk : Json D → Bool
  | .int n => digits n.natAbs ≤ 4300
  | .float text => text ∉ ["nan", "inf", "-inf"]
  | .arr items => numbersOkList items
  | .obj items => numbersOkItems items
  | _ => true

def numbersOkList : List (Json D) → Bool
  | [] => true
  | j :: items => numbersOk j && numbersOkList items

def numbersOkItems : List (String × Json D) → Bool
  | [] => true
  | (_, j) :: items => numbersOk j && numbersOkItems items

end

/-- A value that is encoded: within all bounds. -/
def bounded (j : Json D) : Bool :=
  j.nodes ≤ 2048 && j.shapeOk 0 && j.numbersOk && j.encodedLength ≤ 65536

end Json

/-! ### Digests -/

/-- The hash functions: of the ASCII text of a canonical value, of its UTF-8 text, of a bearer token,
and the name-based UUID of a text with a fixed beginning; and the hexadecimal text of a digest. -/
structure Hash (D : Type) where
  json : Json D → D
  utf8 : Json D → D
  token : ℕ → D
  uuid5 : String → Text D → Uuid
  hexText : D → String

/-- No two values, tokens or digests have the same image. -/
structure Hash.CollisionFree (H : Hash D) : Prop where
  json : Function.Injective H.json
  utf8 : Function.Injective H.utf8
  token : Function.Injective H.token
  uuid5 : ∀ begins, Function.Injective fun d => H.uuid5 begins (.hex d)

/-- Whether the hexadecimal text of a digest has only letters. -/
def Hash.allLetters (H : Hash D) (d : D) : Bool := (H.hexText d).toList.all Char.isLower

/-- The digest of a value, whatever its size. -/
def Hash.ofJson (H : Hash D) (j : Json D) : D := H.json j.canon

/-- The digest of a bounded value. -/
def Hash.digest (H : Hash D) (j : Json D) : Option D :=
  if j.bounded then some (H.ofJson j) else none

theorem Hash.digest_eq_some {H : Hash D} {j : Json D} {d : D} :
    H.digest j = some d ↔ j.bounded ∧ H.ofJson j = d := by
  unfold Hash.digest
  split_ifs with h <;> simp [h]

/-- The digest of the UTF-8 text of a value. -/
def Hash.ofUtf8 (H : Hash D) (j : Json D) : D := H.utf8 j.canon

theorem Hash.CollisionFree.ofUtf8_inj {H : Hash D} (hH : H.CollisionFree) {j j' : Json D} :
    H.ofUtf8 j = H.ofUtf8 j' ↔ j.canon = j'.canon := hH.utf8.eq_iff

theorem Hash.CollisionFree.ofJson_inj {H : Hash D} (hH : H.CollisionFree) {j j' : Json D} :
    H.ofJson j = H.ofJson j' ↔ j.canon = j'.canon := hH.json.eq_iff

end CivicLoop
