import CivicLoop.Foundation.JsonText
import CivicLoop.Foundation.PrefixCode
import Mathlib

/-!
# Values of the interpreter and their JSON text

What a program hands to the JSON encoder. Strings are sequences of code points, in which surrogates may stand, and the
encoder writes ASCII only: a code point beyond the first plane as two surrogates. Dictionaries have distinct keys, and
the encoder sorts them on request. How a float is written is a parameter.

## Main definitions

* `FloatRepr` : how the interpreter writes its floats.
* `PyValue`, `PyObject` : values, and values whose dictionaries have distinct keys.
* `PyValue.encode` : the text of a value, with or without sorted keys.
* `PyValue.Same` : the same value up to the order of keys.
* `PyValue.canon` : the value with sorted keys.

## Main results

* `PyValue.encode_canon` : the text with sorted keys is the text of the value with sorted keys.
* `PyValue.same_iff` : two values are the same up to the order of keys if they are equal with sorted keys.
-/

namespace CivicLoop

/-! ### Values -/

/-- A code point, which may be a surrogate. -/
abbrev CodePoint := Fin 0x110000

/-- A code unit of UTF-16. -/
abbrev CodeUnit := Fin 0x10000

/-- A string of the interpreter. -/
abbrev PyStr := List CodePoint

/-- A character of the text of a number. -/
def isNumberChar (c : Char) : Bool := c.isDigit || c == '-' || c == '+' || c == '.' || c == 'e'

/-- The text of a finite float has a point or an exponent. -/
def isFloatText (cs : List Char) : Bool := cs.all isNumberChar && (cs.contains '.' || cs.contains 'e')

/-- Floats and how the interpreter writes them: the shortest text that is read back. -/
structure FloatRepr (F : Type) where
  finite : F → Bool
  repr : F → List Char
  repr_injective : ∀ x y, finite x = true → finite y = true → repr x = repr y → x = y
  repr_shape : ∀ x, finite x = true → isFloatText (repr x) = true

/-- Floats that are given by their texts. -/
def FloatRepr.ofText : FloatRepr { cs : List Char // isFloatText cs = true } where
  finite _ := true
  repr x := x.1
  repr_injective _ _ _ _ h := Subtype.ext h
  repr_shape x _ := x.2

/-- A value. A value of any other type, or a dictionary with a key that is not a string, has no JSON text. -/
inductive PyValue (F : Type)
  | null
  | bool (b : Bool)
  | int (n : ℤ)
  | float (x : F)
  | str (s : PyStr)
  | list (items : List (PyValue F))
  | dict (items : List (PyStr × PyValue F))
  | other (id : ℕ)

variable {F : Type}

namespace PyValue

mutual

/-- What holds of a value and of all its parts. -/
def all (p : PyValue F → Bool) : PyValue F → Bool
  | .list items => p (.list items) && allList p items
  | .dict items => p (.dict items) && allItems p items
  | v => p v

def allList (p : PyValue F → Bool) : List (PyValue F) → Bool
  | [] => true
  | v :: items => all p v && allList p items

def allItems (p : PyValue F → Bool) : List (PyStr × PyValue F) → Bool
  | [] => true
  | (_, v) :: items => all p v && allItems p items

end

theorem allList_iff {p : PyValue F → Bool} {items : List (PyValue F)} :
    allList p items = true ↔ ∀ v ∈ items, v.all p = true := by
  induction items with
  | nil => simp [allList]
  | cons v items ih => simp [allList, ih]

theorem allItems_iff {p : PyValue F → Bool} {items : List (PyStr × PyValue F)} :
    allItems p items = true ↔ ∀ item ∈ items, item.2.all p = true := by
  induction items with
  | nil => simp [allItems]
  | cons item items ih =>
    obtain ⟨key, v⟩ := item
    simp [allItems, ih]

/-- The keys of a dictionary are distinct. -/
def distinctKeys : PyValue F → Bool
  | .dict items => (items.map Prod.fst).Nodup
  | _ => true

end PyValue

/-- A value as the interpreter holds it: the keys of its dictionaries are distinct. -/
structure PyObject (F : Type) where
  value : PyValue F
  distinct : value.all PyValue.distinctKeys = true

namespace PyValue

/-! ### The encoder -/

/-- A code unit in a string: escaped, unless it is a printable ASCII character other than the quote and the
backslash. -/
def escapeUnit (u : CodeUnit) : List Char :=
  if u.val = 34 then "\\\"".toList
  else if u.val = 92 then "\\\\".toList
  else if u.val = 8 then "\\b".toList
  else if u.val = 9 then "\\t".toList
  else if u.val = 10 then "\\n".toList
  else if u.val = 12 then "\\f".toList
  else if u.val = 13 then "\\r".toList
  else if 32 ≤ u.val ∧ u.val ≤ 126 then [Char.ofNat u.val]
  else '\\' :: 'u' :: hexDigits 4 u.val

/-- The code units of a code point: itself, or two surrogates. -/
def codeUnits (c : CodePoint) : List CodeUnit :=
  if h : c.val < 0x10000 then [⟨c.val, h⟩]
  else
    [⟨0xD800 + (c.val - 0x10000) / 0x400, by have := c.isLt; omega⟩,
      ⟨0xDC00 + (c.val - 0x10000) % 0x400, by omega⟩]

/-- `py_encode_basestring_ascii`. -/
def encodeString (s : PyStr) : List Char :=
  '"' :: ((s.flatMap codeUnits).flatMap escapeUnit ++ ['"'])

/-- The order of keys in the text. -/
def sortKeys {α : Type} (sorted : Bool) (items : List (PyStr × α)) : List (PyStr × α) :=
  if sorted then items.insertionSort fun a b => a.1 ≤ b.1 else items

/-- A key and the text of its value. -/
def member (item : PyStr × List Char) : List Char := encodeString item.1 ++ ':' :: item.2

mutual

/-- The text of a value, without blanks. A value of another type has none. -/
def encode (R : FloatRepr F) (sorted : Bool) : PyValue F → List Char
  | .null => "null".toList
  | .bool true => "true".toList
  | .bool false => "false".toList
  | .int n => Json.writeInt n
  | .float x => R.repr x
  | .str s => encodeString s
  | .list items => '[' :: ([','].intercalate (encodeList R sorted items) ++ [']'])
  | .dict items =>
    '\x7b' :: ([','].intercalate ((sortKeys sorted (encodeItems R sorted items)).map member) ++ ['\x7d'])
  | .other _ => []

def encodeList (R : FloatRepr F) (sorted : Bool) : List (PyValue F) → List (List Char)
  | [] => []
  | v :: items => encode R sorted v :: encodeList R sorted items

def encodeItems (R : FloatRepr F) (sorted : Bool) : List (PyStr × PyValue F) → List (PyStr × List Char)
  | [] => []
  | (key, v) :: items => (key, encode R sorted v) :: encodeItems R sorted items

end

example : encode .ofText true (.dict [([98], .int (-1)), ([97], .list [.bool true, .str [34, 0x1F600]])]) =
    "\x7b\"a\":[true,\"\\\"\\ud83d\\ude00\"],\"b\":-1\x7d".toList := by
  decide +kernel

/-- The encoder writes the value: no infinite float and none that is not a number, no integer over the interpreter's
limit of 4300 digits, and no value of another type. -/
def encodable (R : FloatRepr F) : PyValue F → Bool
  | .int n => (Nat.toDigits 10 n.natAbs).length ≤ 4300
  | .float x => R.finite x
  | .other _ => false
  | _ => true

theorem encodeList_eq (R : FloatRepr F) (sorted : Bool) (items : List (PyValue F)) :
    encodeList R sorted items = items.map (encode R sorted) := by
  induction items with
  | nil => rfl
  | cons v items ih => rw [encodeList, ih, List.map_cons]

theorem encodeItems_eq (R : FloatRepr F) (sorted : Bool) (items : List (PyStr × PyValue F)) :
    encodeItems R sorted items = items.map fun item => (item.1, encode R sorted item.2) := by
  induction items with
  | nil => rfl
  | cons item items ih =>
    obtain ⟨key, v⟩ := item
    rw [encodeItems, ih, List.map_cons]

/-! ### Sorted keys -/

mutual

/-- The value with the keys of its dictionaries sorted. -/
def canon : PyValue F → PyValue F
  | .list items => .list (canonList items)
  | .dict items => .dict (sortKeys true (canonItems items))
  | v => v

def canonList : List (PyValue F) → List (PyValue F)
  | [] => []
  | v :: items => canon v :: canonList items

def canonItems : List (PyStr × PyValue F) → List (PyStr × PyValue F)
  | [] => []
  | (key, v) :: items => (key, canon v) :: canonItems items

end

mutual

/-- The same value, up to the order of the keys of its dictionaries. -/
inductive Same : PyValue F → PyValue F → Prop
  | null : Same .null .null
  | bool (b : Bool) : Same (.bool b) (.bool b)
  | int (n : ℤ) : Same (.int n) (.int n)
  | float (x : F) : Same (.float x) (.float x)
  | str (s : PyStr) : Same (.str s) (.str s)
  | list {items items' : List (PyValue F)} (h : SameList items items') : Same (.list items) (.list items')
  | dict {items items' : List (PyStr × PyValue F)} (h : SameItems items items') : Same (.dict items) (.dict items')
  | other (id : ℕ) : Same (.other id) (.other id)

inductive SameList : List (PyValue F) → List (PyValue F) → Prop
  | nil : SameList [] []
  | cons {v v' : PyValue F} {items items' : List (PyValue F)} (h : Same v v') (hs : SameList items items') :
    SameList (v :: items) (v' :: items')

/-- Every item has its counterpart, at any place. -/
inductive SameItems : List (PyStr × PyValue F) → List (PyStr × PyValue F) → Prop
  | nil : SameItems [] []
  | cons {key : PyStr} {v v' : PyValue F} {items before after : List (PyStr × PyValue F)} (h : Same v v')
    (hs : SameItems items (before ++ after)) : SameItems ((key, v) :: items) (before ++ (key, v') :: after)

end

/-! ### Sorting -/

theorem sortKeys_false {α : Type} (items : List (PyStr × α)) : sortKeys false items = items := rfl

theorem perm_sortKeys {α : Type} (sorted : Bool) (items : List (PyStr × α)) : (sortKeys sorted items).Perm items := by
  cases sorted with
  | false => exact .refl items
  | true => exact List.perm_insertionSort _ items

/-- Sorting looks at the keys only. -/
theorem map_sortKeys {α β : Type} (sorted : Bool) (f : α → β) (items : List (PyStr × α)) :
    (sortKeys sorted items).map (fun item => (item.1, f item.2)) =
      sortKeys sorted (items.map fun item => (item.1, f item.2)) := by
  cases sorted with
  | false => rfl
  | true => exact List.map_insertionSort _ _ _ _ fun _ _ _ _ => Iff.rfl

/-- Items with distinct keys are sorted in one way. -/
theorem sortKeys_eq_of_perm {α : Type} {items items' : List (PyStr × α)} (h : items.Perm items')
    (hdistinct : (items.map Prod.fst).Nodup) : sortKeys true items = sortKeys true items' := by
  have hsorted : ∀ items : List (PyStr × α), (sortKeys true items).Pairwise fun a b => a.1 ≤ b.1 := fun items =>
    List.pairwise_insertionSort _ items
  have hperm := ((perm_sortKeys true items).trans h).trans (perm_sortKeys true items').symm
  refine hperm.eq_of_pairwise (fun a b ha hb hab hba => ?_) (hsorted items) (hsorted items')
  have ha' : a ∈ items := (perm_sortKeys true items).mem_iff.1 ha
  have hb' : b ∈ items := h.mem_iff.2 ((perm_sortKeys true items').mem_iff.1 hb)
  exact List.inj_on_of_nodup_map hdistinct ha' hb' (le_antisymm hab hba)

theorem canonList_eq (items : List (PyValue F)) : canonList items = items.map canon := by
  induction items with
  | nil => rfl
  | cons v items ih => rw [canonList, ih, List.map_cons]

theorem canonItems_eq (items : List (PyStr × PyValue F)) :
    canonItems items = items.map fun item => (item.1, canon item.2) := by
  induction items with
  | nil => rfl
  | cons item items ih =>
    obtain ⟨key, v⟩ := item
    rw [canonItems, ih, List.map_cons]

mutual

/-- **The text with sorted keys** is the text of the value with sorted keys. -/
theorem encode_canon (R : FloatRepr F) (v : PyValue F) : encode R true v = encode R false v.canon := by
  match v with
  | .list items => rw [encode, canon, encode, encodeList_canonList R items]
  | .dict items =>
    have hitems := encodeItems_canonItems R items
    rw [encodeItems_eq R false] at hitems
    rw [encode, canon, encode, encodeItems_eq R false, sortKeys_false, map_sortKeys, hitems]
  | .null | .bool true | .bool false | .int _ | .float _ | .str _ | .other _ => rfl

theorem encodeList_canonList (R : FloatRepr F) (items : List (PyValue F)) :
    encodeList R true items = encodeList R false (canonList items) := by
  match items with
  | [] => rfl
  | v :: items => rw [encodeList, canonList, encodeList, encode_canon R v, encodeList_canonList R items]

theorem encodeItems_canonItems (R : FloatRepr F) (items : List (PyStr × PyValue F)) :
    encodeItems R true items = encodeItems R false (canonItems items) := by
  match items with
  | [] => rfl
  | (key, v) :: items => rw [encodeItems, canonItems, encodeItems, encode_canon R v, encodeItems_canonItems R items]

end

/-! ### The same value -/

theorem canonItems_append (items items' : List (PyStr × PyValue F)) :
    canonItems (items ++ items') = canonItems items ++ canonItems items' := by
  rw [canonItems_eq, canonItems_eq, canonItems_eq, List.map_append]

theorem keys_canonItems (items : List (PyStr × PyValue F)) :
    (canonItems items).map Prod.fst = items.map Prod.fst := by
  rw [canonItems_eq, List.map_map]
  rfl

mutual

theorem Same.canon_eq {v v' : PyValue F} (h : Same v v') (hv : v.all distinctKeys = true) : v.canon = v'.canon := by
  match h with
  | .list hs =>
    rw [all, Bool.and_eq_true] at hv
    rw [canon, canon, hs.canonList_eq hv.2]
  | @Same.dict _ items _ hs =>
    rw [all, Bool.and_eq_true, distinctKeys, decide_eq_true_eq] at hv
    have hkeys : ((canonItems items).map Prod.fst).Nodup := by
      rw [keys_canonItems]
      exact hv.1
    rw [canon, canon, sortKeys_eq_of_perm (hs.canonItems_perm hv.2) hkeys]
  | .null | .bool _ | .int _ | .float _ | .str _ | .other _ => rfl

theorem SameList.canonList_eq {items items' : List (PyValue F)} (h : SameList items items')
    (hv : allList distinctKeys items = true) : canonList items = canonList items' := by
  match h with
  | .nil => rfl
  | .cons hs hrest =>
    rw [allList, Bool.and_eq_true] at hv
    rw [canonList, canonList, hs.canon_eq hv.1, hrest.canonList_eq hv.2]

theorem SameItems.canonItems_perm {items items' : List (PyStr × PyValue F)} (h : SameItems items items')
    (hv : allItems distinctKeys items = true) : (canonItems items).Perm (canonItems items') := by
  match h with
  | .nil => exact .refl []
  | .cons hs hrest =>
    rw [allItems, Bool.and_eq_true] at hv
    have hperm := hrest.canonItems_perm hv.2
    rw [canonItems_append] at hperm
    rw [canonItems, canonItems_append, canonItems, hs.canon_eq hv.1]
    exact (hperm.cons _).trans List.perm_middle.symm

end

mutual

theorem same_of_canon (v v' : PyValue F) (h : v.canon = v'.canon) : Same v v' := by
  match v with
  | .list items =>
    cases v' with
    | list items' =>
      rw [canon, canon, list.injEq] at h
      exact .list (sameList_of_canon items items' h)
    | _ => simp [canon] at h
  | .dict items =>
    cases v' with
    | dict items' =>
      rw [canon, canon, dict.injEq] at h
      have hperm := (perm_sortKeys true (canonItems items)).symm
      rw [h] at hperm
      exact .dict (sameItems_of_canon items items' (hperm.trans (perm_sortKeys true (canonItems items'))))
    | _ => simp [canon] at h
  -- the other values are sorted already
  | .null | .bool _ | .int _ | .float _ | .str _ | .other _ =>
    cases v' <;> simp only [canon, reduceCtorEq] at h
    cases h
    constructor

theorem sameList_of_canon (items items' : List (PyValue F)) (h : canonList items = canonList items') :
    SameList items items' := by
  match items with
  | [] =>
    cases items' with
    | nil => exact .nil
    | cons v' items' => simp [canonList] at h
  | v :: items =>
    cases items' with
    | nil => simp [canonList] at h
    | cons v' items' =>
      rw [canonList, canonList, List.cons.injEq] at h
      exact .cons (same_of_canon v v' h.1) (sameList_of_canon items items' h.2)

theorem sameItems_of_canon (items items' : List (PyStr × PyValue F))
    (h : (canonItems items).Perm (canonItems items')) : SameItems items items' := by
  match items with
  | [] =>
    rw [canonItems, List.nil_perm, canonItems_eq, List.map_eq_nil_iff] at h
    rw [h]
    exact .nil
  | (key, v) :: items =>
    -- the item has its counterpart
    have hmem : (key, canon v) ∈ canonItems items' := h.mem_iff.1 (by rw [canonItems]; exact List.mem_cons_self)
    rw [canonItems_eq, List.mem_map] at hmem
    obtain ⟨⟨key', v'⟩, hmem, heq⟩ := hmem
    obtain ⟨rfl, hv⟩ := Prod.mk.inj heq
    obtain ⟨before, after, rfl⟩ := List.append_of_mem hmem
    refine .cons (same_of_canon v v' hv.symm) (sameItems_of_canon items (before ++ after) ?_)
    rw [canonItems, canonItems_append, canonItems, ← hv] at h
    rw [canonItems_append]
    exact (h.trans List.perm_middle).cons_inv

end

/-- **Values are the same up to the order of keys** if they are equal with sorted keys. -/
theorem same_iff {v v' : PyValue F} (hv : v.all distinctKeys = true) : Same v v' ↔ v.canon = v'.canon :=
  ⟨fun h => h.canon_eq hv, same_of_canon v v'⟩

/-- What holds of a value by itself does not depend on the order of its keys. -/
structure OrderFree (p : PyValue F → Bool) : Prop where
  list : ∀ items, p (.list (canonList items)) = p (.list items)
  dict : ∀ items, p (.dict (sortKeys true (canonItems items))) = p (.dict items)

mutual

theorem OrderFree.all_canon {p : PyValue F → Bool} (h : OrderFree p) (v : PyValue F) : v.canon.all p = v.all p := by
  match v with
  | .list items => rw [canon, all, all, h.list, h.allList_canonList items]
  | .dict items =>
    have hperm : allItems p (sortKeys true (canonItems items)) = allItems p (canonItems items) := by
      rw [Bool.eq_iff_iff, allItems_iff, allItems_iff]
      exact forall_congr' fun item => by rw [(perm_sortKeys true (canonItems items)).mem_iff]
    rw [canon, all, all, h.dict, hperm, h.allItems_canonItems items]
  | .null | .bool _ | .int _ | .float _ | .str _ | .other _ => rfl

theorem OrderFree.allList_canonList {p : PyValue F → Bool} (h : OrderFree p) (items : List (PyValue F)) :
    allList p (canonList items) = allList p items := by
  match items with
  | [] => rfl
  | v :: items => rw [canonList, allList, allList, h.all_canon v, h.allList_canonList items]

theorem OrderFree.allItems_canonItems {p : PyValue F → Bool} (h : OrderFree p) (items : List (PyStr × PyValue F)) :
    allItems p (canonItems items) = allItems p items := by
  match items with
  | [] => rfl
  | (key, v) :: items => rw [canonItems, allItems, allItems, h.all_canon v, h.allItems_canonItems items]

end

theorem encodable_canon (R : FloatRepr F) (v : PyValue F) : v.canon.all (encodable R) = v.all (encodable R) :=
  OrderFree.all_canon ⟨fun _ => rfl, fun _ => rfl⟩ v

end PyValue

end CivicLoop
