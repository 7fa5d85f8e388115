import CivicLoop.Foundation.PyDumps

/-!
# The canonical text of a bounded value

Arguments, proposals and actions are digested by way of one text: the JSON of a value within bounds, with sorted keys.
Two accepted values have one text exactly if they are the same value up to the order of keys, so that a digest stands
for the value.

## Main definitions

* `walk` : the walk over a value, which counts its nodes.
* `boundedJson` : the text of a value within bounds.
* `CanonicalText` : what makes the text stand for the value.

## Main results

* `walk_eq_some_iff` : what the walk accepts.
* `canonicalText` : the text is canonical and injective, and acceptance does not depend on the order of keys.

## References

Source: `backend/agents/tool_schemas.py`, lines 7–8 and 67–98.
-/

namespace CivicLoop.Agents

open PyValue

variable {F : Type}

/-- `MAX_PAYLOAD_BYTES`. -/
def maxPayloadBytes : ℕ := 65536

/-- `MAX_DEPTH`. -/
def maxDepth : ℕ := 8

/-- The bound on the number of nodes. -/
def maxNodes : ℕ := 2048

mutual

/-- `walk`: the number of nodes counted so far, if no bound is exceeded. -/
def walk (v : PyValue F) (depth nodes : ℕ) : Option ℕ :=
  if depth > maxDepth ∨ nodes + 1 > maxNodes then none
  else match v with
    | .dict items =>
      if items.length > 100 ∨ items.any fun item => item.1.length > 128 then none
      else walkItems items (depth + 1) (nodes + 1)
    | .list items => if items.length > 100 then none else walkList items (depth + 1) (nodes + 1)
    | .str s => if s.length > maxPayloadBytes then none else some (nodes + 1)
    | .null | .bool _ | .int _ | .float _ => some (nodes + 1)
    | .other _ => none

def walkList (items : List (PyValue F)) (depth nodes : ℕ) : Option ℕ :=
  match items with
  | [] => some nodes
  | v :: items => (walk v depth nodes).bind (walkList items depth)

def walkItems (items : List (PyStr × PyValue F)) (depth nodes : ℕ) : Option ℕ :=
  match items with
  | [] => some nodes
  | (_, v) :: items => (walk v depth nodes).bind (walkItems items depth)

end

/-- `bounded_json`. -/
def boundedJson (R : FloatRepr F) (v : PyValue F) : Option (List Char) :=
  if (walk v 0 0).isSome ∧ v.all (encodable R) = true ∧ (encode R true v).length ≤ maxPayloadBytes then
    some (encode R true v)
  else none

/-! ### The walk -/

mutual

/-- The number of values in a value, itself included. -/
def size : PyValue F → ℕ
  | .list items => 1 + sizeList items
  | .dict items => 1 + sizeItems items
  | _ => 1

def sizeList : List (PyValue F) → ℕ
  | [] => 0
  | v :: items => size v + sizeList items

def sizeItems : List (PyStr × PyValue F) → ℕ
  | [] => 0
  | (_, v) :: items => size v + sizeItems items

end

mutual

/-- The bounds on the depth and on the size of each part of a value at the depth `depth`. -/
def fits (depth : ℕ) : PyValue F → Bool
  | .dict items =>
    depth ≤ maxDepth && items.length ≤ 100 && items.all (fun item => item.1.length ≤ 128) &&
      fitsItems (depth + 1) items
  | .list items => depth ≤ maxDepth && items.length ≤ 100 && fitsList (depth + 1) items
  | .str s => depth ≤ maxDepth && s.length ≤ maxPayloadBytes
  | .other _ => false
  | _ => depth ≤ maxDepth

def fitsList (depth : ℕ) : List (PyValue F) → Bool
  | [] => true
  | v :: items => fits depth v && fitsList depth items

def fitsItems (depth : ℕ) : List (PyStr × PyValue F) → Bool
  | [] => true
  | (_, v) :: items => fits depth v && fitsItems depth items

end

mutual

/-- **What the walk accepts**: the counter never decreases, so that its bound is one on the size. -/
theorem walk_eq_some_iff (v : PyValue F) (depth nodes n : ℕ) :
    walk v depth nodes = some n ↔ fits depth v = true ∧ nodes + size v ≤ maxNodes ∧ n = nodes + size v := by
  match v with
  | .list items =>
    have hitems := walkList_eq_some_iff items (depth + 1) (nodes + 1) n
    simp only [walk, fits, size, Bool.and_eq_true, decide_eq_true_eq]
    split_ifs with hbound hlen
    · exact ⟨nofun, fun h => by omega⟩
    · exact ⟨nofun, fun h => by omega⟩
    · have hopen : nodes + 1 ≤ maxNodes := by omega
      rw [(and_iff_right hopen).symm.trans hitems, ← Nat.add_assoc]
      constructor
      · rintro ⟨hfits, hsize⟩
        exact ⟨⟨⟨by omega, by omega⟩, hfits⟩, hsize⟩
      · rintro ⟨⟨-, hfits⟩, hsize⟩
        exact ⟨hfits, hsize⟩
  | .dict items =>
    have hitems := walkItems_eq_some_iff items (depth + 1) (nodes + 1) n
    simp only [walk, fits, size, Bool.and_eq_true, decide_eq_true_eq, List.any_eq_true, List.all_eq_true]
    split_ifs with hbound hlen
    · exact ⟨nofun, fun h => by omega⟩
    · refine ⟨nofun, fun h => ?_⟩
      obtain hlen | ⟨item, hmem, hkey⟩ := hlen
      · omega
      · have hshort := h.1.1.2 item hmem
        omega
    · have hopen : nodes + 1 ≤ maxNodes := by omega
      have hkeys : ∀ item ∈ items, item.1.length ≤ 128 := fun item hmem =>
        not_lt.1 fun hlong => hlen (.inr ⟨item, hmem, hlong⟩)
      rw [(and_iff_right hopen).symm.trans hitems, ← Nat.add_assoc]
      constructor
      · rintro ⟨hfits, hsize⟩
        exact ⟨⟨⟨⟨by omega, by omega⟩, hkeys⟩, hfits⟩, hsize⟩
      · rintro ⟨⟨-, hfits⟩, hsize⟩
        exact ⟨hfits, hsize⟩
  | .str s =>
    simp only [walk, fits, size, Bool.and_eq_true, decide_eq_true_eq]
    split_ifs with hbound hlen
    · exact ⟨nofun, fun h => by omega⟩
    · exact ⟨nofun, fun h => by omega⟩
    · rw [Option.some.injEq]
      constructor
      · rintro rfl
        exact ⟨⟨by omega, by omega⟩, by omega, rfl⟩
      · exact fun h => h.2.2.symm
  | .null | .bool _ | .int _ | .float _ =>
    simp only [walk, fits, size, decide_eq_true_eq]
    split_ifs with hbound
    · exact ⟨nofun, fun h => by omega⟩
    · rw [Option.some.injEq]
      constructor
      · rintro rfl
        exact ⟨by omega, by omega, rfl⟩
      · exact fun h => h.2.2.symm
  | .other _ =>
    simp only [walk, fits]
    split_ifs <;> simp

theorem walkList_eq_some_iff (items : List (PyValue F)) (depth nodes n : ℕ) :
    (nodes ≤ maxNodes ∧ walkList items depth nodes = some n) ↔
      fitsList depth items = true ∧ nodes + sizeList items ≤ maxNodes ∧ n = nodes + sizeList items := by
  match items with
  | [] => simp [walkList, fitsList, sizeList, eq_comm]
  | v :: items =>
    have hhead := fun m => walk_eq_some_iff v depth nodes m
    have htail := fun m => walkList_eq_some_iff items depth m n
    simp only [walkList, fitsList, sizeList, Option.bind_eq_some_iff, Bool.and_eq_true, hhead]
    constructor
    · rintro ⟨-, m, ⟨hfits, hle, rfl⟩, hrest⟩
      obtain ⟨hrestFits, hsize, rfl⟩ := (htail (nodes + size v)).1 ⟨hle, hrest⟩
      exact ⟨⟨hfits, hrestFits⟩, by omega, by omega⟩
    · rintro ⟨⟨hfits, hrestFits⟩, hsize, rfl⟩
      obtain ⟨hle, hrest⟩ := (htail (nodes + size v)).2 ⟨hrestFits, by omega, by omega⟩
      exact ⟨by omega, nodes + size v, ⟨hfits, hle, rfl⟩, hrest⟩

theorem walkItems_eq_some_iff (items : List (PyStr × PyValue F)) (depth nodes n : ℕ) :
    (nodes ≤ maxNodes ∧ walkItems items depth nodes = some n) ↔
      fitsItems depth items = true ∧ nodes + sizeItems items ≤ maxNodes ∧ n = nodes + sizeItems items := by
  match items with
  | [] => simp [walkItems, fitsItems, sizeItems, eq_comm]
  | (key, v) :: items =>
    have hhead := fun m => walk_eq_some_iff v depth nodes m
    have htail := fun m => walkItems_eq_some_iff items depth m n
    simp only [walkItems, fitsItems, sizeItems, Option.bind_eq_some_iff, Bool.and_eq_true, hhead]
    constructor
    · rintro ⟨-, m, ⟨hfits, hle, rfl⟩, hrest⟩
      obtain ⟨hrestFits, hsize, rfl⟩ := (htail (nodes + size v)).1 ⟨hle, hrest⟩
      exact ⟨⟨hfits, hrestFits⟩, by omega, by omega⟩
    · rintro ⟨⟨hfits, hrestFits⟩, hsize, rfl⟩
      obtain ⟨hle, hrest⟩ := (htail (nodes + size v)).2 ⟨hrestFits, by omega, by omega⟩
      exact ⟨by omega, nodes + size v, ⟨hfits, hle, rfl⟩, hrest⟩

end

/-! ### The order of keys -/

theorem fitsItems_eq (depth : ℕ) (items : List (PyStr × PyValue F)) :
    fitsItems depth items = items.all fun item => fits depth item.2 := by
  induction items with
  | nil => rfl
  | cons item items ih =>
    obtain ⟨key, v⟩ := item
    rw [fitsItems, ih, List.all_cons]

theorem sizeItems_eq (items : List (PyStr × PyValue F)) : sizeItems items = (items.map fun item => size item.2).sum := by
  induction items with
  | nil => rfl
  | cons item items ih =>
    obtain ⟨key, v⟩ := item
    rw [sizeItems, ih, List.map_cons, List.sum_cons]

mutual

theorem size_canon (v : PyValue F) : size v.canon = size v := by
  match v with
  | .list items => rw [canon, size, size, sizeList_canonList items]
  | .dict items =>
    have hperm := (perm_sortKeys true (canonItems items)).map fun item => size item.2
    rw [canon, size, size, ← sizeItems_canonItems items, sizeItems_eq, sizeItems_eq, hperm.sum_nat]
  | .null | .bool _ | .int _ | .float _ | .str _ | .other _ => rfl

theorem sizeList_canonList (items : List (PyValue F)) : sizeList (canonList items) = sizeList items := by
  match items with
  | [] => rfl
  | v :: items => rw [canonList, sizeList, sizeList, size_canon v, sizeList_canonList items]

theorem sizeItems_canonItems (items : List (PyStr × PyValue F)) : sizeItems (canonItems items) = sizeItems items := by
  match items with
  | [] => rfl
  | (key, v) :: items => rw [canonItems, sizeItems, sizeItems, size_canon v, sizeItems_canonItems items]

end

mutual

theorem fits_canon (depth : ℕ) (v : PyValue F) : fits depth v.canon = fits depth v := by
  match v with
  | .list items => rw [canon, fits, fits, fitsList_canonList (depth + 1) items, canonList_eq, List.length_map]
  | .dict items =>
    have hperm := perm_sortKeys true (canonItems items)
    have hkeys : (canonItems items).all (fun item => decide (item.1.length ≤ 128)) =
        items.all fun item => decide (item.1.length ≤ 128) := by
      rw [canonItems_eq, List.all_map]
      rfl
    rw [canon, fits, fits, ← fitsItems_canonItems (depth + 1) items, fitsItems_eq, fitsItems_eq, hperm.all_eq,
      hperm.all_eq, hperm.length_eq, hkeys, canonItems_eq, List.length_map]
  | .null | .bool _ | .int _ | .float _ | .str _ | .other _ => rfl

theorem fitsList_canonList (depth : ℕ) (items : List (PyValue F)) :
    fitsList depth (canonList items) = fitsList depth items := by
  match items with
  | [] => rfl
  | v :: items => rw [canonList, fitsList, fitsList, fits_canon depth v, fitsList_canonList depth items]

theorem fitsItems_canonItems (depth : ℕ) (items : List (PyStr × PyValue F)) :
    fitsItems depth (canonItems items) = fitsItems depth items := by
  match items with
  | [] => rfl
  | (key, v) :: items => rw [canonItems, fitsItems, fitsItems, fits_canon depth v, fitsItems_canonItems depth items]

end

theorem walk_isSome_iff (v : PyValue F) : (walk v 0 0).isSome ↔ fits 0 v = true ∧ size v ≤ maxNodes := by
  rw [Option.isSome_iff_exists]
  simp only [walk_eq_some_iff, Nat.zero_add]
  exact ⟨fun ⟨_, hfits, hsize, _⟩ => ⟨hfits, hsize⟩, fun h => ⟨_, h.1, h.2, rfl⟩⟩

/-- The text of a value is the text of the value with sorted keys. -/
theorem boundedJson_canon (R : FloatRepr F) {v v' : PyValue F} (h : v.canon = v'.canon) :
    boundedJson R v = boundedJson R v' := by
  have hwalk : (walk v 0 0).isSome ↔ (walk v' 0 0).isSome := by
    rw [walk_isSome_iff, walk_isSome_iff, ← fits_canon, ← size_canon, h, fits_canon, size_canon]
  have hencodable : v.all (encodable R) = v'.all (encodable R) := by
    rw [← encodable_canon, h, encodable_canon]
  have htext : encode R true v = encode R true v' := by
    rw [encode_canon, h, ← encode_canon]
  simp only [boundedJson, hwalk, hencodable, htext]

theorem boundedJson_eq_some {R : FloatRepr F} {v : PyValue F} {text : List Char} (h : boundedJson R v = some text) :
    v.all (encodable R) = true ∧ text = encode R false v.canon := by
  unfold boundedJson at h
  split_ifs at h with hchecks
  rw [← encode_canon]
  exact ⟨hchecks.2.1, (Option.some.inj h).symm⟩

/-- The text stands for the value: two accepted values whose strings have no high surrogate directly before a low one
have one text exactly if they are the same value up to the order of keys, and acceptance does not depend on that
order. -/
structure CanonicalText (R : FloatRepr F) : Prop where
  eq_iff : ∀ (a b : PyObject F) (text text' : List Char), boundedJson R a.value = some text →
    boundedJson R b.value = some text' → a.value.all noPairs = true → b.value.all noPairs = true →
      (text = text' ↔ Same a.value b.value)
  accepts : ∀ a b : PyObject F, Same a.value b.value →
    (boundedJson R a.value).isSome = (boundedJson R b.value).isSome

/-- **The text of a bounded value is canonical and injective**, and acceptance does not depend on the order of keys. -/
theorem canonicalText (R : FloatRepr F) : CanonicalText R where
  eq_iff a b text text' ha hb hpa hpb := by
    rw [same_iff a.distinct]
    constructor
    · intro htext
      obtain ⟨hencodable, rfl⟩ := boundedJson_eq_some ha
      obtain ⟨hencodable', rfl⟩ := boundedJson_eq_some hb
      rw [← encodable_canon] at hencodable hencodable'
      rw [← noPairs_canon] at hpa hpb
      exact encode_inj hencodable hencodable' hpa hpb htext
    · intro hcanon
      rw [boundedJson_canon R hcanon, hb] at ha
      exact (Option.some.inj ha).symm
  accepts a b h := by rw [boundedJson_canon R ((same_iff a.distinct).1 h)]

end CivicLoop.Agents
