import Mathlib

/-!
# Tables with a primary key

A database table is a list of rows, in the order of their insertion, with pairwise distinct keys.
The distinctness is a field of the structure, so a table with two rows of one key cannot be built:
`Table.insert?` refuses a key that is present, as an `INSERT` that violates a primary key does, and
`Table.modify` changes a row in place, as an `UPDATE` selected by the primary key does.

## Main definitions

* `Table.get?`, `Table.insert?`, `Table.modify`, `Table.set`, `Table.erase` : the row operations.
* `Table.put` : insert or replace, as an assignment to a dictionary does.
* `Table.deleteWhere`, `Table.mapValues` : delete the rows that satisfy a condition, change all rows.
* `Table.mapKeys` : change the rows of some keys.
* `Table.find?` : the first row that satisfies a condition.
* `Table.sortedRows` : the rows in the order of their keys.
* `Table.sumBy` : a column total.

## Main results

* `Table.get?_of_insert?`, `Table.get?_modify`, `Table.get?_set` : reading after a write.
* `Table.sumBy_of_insert?`, `Table.sumBy_modify` : a column total after a write.
* `Table.find?_eq_some`, `Table.find?_eq_none` : what a search by a condition returns.
* `Table.filter_sortedRows_congr` : tables that agree on the rows of a kind list them alike.
-/

namespace CivicLoop

/-- A table: rows in the order of insertion, with pairwise distinct keys. -/
structure Table (K V : Type*) where
  rows : List (K × V)
  nodup : (rows.map Prod.fst).Nodup

namespace Table

variable {K V : Type*} [DecidableEq K]

/-- The table without rows. -/
def empty : Table K V := ⟨[], List.nodup_nil⟩

/-- The row with the key `k`. -/
def get? (t : Table K V) (k : K) : Option V := t.rows.lookup k

/-- The values of all rows. -/
def values (t : Table K V) : List V := t.rows.map Prod.snd

/-- The first row that satisfies `p`. -/
def find? (t : Table K V) (p : K → V → Bool) : Option (K × V) := t.rows.find? fun r => p r.1 r.2

/-- The column total of `f`. -/
def sumBy (t : Table K V) (f : V → ℤ) : ℤ := (t.values.map f).sum

theorem get?_eq_none_iff {t : Table K V} {k : K} : t.get? k = none ↔ k ∉ t.rows.map Prod.fst := by
  simp only [get?, List.lookup_eq_none_iff, List.mem_map, not_exists, not_and, bne_iff_ne]
  exact ⟨fun h p hp e => h p hp e.symm, fun h p hp e => h p hp e.symm⟩

/-- Insert the row `v` under the key `k`; refused when the key is present. -/
def insert? (t : Table K V) (k : K) (v : V) : Option (Table K V) :=
  if h : t.get? k = none then
    some ⟨t.rows ++ [(k, v)], by
      rw [List.map_append, List.nodup_append]
      refine ⟨t.nodup, by simp, fun a ha b hb hab => ?_⟩
      simp only [List.map_cons, List.map_nil, List.mem_singleton] at hb
      exact get?_eq_none_iff.1 h (by rwa [← hb, ← hab])⟩
  else none

/-- Change the row with the key `k` by `f`, in place. -/
def modify (t : Table K V) (k : K) (f : V → V) : Table K V :=
  ⟨t.rows.map fun r => if r.1 = k then (r.1, f r.2) else r, by
    have h : (t.rows.map fun r => if r.1 = k then (r.1, f r.2) else r).map Prod.fst =
        t.rows.map Prod.fst := by
      rw [List.map_map]
      refine List.map_congr_left fun r _ => ?_
      by_cases hr : r.1 = k <;> simp [hr]
    rw [h]
    exact t.nodup⟩

/-- Replace the row with the key `k`, in place. -/
def set (t : Table K V) (k : K) (v : V) : Table K V := t.modify k fun _ => v

/-- Delete the row with the key `k`. -/
def erase (t : Table K V) (k : K) : Table K V :=
  ⟨t.rows.filter fun r => r.1 != k, t.nodup.sublist (List.filter_sublist.map _)⟩

/-- Insert the row with the key `k`, or replace it. -/
def put (t : Table K V) (k : K) (v : V) : Table K V := (t.insert? k v).getD (t.set k v)

/-- Change all rows. -/
def mapValues (t : Table K V) (f : V → V) : Table K V :=
  ⟨t.rows.map fun r => (r.1, f r.2), by rw [List.map_map]; exact t.nodup⟩

/-- Change the rows whose key satisfies `p`. -/
def mapKeys (t : Table K V) (p : K → Bool) (f : V → V) : Table K V :=
  ⟨t.rows.map fun r => (r.1, if p r.1 then f r.2 else r.2), by rw [List.map_map]; exact t.nodup⟩

/-- Delete the rows that satisfy `p`. -/
def deleteWhere (t : Table K V) (p : V → Bool) : Table K V :=
  ⟨t.rows.filter fun r => !p r.2, t.nodup.sublist (List.filter_sublist.map _)⟩

/-- The table without the rows whose key satisfies `p`. -/
def deleteKeys (t : Table K V) (p : K → Bool) : Table K V :=
  ⟨t.rows.filter fun r => !p r.1, t.nodup.sublist (List.filter_sublist.map _)⟩

/-- The number of rows. -/
def count (t : Table K V) : ℕ := t.rows.length

/-- The number of rows that satisfy `p`. -/
def countWhere (t : Table K V) (p : V → Bool) : ℕ := t.rows.countP fun r => p r.2

@[simp] theorem get?_empty (k : K) : (empty : Table K V).get? k = none := rfl

omit [DecidableEq K] in
@[simp] theorem sumBy_empty (f : V → ℤ) : (empty : Table K V).sumBy f = 0 := rfl

theorem get?_eq_some_iff {t : Table K V} {k : K} {v : V} : t.get? k = some v ↔ (k, v) ∈ t.rows := by
  obtain ⟨rows, hnd⟩ := t
  simp only [get?]
  induction rows with
  | nil => simp
  | cons r rows ih =>
    obtain ⟨k', v'⟩ := r
    simp only [List.map_cons, List.nodup_cons, List.mem_map, not_exists, not_and] at hnd
    by_cases hk : k = k'
    · subst hk
      constructor
      · intro h
        simp only [List.lookup_cons_self, Option.some.injEq] at h
        simp [h]
      · intro h
        rcases List.mem_cons.1 h with h | h
        · obtain ⟨-, rfl⟩ := Prod.mk.inj h
          simp
        · exact absurd rfl (hnd.1 _ h)
    · have hk' : (k == k') = false := by simpa using hk
      rw [List.lookup_cons, hk']
      simp only [List.mem_cons, Prod.mk.injEq, hk, false_and, false_or]
      exact ih hnd.2

theorem mem_values {t : Table K V} {v : V} : v ∈ t.values ↔ ∃ k, t.get? k = some v := by
  simp [values, get?_eq_some_iff]

theorem insert?_eq_some {t t' : Table K V} {k : K} {v : V} (h : t.insert? k v = some t') :
    t.get? k = none ∧ t'.rows = t.rows ++ [(k, v)] := by
  unfold insert? at h
  split_ifs at h with hk
  obtain rfl := Option.some.inj h
  exact ⟨hk, rfl⟩

theorem insert?_isSome {t : Table K V} {k : K} (h : t.get? k = none) (v : V) :
    ∃ t', t.insert? k v = some t' := ⟨_, by rw [insert?, dif_pos h]⟩

/-- Reading after an insertion. -/
theorem get?_of_insert? {t t' : Table K V} {k : K} {v : V} (h : t.insert? k v = some t')
    (k' : K) : t'.get? k' = if k' = k then some v else t.get? k' := by
  obtain ⟨hk, hrows⟩ := insert?_eq_some h
  rw [get?, hrows, List.lookup_append]
  by_cases e : k' = k
  · subst e
    rw [show t.rows.lookup k' = none from hk]
    simp
  · have hs : ([(k, v)] : List (K × V)).lookup k' = none := by
      simpa using e
    rw [hs, Option.or_none, if_neg e]
    rfl

/-- Reading after an update in place. -/
theorem get?_modify (t : Table K V) (k : K) (f : V → V) (k' : K) :
    (t.modify k f).get? k' = if k' = k then (t.get? k).map f else t.get? k' := by
  obtain ⟨rows, hnd⟩ := t
  simp only [modify, get?]
  clear hnd
  induction rows with
  | nil => simp
  | cons r rows ih =>
    obtain ⟨k₀, v₀⟩ := r
    rw [List.map_cons]
    by_cases e₀ : k₀ = k
    · subst e₀
      by_cases e : k' = k₀
      · subst e
        simp
      · have hb : (k' == k₀) = false := by simpa using e
        simp only [if_true, List.lookup_cons, hb, ih, if_neg e]
    · rw [if_neg e₀]
      by_cases e : k' = k₀
      · subst e
        simp [e₀]
      · have hb : (k' == k₀) = false := by simpa using e
        have hb₀ : (k == k₀) = false := by simpa using fun h : k = k₀ => e₀ h.symm
        simp only [List.lookup_cons, hb, hb₀, ih]

theorem get?_modify_self (t : Table K V) (k : K) (f : V → V) :
    (t.modify k f).get? k = (t.get? k).map f := by
  rw [get?_modify, if_pos rfl]

theorem get?_modify_of_ne (t : Table K V) (f : V → V) {k k' : K} (h : k' ≠ k) :
    (t.modify k f).get? k' = t.get? k' := by
  rw [get?_modify, if_neg h]

/-- Reading after a replacement. -/
theorem get?_set (t : Table K V) (k : K) (v : V) (k' : K) :
    (t.set k v).get? k' = if k' = k then (t.get? k).map fun _ => v else t.get? k' :=
  get?_modify t k _ k'

theorem get?_set_of_ne (t : Table K V) (v : V) {k k' : K} (h : k' ≠ k) :
    (t.set k v).get? k' = t.get? k' :=
  get?_modify_of_ne t _ h

theorem get?_set_self {t : Table K V} {k : K} {v₀ : V} (h : t.get? k = some v₀) (v : V) :
    (t.set k v).get? k = some v := by
  rw [get?_set, if_pos rfl, h, Option.map_some]

/-- Reading after a deletion. -/
theorem get?_erase (t : Table K V) (k k' : K) :
    (t.erase k).get? k' = if k' = k then none else t.get? k' := by
  refine Option.ext fun v => ?_
  rw [get?_eq_some_iff]
  split_ifs with e
  · simp [erase, e]
  · simp [erase, e, get?_eq_some_iff]

/-- Reading after a deletion by a condition. -/
theorem get?_deleteWhere (t : Table K V) (p : V → Bool) (k : K) :
    (t.deleteWhere p).get? k = (t.get? k).filter fun v => !p v := by
  refine Option.ext fun v => ?_
  rw [get?_eq_some_iff, Option.filter_eq_some_iff, get?_eq_some_iff]
  simp [deleteWhere]

theorem get?_of_deleteWhere {t : Table K V} {p : V → Bool} {k : K} {v : V}
    (h : (t.deleteWhere p).get? k = some v) : t.get? k = some v ∧ p v = false := by
  rw [get?_deleteWhere, Option.filter_eq_some_iff] at h
  simpa using h

theorem get?_deleteWhere_of_keep {t : Table K V} {p : V → Bool} {k : K} {v : V}
    (h : t.get? k = some v) (hp : p v = false) : (t.deleteWhere p).get? k = some v := by
  rw [get?_deleteWhere, h, Option.filter_some_pos]
  simpa using hp

/-- Reading after a deletion of keys. -/
theorem get?_deleteKeys (t : Table K V) (p : K → Bool) (k : K) :
    (t.deleteKeys p).get? k = if p k then none else t.get? k := by
  refine Option.ext fun v => ?_
  rw [get?_eq_some_iff]
  split_ifs with hp
  · simp [deleteKeys, hp]
  · simp [deleteKeys, hp, get?_eq_some_iff]

/-- There is always a key that is not in use. -/
theorem exists_get?_eq_none [Infinite K] (t : Table K V) : ∃ k, t.get? k = none := by
  obtain ⟨k, hk⟩ := Infinite.exists_notMem_finset (t.rows.map Prod.fst).toFinset
  refine ⟨k, get?_eq_none_iff.2 fun hmem => hk ?_⟩
  rwa [List.mem_toFinset]

theorem put_of_none {t : Table K V} {k : K} (h : t.get? k = none) (v : V) :
    t.insert? k v = some (t.put k v) := by
  obtain ⟨t', ht'⟩ := insert?_isSome h v
  rw [put, ht', Option.getD_some]

theorem put_of_some {t : Table K V} {k : K} {w : V} (h : t.get? k = some w) (v : V) :
    t.put k v = t.set k v := by
  rw [put, insert?, dif_neg (by rw [h]; simp), Option.getD_none]

/-- Reading after an insertion or a replacement. -/
theorem get?_put (t : Table K V) (k : K) (v : V) (k' : K) :
    (t.put k v).get? k' = if k' = k then some v else t.get? k' := by
  cases h : t.get? k with
  | none => exact get?_of_insert? (put_of_none h v) k'
  | some w => rw [put_of_some h, get?_set, h, Option.map_some]

theorem get?_put_self (t : Table K V) (k : K) (v : V) : (t.put k v).get? k = some v := by
  rw [get?_put, if_pos rfl]

theorem get?_put_of_ne (t : Table K V) (v : V) {k k' : K} (h : k' ≠ k) :
    (t.put k v).get? k' = t.get? k' := by
  rw [get?_put, if_neg h]

/-- Reading after a change of all rows. -/
theorem get?_mapValues (t : Table K V) (f : V → V) (k : K) :
    (t.mapValues f).get? k = (t.get? k).map f := by
  refine Option.ext fun v => ?_
  rw [get?_eq_some_iff, Option.map_eq_some_iff]
  simp [mapValues, get?_eq_some_iff]

/-- Reading after a change of the rows of some keys. -/
theorem get?_mapKeys (t : Table K V) (p : K → Bool) (f : V → V) (k : K) :
    (t.mapKeys p f).get? k = (t.get? k).map fun v => if p k then f v else v := by
  refine Option.ext fun v => ?_
  rw [get?_eq_some_iff, Option.map_eq_some_iff]
  simp [mapKeys, get?_eq_some_iff]

omit [DecidableEq K] in
theorem count_mapValues (t : Table K V) (f : V → V) : (t.mapValues f).count = t.count :=
  List.length_map _

omit [DecidableEq K] in
@[simp] theorem count_empty : (empty : Table K V).count = 0 := rfl

omit [DecidableEq K] in
theorem count_deleteWhere_le (t : Table K V) (p : V → Bool) : (t.deleteWhere p).count ≤ t.count :=
  List.length_filter_le _ _

theorem count_of_insert? {t t' : Table K V} {k : K} {v : V} (h : t.insert? k v = some t') :
    t'.count = t.count + 1 := by
  rw [count, (insert?_eq_some h).2, List.length_append]
  rfl

theorem count_modify (t : Table K V) (k : K) (f : V → V) : (t.modify k f).count = t.count :=
  List.length_map _

theorem count_set (t : Table K V) (k : K) (v : V) : (t.set k v).count = t.count :=
  count_modify t k _

omit [DecidableEq K] in
@[simp] theorem countWhere_empty (p : V → Bool) : (empty : Table K V).countWhere p = 0 := rfl

theorem countWhere_of_insert? {t t' : Table K V} {k : K} {v : V} (h : t.insert? k v = some t')
    (p : V → Bool) : t'.countWhere p = t.countWhere p + if p v then 1 else 0 := by
  rw [countWhere, (insert?_eq_some h).2, List.countP_append, List.countP_singleton]
  rfl

/-- An update in place that makes no row satisfy `p` adds nothing to their number. -/
theorem countWhere_modify_le (t : Table K V) (k : K) {f : V → V} {p : V → Bool}
    (hf : ∀ v, p (f v) = true → p v = true) : (t.modify k f).countWhere p ≤ t.countWhere p := by
  simp only [countWhere, modify, List.countP_map]
  refine List.countP_mono_left fun r _ hr => ?_
  simp only [Function.comp_apply] at hr
  split_ifs at hr
  · exact hf _ hr
  · exact hr

omit [DecidableEq K] in
theorem countWhere_mapValues_le (t : Table K V) {f : V → V} {p : V → Bool}
    (hf : ∀ v, p (f v) = true → p v = true) : (t.mapValues f).countWhere p ≤ t.countWhere p := by
  simp only [countWhere, mapValues, List.countP_map]
  exact List.countP_mono_left fun r _ hr => hf _ hr

theorem get?_set_eq_none (t : Table K V) (k : K) (v : V) (k' : K) :
    (t.set k v).get? k' = none ↔ t.get? k' = none := by
  rw [get?_set]
  split_ifs with e
  · rw [e, Option.map_eq_none_iff]
  · rfl

omit [DecidableEq K] in
@[ext] theorem ext {t t' : Table K V} (h : t.rows = t'.rows) : t = t' := by
  cases t
  cases t'
  simpa using h

/-- A row that is deleted does not show an update. -/
theorem erase_set (t : Table K V) (k : K) (v : V) : (t.set k v).erase k = t.erase k := by
  refine ext ?_
  change (t.rows.map fun r => if r.1 = k then (r.1, v) else r).filter (fun r => r.1 != k) =
    t.rows.filter fun r => r.1 != k
  induction t.rows with
  | nil => rfl
  | cons r rs ih =>
    rw [List.map_cons]
    by_cases hr : r.1 = k
    · rw [if_pos hr, List.filter_cons_of_neg (by simp [hr]), List.filter_cons_of_neg (by simp [hr]), ih]
    · rw [if_neg hr, List.filter_cons_of_pos (by simp [hr]), List.filter_cons_of_pos (by simp [hr]), ih]

theorem erase_erase (t : Table K V) (k : K) : (t.erase k).erase k = t.erase k := by
  refine ext ?_
  change (t.rows.filter fun r => r.1 != k).filter (fun r => r.1 != k) = t.rows.filter fun r => r.1 != k
  rw [List.filter_filter]
  simp

/-- Writing a row back does nothing. -/
theorem set_get? {t : Table K V} {k : K} {v : V} (h : t.get? k = some v) : t.set k v = t := by
  refine ext ?_
  change (t.rows.map fun r => if r.1 = k then (r.1, v) else r) = t.rows
  conv_rhs => rw [← List.map_id t.rows]
  refine List.map_congr_left fun r hr => ?_
  split_ifs with e
  · have hr' : t.get? r.1 = some r.2 := get?_eq_some_iff.2 hr
    rw [e, h] at hr'
    rw [Option.some.inj hr', id]
  · rfl

/-- Replacing a row by a function of it is changing it by the function. -/
theorem set_of_get? {t : Table K V} {k : K} {v : V} (h : t.get? k = some v) (f : V → V) :
    t.set k (f v) = t.modify k f := by
  refine ext (List.map_congr_left fun r hr => ?_)
  split_ifs with e
  · have hr' : t.get? r.1 = some r.2 := get?_eq_some_iff.2 hr
    rw [e, h] at hr'
    rw [Option.some.inj hr']
  · rfl

/-- The later of two writes of one row stands. -/
theorem set_set (t : Table K V) (k : K) (v w : V) : (t.set k v).set k w = t.set k w := by
  refine ext ?_
  simp only [set, modify, List.map_map]
  refine List.map_congr_left fun r _ => ?_
  by_cases e : r.1 = k <;> simp [e]

/-! ### Column totals -/

theorem sumBy_of_insert? {t t' : Table K V} {k : K} {v : V} (h : t.insert? k v = some t')
    (f : V → ℤ) : t'.sumBy f = t.sumBy f + f v := by
  simp [sumBy, values, (insert?_eq_some h).2]

private theorem sum_map_modify (rows : List (K × V)) (k : K) (g : V → V) (f : V → ℤ) {v : V}
    (hnd : (rows.map Prod.fst).Nodup) (hv : (k, v) ∈ rows) :
    ((rows.map fun r => if r.1 = k then (r.1, g r.2) else r).map fun r => f r.2).sum =
      (rows.map fun r => f r.2).sum - f v + f (g v) := by
  induction rows with
  | nil => simp at hv
  | cons r rows ih =>
    simp only [List.map_cons, List.nodup_cons, List.mem_map, not_exists, not_and] at hnd
    simp only [List.map_cons, List.sum_cons]
    rcases List.mem_cons.1 hv with rfl | hv'
    · have hrest : (rows.map fun r => if r.1 = k then (r.1, g r.2) else r) = rows := by
        conv_rhs => rw [← List.map_id rows]
        refine List.map_congr_left fun r hr => ?_
        rw [if_neg fun e => hnd.1 r hr e, id]
      rw [hrest, if_pos rfl]
      simp only
      omega
    · have hne : r.1 ≠ k := fun e => hnd.1 (k, v) hv' e.symm
      rw [ih hnd.2 hv', if_neg hne]
      omega

/-- An update in place moves a column total by the change of its row. -/
theorem sumBy_modify {t : Table K V} {k : K} {v : V} (hv : t.get? k = some v) (g : V → V)
    (f : V → ℤ) : (t.modify k g).sumBy f = t.sumBy f - f v + f (g v) := by
  simpa [sumBy, values, modify, Function.comp_def] using
    sum_map_modify t.rows k g f t.nodup (get?_eq_some_iff.1 hv)

theorem sumBy_set {t : Table K V} {k : K} {v : V} (hv : t.get? k = some v) (w : V)
    (f : V → ℤ) : (t.set k w).sumBy f = t.sumBy f - f v + f w :=
  sumBy_modify hv _ f

theorem sumBy_nonneg {t : Table K V} {f : V → ℤ} (hf : ∀ k v, t.get? k = some v → 0 ≤ f v) :
    0 ≤ t.sumBy f := by
  refine List.sum_nonneg fun x hx => ?_
  obtain ⟨v, hv, rfl⟩ := List.mem_map.1 hx
  obtain ⟨k, hk⟩ := mem_values.1 hv
  exact hf k v hk

theorem sumBy_eq_zero {t : Table K V} {f : V → ℤ} (hf : ∀ k v, t.get? k = some v → f v = 0) :
    t.sumBy f = 0 := by
  refine List.sum_eq_zero fun x hx => ?_
  obtain ⟨v, hv, rfl⟩ := List.mem_map.1 hx
  obtain ⟨k, hk⟩ := mem_values.1 hv
  exact hf k v hk

/-- One row with nonnegative entries is at most its column total. -/
theorem le_sumBy {t : Table K V} {k : K} {v : V} {f : V → ℤ}
    (hf : ∀ k v, t.get? k = some v → 0 ≤ f v) (hv : t.get? k = some v) : f v ≤ t.sumBy f := by
  refine List.single_le_sum (fun x hx => ?_) _ (List.mem_map_of_mem (mem_values.2 ⟨k, hv⟩))
  obtain ⟨w, hw, rfl⟩ := List.mem_map.1 hx
  obtain ⟨k', hk'⟩ := mem_values.1 hw
  exact hf k' w hk'

/-! ### Searches by a condition -/

theorem find?_eq_some {t : Table K V} {p : K → V → Bool} {k : K} {v : V}
    (h : t.find? p = some (k, v)) : t.get? k = some v ∧ p k v = true :=
  ⟨get?_eq_some_iff.2 (List.mem_of_find?_eq_some h), by simpa using List.find?_some h⟩

theorem find?_eq_none {t : Table K V} {p : K → V → Bool} :
    t.find? p = none ↔ ∀ k v, t.get? k = some v → p k v = false := by
  simp only [find?, List.find?_eq_none, get?_eq_some_iff, Prod.forall, Bool.not_eq_true]

end Table

namespace Table

/-! ### The rows in the order of their keys -/

section Sorted

variable {K V : Type*} [LinearOrder K] [DecidableEq K]

/-- The rows in the order of their keys. -/
def sortedRows (t : Table K V) : List (K × V) := t.rows.insertionSort fun a b => a.1 ≤ b.1

theorem mem_sortedRows {t : Table K V} {k : K} {v : V} : (k, v) ∈ t.sortedRows ↔ t.get? k = some v := by
  rw [sortedRows, List.mem_insertionSort, get?_eq_some_iff]

omit [DecidableEq K] in
theorem sortedRows_pairwise (t : Table K V) : t.sortedRows.Pairwise fun a b => a.1 < b.1 := by
  have hle : t.sortedRows.Pairwise fun a b => a.1 ≤ b.1 := List.pairwise_insertionSort _ _
  have hne : (t.sortedRows.map Prod.fst).Nodup :=
    (((List.perm_insertionSort _ t.rows).map Prod.fst).nodup_iff).2 t.nodup
  rw [List.Nodup, List.pairwise_map] at hne
  exact (hle.and hne).imp fun h => lt_of_le_of_ne h.1 h.2

/-- Two tables that agree on the rows of a kind list them alike. -/
theorem filter_sortedRows_congr {t t' : Table K V} {p : K × V → Bool}
    (h : ∀ k v, p (k, v) = true → (t.get? k = some v ↔ t'.get? k = some v)) :
    t.sortedRows.filter p = t'.sortedRows.filter p := by
  have hsorted (t : Table K V) : (t.sortedRows.filter p).Pairwise fun a b => a.1 < b.1 :=
    (sortedRows_pairwise t).filter p
  refine List.Perm.eq_of_pairwise (fun a b _ _ hab hba => absurd hba (lt_asymm hab)) (hsorted t) (hsorted t') ?_
  refine (List.perm_ext_iff_of_nodup ?_ ?_).2 ?_
  · exact (hsorted t).imp fun h e => absurd (congrArg Prod.fst e) h.ne
  · exact (hsorted t').imp fun h e => absurd (congrArg Prod.fst e) h.ne
  · rintro ⟨k, v⟩
    simp only [List.mem_filter, mem_sortedRows]
    exact and_congr_left fun hp => h k v hp

end Sorted

end Table

end CivicLoop
