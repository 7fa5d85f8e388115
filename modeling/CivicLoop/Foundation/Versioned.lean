import CivicLoop.Foundation.Table

/-!
# Versioned maps

A map whose entries carry a tag that never changes, a version, and a mark of whether they are live. A
reference names a key, a tag and a version. It reads the value of a live entry at exactly that version,
so that it stops reading as soon as the entry is written again, and for good.

## Main definitions

* `Versioned`, `VersionedRef` : an entry, and a reference to it.
* `Change`, `VersionedMap.after` : the changes of a map, and the map after them.
* `VersionedMap.read?` : what a reference reads.
* `VersionedMap.Dead` : a reference that never reads again.

## Main results

* `VersionedMap.get?_after` : a version counts the writes.
* `VersionedMap.dead_after` : a dead reference stays dead, whatever is changed.
* `VersionedMap.read?_of_dead` : it reads nothing.
-/

namespace CivicLoop

/-- An entry. -/
structure Versioned (T V : Type*) where
  tag : T
  version : ℕ
  live : Bool
  value : V

/-- A reference to a version of an entry. -/
structure VersionedRef (K T : Type*) where
  key : K
  tag : T
  version : ℕ
deriving DecidableEq

/-- A change of the map. -/
inductive Change (K T V : Type*)
  | put (key : K) (tag : T) (value : V)
  | replace (key : K) (value : V)
  | disable (key : K)

/-- The key that a change writes. -/
def Change.key {K T V : Type*} : Change K T V → K
  | .put key _ _ => key
  | .replace key _ => key
  | .disable key => key

/-- A map with versions. -/
abbrev VersionedMap (K T V : Type*) [DecidableEq K] := Table K (Versioned T V)

namespace Versioned

variable {T V : Type*}

/-- The entry with a new value. -/
def replaced (value : V) (e : Versioned T V) : Versioned T V :=
  { e with value, version := e.version + 1 }

/-- The entry that is no longer live. -/
def disabled (e : Versioned T V) : Versioned T V := { e with live := false, version := e.version + 1 }

end Versioned

namespace VersionedMap

variable {K T V : Type*} [DecidableEq K]

/-- The map after a change. -/
def apply (m : VersionedMap K T V) : Change K T V → VersionedMap K T V
  | .put key tag value => Table.put m key ⟨tag, 1, true, value⟩
  | .replace key value => Table.modify m key (Versioned.replaced value)
  | .disable key => Table.modify m key Versioned.disabled

/-- A change that may be made: a new key is put, a live entry is replaced or disabled. -/
def Allowed (m : VersionedMap K T V) : Change K T V → Prop
  | .put key _ _ => Table.get? m key = none
  | .replace key _ => ∃ e, Table.get? m key = some e ∧ e.live = true
  | .disable key => ∃ e, Table.get? m key = some e ∧ e.live = true

/-- The map after some changes of a map. -/
def after (m : VersionedMap K T V) (changes : List (Change K T V)) : VersionedMap K T V :=
  changes.foldl apply m

variable [DecidableEq T]

/-- What a reference reads. -/
def read? (m : VersionedMap K T V) (r : VersionedRef K T) : Option V :=
  (Table.get? m r.key).bind fun e =>
    if e.tag = r.tag ∧ e.version = r.version ∧ e.live = true then some e.value else none

omit [DecidableEq T] in
/-- The reference is stale, or its entry is not live, or it is foreign. -/
def Dead (m : VersionedMap K T V) (r : VersionedRef K T) : Prop :=
  ∃ e, Table.get? m r.key = some e ∧ (r.version < e.version ∨ e.live = false ∨ e.tag ≠ r.tag)

theorem read?_eq_some {m : VersionedMap K T V} {r : VersionedRef K T} {value : V} :
    m.read? r = some value ↔ ∃ e, Table.get? m r.key = some e ∧ e.tag = r.tag ∧
      e.version = r.version ∧ e.live = true ∧ e.value = value := by
  rw [read?, Option.bind_eq_some_iff]
  constructor
  · rintro ⟨e, he, h⟩
    split_ifs at h with hmatch
    exact ⟨e, he, hmatch.1, hmatch.2.1, hmatch.2.2, Option.some.inj h⟩
  · rintro ⟨e, he, htag, hversion, hlive, rfl⟩
    exact ⟨e, he, if_pos ⟨htag, hversion, hlive⟩⟩

/-- **A dead reference reads nothing.** -/
theorem read?_of_dead {m : VersionedMap K T V} {r : VersionedRef K T} (h : m.Dead r) :
    m.read? r = none := by
  obtain ⟨e, he, hdead⟩ := h
  rw [read?, he, Option.bind_some, if_neg]
  rintro ⟨htag, hversion, hlive⟩
  rcases hdead with hstale | hdisabled | hforeign
  · omega
  · rw [hdisabled] at hlive
    cases hlive
  · exact hforeign htag

omit [DecidableEq T] in
/-- The entry of a key after a change that may be made: its tag stays, its version grows by one if it is
written, and it does not come back to life. -/
theorem get?_apply {m : VersionedMap K T V} {change : Change K T V} (hallowed : Allowed m change) {key : K}
    {e : Versioned T V} (he : Table.get? m key = some e) :
    ∃ e', Table.get? (m.apply change) key = some e' ∧ e'.tag = e.tag ∧
      e'.version = e.version + (if change.key = key then 1 else 0) ∧
      (e.live = false → e'.live = false) := by
  cases change with
  | put key' tag value =>
    have hne : key ≠ key' := by
      rintro rfl
      rw [Allowed, he] at hallowed
      cases hallowed
    refine ⟨e, by rw [apply, Table.get?_put_of_ne _ _ hne, he], rfl, ?_, id⟩
    rw [Change.key, if_neg (Ne.symm hne)]
    rfl
  | replace key' value =>
    rw [apply, Table.get?_modify, he, Change.key]
    by_cases hkey : key = key'
    · subst hkey
      exact ⟨e.replaced value, by rw [if_pos rfl, he, Option.map_some], rfl, by rw [if_pos rfl]; rfl, id⟩
    · exact ⟨e, if_neg hkey, rfl, by rw [if_neg (Ne.symm hkey)]; rfl, id⟩
  | disable key' =>
    rw [apply, Table.get?_modify, he, Change.key]
    by_cases hkey : key = key'
    · subst hkey
      exact ⟨e.disabled, by rw [if_pos rfl, he, Option.map_some], rfl, by rw [if_pos rfl]; rfl,
        fun _ => rfl⟩
    · exact ⟨e, if_neg hkey, rfl, by rw [if_neg (Ne.symm hkey)]; rfl, id⟩

omit [DecidableEq T] in
theorem dead_apply {m : VersionedMap K T V} {r : VersionedRef K T} {change : Change K T V}
    (hallowed : Allowed m change) (h : m.Dead r) : (m.apply change).Dead r := by
  obtain ⟨e, he, hdead⟩ := h
  obtain ⟨e', he', htag, hversion, hlive⟩ := get?_apply hallowed he
  refine ⟨e', he', ?_⟩
  rcases hdead with hstale | hdisabled | hforeign
  · exact .inl (hstale.trans_le (hversion ▸ Nat.le_add_right _ _))
  · exact .inr (.inl (hlive hdisabled))
  · exact .inr (.inr (htag.symm ▸ hforeign))

/-- All of the changes may be made, one after the other. -/
def AllAllowed : VersionedMap K T V → List (Change K T V) → Prop
  | _, [] => True
  | m, change :: changes => Allowed m change ∧ AllAllowed (m.apply change) changes

omit [DecidableEq T] in
/-- **A dead reference stays dead.** -/
theorem dead_after {m : VersionedMap K T V} {r : VersionedRef K T} {changes : List (Change K T V)}
    (hallowed : AllAllowed m changes) (h : m.Dead r) : (m.after changes).Dead r := by
  induction changes generalizing m with
  | nil => exact h
  | cons change changes ih => exact ih hallowed.2 (dead_apply hallowed.1 h)

omit [DecidableEq T] in
/-- The entry of a key after some changes: its version has grown by the number of those that wrote it. -/
theorem get?_after {m : VersionedMap K T V} {changes : List (Change K T V)}
    (hallowed : AllAllowed m changes) {key : K} {e : Versioned T V} (he : Table.get? m key = some e) :
    ∃ e', Table.get? (m.after changes) key = some e' ∧ e'.tag = e.tag ∧
      e'.version = e.version + changes.countP fun change => change.key = key := by
  induction changes generalizing m e with
  | nil => exact ⟨e, he, rfl, rfl⟩
  | cons change changes ih =>
    obtain ⟨e₁, he₁, htag₁, hversion₁, -⟩ := get?_apply hallowed.1 he
    obtain ⟨e₂, he₂, htag₂, hversion₂⟩ := ih hallowed.2 he₁
    refine ⟨e₂, he₂, htag₂.trans htag₁, ?_⟩
    rw [hversion₂, hversion₁, List.countP_cons]
    simp only [decide_eq_true_eq]
    omega

theorem after_append (m : VersionedMap K T V) (changes changes' : List (Change K T V)) :
    m.after (changes ++ changes') = (m.after changes).after changes' := List.foldl_append

omit [DecidableEq T] in
theorem allAllowed_append {m : VersionedMap K T V} {changes changes' : List (Change K T V)} :
    AllAllowed m (changes ++ changes') ↔ AllAllowed m changes ∧ AllAllowed (m.after changes) changes' := by
  induction changes generalizing m with
  | nil => simp [AllAllowed, after]
  | cons change changes ih => simp only [List.cons_append, AllAllowed, ih, and_assoc]; rfl

end VersionedMap

end CivicLoop
