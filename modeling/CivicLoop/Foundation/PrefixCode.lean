import Mathlib

/-!
# Codes that are read from the left

A text that replaces every symbol of a list by its codeword. If no codeword is the beginning of another one, then
the list can be read off the text, also where the text goes on with a symbol that begins no codeword.

## Main definitions

* `PrefixCode` : no codeword is empty or the beginning of another one.
* `ReadBefore` : an item that can be read off before what follows it.
* `codeOffset` : where the codeword of a position begins in the text.

## Main results

* `PrefixCode.flatMap_injective` : the list is determined by the text.
* `PrefixCode.eq_of_flatMap_append_cons` : the list and the rest are determined by a text with a terminator.
* `PrefixCode.codeOffset_lt` : a later codeword begins later.
* `eq_of_separated` : a list with separators is determined by its text.
* `exists_of_getElem?_flatMap` : every symbol of the text stands in the codeword of one position.
-/

namespace CivicLoop

variable {α β : Type}

/-- No codeword is empty, and none is the beginning of another one. -/
structure PrefixCode (f : α → List β) : Prop where
  ne_nil : ∀ x, f x ≠ []
  eq_of_prefix : ∀ x y, f x <+: f y → x = y

namespace PrefixCode

variable {f : α → List β}

theorem eq_of_append (h : PrefixCode f) {x y : α} {s t : List β} (heq : f x ++ s = f y ++ t) : x = y ∧ s = t := by
  have hx : f x <+: f y ++ t := ⟨s, heq⟩
  have hy : f y <+: f y ++ t := ⟨t, rfl⟩
  have hxy : x = y := by
    rcases List.prefix_or_prefix_of_prefix hx hy with hp | hp
    · exact h.eq_of_prefix x y hp
    · exact (h.eq_of_prefix y x hp).symm
  subst hxy
  exact ⟨rfl, List.append_cancel_left heq⟩

/-- **The list is determined by its text.** -/
theorem flatMap_injective (h : PrefixCode f) : Function.Injective fun l : List α => l.flatMap f := by
  intro l l' heq
  induction l generalizing l' with
  | nil =>
    cases l' with
    | nil => rfl
    | cons y l' =>
      simp only [List.flatMap_nil, List.flatMap_cons] at heq
      exact absurd (List.append_eq_nil_iff.1 heq.symm).1 (h.ne_nil y)
  | cons x l ih =>
    cases l' with
    | nil =>
      simp only [List.flatMap_nil, List.flatMap_cons] at heq
      exact absurd (List.append_eq_nil_iff.1 heq).1 (h.ne_nil x)
    | cons y l' =>
      simp only [List.flatMap_cons] at heq
      obtain ⟨rfl, hrest⟩ := h.eq_of_append heq
      rw [ih hrest]

/-- No codeword begins with the terminator. -/
theorem append_ne_cons (h : PrefixCode f) {t : β} (ht : ∀ x, (f x).head? ≠ some t) (x : α) (s r : List β) :
    f x ++ s ≠ t :: r := by
  intro heq
  cases hx : f x with
  | nil => exact h.ne_nil x hx
  | cons b bs =>
    rw [hx] at heq
    obtain ⟨rfl, -⟩ := List.cons.inj heq
    exact ht x (by rw [hx]; rfl)

/-- **The list and the rest are determined by a text with a terminator**, which begins no codeword. -/
theorem eq_of_flatMap_append_cons (h : PrefixCode f) {t : β} (ht : ∀ x, (f x).head? ≠ some t) {l l' : List α}
    {s s' : List β} (heq : l.flatMap f ++ t :: s = l'.flatMap f ++ t :: s') : l = l' ∧ s = s' := by
  induction l generalizing l' with
  | nil =>
    cases l' with
    | nil => exact ⟨rfl, (List.cons.inj heq).2⟩
    | cons y l' =>
      rw [List.flatMap_cons, List.append_assoc] at heq
      exact absurd heq.symm (h.append_ne_cons ht y _ _)
  | cons x l ih =>
    cases l' with
    | nil =>
      rw [List.flatMap_cons, List.append_assoc] at heq
      exact absurd heq (h.append_ne_cons ht x _ _)
    | cons y l' =>
      rw [List.flatMap_cons, List.flatMap_cons, List.append_assoc, List.append_assoc] at heq
      obtain ⟨rfl, hrest⟩ := h.eq_of_append heq
      obtain ⟨rfl, rfl⟩ := ih hrest
      exact ⟨rfl, rfl⟩

end PrefixCode

/-! ### Lists with separators -/

theorem intercalate_cons (sep : β) (t : List β) (ts : List (List β)) :
    [sep].intercalate (t :: ts) = t ++ ts.flatMap fun t => sep :: t := by
  induction ts generalizing t with
  | nil => simp [List.intercalate]
  | cons t' ts ih =>
    have hstep : [sep].intercalate (t :: t' :: ts) = t ++ sep :: [sep].intercalate (t' :: ts) := by
      simp [List.intercalate, List.intersperse]
    rw [hstep, ih, List.flatMap_cons]
    rfl

/-- Two items whose texts can be told apart, whatever follows them. -/
def ReadBefore (g : α → List β) (follows : List β → Prop) (x y : α) : Prop :=
  ∀ s t, follows s → follows t → g x ++ s = g y ++ t → x = y ∧ s = t

section Separated

variable {g : α → List β} {follows : List β → Prop} {sep close : β}

theorem follows_tail (hsep : ∀ s, follows (sep :: s)) (hclose : ∀ s, follows (close :: s)) (xs : List α)
    (s : List β) : follows ((xs.flatMap fun x => sep :: g x) ++ close :: s) := by
  cases xs with
  | nil => exact hclose s
  | cons x xs => exact hsep _

theorem eq_of_separated_tail (hne : sep ≠ close) (hsep : ∀ s, follows (sep :: s)) (hclose : ∀ s, follows (close :: s))
    {xs ys : List α} (hread : ∀ x ∈ xs, ∀ y ∈ ys, ReadBefore g follows x y) {s t : List β}
    (h : (xs.flatMap fun x => sep :: g x) ++ close :: s = (ys.flatMap fun y => sep :: g y) ++ close :: t) :
    xs = ys ∧ s = t := by
  induction xs generalizing ys with
  | nil =>
    cases ys with
    | nil => exact ⟨rfl, (List.cons.inj h).2⟩
    | cons y ys => exact absurd (List.cons.inj h).1.symm hne
  | cons x xs ih =>
    cases ys with
    | nil => exact absurd (List.cons.inj h).1 hne
    | cons y ys =>
      simp only [List.flatMap_cons, List.cons_append, List.append_assoc, List.cons.injEq, true_and] at h
      obtain ⟨rfl, hrest⟩ :=
        hread x List.mem_cons_self y List.mem_cons_self _ _ (follows_tail hsep hclose xs s)
          (follows_tail hsep hclose ys t) h
      obtain ⟨rfl, rfl⟩ := ih (fun x hx y hy => hread x (List.mem_cons_of_mem _ hx) y (List.mem_cons_of_mem _ hy))
        hrest
      exact ⟨rfl, rfl⟩

/-- **A list with separators and a closing symbol is determined by its text**, if its items can be read off before
both of them. -/
theorem eq_of_separated (hne : sep ≠ close) (hsep : ∀ s, follows (sep :: s)) (hclose : ∀ s, follows (close :: s))
    {xs ys : List α} (hbegins : ∀ x, x ∈ xs ∨ x ∈ ys → ∀ s r, g x ++ s ≠ close :: r)
    (hread : ∀ x ∈ xs, ∀ y ∈ ys, ReadBefore g follows x y) {s t : List β}
    (h : [sep].intercalate (xs.map g) ++ close :: s = [sep].intercalate (ys.map g) ++ close :: t) :
    xs = ys ∧ s = t := by
  have hcons : ∀ (x : α) (xs : List α) (s : List β), [sep].intercalate ((x :: xs).map g) ++ close :: s =
      g x ++ ((xs.flatMap fun x => sep :: g x) ++ close :: s) := by
    intro x xs s
    rw [List.map_cons, intercalate_cons, List.flatMap_map, List.append_assoc]
  cases xs with
  | nil =>
    cases ys with
    | nil => exact ⟨rfl, (List.cons.inj h).2⟩
    | cons y ys =>
      rw [hcons] at h
      exact absurd h.symm (hbegins y (.inr List.mem_cons_self) _ _)
  | cons x xs =>
    cases ys with
    | nil =>
      rw [hcons] at h
      exact absurd h (hbegins x (.inl List.mem_cons_self) _ _)
    | cons y ys =>
      rw [hcons, hcons] at h
      obtain ⟨rfl, hrest⟩ :=
        hread x List.mem_cons_self y List.mem_cons_self _ _ (follows_tail hsep hclose xs s)
          (follows_tail hsep hclose ys t) h
      obtain ⟨rfl, rfl⟩ := eq_of_separated_tail hne hsep hclose
        (fun x hx y hy => hread x (List.mem_cons_of_mem _ hx) y (List.mem_cons_of_mem _ hy)) hrest
      exact ⟨rfl, rfl⟩

end Separated

/-! ### Positions -/

/-- Where the codeword of a position begins in the text. -/
def codeOffset (f : α → List β) (l : List α) (k : ℕ) : ℕ := ((l.take k).flatMap f).length

@[simp] theorem codeOffset_zero (f : α → List β) (l : List α) : codeOffset f l 0 = 0 := by
  simp [codeOffset]

@[simp] theorem codeOffset_cons_succ (f : α → List β) (x : α) (l : List α) (k : ℕ) :
    codeOffset f (x :: l) (k + 1) = (f x).length + codeOffset f l k := by
  simp [codeOffset]

theorem codeOffset_length (f : α → List β) (l : List α) : codeOffset f l l.length = (l.flatMap f).length := by
  rw [codeOffset, List.take_length]

/-- The next codeword begins where this one ends. -/
theorem codeOffset_succ {f : α → List β} {l : List α} {k : ℕ} {x : α} (hx : l[k]? = some x) :
    codeOffset f l (k + 1) = codeOffset f l k + (f x).length := by
  rw [codeOffset, codeOffset, List.take_add_one, hx]
  simp

theorem monotone_codeOffset (f : α → List β) (l : List α) : Monotone (codeOffset f l) := by
  refine monotone_nat_of_le_succ fun k => ?_
  cases hx : l[k]? with
  | none =>
    have hlen : l.length ≤ k := List.getElem?_eq_none_iff.1 hx
    rw [codeOffset, codeOffset, List.take_of_length_le hlen, List.take_of_length_le (by omega)]
  | some x =>
    rw [codeOffset_succ hx]
    omega

theorem PrefixCode.codeOffset_lt {f : α → List β} (h : PrefixCode f) {l : List α} {j k : ℕ} (hj : j < l.length)
    (hjk : j < k) : codeOffset f l j < codeOffset f l k := by
  have hx : l[j]? = some l[j] := List.getElem?_eq_getElem hj
  have hpos : 0 < (f l[j]).length := List.length_pos_iff.2 (h.ne_nil l[j])
  calc
    codeOffset f l j < codeOffset f l j + (f l[j]).length := by omega
    _ = codeOffset f l (j + 1) := (codeOffset_succ hx).symm
    _ ≤ codeOffset f l k := monotone_codeOffset f l hjk

/-- The codeword of a position stands at its offset. -/
theorem prefix_drop_codeOffset {f : α → List β} {l : List α} {k : ℕ} {x : α} (hx : l[k]? = some x) :
    f x <+: (l.flatMap f).drop (codeOffset f l k) := by
  induction l generalizing k with
  | nil => simp at hx
  | cons y l ih =>
    cases k with
    | zero =>
      obtain rfl : y = x := by simpa using hx
      simp
    | succ k =>
      have hprefix := ih (k := k) (by simpa using hx)
      rw [codeOffset_cons_succ, List.flatMap_cons, ← List.drop_drop, List.drop_left]
      exact hprefix

/-- **Every symbol of the text stands in the codeword of one position.** -/
theorem exists_of_getElem?_flatMap {f : α → List β} {l : List α} {i : ℕ} {b : β} (h : (l.flatMap f)[i]? = some b) :
    ∃ k x j, l[k]? = some x ∧ (f x)[j]? = some b ∧ i = codeOffset f l k + j := by
  induction l generalizing i with
  | nil => simp at h
  | cons y l ih =>
    rw [List.flatMap_cons, List.getElem?_append] at h
    split_ifs at h with hi
    · exact ⟨0, y, i, rfl, h, by simp⟩
    · obtain ⟨k, x, j, hx, hb, hij⟩ := ih h
      refine ⟨k + 1, x, j, by simpa using hx, hb, ?_⟩
      rw [codeOffset_cons_succ]
      omega

end CivicLoop
