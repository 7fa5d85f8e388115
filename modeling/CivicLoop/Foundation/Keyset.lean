import Mathlib

/-!
# Keyset pagination

Rows are listed from the greatest key down, some at a time. A page looks one row ahead, and if there is one
it comes with a token for its last key; the next page takes the rows below this key. Rows that are added
above the greatest key while the pages are read are not seen, and disturb nothing.

## Main definitions

* `descending` : the rows from the greatest key down.
* `Page` : rows, and the token of the next page.
* `Followed` : the pages that are read when each token is followed.
* `ServesPages` : what each read shows of a fixed list.
* `ExactPages` : the pages show a list, each row once, and end with it.

## Main results

* `descending_eq` : a list with decreasing keys is the listing of its elements.
* `Descends.mem_and_lt_iff` : the rows of a listing below one of its keys are those after it.
* `ServesPages.followed_start`, `exactPages_pagesOf` : all pages are read, and they show the list.
-/

namespace CivicLoop

/-! ### Listings -/

section Listing

variable {α κ : Type*} [LinearOrder κ] (key : α → κ)

/-- The keys of a list decrease. -/
def Descends (rows : List α) : Prop := rows.Pairwise fun a b => key b < key a

/-- The rows from the greatest key down. -/
def descending (rows : List α) : List α := rows.insertionSort fun a b => key b ≤ key a

@[simp] theorem mem_descending {rows : List α} {a : α} : a ∈ descending key rows ↔ a ∈ rows :=
  List.mem_insertionSort _

variable {key}

theorem Descends.nodup {rows : List α} (h : Descends key rows) : rows.Nodup :=
  h.imp fun hlt e => absurd (congrArg key e) hlt.ne'

/-- Rows with pairwise distinct keys are listed with decreasing keys. -/
theorem descends_descending {rows : List α} (h : (rows.map key).Nodup) : Descends key (descending key rows) := by
  have hle : (descending key rows).Pairwise fun a b => key b ≤ key a := by
    have : Std.Total fun a b => key b ≤ key a := ⟨fun a b => le_total (key b) (key a)⟩
    have : IsTrans α fun a b => key b ≤ key a := ⟨fun _ _ _ hab hbc => hbc.trans hab⟩
    exact List.pairwise_insertionSort _ rows
  have hne : ((descending key rows).map key).Nodup :=
    ((List.perm_insertionSort _ rows).map key).nodup_iff.2 h
  rw [List.Nodup, List.pairwise_map] at hne
  exact (hle.and hne).imp fun h => lt_of_le_of_ne h.1 (Ne.symm h.2)

/-- Two lists with decreasing keys and the same elements are the same. -/
theorem Descends.eq_of_mem_iff {rows rows' : List α} (h : Descends key rows) (h' : Descends key rows')
    (hmem : ∀ a, a ∈ rows ↔ a ∈ rows') : rows = rows' :=
  List.Perm.eq_of_pairwise (fun _ _ _ _ hab hba => absurd hab (lt_asymm hba)) h h'
    ((List.perm_ext_iff_of_nodup h.nodup h'.nodup).2 hmem)

/-- A list with decreasing keys is the listing of its elements. -/
theorem descending_eq {rows listed : List α} (h : (rows.map key).Nodup) (hlisted : Descends key listed)
    (hmem : ∀ a, a ∈ rows ↔ a ∈ listed) : descending key rows = listed :=
  (descends_descending h).eq_of_mem_iff hlisted fun a => by rw [mem_descending, hmem]

/-- The rows of a listing below one of its keys are those after it. -/
theorem Descends.mem_and_lt_iff {seen rest : List α} {x : α} (h : Descends key (seen ++ rest))
    (hlast : seen.getLast? = some x) (a : α) : a ∈ seen ++ rest ∧ key a < key x ↔ a ∈ rest := by
  obtain ⟨init, rfl⟩ : ∃ init, seen = init ++ [x] := by
    obtain ⟨init, hinit⟩ := List.getLast?_eq_some_iff.1 hlast
    exact ⟨init, hinit⟩
  rw [Descends, List.append_assoc, List.pairwise_append] at h
  obtain ⟨-, hrest, hinit⟩ := h
  rw [List.singleton_append, List.pairwise_cons] at hrest
  constructor
  · rintro ⟨ha, hlt⟩
    rw [List.append_assoc, List.mem_append, List.singleton_append, List.mem_cons] at ha
    obtain ha | rfl | ha := ha
    · exact absurd hlt (hinit a ha x (by simp)).asymm
    · exact absurd hlt (lt_irrefl _)
    · exact ha
  · intro ha
    exact ⟨List.mem_append_right _ ha, hrest.1 a ha⟩

end Listing

/-! ### Following the tokens -/

section Follow

/-- Rows, and the token of the next page. -/
structure Page (α τ : Type*) where
  rows : List α
  next : Option τ

variable {α τ ε : Type*}

/-- The pages that are read from the `n`-th read on, when each token is followed. -/
inductive Followed (read : ℕ → Option τ → Except ε (Page α τ)) : ℕ → Option τ → List (Page α τ) → Prop
  | last {n token page} (hread : read n token = .ok page) (hlast : page.next = none) :
      Followed read n token [page]
  | next {n token page token' pages} (hread : read n token = .ok page) (hnext : page.next = some token')
      (hrest : Followed read (n + 1) (some token') pages) : Followed read n token (page :: pages)

/-- Each read shows the next `limit` rows of a list, after the row that its token is for, and has a token
for the last one if there are more. -/
def ServesPages (read : ℕ → Option τ → Except ε (Page α τ)) (token : α → τ) (limit : ℕ)
    (listed : List α) : Prop :=
  ∀ n seen rest, listed = seen ++ rest → (seen = [] → n = 0) →
    read n (seen.getLast?.map token) =
      .ok ⟨rest.take limit, if limit < rest.length then (rest.take limit).getLast?.map token else none⟩

/-- The pages of a list. -/
def pagesOf (token : α → τ) (limit : ℕ) : ℕ → List α → List (Page α τ)
  | 0, rest => [⟨rest, none⟩]
  | k + 1, rest =>
    if limit < rest.length then
      ⟨rest.take limit, (rest.take limit).getLast?.map token⟩ :: pagesOf token limit k (rest.drop limit)
    else [⟨rest.take limit, none⟩]

/-- The pages show the list, each row once, and the token is missing on the last page only. -/
structure ExactPages (limit : ℕ) (listed : List α) (pages : List (Page α τ)) : Prop where
  rows : pages.flatMap Page.rows = listed
  next : ∀ before page after, pages = before ++ page :: after → (page.next = none ↔ after = [])
  full : ∀ page ∈ pages, page.next ≠ none → page.rows.length = limit
  nonempty : ∀ page ∈ pages, page.rows = [] → listed = []

variable {read : ℕ → Option τ → Except ε (Page α τ)} {token : α → τ} {limit : ℕ} {listed : List α}

/-- The last row of a page that is not the last one. -/
theorem exists_getLast? {rest : List α} (hlimit : 0 < limit) (hmore : limit < rest.length) :
    ∃ x, (rest.take limit).getLast? = some x := by
  have hne : rest.take limit ≠ [] := by
    intro hnil
    have hlen := congrArg List.length hnil
    rw [List.length_take, List.length_nil] at hlen
    omega
  exact ⟨_, List.getLast?_eq_some_getLast hne⟩

/-- Following the tokens shows the pages of the list. -/
theorem ServesPages.followed_iff (h : ServesPages read token limit listed) (hlimit : 0 < limit)
    {k n : ℕ} {seen rest : List α} {pages : List (Page α τ)} (hk : rest.length ≤ k)
    (hlisted : listed = seen ++ rest) (hn : seen = [] → n = 0) :
    Followed read n (seen.getLast?.map token) pages ↔ pages = pagesOf token limit k rest := by
  induction k generalizing n seen rest pages with
  | zero =>
    have hread := h n seen rest hlisted hn
    obtain rfl : rest = [] := List.length_eq_zero_iff.1 (Nat.le_zero.1 hk)
    rw [if_neg (by simp), List.take_nil] at hread
    constructor
    · intro hpages
      cases hpages with
      | last hlast _ => rw [pagesOf, Except.ok.inj (hlast.symm.trans hread)]
      | next hpage hnext _ =>
        rw [Except.ok.inj (hpage.symm.trans hread)] at hnext
        cases hnext
    · rintro rfl
      exact .last hread rfl
  | succ k ih =>
    have hread := h n seen rest hlisted hn
    rw [pagesOf]
    by_cases hmore : limit < rest.length
    · obtain ⟨x, hx⟩ := exists_getLast? hlimit hmore
      have hseen : (seen ++ rest.take limit).getLast? = some x := by
        rw [List.getLast?_append, hx]
        rfl
      have hnext (pages : List (Page α τ)) : Followed read (n + 1) (some (token x)) pages ↔
          pages = pagesOf token limit k (rest.drop limit) := by
        have hih := @ih (n + 1) (seen ++ rest.take limit) (rest.drop limit) pages
          (by rw [List.length_drop]; omega) (by rw [List.append_assoc, List.take_append_drop]; exact hlisted)
          (fun hnil => by rw [hnil] at hseen; cases hseen)
        rwa [hseen] at hih
      rw [if_pos hmore] at hread ⊢
      rw [hx, Option.map_some] at hread ⊢
      constructor
      · intro hpages
        cases hpages with
        | last hpage hlast =>
          rw [Except.ok.inj (hpage.symm.trans hread)] at hlast
          cases hlast
        | next hpage hsome hrest =>
          obtain rfl := Except.ok.inj (hpage.symm.trans hread)
          obtain rfl := Option.some.inj hsome
          rw [(hnext _).1 hrest]
      · rintro rfl
        exact .next hread rfl ((hnext _).2 rfl)
    · rw [if_neg hmore] at hread ⊢
      constructor
      · intro hpages
        cases hpages with
        | last hpage _ => rw [Except.ok.inj (hpage.symm.trans hread)]
        | next hpage hsome _ =>
          rw [Except.ok.inj (hpage.symm.trans hread)] at hsome
          cases hsome
      · rintro rfl
        exact .last hread rfl

theorem pagesOf_ne_nil (k : ℕ) (rest : List α) : pagesOf token limit k rest ≠ [] := by
  cases k with
  | zero => simp [pagesOf]
  | succ k =>
    rw [pagesOf]
    split_ifs <;> simp

theorem exactPages_singleton {page : Page α τ} (hnext : page.next = none) :
    ExactPages limit page.rows [page] := by
  refine ⟨by simp, ?_, by simp [hnext], by simp⟩
  intro before page' after hsplit
  obtain ⟨rfl, hsplit⟩ | ⟨before, rfl, hafter⟩ := List.cons_eq_append_iff.1 hsplit
  · obtain ⟨rfl, rfl⟩ := List.cons.inj hsplit
    simp [hnext]
  · simp at hafter

/-- The pages of a list show it. -/
theorem exactPages_pagesOf (hlimit : 0 < limit) {k : ℕ} {rest : List α} (hk : rest.length ≤ k) :
    ExactPages limit rest (pagesOf token limit k rest) := by
  induction k generalizing rest with
  | zero => exact @exactPages_singleton _ _ limit ⟨rest, none⟩ rfl
  | succ k ih =>
    rw [pagesOf]
    split_ifs with hmore
    · obtain ⟨x, hx⟩ := exists_getLast? hlimit hmore
      have hih := @ih (rest.drop limit) (by rw [List.length_drop]; omega)
      have hdrop : rest.drop limit ≠ [] := by
        intro hnil
        have hlen := congrArg List.length hnil
        rw [List.length_drop, List.length_nil] at hlen
        omega
      refine ⟨by rw [List.flatMap_cons, hih.rows, List.take_append_drop], ?_, ?_, ?_⟩
      · intro before page after hsplit
        obtain ⟨rfl, hsplit⟩ | ⟨before, rfl, hafter⟩ := List.cons_eq_append_iff.1 hsplit
        · obtain ⟨rfl, rfl⟩ := List.cons.inj hsplit
          simp [hx, pagesOf_ne_nil]
        · exact hih.next before page after hafter
      · intro page hpage hnext
        obtain rfl | hpage := List.mem_cons.1 hpage
        · rw [List.length_take]
          omega
        · exact hih.full page hpage hnext
      · intro page hpage hrows
        obtain rfl | hpage := List.mem_cons.1 hpage
        · simp only at hrows
          rw [hrows] at hx
          cases hx
        · exact absurd (hih.nonempty page hpage hrows) hdrop
    · have hpage := @exactPages_singleton _ τ limit ⟨rest.take limit, none⟩ rfl
      rwa [List.take_of_length_le (by omega)] at hpage ⊢

/-- All pages are read from the start, and they are the pages of the list. -/
theorem ServesPages.followed_start (h : ServesPages read token limit listed) (hlimit : 0 < limit)
    (pages : List (Page α τ)) :
    Followed read 0 none pages ↔ pages = pagesOf token limit listed.length listed :=
  h.followed_iff hlimit le_rfl (List.nil_append _).symm fun _ => rfl

end Follow

end CivicLoop
