import Mathlib

/-!
# Checked computations

A database transaction either commits or raises, and a transaction that raises leaves no trace.
It is modelled by a function into `Except ε`, written in `do` notation, whose result holds the new
state. This file names the two checks such a function is made of, a condition (`ensure`) and a
lookup (`fetch`), and gives the rules that take a successful computation apart.

## Main definitions

* `ensure` : raise unless a condition holds.
* `fetch` : raise unless a lookup finds something.
* `commit` : the state after a transaction, unchanged when the transaction raised.
-/

namespace CivicLoop

variable {ε α β σ : Type}

/-- Raise `e` unless `p` holds. -/
def ensure (p : Prop) [Decidable p] (e : ε) : Except ε Unit := if p then .ok () else .error e

/-- The value found, or `e` raised when there is none. -/
def fetch (o : Option α) (e : ε) : Except ε α :=
  match o with
  | some a => .ok a
  | none => .error e

/-- The state after a transaction on `s`: the new one if it committed, `s` if it raised. -/
def commit (s : σ) : Except ε (α × σ) → σ
  | .ok r => r.2
  | .error _ => s

@[simp] theorem commit_ok (s : σ) (r : α × σ) : commit s (.ok r : Except ε (α × σ)) = r.2 := rfl

@[simp] theorem commit_error (s : σ) (e : ε) : commit s (.error e : Except ε (α × σ)) = s := rfl

theorem bind_eq_ok {x : Except ε α} {f : α → Except ε β} {b : β} :
    x >>= f = .ok b ↔ ∃ a, x = .ok a ∧ f a = .ok b := by
  cases x with
  | error e => simp [bind, Except.bind]
  | ok a => simp [bind, Except.bind]

theorem exists_of_isOk {x : Except ε α} (h : x.isOk = true) : ∃ a, x = .ok a := by
  cases x with
  | error e => cases h
  | ok a => exact ⟨a, rfl⟩

theorem pure_eq_ok {a b : α} : (pure a : Except ε α) = .ok b ↔ a = b := by
  simp [pure, Except.pure]

/-- A transaction whose reply is renamed leaves the state of the transaction itself. -/
theorem ok_of_map {x : Except ε (α × σ)} {f : α → β} {y : β} {s' : σ}
    (h : x.map (fun r => (f r.1, r.2)) = .ok (y, s')) : ∃ a, x = .ok (a, s') := by
  cases x with
  | error e => cases h
  | ok r =>
    simp only [Except.map, Except.ok.injEq, Prod.mk.injEq] at h
    exact ⟨r.1, by rw [← h.2]⟩

/-- A computation whose error is renamed has the result of the computation itself. -/
theorem mapError_eq_ok {ε' : Type} {f : ε → ε'} {x : Except ε α} {a : α} :
    x.mapError f = .ok a ↔ x = .ok a := by
  cases x <;> simp [Except.mapError]

@[simp] theorem ensure_eq_ok {p : Prop} [Decidable p] {e : ε} {u : Unit} :
    ensure p e = .ok u ↔ p := by
  unfold ensure
  split_ifs with h <;> simp [h]

@[simp] theorem fetch_eq_ok {o : Option α} {e : ε} {a : α} : fetch o e = .ok a ↔ o = some a := by
  cases o <;> simp [fetch]

theorem ensure_bind {p : Prop} [Decidable p] {e : ε} (h : p) (f : Unit → Except ε β) :
    ensure p e >>= f = f () := by
  rw [ensure, if_pos h]
  rfl

theorem ensure_bind_of_not {p : Prop} [Decidable p] {e : ε} (h : ¬ p) (f : Unit → Except ε β) :
    ensure p e >>= f = .error e := by
  rw [ensure, if_neg h]
  rfl

theorem fetch_bind {o : Option α} {e : ε} {a : α} (h : o = some a) (f : α → Except ε β) :
    fetch o e >>= f = f a := by
  subst h
  rfl

@[simp] theorem ok_bind (a : α) (f : α → Except ε β) : (.ok a : Except ε α) >>= f = f a := rfl

@[simp] theorem error_bind (e : ε) (f : α → Except ε β) :
    (.error e : Except ε α) >>= f = .error e := rfl

/-- A property that a committed result has, and that the old state has, the state has after the
transaction. -/
theorem commit_induction {P : σ → Prop} {s : σ} {x : Except ε (α × σ)} (hs : P s)
    (h : ∀ a s', x = .ok (a, s') → P s') : P (commit s x) := by
  cases x with
  | error e => exact hs
  | ok r => exact h r.1 r.2 rfl

/-! ### Lists -/

/-- Two members of a list that meet a condition at most once are the same. -/
theorem eq_of_countP_le_one {q : α → Bool} {l : List α} (h : l.countP q ≤ 1) {a b : α} (ha : a ∈ l)
    (hb : b ∈ l) (hqa : q a = true) (hqb : q b = true) : a = b := by
  have ha' := List.mem_filter.2 ⟨ha, hqa⟩
  have hb' := List.mem_filter.2 ⟨hb, hqb⟩
  rw [List.countP_eq_length_filter] at h
  rcases hl : l.filter q with _ | ⟨c, _ | ⟨c', cs⟩⟩
  · rw [hl] at ha'
    cases ha'
  · rw [hl, List.mem_singleton] at ha' hb'
    rw [ha', hb']
  · rw [hl] at h
    simp at h

theorem exists_of_forall₂ {R : α → β → Prop} {as : List α} {bs : List β} (h : List.Forall₂ R as bs) {b : β}
    (hb : b ∈ bs) : ∃ a ∈ as, R a b := by
  induction h with
  | nil => cases hb
  | cons hab _ ih =>
    rcases List.mem_cons.1 hb with rfl | hb
    · exact ⟨_, List.mem_cons_self, hab⟩
    · obtain ⟨a, ha, hab⟩ := ih hb
      exact ⟨a, List.mem_cons_of_mem _ ha, hab⟩

/-- A list of computations succeeds if each of them does. -/
theorem mapM_eq_ok_iff {f : α → Except ε β} {as : List α} {bs : List β} :
    as.mapM f = .ok bs ↔ List.Forall₂ (fun a b => f a = .ok b) as bs := by
  induction as generalizing bs with
  | nil =>
    rw [List.mapM_nil, pure_eq_ok, List.forall₂_nil_left_iff]
    exact eq_comm
  | cons a as ih =>
    simp only [List.mapM_cons, bind_eq_ok, pure_eq_ok, ih]
    constructor
    · rintro ⟨b, hb, bs, hbs, rfl⟩
      exact .cons hb hbs
    · intro h
      cases h with
      | cons hb hbs => exact ⟨_, hb, _, hbs, rfl⟩

theorem exists_mapM_ok {f : α → Except ε β} {as : List α} (h : ∀ a ∈ as, ∃ b, f a = .ok b) :
    ∃ bs, as.mapM f = .ok bs := by
  induction as with
  | nil => exact ⟨[], rfl⟩
  | cons a as ih =>
    obtain ⟨b, hb⟩ := h a List.mem_cons_self
    obtain ⟨bs, hbs⟩ := ih fun a' ha' => h a' (List.mem_cons_of_mem _ ha')
    exact ⟨b :: bs, mapM_eq_ok_iff.2 (.cons hb (mapM_eq_ok_iff.1 hbs))⟩

end CivicLoop
