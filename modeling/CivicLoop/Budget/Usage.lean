import CivicLoop.Budget.Conservation

/-!
# The usage that the ledger settles

A reservation has a usage once it is settled, and none before that or when it is released. No operation changes
the usage of a run other than its own; the operation returns the row that it leaves.

## Main definitions

* `BudgetReservation.usage`, `usageOf` : the settled usage.
* `BudgetReservation.WellFormed` : the settled fields are there exactly when the reservation is settled.
* `Lapse` : a reservation is the same, or has expired.

## Main results

* `Budget.lapse_expireReservations`, `Budget.get?_reserveBudget`, `Budget.get?_settleBudget`,
  `Budget.get?_releaseBudget`, `Budget.get?_chargeReservedBudget`.
-/

namespace CivicLoop

/-- Input tokens, output tokens and cost. -/
abbrev RunUsage := ℤ × ℤ × ℤ

/-- The usage that a reservation has settled. -/
def BudgetReservation.usage (r : BudgetReservation) : RunUsage :=
  if r.status = .settled then
    (r.settledInputTokens.getD 0, r.settledOutputTokens.getD 0, r.settledCostMicrousd.getD 0)
  else 0

/-- The usage that the reservation of a run has settled, if there is one. -/
def usageOf (r : Option BudgetReservation) : RunUsage := r.elim 0 BudgetReservation.usage

@[simp] theorem usageOf_none : usageOf none = 0 := rfl

@[simp] theorem usageOf_some (r : BudgetReservation) : usageOf (some r) = r.usage := rfl

/-- The settled fields are there exactly when the reservation is settled. -/
structure BudgetReservation.WellFormed (r : BudgetReservation) : Prop where
  settled : r.status = .settled →
    ∃ i o c, r.settledInputTokens = some i ∧ r.settledOutputTokens = some o ∧ r.settledCostMicrousd = some c
  unsettled : r.status ≠ .settled → r.settledCostMicrousd = none

/-- A reservation is the same, or has expired. -/
def Lapse (r r' : Option BudgetReservation) : Prop :=
  r' = r ∨ ∃ x, r = some x ∧ x.status = .reserved ∧ r' = some { x with status := .released }

theorem Lapse.refl (r : Option BudgetReservation) : Lapse r r := .inl rfl

theorem Lapse.trans {r r' r'' : Option BudgetReservation} (h : Lapse r r') (h' : Lapse r' r'') : Lapse r r'' := by
  obtain rfl | ⟨x, rfl, hx, rfl⟩ := h
  · exact h'
  · obtain rfl | ⟨y, hy, hstatus, rfl⟩ := h'
    · exact .inr ⟨x, rfl, hx, rfl⟩
    · obtain rfl := Option.some.inj hy
      cases hstatus

theorem Lapse.usageOf {r r' : Option BudgetReservation} (h : Lapse r r') : usageOf r' = usageOf r := by
  obtain rfl | ⟨x, rfl, hx, rfl⟩ := h
  · rfl
  · simp [BudgetReservation.usage, hx]

theorem Lapse.wellFormed {r r' : Option BudgetReservation} (h : Lapse r r') (hr : ∀ x ∈ r, x.WellFormed) :
    ∀ x ∈ r', x.WellFormed := by
  obtain rfl | ⟨x, rfl, hx, rfl⟩ := h
  · exact hr
  · intro y hy
    obtain rfl := Option.some.inj hy
    have hnone := (hr x rfl).unsettled (by rw [hx]; decide)
    exact ⟨fun hstatus => (by cases hstatus), fun _ => hnone⟩

theorem Lapse.none {r' : Option BudgetReservation} (h : Lapse none r') : r' = none := by
  obtain rfl | ⟨x, hx, -⟩ := h
  · rfl
  · cases hx

namespace Budget

/-! ### Expiry -/

theorem lapse_set {runId : Uuid} {r : BudgetReservation} {reservations : Table Uuid BudgetReservation}
    (hrun : reservations.get? runId = some r) (hstatus : r.status = .reserved) (k : Uuid) :
    Lapse (reservations.get? k) ((reservations.set runId { r with status := .released }).get? k) := by
  rw [Table.get?_set]
  split_ifs with hk
  · subst hk
    rw [hrun]
    exact .inr ⟨r, rfl, hstatus, rfl⟩
  · exact .refl _

theorem lapse_expireLoop {expired : List (Uuid × BudgetReservation)} {p p' : BudgetPeriod} {b b' : Budget}
    (h : expireLoop expired p b = .ok (p', b'))
    (hmem : ∀ row ∈ expired, b.reservations.get? row.1 = some row.2 ∧ row.2.status = .reserved)
    (hnd : (expired.map Prod.fst).Nodup) (k : Uuid) :
    Lapse (b.reservations.get? k) (b'.reservations.get? k) := by
  induction expired generalizing p b with
  | nil =>
    simp only [expireLoop, Except.ok.injEq, Prod.mk.injEq] at h
    rw [h.2]
    exact .refl _
  | cons row expired ih =>
    obtain ⟨runId, r⟩ := row
    simp only [expireLoop, bind_eq_ok] at h
    obtain ⟨b₁, hb₁, h⟩ := h
    obtain rfl := createRecord_eq_ok hb₁
    simp only [List.map_cons, List.nodup_cons] at hnd
    obtain ⟨hrun, hstatus⟩ := hmem (runId, r) List.mem_cons_self
    refine (lapse_set hrun hstatus k).trans (ih h (fun row hrow => ?_) hnd.2)
    have hne : row.1 ≠ runId := fun e => hnd.1 (e ▸ List.mem_map_of_mem hrow)
    rw [Table.get?_set_of_ne _ _ hne]
    exact hmem row (List.mem_cons_of_mem _ hrow)

theorem lapse_expirePeriodReservations {held : Uuid → Bool} {month : Month} {p : BudgetPeriod} {now : Time} {n : ℕ}
    {b b' : Budget} (h : b.expirePeriodReservations held month p now = .ok (n, b')) (k : Uuid) :
    Lapse (b.reservations.get? k) (b'.reservations.get? k) := by
  simp only [expirePeriodReservations, bind_eq_ok, pure_eq_ok, Prod.exists, Prod.mk.injEq] at h
  obtain ⟨p', b₁, hloop, -, rfl⟩ := h
  have hlapse := lapse_expireLoop hloop
    (fun row hrow => ⟨(mem_expirable hrow).1, (mem_expirable hrow).2.1⟩) (nodup_expirable held month now b) k
  split_ifs
  · exact hlapse
  · exact hlapse

theorem lapse_expirePeriods {held : Uuid → Bool} {now : Time} {periods : List (Month × BudgetPeriod)} {n : ℕ}
    {b b' : Budget} (h : expirePeriods held now periods b = .ok (n, b')) (k : Uuid) :
    Lapse (b.reservations.get? k) (b'.reservations.get? k) := by
  induction periods generalizing n b with
  | nil =>
    simp only [expirePeriods, Except.ok.injEq, Prod.mk.injEq] at h
    rw [h.2]
    exact .refl _
  | cons row periods ih =>
    obtain ⟨month, p⟩ := row
    simp only [expirePeriods, bind_eq_ok, pure_eq_ok, Prod.exists, Prod.mk.injEq] at h
    obtain ⟨n₁, b₁, h₁, n₂, b₂, h₂, -, rfl⟩ := h
    exact (lapse_expirePeriodReservations h₁ k).trans (ih h₂)

/-- What expires was reserved, and its usage stays nothing. -/
theorem lapse_expireReservations {held : Uuid → Bool} {now : Time} {n : ℕ} {b b' : Budget}
    (h : b.expireReservations held now = .ok (n, b')) (k : Uuid) :
    Lapse (b.reservations.get? k) (b'.reservations.get? k) :=
  lapse_expirePeriods h k

/-! ### The other operations -/

/-- A new reservation is not settled, and what else changes has expired. -/
theorem get?_reserveBudget {catalog : Catalog} {held : Uuid → Bool} {now : Time} {q : ReserveRequest}
    {r : BudgetReservation} {b b' : Budget} (h : b.reserveBudget catalog held now q = .ok (r, b'))
    (hnew : b.reservations.get? q.runId = none) :
    (b'.reservations.get? q.runId = some r ∧ r.WellFormed ∧ r.usage = 0) ∧
      ∀ k, k ≠ q.runId → Lapse (b.reservations.get? k) (b'.reservations.get? k) := by
  unfold reserveBudget at h
  rw [hnew] at h
  simp only [bind_eq_ok, ensure_eq_ok, fetch_eq_ok, pure_eq_ok, Prod.exists, Prod.mk.injEq] at h
  obtain ⟨profile, policy, -, -, -, c, hc, -, -, p, b₁, hb₁, n, b₂, hb₂, p₂, hp₂, -, hlimit, reservations, hins, b₃,
    hb₃, rfl, rfl⟩ := h
  obtain ⟨-, -, hres⟩ := moves_of_periodForUpdate hb₁
  obtain rfl := createRecord_eq_ok hb₃
  refine ⟨⟨?_, ⟨fun hstatus => (by cases hstatus), fun _ => rfl⟩, rfl⟩, fun k hk => ?_⟩
  · exact (Table.get?_of_insert? hins q.runId).trans (if_pos rfl)
  · have hlapse := lapse_expirePeriodReservations hb₂ k
    rw [hres] at hlapse
    have hget := (Table.get?_of_insert? hins k).trans (if_neg hk)
    exact hget ▸ hlapse

theorem get?_settleRow {runId : Uuid} {r r' : BudgetReservation} {p : BudgetPeriod} {i o c : ℤ} {b b' : Budget}
    (h : b.settleRow runId r p i o c = .ok (r', b')) (hrun : b.reservations.get? runId = some r) :
    r' = settledRow r i o c ∧ ∀ k, b'.reservations.get? k = if k = runId then some r' else b.reservations.get? k := by
  simp only [settleRow, bind_eq_ok, pure_eq_ok, Prod.mk.injEq] at h
  obtain ⟨b₁, hb₁, rfl, rfl⟩ := h
  obtain rfl := createRecord_eq_ok hb₁
  refine ⟨rfl, fun k => ?_⟩
  refine (Table.get?_set _ _ _ k).trans ?_
  split_ifs with hk
  · rw [hrun]
    rfl
  · rfl

theorem wellFormed_settledRow (r : BudgetReservation) (i o c : ℤ) : (settledRow r i o c).WellFormed :=
  ⟨fun _ => ⟨i, o, c, rfl, rfl, rfl⟩, fun hstatus => absurd rfl hstatus⟩

/-- A settlement returns the row that it leaves, with the usage that was asked for. -/
theorem get?_settleBudget {runId : Uuid} {i o : ℤ} {r : BudgetReservation} {b b' : Budget}
    (h : b.settleBudget runId i o = .ok (r, b')) (hwf : ∀ x ∈ b.reservations.get? runId, x.WellFormed) :
    (∀ k, b'.reservations.get? k = if k = runId then some r else b.reservations.get? k) ∧ r.WellFormed ∧
      r.status = .settled ∧ r.usage = (i, o, r.settledCostMicrousd.getD 0) := by
  simp only [settleBudget, bind_eq_ok, fetch_eq_ok] at h
  obtain ⟨r₀, hrun, h⟩ := h
  split at h
  · cases h
  · rename_i hstatus
    simp only [ensure_eq_ok, pure_eq_ok, Prod.mk.injEq, bind_eq_ok] at h
    obtain ⟨-, ⟨hi, ho⟩, rfl, rfl⟩ := h
    refine ⟨fun k => ?_, hwf r₀ hrun, hstatus, ?_⟩
    · split_ifs with hk
      · rw [hk, hrun]
      · rfl
    · rw [BudgetReservation.usage, if_pos hstatus, hi, ho]
      rfl
  · simp only [ensure_eq_ok, fetch_eq_ok, bind_eq_ok] at h
    obtain ⟨actual, -, -, -, -, -, p, -, -, -, h⟩ := h
    obtain ⟨rfl, hget⟩ := get?_settleRow h hrun
    exact ⟨hget, wellFormed_settledRow r₀ i o actual, rfl, rfl⟩

theorem cost_zero {profile : ModelProfile} {c : ℤ} (h : cost profile 0 0 = .ok c) : c = 0 := by
  simp only [cost, bind_eq_ok, fetch_eq_ok, pure_eq_ok, ensure_eq_ok] at h
  obtain ⟨_, -, _, -, -, -, rfl⟩ := h
  simp

/-- No tokens cost nothing. -/
theorem settledCost_zero {runId : Uuid} {r : BudgetReservation} {b b' : Budget}
    (h : b.settleBudget runId 0 0 = .ok (r, b')) (hzero : usageOf (b.reservations.get? runId) = 0) :
    r.settledCostMicrousd.getD 0 = 0 := by
  simp only [settleBudget, bind_eq_ok, fetch_eq_ok] at h
  obtain ⟨r₀, hrun, h⟩ := h
  split at h
  · cases h
  · rename_i hstatus
    simp only [ensure_eq_ok, pure_eq_ok, Prod.mk.injEq, bind_eq_ok] at h
    obtain ⟨-, -, rfl, -⟩ := h
    rw [hrun, usageOf_some, BudgetReservation.usage, if_pos hstatus] at hzero
    exact congrArg (fun u => u.2.2) hzero
  · simp only [ensure_eq_ok, fetch_eq_ok, bind_eq_ok] at h
    obtain ⟨actual, hcost, -, -, -, -, p, -, -, -, h⟩ := h
    obtain ⟨rfl, -⟩ := get?_settleRow h hrun
    exact cost_zero hcost

/-- A release returns the row that it leaves. -/
theorem get?_releaseBudget {runId : Uuid} {r : Option BudgetReservation} {b b' : Budget}
    (h : b.releaseBudget runId = .ok (r, b')) :
    (∀ k, b'.reservations.get? k = if k = runId then r else b.reservations.get? k) ∧
      Lapse (b.reservations.get? runId) r := by
  unfold releaseBudget at h
  cases hrun : b.reservations.get? runId with
  | none =>
    rw [hrun] at h
    obtain ⟨rfl, rfl⟩ := Prod.mk.inj (Except.ok.inj h)
    exact ⟨fun k => (by split_ifs with hk; exacts [hk ▸ hrun, rfl]), .refl _⟩
  | some r₀ =>
    rw [hrun] at h
    simp only at h
    split_ifs at h with hstatus
    · simp only [bind_eq_ok, fetch_eq_ok, pure_eq_ok, Prod.mk.injEq] at h
      obtain ⟨p, hp, b₁, hb₁, rfl, rfl⟩ := h
      obtain rfl := createRecord_eq_ok hb₁
      refine ⟨fun k => (Table.get?_set _ _ _ k).trans ?_, .inr ⟨r₀, rfl, hstatus, rfl⟩⟩
      split_ifs with hk
      · rw [hrun]
        rfl
      · rfl
    · obtain ⟨rfl, rfl⟩ := Prod.mk.inj (Except.ok.inj h)
      exact ⟨fun k => (by split_ifs with hk; exacts [hk ▸ hrun, rfl]), .refl _⟩

/-- A charge returns the row that it leaves, which is well formed. -/
theorem get?_chargeReservedBudget {runId : Uuid} {r : Option BudgetReservation} {b b' : Budget}
    (h : b.chargeReservedBudget runId = .ok (r, b')) (hwf : ∀ x ∈ b.reservations.get? runId, x.WellFormed) :
    (∀ k, b'.reservations.get? k = if k = runId then r else b.reservations.get? k) ∧ ∀ x ∈ r, x.WellFormed := by
  unfold chargeReservedBudget at h
  cases hrun : b.reservations.get? runId with
  | none =>
    rw [hrun] at h
    obtain ⟨rfl, rfl⟩ := Prod.mk.inj (Except.ok.inj h)
    exact ⟨fun k => (by split_ifs with hk; exacts [hk ▸ hrun, rfl]), fun x hx => (by cases hx)⟩
  | some r₀ =>
    rw [hrun] at h
    simp only at h
    split_ifs at h with hstatus
    · simp only [bind_eq_ok, fetch_eq_ok, pure_eq_ok, Prod.exists, Prod.mk.injEq] at h
      obtain ⟨p, hp, r₁, b₁, h, rfl, rfl⟩ := h
      obtain ⟨rfl, hget⟩ := get?_settleRow h hrun
      refine ⟨hget, fun x hx => ?_⟩
      obtain rfl := Option.some.inj hx
      exact wellFormed_settledRow r₀ _ _ _
    · obtain ⟨rfl, rfl⟩ := Prod.mk.inj (Except.ok.inj h)
      exact ⟨fun k => (by split_ifs with hk; exacts [hk ▸ hrun, rfl]), fun x hx => hwf x (hrun ▸ hx)⟩

end Budget

end CivicLoop
