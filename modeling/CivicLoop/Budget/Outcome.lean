import CivicLoop.Budget.Conservation

/-!
# Reservation statuses after a budget operation

What each operation does to the status of every reservation. Only reservations that nothing holds
expire, and every other operation changes the reservation of its own run only.

## Main definitions

* `Budget.statusOf` : the status of the reservation of a run.

## Main results

* `Budget.statusOf_reserveBudget`, `Budget.statusOf_settleBudget`, `Budget.statusOf_releaseBudget`,
  `Budget.statusOf_chargeReservedBudget`, `Budget.statusOf_expireReservations`.
-/

namespace CivicLoop.Budget

/-- The status of the reservation of a run, if it has one. -/
def statusOf (b : Budget) (runId : Uuid) : Option ReservationStatus :=
  (b.reservations.get? runId).map (·.status)

/-- The reservations of `b` that are reserved and not held. -/
def Expirable (held : Uuid → Bool) (b : Budget) (runId : Uuid) : Prop :=
  b.statusOf runId = some .reserved ∧ held runId = false

theorem statusOf_set {b b' : Budget} {runId : Uuid} {r : BudgetReservation}
    (r' : BudgetReservation) (hrun : b.reservations.get? runId = some r)
    (h : b'.reservations = b.reservations.set runId r') (k : Uuid) :
    b'.statusOf k = if k = runId then some r'.status else b.statusOf k := by
  unfold statusOf
  rw [h, Table.get?_set]
  split_ifs with hk <;> simp [hrun]

/-! ### Expiry -/

theorem statusOf_expireLoop {expired : List (Uuid × BudgetReservation)} {p p' : BudgetPeriod}
    {b b' : Budget} (h : expireLoop expired p b = .ok (p', b'))
    (hmem : ∀ row ∈ expired, b.reservations.get? row.1 = some row.2)
    (hnd : (expired.map Prod.fst).Nodup) (k : Uuid) :
    b'.statusOf k = if k ∈ expired.map Prod.fst then some .released else b.statusOf k := by
  induction expired generalizing p b with
  | nil =>
    simp only [expireLoop, Except.ok.injEq, Prod.mk.injEq] at h
    simp [h.2]
  | cons row expired ih =>
    obtain ⟨runId, r⟩ := row
    simp only [expireLoop, bind_eq_ok] at h
    obtain ⟨b₁, hb₁, h⟩ := h
    obtain rfl := createRecord_eq_ok hb₁
    simp only [List.map_cons, List.nodup_cons] at hnd
    have hrun := hmem (runId, r) List.mem_cons_self
    rw [ih h (fun row hrow => ?_) hnd.2, statusOf_set { r with status := .released } hrun (by rfl)]
    · by_cases hk : k = runId
      · rw [if_pos hk, ite_self, List.map_cons, if_pos (List.mem_cons.2 (.inl hk))]
      · rw [if_neg hk]
        exact if_congr (by simp [hk]) rfl rfl
    · have hne : row.1 ≠ runId := fun e => hnd.1 (e ▸ List.mem_map_of_mem hrow)
      rw [Table.get?_set_of_ne _ _ hne]
      exact hmem row (List.mem_cons_of_mem _ hrow)

/-- The reservations that one call of `_expire_period_reservations` releases. -/
theorem statusOf_expirePeriodReservations {held : Uuid → Bool} {month : Month} {p : BudgetPeriod}
    {now : Time} {n : ℕ} {b b' : Budget}
    (h : b.expirePeriodReservations held month p now = .ok (n, b')) :
    ∃ expired : List Uuid, (∀ x ∈ expired, Expirable held b x) ∧
      ∀ k, b'.statusOf k = if k ∈ expired then some .released else b.statusOf k := by
  simp only [expirePeriodReservations, bind_eq_ok, pure_eq_ok, Prod.exists, Prod.mk.injEq] at h
  obtain ⟨p', b₁, hloop, -, rfl⟩ := h
  refine ⟨(b.expirable held month now).map Prod.fst, fun x hx => ?_, fun k => ?_⟩
  · obtain ⟨row, hrow, rfl⟩ := List.mem_map.1 hx
    obtain ⟨h₁, h₂, -, h₄⟩ := mem_expirable hrow
    exact ⟨by rw [statusOf, h₁, Option.map_some, h₂], h₄⟩
  · rw [← statusOf_expireLoop hloop (fun row hrow => (mem_expirable hrow).1)
      (nodup_expirable held month now b) k]
    split_ifs <;> rfl

/-- Two rounds of expiry are one: what expires in the second was reserved before the first. -/
theorem expired_append {held : Uuid → Bool} {b b₁ b₂ : Budget} {xs ys : List Uuid}
    (hxs : ∀ x ∈ xs, Expirable held b x)
    (h₁ : ∀ k, b₁.statusOf k = if k ∈ xs then some .released else b.statusOf k)
    (hys : ∀ y ∈ ys, Expirable held b₁ y)
    (h₂ : ∀ k, b₂.statusOf k = if k ∈ ys then some .released else b₁.statusOf k) :
    (∀ x ∈ xs ++ ys, Expirable held b x) ∧
      ∀ k, b₂.statusOf k = if k ∈ xs ++ ys then some .released else b.statusOf k := by
  constructor
  · intro x hx
    rcases List.mem_append.1 hx with hx | hx
    · exact hxs x hx
    · obtain ⟨hy, hheld⟩ := hys x hx
      rw [h₁] at hy
      split_ifs at hy with hmem
      · exact absurd (Option.some.inj hy) (by decide)
      · exact ⟨hy, hheld⟩
  · intro k
    rw [h₂, h₁]
    by_cases hk : k ∈ ys <;> by_cases hk' : k ∈ xs <;> simp [hk, hk']

theorem statusOf_expirePeriods {held : Uuid → Bool} {now : Time}
    {periods : List (Month × BudgetPeriod)} {n : ℕ} {b b' : Budget}
    (h : expirePeriods held now periods b = .ok (n, b')) :
    ∃ expired : List Uuid, (∀ x ∈ expired, Expirable held b x) ∧
      ∀ k, b'.statusOf k = if k ∈ expired then some .released else b.statusOf k := by
  induction periods generalizing n b with
  | nil =>
    simp only [expirePeriods, Except.ok.injEq, Prod.mk.injEq] at h
    exact ⟨[], by simp, by simp [h.2]⟩
  | cons row periods ih =>
    obtain ⟨month, p⟩ := row
    simp only [expirePeriods, bind_eq_ok, pure_eq_ok, Prod.exists, Prod.mk.injEq] at h
    obtain ⟨n₁, b₁, h₁, n₂, b₂, h₂, -, rfl⟩ := h
    obtain ⟨xs, hxs, hb₁⟩ := statusOf_expirePeriodReservations h₁
    obtain ⟨ys, hys, hb₂⟩ := ih h₂
    exact ⟨xs ++ ys, expired_append hxs hb₁ hys hb₂⟩

/-- Expiry releases reservations that nothing holds, and changes no other. -/
theorem statusOf_expireReservations {held : Uuid → Bool} {now : Time} {n : ℕ} {b b' : Budget}
    (h : b.expireReservations held now = .ok (n, b')) :
    ∃ expired : List Uuid, (∀ x ∈ expired, Expirable held b x) ∧
      ∀ k, b'.statusOf k = if k ∈ expired then some .released else b.statusOf k :=
  statusOf_expirePeriods h

/-! ### The other operations -/

/-- A new reservation is reserved; what else changes has expired. -/
theorem statusOf_reserveBudget {catalog : Catalog} {held : Uuid → Bool} {now : Time}
    {q : ReserveRequest} {r : BudgetReservation} {b b' : Budget}
    (h : b.reserveBudget catalog held now q = .ok (r, b')) (hnew : b.statusOf q.runId = none) :
    ∃ expired : List Uuid, (∀ x ∈ expired, Expirable held b x) ∧
      ∀ k, b'.statusOf k = if k = q.runId then some .reserved
        else if k ∈ expired then some .released else b.statusOf k := by
  have hnone : b.reservations.get? q.runId = none := by simpa [statusOf] using hnew
  unfold reserveBudget at h
  rw [hnone] at h
  simp only [bind_eq_ok, ensure_eq_ok, fetch_eq_ok, pure_eq_ok, Prod.exists,
    Prod.mk.injEq] at h
  obtain ⟨profile, policy, -, -, -, c, hc, -, -, p, b₁, hb₁, n, b₂, hb₂, p₂, hp₂, -, hlimit,
    reservations, hins, b₃, hb₃, rfl, rfl⟩ := h
  obtain ⟨-, -, hres⟩ := moves_of_periodForUpdate hb₁
  obtain ⟨expired, hexp, hstatus⟩ := statusOf_expirePeriodReservations hb₂
  have hb : ∀ k, b₁.statusOf k = b.statusOf k := fun k => by rw [statusOf, hres, statusOf]
  refine ⟨expired, fun x hx => by simpa only [Expirable, hb] using hexp x hx, fun k => ?_⟩
  obtain rfl := createRecord_eq_ok hb₃
  rw [← hb, ← hstatus]
  unfold statusOf
  rw [Table.get?_of_insert? hins]
  split_ifs <;> rfl

theorem statusOf_settleRow {runId : Uuid} {r r' : BudgetReservation} {p : BudgetPeriod}
    {inputTokens outputTokens c : ℤ} {b b' : Budget}
    (h : b.settleRow runId r p inputTokens outputTokens c = .ok (r', b'))
    (hrun : b.reservations.get? runId = some r) (k : Uuid) :
    b'.statusOf k = if k = runId then some .settled else b.statusOf k := by
  simp only [settleRow, bind_eq_ok, pure_eq_ok, Prod.mk.injEq] at h
  obtain ⟨b₁, hb₁, -, rfl⟩ := h
  obtain rfl := createRecord_eq_ok hb₁
  exact statusOf_set (settledRow r inputTokens outputTokens c) hrun (by rfl) k

theorem statusOf_settleBudget {runId : Uuid} {inputTokens outputTokens : ℤ}
    {r : BudgetReservation} {b b' : Budget}
    (h : b.settleBudget runId inputTokens outputTokens = .ok (r, b')) (k : Uuid) :
    b'.statusOf k = if k = runId then some .settled else b.statusOf k := by
  simp only [settleBudget, bind_eq_ok, fetch_eq_ok] at h
  obtain ⟨r₀, hrun, h⟩ := h
  split at h
  · cases h
  · rename_i hstatus
    simp only [ensure_eq_ok, pure_eq_ok, Prod.mk.injEq, bind_eq_ok] at h
    obtain ⟨-, -, -, rfl⟩ := h
    split_ifs with hk
    · rw [hk, statusOf, hrun, Option.map_some, hstatus]
    · rfl
  · simp only [ensure_eq_ok, fetch_eq_ok, bind_eq_ok] at h
    obtain ⟨actual, -, -, -, -, -, p, -, -, -, h⟩ := h
    exact statusOf_settleRow h hrun k

theorem statusOf_releaseBudget {runId : Uuid} {r : Option BudgetReservation} {b b' : Budget}
    (h : b.releaseBudget runId = .ok (r, b')) (hres : b.statusOf runId = some .reserved)
    (k : Uuid) : b'.statusOf k = if k = runId then some .released else b.statusOf k := by
  obtain ⟨r₀, hrun, hstatus⟩ := Option.map_eq_some_iff.1 hres
  unfold releaseBudget at h
  rw [hrun] at h
  simp only [hstatus, if_true, bind_eq_ok, fetch_eq_ok, pure_eq_ok, Prod.mk.injEq] at h
  obtain ⟨p, hp, b₁, hb₁, -, rfl⟩ := h
  obtain rfl := createRecord_eq_ok hb₁
  exact statusOf_set { r₀ with status := .released } hrun (by rfl) k

theorem statusOf_chargeReservedBudget {runId : Uuid} {r : Option BudgetReservation}
    {b b' : Budget} (h : b.chargeReservedBudget runId = .ok (r, b'))
    (hres : b.statusOf runId = some .reserved) (k : Uuid) :
    b'.statusOf k = if k = runId then some .settled else b.statusOf k := by
  obtain ⟨r₀, hrun, hstatus⟩ := Option.map_eq_some_iff.1 hres
  unfold chargeReservedBudget at h
  rw [hrun] at h
  simp only [hstatus, if_true, bind_eq_ok, fetch_eq_ok, pure_eq_ok, Prod.exists,
    Prod.mk.injEq] at h
  obtain ⟨p, hp, r₁, b₁, h, -, rfl⟩ := h
  exact statusOf_settleRow h hrun k

end CivicLoop.Budget
