import CivicLoop.Budget.Ledger
import CivicLoop.Foundation.Transition
import Mathlib

/-!
# Conservation of the model budget

Every budget operation is a chain of three elementary moves: open a period, reserve a cost, and
close a reservation by settling or releasing it. The running totals of a period and the records of
the ledger are exact before and after every move, and so after every call.

## Main definitions

* `Budget.reservedTotal`, `Budget.settledTotal`, `Budget.records` : the sums and the records that
  the reservations of a period call for.
* `Budget.Conserved` : the totals, the limit and the records are exact.
* `Budget.Move` : one elementary move.

## Main results

* `Budget.Move.conserved` : a move keeps the budget conserved.
* `Budget.moves_of_reserveBudget`, `Budget.moves_of_settleBudget`, `Budget.moves_of_releaseBudget`,
  `Budget.moves_of_chargeReservedBudget`, `Budget.moves_of_expireReservations` : each operation is a
  chain of moves.
* `Budget.budget_conservation` : the budget is conserved in every reachable state, and a call that
  raises changes nothing.

## References

Source: `backend/agents/budgets.py`.
-/

namespace CivicLoop

namespace Budget

/-- The cost that a reservation holds in the period `month`. -/
def heldCost (month : Month) (r : BudgetReservation) : ℤ :=
  if r.period = month ∧ r.status = .reserved then r.reservedCostMicrousd else 0

/-- The cost that a reservation has settled in the period `month`. -/
def spentCost (month : Month) (r : BudgetReservation) : ℤ :=
  if r.period = month ∧ r.status = .settled then r.settledCostMicrousd.getD 0 else 0

/-- The sum of the reserved costs of the reserved reservations of a period. -/
def reservedTotal (b : Budget) (month : Month) : ℤ := b.reservations.sumBy (heldCost month)

/-- The sum of the settled costs of the settled reservations of a period. -/
def settledTotal (b : Budget) (month : Month) : ℤ := b.reservations.sumBy (spentCost month)

/-- The ledger records of one type that belong to the reservation of a run. -/
def records (b : Budget) (runId : Uuid) (entryType : EntryType) : List BudgetLedgerRecord :=
  b.ledger.filter fun e => e.reservation == runId && e.entryType == entryType

/-- The ledger holds exactly one record of the type for the run, with the cost `c`. -/
def RecordedOnce (b : Budget) (runId : Uuid) (entryType : EntryType) (c : ℤ) : Prop :=
  ∃ e, b.records runId entryType = [e] ∧ e.costMicrousd = c

/-- The totals of a period are the sums over its reservations, and they stay within the limit. -/
structure PeriodExact (b : Budget) (month : Month) (p : BudgetPeriod) : Prop where
  reserved : p.reservedMicrousd = b.reservedTotal month
  settled : p.settledMicrousd = b.settledTotal month
  reserved_nonneg : 0 ≤ p.reservedMicrousd
  settled_nonneg : 0 ≤ p.settledMicrousd
  within_limit : p.reservedMicrousd + p.settledMicrousd ≤ p.limitMicrousd

/-- A reservation has its period, nonnegative costs and the records that its status calls for. -/
structure ReservationExact (b : Budget) (runId : Uuid) (r : BudgetReservation) : Prop where
  period : ∃ p, b.periods.get? r.period = some p
  reserved_nonneg : 0 ≤ r.reservedCostMicrousd
  settled_nonneg : ∀ c, r.settledCostMicrousd = some c → 0 ≤ c
  reserved_record : b.RecordedOnce runId .reserved r.reservedCostMicrousd
  settled_record : if r.status = .settled then
      ∃ c, r.settledCostMicrousd = some c ∧ b.RecordedOnce runId .settled c
    else b.records runId .settled = []
  released_record : if r.status = .released then
      b.RecordedOnce runId .released r.reservedCostMicrousd
    else b.records runId .released = []

/-- The budget is conserved: periods and reservations are exact, and every record belongs to a
reservation. -/
structure Conserved (b : Budget) : Prop where
  period : ∀ month p, b.periods.get? month = some p → b.PeriodExact month p
  reservation : ∀ runId r, b.reservations.get? runId = some r → b.ReservationExact runId r
  record : ∀ runId, b.reservations.get? runId = none → ∀ e ∈ b.ledger, e.reservation ≠ runId

@[simp] theorem settledRow_status (r : BudgetReservation) (inputTokens outputTokens c : ℤ) :
    (settledRow r inputTokens outputTokens c).status = .settled := rfl

theorem conserved_initial : initial.Conserved where
  period := by simp [initial]
  reservation := by simp [initial]
  record := by simp [initial]

/-! ### Elementary moves -/

/-- Replace the reservation of a run and its period, and append a record for it. -/
def close (runId : Uuid) (r : BudgetReservation) (p : BudgetPeriod) (e : BudgetLedgerRecord)
    (b : Budget) : Budget :=
  { b.saveRows r.period p runId r with ledger := b.ledger ++ [e] }

/-- One elementary move of the budget. -/
inductive Move (b : Budget) : Budget → Prop
  | openPeriod (month : Month) (limit : ℤ) (periods : Table Month BudgetPeriod)
      (hlimit : 0 ≤ limit) (hmonth : b.periods.insert? month ⟨limit, 0, 0⟩ = some periods) :
      Move b { b with periods }
  | reserve (runId : Uuid) (r : BudgetReservation) (p : BudgetPeriod) (e : BudgetLedgerRecord)
      (reservations : Table Uuid BudgetReservation)
      (hrun : b.reservations.insert? runId r = some reservations)
      (hperiod : b.periods.get? r.period = some p) (hstatus : r.status = .reserved)
      (hsettled : r.settledCostMicrousd = none) (hcost : 0 ≤ r.reservedCostMicrousd)
      (hlimit : p.reservedMicrousd + p.settledMicrousd + r.reservedCostMicrousd ≤ p.limitMicrousd)
      (he : e.reservation = runId ∧ e.entryType = .reserved ∧
        e.costMicrousd = r.reservedCostMicrousd) :
      Move b
        { periods := b.periods.set r.period
            { p with reservedMicrousd := p.reservedMicrousd + r.reservedCostMicrousd }
          reservations
          ledger := b.ledger ++ [e] }
  | settle (runId : Uuid) (r : BudgetReservation) (p : BudgetPeriod) (e : BudgetLedgerRecord)
      (inputTokens outputTokens c : ℤ)
      (hrun : b.reservations.get? runId = some r) (hstatus : r.status = .reserved)
      (hperiod : b.periods.get? r.period = some p) (hcost : 0 ≤ c)
      (hlimit : p.settledMicrousd + p.reservedMicrousd + (c - r.reservedCostMicrousd) ≤
        p.limitMicrousd)
      (he : e.reservation = runId ∧ e.entryType = .settled ∧ e.costMicrousd = c) :
      Move b (b.close runId (settledRow r inputTokens outputTokens c)
        { p with
          reservedMicrousd := p.reservedMicrousd - r.reservedCostMicrousd
          settledMicrousd := p.settledMicrousd + c } e)
  | release (runId : Uuid) (r : BudgetReservation) (p : BudgetPeriod) (e : BudgetLedgerRecord)
      (hrun : b.reservations.get? runId = some r) (hstatus : r.status = .reserved)
      (hperiod : b.periods.get? r.period = some p)
      (he : e.reservation = runId ∧ e.entryType = .released ∧
        e.costMicrousd = r.reservedCostMicrousd) :
      Move b (b.close runId { r with status := .released }
        { p with reservedMicrousd := p.reservedMicrousd - r.reservedCostMicrousd } e)

/-! ### Records and totals after a write -/

theorem records_append (b : Budget) (e : BudgetLedgerRecord) (runId : Uuid) (t : EntryType)
    (ps : Table Month BudgetPeriod) (rs : Table Uuid BudgetReservation) :
    (⟨ps, rs, b.ledger ++ [e]⟩ : Budget).records runId t =
      b.records runId t ++ if e.reservation = runId ∧ e.entryType = t then [e] else [] := by
  simp only [records, List.filter_append, List.filter_cons, List.filter_nil, Bool.and_eq_true,
    beq_iff_eq]

theorem records_eq_nil {b : Budget} {runId : Uuid} (h : ∀ e ∈ b.ledger, e.reservation ≠ runId)
    (t : EntryType) : b.records runId t = [] := by
  refine List.filter_eq_nil_iff.2 fun e he => ?_
  simp [h e he]

theorem reservedTotal_nonneg {b : Budget}
    (h : ∀ runId r, b.reservations.get? runId = some r → b.ReservationExact runId r)
    (month : Month) : 0 ≤ b.reservedTotal month := by
  refine Table.sumBy_nonneg fun runId r hr => ?_
  unfold heldCost
  split_ifs
  · exact (h runId r hr).reserved_nonneg
  · exact le_rfl

theorem settledTotal_nonneg {b : Budget}
    (h : ∀ runId r, b.reservations.get? runId = some r → b.ReservationExact runId r)
    (month : Month) : 0 ≤ b.settledTotal month := by
  refine Table.sumBy_nonneg fun runId r hr => ?_
  unfold spentCost
  split_ifs
  · cases hc : r.settledCostMicrousd with
    | none => exact le_rfl
    | some c => exact (h runId r hr).settled_nonneg c hc
  · exact le_rfl

/-- The signs of the totals come with the sums: it is enough to check these and the limit. -/
theorem conserved_of_totals {b : Budget}
    (hres : ∀ runId r, b.reservations.get? runId = some r → b.ReservationExact runId r)
    (hper : ∀ month p, b.periods.get? month = some p →
      p.reservedMicrousd = b.reservedTotal month ∧ p.settledMicrousd = b.settledTotal month ∧
        p.reservedMicrousd + p.settledMicrousd ≤ p.limitMicrousd)
    (hrec : ∀ runId, b.reservations.get? runId = none → ∀ e ∈ b.ledger, e.reservation ≠ runId) :
    b.Conserved where
  period month p hp := by
    obtain ⟨h₁, h₂, h₃⟩ := hper month p hp
    exact ⟨h₁, h₂, h₁ ▸ reservedTotal_nonneg hres month, h₂ ▸ settledTotal_nonneg hres month, h₃⟩
  reservation := hres
  record := hrec

/-- A reservation stays exact when the periods keep their keys and records of other runs are
appended. -/
theorem ReservationExact.frame {b b' : Budget} {k : Uuid} {r : BudgetReservation}
    {e : BudgetLedgerRecord} (h : b.ReservationExact k r) (he : e.reservation ≠ k)
    (hper : ∀ m, b.periods.get? m ≠ none → b'.periods.get? m ≠ none)
    (hled : b'.ledger = b.ledger ++ [e]) : b'.ReservationExact k r := by
  have hrecords : ∀ t, b'.records k t = b.records k t := by
    intro t
    have := records_append b e k t b'.periods b'.reservations
    rwa [if_neg fun h => he h.1, List.append_nil, ← hled] at this
  have hperiod : ∃ p, b'.periods.get? r.period = some p := by
    obtain ⟨p, hp⟩ := h.period
    exact Option.ne_none_iff_exists'.1 (hper r.period (by simp [hp]))
  exact
    { period := hperiod
      reserved_nonneg := h.reserved_nonneg
      settled_nonneg := h.settled_nonneg
      reserved_record := by simpa only [RecordedOnce, hrecords] using h.reserved_record
      settled_record := by simpa only [RecordedOnce, hrecords] using h.settled_record
      released_record := by simpa only [RecordedOnce, hrecords] using h.released_record }

/-! ### A move keeps the budget conserved -/

theorem conserved_openPeriod {b : Budget} (h : b.Conserved) {month : Month} {limit : ℤ}
    {periods : Table Month BudgetPeriod} (hlimit : 0 ≤ limit)
    (hmonth : b.periods.insert? month ⟨limit, 0, 0⟩ = some periods) :
    ({ b with periods } : Budget).Conserved := by
  have hget := Table.get?_of_insert? hmonth
  have hnone := (Table.insert?_eq_some hmonth).1
  have hfresh : ∀ runId r, b.reservations.get? runId = some r → r.period ≠ month := by
    rintro runId r hr rfl
    obtain ⟨p, hp⟩ := (h.reservation runId r hr).period
    simp [hnone] at hp
  refine conserved_of_totals (fun runId r hr => ?_) (fun m p hp => ?_) h.record
  · obtain ⟨p, hp⟩ := (h.reservation runId r hr).period
    refine { h.reservation runId r hr with period := ⟨p, ?_⟩ }
    rw [hget, if_neg (hfresh runId r hr), hp]
  · change p.reservedMicrousd = b.reservedTotal m ∧ p.settledMicrousd = b.settledTotal m ∧ _
    rw [hget] at hp
    split_ifs at hp with e
    · obtain rfl := Option.some.inj hp
      subst e
      -- No reservation points to a period that was not there.
      have h₁ : b.reservedTotal m = 0 := Table.sumBy_eq_zero fun k r hr =>
        if_neg fun hc => hfresh k r hr hc.1
      have h₂ : b.settledTotal m = 0 := Table.sumBy_eq_zero fun k r hr =>
        if_neg fun hc => hfresh k r hr hc.1
      simpa [h₁, h₂] using hlimit
    · have hm := h.period m p hp
      exact ⟨hm.reserved, hm.settled, hm.within_limit⟩

theorem conserved_close {b : Budget} (h : b.Conserved) {runId : Uuid} {r r' : BudgetReservation}
    {p p' : BudgetPeriod} {e : BudgetLedgerRecord} (hrun : b.reservations.get? runId = some r)
    (hstatus : r.status = .reserved) (hperiod : b.periods.get? r.period = some p)
    (hr' : r'.period = r.period) (hst : r'.status ≠ .reserved)
    (hp₁ : p'.reservedMicrousd = p.reservedMicrousd - r.reservedCostMicrousd)
    (hp₂ : p'.settledMicrousd = p.settledMicrousd + spentCost r.period r')
    (hlimit : p'.reservedMicrousd + p'.settledMicrousd ≤ p'.limitMicrousd)
    (he : e.reservation = runId)
    (hexact : (b.close runId r' p' e).ReservationExact runId r') :
    (b.close runId r' p' e).Conserved := by
  have hres : ∀ k, (b.close runId r' p' e).reservations.get? k =
      if k = runId then some r' else b.reservations.get? k := by
    intro k
    simp [close, saveRows, Table.get?_set, hrun]
  have hper : ∀ m, (b.close runId r' p' e).periods.get? m =
      if m = r.period then some p' else b.periods.get? m := by
    intro m
    simp [close, saveRows, Table.get?_set, hr', hperiod]
  have hheld : ∀ m, (b.close runId r' p' e).reservedTotal m =
      b.reservedTotal m - heldCost m r + heldCost m r' := fun m =>
    Table.sumBy_set hrun r' (heldCost m)
  have hspent : ∀ m, (b.close runId r' p' e).settledTotal m =
      b.settledTotal m - spentCost m r + spentCost m r' := fun m =>
    Table.sumBy_set hrun r' (spentCost m)
  refine conserved_of_totals (fun k s hs => ?_) (fun m q hq => ?_) fun k hk e' he' => ?_
  · rw [hres] at hs
    split_ifs at hs with hk
    · obtain rfl := Option.some.inj hs
      exact hk ▸ hexact
    · refine (h.reservation k s hs).frame (e := e) (fun h' => hk (h'.symm.trans he))
        (fun m hm => ?_) rfl
      rw [hper]
      split_ifs
      · simp
      · exact hm
  · rw [hper] at hq
    rw [hheld, hspent]
    split_ifs at hq with hm
    · obtain rfl := Option.some.inj hq
      subst hm
      have hold := h.period r.period p hperiod
      refine ⟨?_, ?_, hlimit⟩
      · simp [heldCost, hstatus, hst, hp₁, hold.reserved]
      · simp [spentCost, hstatus, hp₂, hold.settled]
    · have hm' : r.period ≠ m := fun e => hm e.symm
      have hold := h.period m q hq
      simpa [heldCost, spentCost, hr', hm'] using ⟨hold.reserved, hold.settled, hold.within_limit⟩
  · rw [hres] at hk
    split_ifs at hk with hne
    rcases List.mem_append.1 he' with he' | he'
    · exact h.record k hk e' he'
    · rw [List.mem_singleton.1 he', he]
      exact fun h' => hne h'.symm

theorem conserved_reserve {b : Budget} (h : b.Conserved) {runId : Uuid} {r : BudgetReservation}
    {p : BudgetPeriod} {e : BudgetLedgerRecord} {reservations : Table Uuid BudgetReservation}
    (hrun : b.reservations.insert? runId r = some reservations)
    (hperiod : b.periods.get? r.period = some p) (hstatus : r.status = .reserved)
    (hsettled : r.settledCostMicrousd = none) (hcost : 0 ≤ r.reservedCostMicrousd)
    (hlimit : p.reservedMicrousd + p.settledMicrousd + r.reservedCostMicrousd ≤ p.limitMicrousd)
    (he : e.reservation = runId ∧ e.entryType = .reserved ∧
      e.costMicrousd = r.reservedCostMicrousd) :
    Conserved
      { periods := b.periods.set r.period
          { p with reservedMicrousd := p.reservedMicrousd + r.reservedCostMicrousd }
        reservations
        ledger := b.ledger ++ [e] } := by
  have hnone := (Table.insert?_eq_some hrun).1
  have hget := Table.get?_of_insert? hrun
  have hnew : ∀ t, b.records runId t = [] := records_eq_nil (h.record runId hnone)
  refine conserved_of_totals (fun k s hs => ?_) (fun m q hq => ?_) fun k hk e' he' => ?_
  · rw [hget] at hs
    split_ifs at hs with hk
    · obtain rfl := Option.some.inj hs
      subst hk
      exact
        { period := by simp [Table.get?_set, hperiod]
          reserved_nonneg := hcost
          settled_nonneg := by simp [hsettled]
          reserved_record := ⟨e, by rw [records_append]; simp [hnew, he], he.2.2⟩
          settled_record := by rw [records_append]; simp [hstatus, hnew, he]
          released_record := by rw [records_append]; simp [hstatus, hnew, he] }
    · refine (h.reservation k s hs).frame (e := e) (fun h' => hk (h'.symm.trans he.1))
        (fun m hm => ?_) rfl
      rwa [Ne, Table.get?_set_eq_none]
  · have hheld : reservations.sumBy (heldCost m) = b.reservedTotal m + heldCost m r :=
      Table.sumBy_of_insert? hrun _
    have hspent : reservations.sumBy (spentCost m) = b.settledTotal m + spentCost m r :=
      Table.sumBy_of_insert? hrun _
    simp only [reservedTotal, settledTotal] at hheld hspent ⊢
    rw [hheld, hspent]
    rw [Table.get?_set] at hq
    split_ifs at hq with hm
    · subst hm
      have hold := h.period r.period p hperiod
      rw [hperiod, Option.map_some, Option.some.injEq] at hq
      subst hq
      refine ⟨?_, ?_, by simpa using by omega⟩
      · simp [heldCost, hstatus, hold.reserved, reservedTotal]
      · simp [spentCost, hstatus, hold.settled, settledTotal]
    · have hm' : r.period ≠ m := fun e => hm e.symm
      have hold := h.period m q hq
      simpa [heldCost, spentCost, hm'] using ⟨hold.reserved, hold.settled, hold.within_limit⟩
  · rw [hget] at hk
    split_ifs at hk with hne
    rcases List.mem_append.1 he' with he' | he'
    · exact h.record k hk e' he'
    · rw [List.mem_singleton.1 he', he.1]
      exact fun h' => hne h'.symm

/-- **A move keeps the budget conserved.** -/
theorem Move.conserved {b b' : Budget} (hmove : Move b b') (h : b.Conserved) : b'.Conserved := by
  cases hmove with
  | openPeriod month limit periods hlimit hmonth => exact conserved_openPeriod h hlimit hmonth
  | reserve runId r p e reservations hrun hperiod hstatus hsettled hcost hlimit he =>
    exact conserved_reserve h hrun hperiod hstatus hsettled hcost hlimit he
  | settle runId r p e inputTokens outputTokens c hrun hstatus hperiod hcost hlimit he =>
    have hr := h.reservation runId r hrun
    have hrec : b.records runId .settled = [] := by simpa [hstatus] using hr.settled_record
    have hrel : b.records runId .released = [] := by simpa [hstatus] using hr.released_record
    obtain ⟨e₀, he₀, hc₀⟩ := hr.reserved_record
    refine conserved_close h hrun hstatus hperiod rfl (by simp [settledRow]) rfl
      (by simp [spentCost, settledRow]) (by simpa using by omega) he.1 ?_
    exact
      { period := by simp [close, saveRows, settledRow, Table.get?_set, hperiod]
        reserved_nonneg := hr.reserved_nonneg
        settled_nonneg := by simpa [settledRow] using hcost
        reserved_record := ⟨e₀, by rw [close, records_append]; simp [he₀, he], hc₀⟩
        settled_record := by
          rw [settledRow_status, if_pos rfl]
          exact ⟨c, rfl, e, by rw [close, records_append]; simp [hrec, he], he.2.2⟩
        released_record := by
          rw [close, records_append]
          simp [settledRow, hrel, he] }
  | release runId r p e hrun hstatus hperiod he =>
    have hr := h.reservation runId r hrun
    have hold := h.period r.period p hperiod
    have hrec : b.records runId .settled = [] := by simpa [hstatus] using hr.settled_record
    have hrel : b.records runId .released = [] := by simpa [hstatus] using hr.released_record
    obtain ⟨e₀, he₀, hc₀⟩ := hr.reserved_record
    have hlimit := hold.within_limit
    have hcost := hr.reserved_nonneg
    refine conserved_close h hrun hstatus hperiod rfl (by simp) rfl
      (by simp [spentCost]) (by simpa using by omega) he.1 ?_
    exact
      { period := by simp [close, saveRows, Table.get?_set, hperiod]
        reserved_nonneg := hr.reserved_nonneg
        settled_nonneg := hr.settled_nonneg
        reserved_record := ⟨e₀, by rw [close, records_append]; simp [he₀, he], hc₀⟩
        settled_record := by
          rw [close, records_append]
          simp [hrec, he]
        released_record := by
          rw [if_pos rfl]
          exact ⟨e, by rw [close, records_append]; simp [hrel, he], he.2.2⟩ }

/-! ### Operations as chains of moves -/

/-- A chain of moves. -/
abbrev Moves : Budget → Budget → Prop := Relation.ReflTransGen Move

theorem Moves.conserved {b b' : Budget} (hmoves : Moves b b') (h : b.Conserved) : b'.Conserved := by
  induction hmoves with
  | refl => exact h
  | tail _ hmove ih => exact hmove.conserved ih

theorem createRecord_eq_ok {b b' : Budget} {e : BudgetLedgerRecord}
    (h : b.createRecord e = .ok b') : b' = { b with ledger := b.ledger ++ [e] } := by
  simp only [createRecord, bind_eq_ok, ensure_eq_ok, pure_eq_ok] at h
  obtain ⟨-, -, rfl⟩ := h
  rfl

theorem cost_nonneg {profile : ModelProfile} {inputTokens outputTokens c : ℤ}
    (h : cost profile inputTokens outputTokens = .ok c) : 0 ≤ c := by
  simp only [cost, bind_eq_ok, ensure_eq_ok, pure_eq_ok] at h
  obtain ⟨inputPrice, -, outputPrice, -, -, hneg, rfl⟩ := h
  have h₁ : 0 ≤ inputTokens * inputPrice := Int.mul_nonneg (by omega) (by omega)
  have h₂ : 0 ≤ outputTokens * outputPrice := Int.mul_nonneg (by omega) (by omega)
  omega

/-- The budget with the row of a period replaced by the period in memory. -/
def withPeriod (month : Month) (p : BudgetPeriod) (b : Budget) : Budget :=
  { b with periods := b.periods.set month p }

theorem withPeriod_self {b : Budget} {month : Month} {p : BudgetPeriod}
    (h : b.periods.get? month = some p) : b.withPeriod month p = b := by
  rw [withPeriod, Table.set_get? h]

/-- The expiry loop releases its reservations one by one. Until the period is saved its row is
behind the period in memory, so the moves are between the budgets with that period. -/
theorem moves_of_expireLoop {month : Month} {p₀ : BudgetPeriod}
    {expired : List (Uuid × BudgetReservation)} {p p' : BudgetPeriod} {b b' : Budget}
    (h : expireLoop expired p b = .ok (p', b')) (hp₀ : b.periods.get? month = some p₀)
    (hmem : ∀ row ∈ expired, b.reservations.get? row.1 = some row.2 ∧
      row.2.status = .reserved ∧ row.2.period = month)
    (hnd : (expired.map Prod.fst).Nodup) :
    Moves (b.withPeriod month p) (b'.withPeriod month p') ∧ b'.periods = b.periods := by
  induction expired generalizing p b with
  | nil =>
    simp only [expireLoop, Except.ok.injEq, Prod.mk.injEq] at h
    obtain ⟨rfl, rfl⟩ := h
    exact ⟨.refl, rfl⟩
  | cons row expired ih =>
    obtain ⟨runId, r⟩ := row
    simp only [expireLoop, bind_eq_ok] at h
    obtain ⟨b₁, hb₁, h⟩ := h
    obtain rfl := createRecord_eq_ok hb₁
    obtain ⟨hrun, hstatus, hmonth⟩ := hmem (runId, r) List.mem_cons_self
    simp only at hrun hstatus hmonth
    simp only [List.map_cons, List.nodup_cons] at hnd
    obtain ⟨hmoves, hperiods⟩ := ih h hp₀ (fun row hrow => by
      obtain ⟨h₁, h₂⟩ := hmem row (List.mem_cons_of_mem _ hrow)
      refine ⟨?_, h₂⟩
      have hne : row.1 ≠ runId := fun e => hnd.1 (e ▸ List.mem_map_of_mem hrow)
      rwa [Table.get?_set_of_ne _ _ hne]) hnd.2
    refine ⟨.head ?_ hmoves, hperiods⟩
    have hmove := Move.release (b := b.withPeriod month p) runId r p
      (recordOf runId { r with status := .released } .released 0 0 r.reservedCostMicrousd) hrun
      hstatus (by simp [withPeriod, hmonth, Table.get?_set, hp₀]) ⟨rfl, rfl, rfl⟩
    simpa only [withPeriod, close, saveRows, hmonth, Table.set_set] using hmove

theorem mem_expirable {held : Uuid → Bool} {month : Month} {now : Time} {b : Budget}
    {row : Uuid × BudgetReservation} (h : row ∈ b.expirable held month now) :
    b.reservations.get? row.1 = some row.2 ∧ row.2.status = .reserved ∧ row.2.period = month ∧
      held row.1 = false := by
  simp only [expirable, List.mem_filter, Bool.and_eq_true, beq_iff_eq, Bool.not_eq_true'] at h
  exact ⟨Table.get?_eq_some_iff.2 h.1, h.2.1.1.2, h.2.1.1.1, h.2.2⟩

theorem nodup_expirable (held : Uuid → Bool) (month : Month) (now : Time) (b : Budget) :
    ((b.expirable held month now).map Prod.fst).Nodup :=
  b.reservations.nodup.sublist (List.filter_sublist.map _)

theorem moves_of_expirePeriodReservations {held : Uuid → Bool} {month : Month} {p : BudgetPeriod}
    {now : Time} {n : ℕ} {b b' : Budget}
    (h : b.expirePeriodReservations held month p now = .ok (n, b'))
    (hp : b.periods.get? month = some p) :
    Moves b b' ∧ ∃ p', b'.periods = b.periods.set month p' := by
  simp only [expirePeriodReservations, bind_eq_ok, pure_eq_ok, Prod.exists, Prod.mk.injEq] at h
  obtain ⟨p', b₁, hloop, -, rfl⟩ := h
  obtain ⟨hmoves, hperiods⟩ := moves_of_expireLoop hloop hp
    (fun row hrow => by
      obtain ⟨h₁, h₂, h₃, -⟩ := mem_expirable hrow
      exact ⟨h₁, h₂, h₃⟩)
    (nodup_expirable held month now b)
  rw [withPeriod_self hp] at hmoves
  split_ifs with hnil
  · rw [List.isEmpty_iff] at hnil
    rw [hnil] at hloop
    simp only [expireLoop, Except.ok.injEq, Prod.mk.injEq] at hloop
    obtain ⟨-, rfl⟩ := hloop
    exact ⟨.refl, p, by rw [Table.set_get? hp]⟩
  · exact ⟨hmoves, p', by rw [hperiods]⟩

theorem moves_of_expirePeriods {held : Uuid → Bool} {now : Time}
    {periods : List (Month × BudgetPeriod)} {n : ℕ} {b b' : Budget}
    (h : expirePeriods held now periods b = .ok (n, b'))
    (hmem : ∀ row ∈ periods, b.periods.get? row.1 = some row.2)
    (hnd : (periods.map Prod.fst).Nodup) : Moves b b' := by
  induction periods generalizing n b with
  | nil =>
    simp only [expirePeriods, Except.ok.injEq, Prod.mk.injEq] at h
    exact h.2 ▸ .refl
  | cons row periods ih =>
    obtain ⟨month, p⟩ := row
    simp only [expirePeriods, bind_eq_ok, pure_eq_ok, Prod.exists, Prod.mk.injEq] at h
    obtain ⟨n₁, b₁, h₁, n₂, b₂, h₂, -, rfl⟩ := h
    obtain ⟨hmoves, p', hp'⟩ := moves_of_expirePeriodReservations h₁ (hmem _ List.mem_cons_self)
    simp only [List.map_cons, List.nodup_cons] at hnd
    refine hmoves.trans (ih h₂ (fun row hrow => ?_) hnd.2)
    -- The other periods of the list were read before the loop; this round left their rows alone.
    have hne : row.1 ≠ month := fun e => hnd.1 (e ▸ List.mem_map_of_mem hrow)
    rw [hp', Table.get?_set_of_ne _ _ hne]
    exact hmem row (List.mem_cons_of_mem _ hrow)

theorem moves_of_expireReservations {held : Uuid → Bool} {now : Time} {n : ℕ} {b b' : Budget}
    (h : b.expireReservations held now = .ok (n, b')) : Moves b b' :=
  moves_of_expirePeriods h
    (fun _ hrow => Table.get?_eq_some_iff.2 (List.mem_of_mem_filter hrow))
    (b.periods.nodup.sublist (List.filter_sublist.map _))

theorem moves_of_periodForUpdate {policy : RoutingPolicy} {now : Time} {p : BudgetPeriod}
    {b b' : Budget} (h : b.periodForUpdate policy now = .ok (p, b')) :
    Moves b b' ∧ b'.periods.get? (Month.ofTime now) = some p ∧ b'.reservations = b.reservations := by
  simp only [periodForUpdate, bind_eq_ok, ensure_eq_ok, pure_eq_ok, Prod.exists,
    Prod.mk.injEq] at h
  obtain ⟨p₁, b₁, h, -, -, rfl, rfl⟩ := h
  unfold getOrCreatePeriod at h
  split at h
  · rename_i p₂ hp₂
    simp only [Except.ok.injEq, Prod.mk.injEq] at h
    obtain ⟨rfl, rfl⟩ := h
    exact ⟨.refl, hp₂, rfl⟩
  · simp only [bind_eq_ok, fetch_eq_ok, pure_eq_ok, Prod.mk.injEq] at h
    obtain ⟨periods, hins, rfl, rfl⟩ := h
    refine ⟨.single (.openPeriod _ _ _ (by omega) hins), ?_, rfl⟩
    rw [Table.get?_of_insert? hins, if_pos rfl]

theorem moves_of_reserveBudget {catalog : Catalog} {held : Uuid → Bool} {now : Time}
    {q : ReserveRequest} {r : BudgetReservation} {b b' : Budget}
    (h : b.reserveBudget catalog held now q = .ok (r, b')) : Moves b b' := by
  unfold reserveBudget at h
  split at h
  · simp only [bind_eq_ok, ensure_eq_ok, pure_eq_ok, Prod.mk.injEq] at h
    obtain ⟨-, -, -, rfl⟩ := h
    exact .refl
  · simp only [bind_eq_ok, ensure_eq_ok, fetch_eq_ok, pure_eq_ok, Prod.exists,
      Prod.mk.injEq] at h
    obtain ⟨profile, policy, -, -, -, c, hc, -, -, p, b₁, hb₁, n, b₂, hb₂, p₂, hp₂, -, hlimit,
      reservations, hins, b₃, hb₃, rfl, rfl⟩ := h
    obtain ⟨hmoves₁, hp₁, -⟩ := moves_of_periodForUpdate hb₁
    obtain ⟨hmoves₂, -⟩ := moves_of_expirePeriodReservations hb₂ hp₁
    obtain rfl := createRecord_eq_ok hb₃
    exact (hmoves₁.trans hmoves₂).tail (.reserve q.runId _ p₂ _ reservations hins hp₂ rfl rfl
      (cost_nonneg hc) (by simpa using by omega) ⟨rfl, rfl, rfl⟩)

theorem move_of_settleRow {runId : Uuid} {r r' : BudgetReservation} {p : BudgetPeriod}
    {inputTokens outputTokens c : ℤ} {b b' : Budget}
    (h : b.settleRow runId r p inputTokens outputTokens c = .ok (r', b'))
    (hrun : b.reservations.get? runId = some r) (hstatus : r.status = .reserved)
    (hperiod : b.periods.get? r.period = some p) (hcost : 0 ≤ c)
    (hlimit : p.settledMicrousd + p.reservedMicrousd + (c - r.reservedCostMicrousd) ≤
      p.limitMicrousd) : Move b b' := by
  simp only [settleRow, bind_eq_ok, pure_eq_ok, Prod.mk.injEq] at h
  obtain ⟨b₁, hb₁, -, rfl⟩ := h
  obtain rfl := createRecord_eq_ok hb₁
  exact .settle runId r p _ inputTokens outputTokens c hrun hstatus hperiod hcost hlimit
    ⟨rfl, rfl, rfl⟩

theorem moves_of_settleBudget {runId : Uuid} {inputTokens outputTokens : ℤ}
    {r : BudgetReservation} {b b' : Budget}
    (h : b.settleBudget runId inputTokens outputTokens = .ok (r, b')) : Moves b b' := by
  simp only [settleBudget, bind_eq_ok, fetch_eq_ok] at h
  obtain ⟨r₀, hrun, h⟩ := h
  split at h
  · cases h
  · simp only [ensure_eq_ok, pure_eq_ok, Prod.mk.injEq, bind_eq_ok] at h
    obtain ⟨-, -, -, rfl⟩ := h
    exact .refl
  · rename_i hstatus
    simp only [ensure_eq_ok, fetch_eq_ok, bind_eq_ok] at h
    obtain ⟨actual, hactual, -, -, -, -, p, hp, -, hlimit, h⟩ := h
    exact .single (move_of_settleRow h hrun hstatus hp (cost_nonneg hactual) (by omega))

theorem moves_of_releaseBudget {runId : Uuid} {r : Option BudgetReservation} {b b' : Budget}
    (h : b.releaseBudget runId = .ok (r, b')) : Moves b b' := by
  unfold releaseBudget at h
  split at h
  · simp only [Except.ok.injEq, Prod.mk.injEq] at h
    exact h.2 ▸ .refl
  · rename_i r₀ hrun
    split_ifs at h with hstatus
    · simp only [bind_eq_ok, fetch_eq_ok, pure_eq_ok, Prod.mk.injEq] at h
      obtain ⟨p, hp, b₁, hb₁, -, rfl⟩ := h
      obtain rfl := createRecord_eq_ok hb₁
      exact .single (.release runId r₀ p _ hrun hstatus hp ⟨rfl, rfl, rfl⟩)
    · simp only [Except.ok.injEq, Prod.mk.injEq] at h
      exact h.2 ▸ .refl

/-- A charge settles at the reserved cost, which the invariant bounds: the totals do not grow. -/
theorem moves_of_chargeReservedBudget {runId : Uuid} {r : Option BudgetReservation}
    {b b' : Budget} (hb : b.Conserved) (h : b.chargeReservedBudget runId = .ok (r, b')) :
    Moves b b' := by
  unfold chargeReservedBudget at h
  split at h
  · simp only [Except.ok.injEq, Prod.mk.injEq] at h
    exact h.2 ▸ .refl
  · rename_i r₀ hrun
    split_ifs at h with hstatus
    · simp only [bind_eq_ok, fetch_eq_ok, pure_eq_ok, Prod.exists, Prod.mk.injEq] at h
      obtain ⟨p, hp, r₁, b₁, h, -, rfl⟩ := h
      have hlimit := (hb.period _ _ hp).within_limit
      exact .single (move_of_settleRow h hrun hstatus hp (hb.reservation _ _ hrun).reserved_nonneg
        (by omega))
    · simp only [Except.ok.injEq, Prod.mk.injEq] at h
      exact h.2 ▸ .refl

/-! ### Every run is conserved -/

theorem exec_conserved {b b' : Budget} {c : Call} {reply : Reply} (hb : b.Conserved)
    (h : b.exec c = .ok (reply, b')) : b'.Conserved := by
  cases c with
  | reserve catalog held now q =>
    obtain ⟨r, h⟩ := ok_of_map (f := fun r => Reply.reservation (some r)) h
    exact (moves_of_reserveBudget h).conserved hb
  | settle runId inputTokens outputTokens =>
    obtain ⟨r, h⟩ := ok_of_map (f := fun r => Reply.reservation (some r)) h
    exact (moves_of_settleBudget h).conserved hb
  | release runId =>
    obtain ⟨r, h⟩ := ok_of_map h
    exact (moves_of_releaseBudget h).conserved hb
  | charge runId =>
    obtain ⟨r, h⟩ := ok_of_map h
    exact (moves_of_chargeReservedBudget hb h).conserved hb
  | expire held now =>
    obtain ⟨n, h⟩ := ok_of_map h
    exact (moves_of_expireReservations h).conserved hb

theorem step_conserved (b : Budget) (c : Call) (hb : b.Conserved) : (b.step c).Conserved :=
  commit_induction hb fun _ _ h => exec_conserved hb h

/-- **Budget conservation.** After any sequence of calls, with any arguments and at any times, the
totals of every period are the sums over its reservations and stay within its limit, every
reservation has the records of its status, and a further call that raises changes no table. -/
theorem budget_conservation (calls : List Call) :
    (Transition.run step initial calls).Conserved ∧
      ∀ c e, (Transition.run step initial calls).exec c = .error e →
        (Transition.run step initial calls).step c = Transition.run step initial calls := by
  refine ⟨Transition.run_induction step_conserved conserved_initial calls, fun c e h => ?_⟩
  rw [step, h, commit_error]

/-- A priced profile, with the policy of the source's default limits. -/
def sampleProfile : ModelProfile where
  profileId := "hermes-workflow"
  revision := 1
  provider := .hermes
  model := "hermes"
  purpose := .workflow
  maxInputTokens := 12000
  maxOutputTokens := 4000
  inputPriceMicrousdPerMillion := some 150000
  outputPriceMicrousdPerMillion := some 600000

def samplePolicy : RoutingPolicy where
  policyId := "hermes-workflow"
  revision := 1
  purpose := .workflow
  modelProfile := ("hermes-workflow", 1)
  perRunLimitMicrousd := 500000
  monthlyLimitMicrousd := 25000000

def sampleCatalog : Catalog where
  profiles := ⟨[(("hermes-workflow", 1), sampleProfile)], by decide⟩
  policies := ⟨[(("hermes-workflow", 1), samplePolicy)], by decide⟩

/-- Two runs reserve, one settles below its reservation and the other, which nothing holds, expires;
a settlement of the expired one raises. -/
def sampleCalls : List Call :=
  [.reserve sampleCatalog (fun _ => false) 0 ⟨1, "hermes-workflow", 1, 12000, 4000, none⟩,
    .reserve sampleCatalog (fun _ => false) 0 ⟨2, "hermes-workflow", 1, 12000, 4000, none⟩,
    .settle 1 10000 1000,
    .expire (fun _ => false) (minutes 15)]

theorem budget_conservation_sampleCalls :
    (Transition.run step initial sampleCalls).periods.get? ⟨1970, 1⟩ = some ⟨25000000, 0, 2100⟩ ∧
      (Transition.run step initial sampleCalls).Conserved ∧
      (Transition.run step initial sampleCalls).step (.settle 2 10000 1000) =
        Transition.run step initial sampleCalls :=
  ⟨by decide +kernel, (budget_conservation sampleCalls).1,
    (budget_conservation sampleCalls).2 _
      (.budgetRequestConflict "The run budget reservation has expired.") (by rfl)⟩

end Budget

end CivicLoop
