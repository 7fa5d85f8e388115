import CivicLoop.Foundation.Calendar
import CivicLoop.Foundation.Checked
import CivicLoop.Foundation.Json
import CivicLoop.Foundation.Table

/-!
# The model budget

The monthly budget for model calls: a period for each calendar month with two running totals, a
reservation for each run, and a ledger that is only appended to. Each of the five operations is one
database transaction, that is, a function into `Except BudgetError` whose result holds the new
tables: a call that raises returns no tables, and the old ones stand.

A reservation row holds the model profile and the routing policy it points to; both are immutable
records in the source. Reservations are keyed by `run_id`, which is unique, and periods by `month`,
which is unique. The `CHECK` constraints on the amounts are left out: `Conservation` shows that no
write could violate them.

## Main definitions

* `ModelProfile`, `RoutingPolicy`, `Catalog` : the approved models and prices.
* `BudgetPeriod`, `BudgetReservation`, `BudgetLedgerRecord`, `Budget` : the tables.
* `Budget.reserveBudget`, `Budget.settleBudget`, `Budget.releaseBudget`,
  `Budget.chargeReservedBudget`, `Budget.expireReservations` : the operations.
* `Budget.Call`, `Budget.step` : the five operations as one transition function.

## References

Source: `backend/agents/budgets.py`, `backend/agents/models.py`, lines 29–210.
-/

namespace CivicLoop


/-! ### The catalog of approved models -/

inductive Provider
  | hermes
  | groq
  | openai
deriving DecidableEq, Repr

inductive Purpose
  | workflow
  | evaluationJudge
  | fallback
deriving DecidableEq, Repr

/-- An approved model with its token limits and prices. A price may be missing. -/
structure ModelProfile where
  profileId : String
  revision : ℤ
  provider : Provider
  model : String
  purpose : Purpose
  maxInputTokens : ℕ
  maxOutputTokens : ℕ
  inputPriceMicrousdPerMillion : Option ℕ
  outputPriceMicrousdPerMillion : Option ℕ
deriving DecidableEq, Repr

/-- The policy of one model profile, given by its profile id and revision: the limits of a run and
of a month. -/
structure RoutingPolicy where
  policyId : String
  revision : ℤ
  purpose : Purpose
  modelProfile : String × ℤ
  perRunLimitMicrousd : ℕ
  monthlyLimitMicrousd : ℕ
deriving DecidableEq, Repr

/-- The profiles by id and revision, and the policies by id and revision. -/
structure Catalog where
  profiles : Table (String × ℤ) ModelProfile
  policies : Table (String × ℤ) RoutingPolicy

/-! ### The tables -/

structure BudgetPeriod where
  limitMicrousd : ℤ
  reservedMicrousd : ℤ
  settledMicrousd : ℤ
deriving DecidableEq, Repr

inductive ReservationStatus
  | reserved
  | settled
  | released
deriving DecidableEq, Repr

structure BudgetReservation where
  modelProfile : ModelProfile
  routingPolicy : RoutingPolicy
  period : Month
  estimatedInputTokens : ℤ
  estimatedOutputTokens : ℤ
  reservedCostMicrousd : ℤ
  settledInputTokens : Option ℤ
  settledOutputTokens : Option ℤ
  settledCostMicrousd : Option ℤ
  status : ReservationStatus
  expiresAt : Time
deriving DecidableEq, Repr

inductive EntryType
  | reserved
  | settled
  | released
  | adjustment
deriving DecidableEq, Repr

/-- A ledger record. The reservation it belongs to is given by its run id. -/
structure BudgetLedgerRecord where
  runId : Uuid
  reservation : Uuid
  modelProfileIdSnapshot : String
  modelProfileRevision : ℤ
  entryType : EntryType
  inputTokens : ℤ
  outputTokens : ℤ
  costMicrousd : ℤ
deriving DecidableEq, Repr

/-- The budget tables. -/
structure Budget where
  periods : Table Month BudgetPeriod
  reservations : Table Uuid BudgetReservation
  ledger : List BudgetLedgerRecord

/-- What a budget operation raises: one of the three budget errors with its text, or an error of
the database for a violated unique constraint or a missing row. -/
inductive BudgetError
  | unknownModelPrice (message : String)
  | budgetExhausted (message : String)
  | budgetRequestConflict (message : String)
  | integrityError
  | doesNotExist
deriving DecidableEq, Repr

namespace Budget

/-- The budget before any call. -/
def initial : Budget := ⟨Table.empty, Table.empty, []⟩

/-! ### Prices and periods -/

/-- `_cost`: the price of a number of tokens, rounded up to a whole microdollar. -/
def cost (profile : ModelProfile) (inputTokens outputTokens : ℤ) : Except BudgetError ℤ := do
  let noPrice := BudgetError.unknownModelPrice "The selected model has no approved price."
  let inputPrice ← fetch profile.inputPriceMicrousdPerMillion noPrice
  let outputPrice ← fetch profile.outputPriceMicrousdPerMillion noPrice
  ensure (¬(inputTokens < 0 ∨ outputTokens < 0))
    (.budgetRequestConflict "Token counts cannot be negative.")
  return (inputTokens * inputPrice + outputTokens * outputPrice + 999999) / 1000000

/-- `_profile_and_policy`: the approved profile and the policy of the same purpose that points to
it. -/
def profileAndPolicy (catalog : Catalog) (profileId : String) (profileRevision : ℤ) :
    Except BudgetError (ModelProfile × RoutingPolicy) := do
  let missing :=
    BudgetError.unknownModelPrice "The selected model and price are not allowlisted."
  let profile ← fetch (catalog.profiles.get? (profileId, profileRevision)) missing
  let policy ← fetch (catalog.policies.find? fun _ policy =>
    policy.modelProfile == (profile.profileId, profile.revision) &&
      policy.purpose == profile.purpose) missing
  ensure (profile.inputPriceMicrousdPerMillion.isSome ∧
      profile.outputPriceMicrousdPerMillion.isSome)
    (.unknownModelPrice "The selected model has no approved price.")
  return (profile, policy.2)

/-- `BudgetPeriod.objects.get_or_create`: the period of a month, created with the limit if there is
none. -/
def getOrCreatePeriod (month : Month) (limit : ℤ) (b : Budget) :
    Except BudgetError (BudgetPeriod × Budget) :=
  match b.periods.get? month with
  | some period => .ok (period, b)
  | none => do
    let period : BudgetPeriod := ⟨limit, 0, 0⟩
    let periods ← fetch (b.periods.insert? month period) .integrityError
    return (period, { b with periods })

/-- `_period_for_update`: the period of the current month. -/
def periodForUpdate (policy : RoutingPolicy) (now : Time) (b : Budget) :
    Except BudgetError (BudgetPeriod × Budget) := do
  let (period, b) ← b.getOrCreatePeriod (Month.ofTime now) policy.monthlyLimitMicrousd
  ensure (period.limitMicrousd = policy.monthlyLimitMicrousd)
    (.budgetRequestConflict "The monthly budget policy changed within an active period.")
  return (period, b)

/-! ### Row writes -/

/-- `BudgetLedgerRecord.objects.create`: append a record, unless the run has one of the type. -/
def createRecord (record : BudgetLedgerRecord) (b : Budget) : Except BudgetError Budget := do
  ensure (∀ other ∈ b.ledger,
    ¬(other.runId = record.runId ∧ other.entryType = record.entryType)) .integrityError
  return { b with ledger := b.ledger ++ [record] }

/-- The ledger record of a reservation of the run `runId`. -/
def recordOf (runId : Uuid) (r : BudgetReservation) (entryType : EntryType)
    (inputTokens outputTokens costMicrousd : ℤ) : BudgetLedgerRecord where
  runId := runId
  reservation := runId
  modelProfileIdSnapshot := r.modelProfile.profileId
  modelProfileRevision := r.modelProfile.revision
  entryType := entryType
  inputTokens := inputTokens
  outputTokens := outputTokens
  costMicrousd := costMicrousd

/-- `period.save` and `reservation.save`, for rows that are there. -/
def saveRows (month : Month) (period : BudgetPeriod) (runId : Uuid) (r : BudgetReservation)
    (b : Budget) : Budget :=
  { b with
    periods := b.periods.set month period
    reservations := b.reservations.set runId r }

/-! ### Expiry -/

/-- The loop of `_expire_period_reservations`: release each expired reservation and take its cost
from the period in memory. -/
def expireLoop : List (Uuid × BudgetReservation) → BudgetPeriod → Budget →
    Except BudgetError (BudgetPeriod × Budget)
  | [], period, b => .ok (period, b)
  | (runId, r) :: expired, period, b => do
    let r' := { r with status := .released }
    let b := { b with reservations := b.reservations.set runId r' }
    let period :=
      { period with reservedMicrousd := period.reservedMicrousd - r.reservedCostMicrousd }
    let b ← b.createRecord (recordOf runId r' .released 0 0 r.reservedCostMicrousd)
    expireLoop expired period b

/-- The reservations of a month that may expire at `now`. A reservation is held while the lane still
needs it: its run is a Hermes run that is queued or running, or whose control has admission
disabled. -/
def expirable (held : Uuid → Bool) (month : Month) (now : Time) (b : Budget) :
    List (Uuid × BudgetReservation) :=
  b.reservations.rows.filter fun row =>
    row.2.period == month && row.2.status == .reserved && decide (row.2.expiresAt ≤ now) &&
      !held row.1

/-- `_expire_period_reservations`: release what may expire and save the period once. -/
def expirePeriodReservations (held : Uuid → Bool) (month : Month) (period : BudgetPeriod)
    (now : Time) (b : Budget) : Except BudgetError (ℕ × Budget) := do
  let expired := b.expirable held month now
  let (period, b) ← expireLoop expired period b
  let b := if expired.isEmpty then b else { b with periods := b.periods.set month period }
  return (expired.length, b)

/-- The loop of `expire_reservations` over the periods that have an expired reservation. -/
def expirePeriods (held : Uuid → Bool) (now : Time) :
    List (Month × BudgetPeriod) → Budget → Except BudgetError (ℕ × Budget)
  | [], b => .ok (0, b)
  | (month, period) :: periods, b => do
    let (n, b) ← b.expirePeriodReservations held month period now
    let (total, b) ← expirePeriods held now periods b
    return (n + total, b)

/-- `expire_reservations`. -/
def expireReservations (held : Uuid → Bool) (now : Time) (b : Budget) :
    Except BudgetError (ℕ × Budget) :=
  let periodIds := (b.reservations.values.filter fun r =>
    r.status == .reserved && decide (r.expiresAt ≤ now)).map (·.period)
  expirePeriods held now (b.periods.rows.filter fun row => periodIds.contains row.1) b

/-! ### Reservation, settlement, release and charge -/

/-- The arguments of `reserve_budget`. -/
structure ReserveRequest where
  runId : Uuid
  profileId : String
  profileRevision : ℤ
  estimatedInputTokens : ℤ
  estimatedOutputTokens : ℤ
  expiresAt : Option Time

/-- `reserve_budget`: a repeated request returns the reservation of the run; a new one expires what
it can in the month and then reserves its cost within the limit. -/
def reserveBudget (catalog : Catalog) (held : Uuid → Bool) (now : Time) (q : ReserveRequest)
    (b : Budget) : Except BudgetError (BudgetReservation × Budget) :=
  match b.reservations.get? q.runId with
  | some existing => do
    ensure ((existing.modelProfile.profileId, existing.modelProfile.revision,
        existing.estimatedInputTokens, existing.estimatedOutputTokens) =
        (q.profileId, q.profileRevision, q.estimatedInputTokens, q.estimatedOutputTokens))
      (.budgetRequestConflict "The run already has a different budget request.")
    return (existing, b)
  | none => do
    let (profile, policy) ← profileAndPolicy catalog q.profileId q.profileRevision
    ensure (¬(q.estimatedInputTokens > profile.maxInputTokens ∨
        q.estimatedOutputTokens > profile.maxOutputTokens))
      (.budgetRequestConflict "Estimated tokens exceed the approved profile limit.")
    let c ← cost profile q.estimatedInputTokens q.estimatedOutputTokens
    ensure (¬c > policy.perRunLimitMicrousd)
      (.budgetExhausted "The per-run budget is exhausted.")
    let month := Month.ofTime now
    let (period, b) ← b.periodForUpdate policy now
    let (_, b) ← b.expirePeriodReservations held month period now
    -- `period.refresh_from_db()`
    let period ← fetch (b.periods.get? month) .doesNotExist
    ensure (¬period.reservedMicrousd + period.settledMicrousd + c > period.limitMicrousd)
      (.budgetExhausted "The monthly budget is exhausted.")
    let reservation : BudgetReservation :=
      { modelProfile := profile
        routingPolicy := policy
        period := month
        estimatedInputTokens := q.estimatedInputTokens
        estimatedOutputTokens := q.estimatedOutputTokens
        reservedCostMicrousd := c
        settledInputTokens := none
        settledOutputTokens := none
        settledCostMicrousd := none
        status := .reserved
        expiresAt := q.expiresAt.getD (now + minutes 15) }
    let reservations ← fetch (b.reservations.insert? q.runId reservation) .integrityError
    let period := { period with reservedMicrousd := period.reservedMicrousd + c }
    let b := { b with reservations, periods := b.periods.set month period }
    let b ← b.createRecord (recordOf q.runId reservation .reserved q.estimatedInputTokens
      q.estimatedOutputTokens c)
    return (reservation, b)

/-- A reserved row as settled with the given usage and cost. -/
def settledRow (r : BudgetReservation) (inputTokens outputTokens c : ℤ) : BudgetReservation :=
  { r with
    status := .settled
    settledInputTokens := some inputTokens
    settledOutputTokens := some outputTokens
    settledCostMicrousd := some c }

/-- Move the cost `c` of a reserved row to the settled total and write the record: the last lines
of `settle_budget` and of `charge_reserved_budget`. -/
def settleRow (runId : Uuid) (r : BudgetReservation) (period : BudgetPeriod)
    (inputTokens outputTokens c : ℤ) (b : Budget) :
    Except BudgetError (BudgetReservation × Budget) := do
  let period :=
    { period with
      reservedMicrousd := period.reservedMicrousd - r.reservedCostMicrousd
      settledMicrousd := period.settledMicrousd + c }
  let r' := settledRow r inputTokens outputTokens c
  let b ← (b.saveRows r.period period runId r').createRecord
    (recordOf runId r' .settled inputTokens outputTokens c)
  return (r', b)

/-- `settle_budget`: replace the reserved cost by the cost of the actual usage. -/
def settleBudget (runId : Uuid) (inputTokens outputTokens : ℤ) (b : Budget) :
    Except BudgetError (BudgetReservation × Budget) := do
  let r ← fetch (b.reservations.get? runId)
    (.budgetRequestConflict "The run has no budget reservation.")
  match r.status with
  | .released => .error (.budgetRequestConflict "The run budget reservation has expired.")
  | .settled => do
    ensure (r.settledInputTokens = some inputTokens ∧ r.settledOutputTokens = some outputTokens)
      (.budgetRequestConflict "The run already has different settled usage.")
    return (r, b)
  | .reserved => do
    let actual ← cost r.modelProfile inputTokens outputTokens
    ensure (¬(inputTokens > r.modelProfile.maxInputTokens ∨
        outputTokens > r.modelProfile.maxOutputTokens))
      (.budgetRequestConflict "Settled tokens exceed the approved profile limit.")
    ensure (¬actual > r.routingPolicy.perRunLimitMicrousd)
      (.budgetExhausted "The per-run budget is exhausted.")
    let period ← fetch (b.periods.get? r.period) .doesNotExist
    ensure (¬period.settledMicrousd + period.reservedMicrousd +
        (actual - r.reservedCostMicrousd) > period.limitMicrousd)
      (.budgetExhausted "The monthly budget is exhausted.")
    b.settleRow runId r period inputTokens outputTokens actual

/-- `release_budget`: give an unspent reservation back; nothing to do unless it is reserved. -/
def releaseBudget (runId : Uuid) (b : Budget) :
    Except BudgetError (Option BudgetReservation × Budget) :=
  match b.reservations.get? runId with
  | none => .ok (none, b)
  | some r =>
    if r.status = .reserved then do
      let period ← fetch (b.periods.get? r.period) .doesNotExist
      let period :=
        { period with reservedMicrousd := period.reservedMicrousd - r.reservedCostMicrousd }
      let r' := { r with status := .released }
      let b ← (b.saveRows r.period period runId r').createRecord
        (recordOf runId r' .released 0 0 r.reservedCostMicrousd)
      return (some r', b)
    else .ok (some r, b)

/-- `charge_reserved_budget`: settle a reservation at its full reserved cost. -/
def chargeReservedBudget (runId : Uuid) (b : Budget) :
    Except BudgetError (Option BudgetReservation × Budget) :=
  match b.reservations.get? runId with
  | none => .ok (none, b)
  | some r =>
    if r.status = .reserved then do
      let period ← fetch (b.periods.get? r.period) .doesNotExist
      let (r', b) ← b.settleRow runId r period r.estimatedInputTokens r.estimatedOutputTokens
        r.reservedCostMicrousd
      return (some r', b)
    else .ok (some r, b)

/-! ### Runs of the budget -/

/-- A call of one of the five operations, with everything it reads from outside the budget: the
clock, the catalog and the runs that hold their reservation. -/
inductive Call
  | reserve (catalog : Catalog) (held : Uuid → Bool) (now : Time) (q : ReserveRequest)
  | settle (runId : Uuid) (inputTokens outputTokens : ℤ)
  | release (runId : Uuid)
  | charge (runId : Uuid)
  | expire (held : Uuid → Bool) (now : Time)

/-- What a call returns: a reservation, if there is one, or the number of expired reservations. -/
inductive Reply
  | reservation (r : Option BudgetReservation)
  | count (n : ℕ)

/-- The transaction of a call. -/
def exec (b : Budget) : Call → Except BudgetError (Reply × Budget)
  | .reserve catalog held now q =>
    (b.reserveBudget catalog held now q).map fun r => (.reservation (some r.1), r.2)
  | .settle runId inputTokens outputTokens =>
    (b.settleBudget runId inputTokens outputTokens).map fun r => (.reservation (some r.1), r.2)
  | .release runId => (b.releaseBudget runId).map fun r => (.reservation r.1, r.2)
  | .charge runId => (b.chargeReservedBudget runId).map fun r => (.reservation r.1, r.2)
  | .expire held now => (b.expireReservations held now).map fun n => (.count n.1, n.2)

/-- The budget after a call. -/
def step (b : Budget) (c : Call) : Budget := commit b (b.exec c)

end Budget

end CivicLoop
