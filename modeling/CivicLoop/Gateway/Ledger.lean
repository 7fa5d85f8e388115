import CivicLoop.Foundation.Table
import CivicLoop.Gateway.Assertion

/-!
# The budget ledger

Two tables that survive a restart of the gateway: the nonces of the assertions that have been spent,
and the runs with the tokens reserved for them. A reservation is one transaction. It deletes the rows
whose time is over, by the clock of the request, and an error rolls everything back, the deletions
included.

## Main definitions

* `LedgerConfig`, `RunRow`, `Ledger` : the configuration, a row, and the tables.
* `reserve` : a reservation.
* `prepareRequest` : a reservation for a signed assertion.

## Main results

* `reserve_eq_ok` : what a reservation that was accepted has checked and written.
* `exists_reserve` : when a reservation is accepted.
-/

namespace CivicLoop.Gateway

/-- What the ledger is constructed with. -/
structure LedgerConfig where
  maximumRecords : ℕ
  runRetentionSeconds : ℤ
  records_min : 100 ≤ maximumRecords
  retention_min : 86400 ≤ runRetentionSeconds

/-- A row of `runs`. -/
structure RunRow where
  modelAlias : String
  tokenCeiling : ℤ
  tokensReserved : ℤ
  expiresAt : ℤ
  retainUntil : ℤ
deriving DecidableEq

/-- The row after a reservation. -/
def RunRow.charge (run : RunRow) (requested expiresAt : ℤ) : RunRow :=
  { run with
    tokensReserved := run.tokensReserved + requested, expiresAt := max run.expiresAt expiresAt }

/-- The tables `nonces`, with the expiry, and `runs`. -/
structure Ledger where
  nonces : Table String ℤ
  runs : Table String RunRow

namespace Ledger

def empty : Ledger := ⟨.empty, .empty⟩

/-- `DELETE FROM nonces WHERE expires_at <= ?`. -/
def liveNonces (l : Ledger) (current : ℤ) : Table String ℤ := l.nonces.deleteWhere (· ≤ current)

/-- `DELETE FROM runs WHERE retain_until <= ?`. -/
def liveRuns (l : Ledger) (current : ℤ) : Table String RunRow :=
  l.runs.deleteWhere (·.retainUntil ≤ current)

end Ledger

/-- The row of a run at its first reservation. -/
def freshRun (cfg : LedgerConfig) (current : ℤ) (a : BudgetAssertion) : RunRow :=
  ⟨a.modelAlias, a.tokenCeiling, 0, a.expiresAt, current + cfg.runRetentionSeconds⟩

/-- The tokens used by the run, and the table with its row. -/
def openRun (cfg : LedgerConfig) (current : ℤ) (a : BudgetAssertion) (runs : Table String RunRow) :
    Except String (ℤ × Table String RunRow) :=
  match runs.get? a.runId with
  | none => do
    ensure (runs.count < cfg.maximumRecords) "budget ledger capacity is exhausted"
    return (0, runs.put a.runId (freshRun cfg current a))
  | some run => do
    ensure (current < run.expiresAt) "run ID is retired"
    ensure (run.modelAlias = a.modelAlias ∧ run.tokenCeiling = a.tokenCeiling)
      "run budget binding changed"
    return (run.tokensReserved, runs)

/-- `reserve`, at the whole seconds `current`. -/
def reserve (cfg : LedgerConfig) (current : ℤ) (a : BudgetAssertion) (requested : ℤ) (l : Ledger) :
    Except String (Unit × Ledger) := do
  let nonces := l.liveNonces current
  let runs := l.liveRuns current
  ensure (nonces.count < cfg.maximumRecords) "budget ledger capacity is exhausted"
  let nonces ← fetch (nonces.insert? a.nonce a.expiresAt) "budget assertion was replayed"
  let (used, runs) ← openRun cfg current a runs
  ensure (requested ≤ a.tokenCeiling - used) "run token budget exhausted"
  return ((), ⟨nonces, runs.modify a.runId (RunRow.charge · requested a.expiresAt)⟩)

/-- What a gateway is constructed with. -/
structure GatewayConfig where
  ledger : LedgerConfig
  assertionKey : List UInt8
  modelAlias : String

/-- A request to the gateway: the text of its assertion, and the `max_tokens` of its body, or the error
that its check has raised. -/
structure GatewayRequest where
  assertion : String
  maxTokens : Except String ℤ

/-- The assertion of a request that is verified at `now`, and the tokens it asks for. -/
def checkRequest (P : Primitives) (cfg : GatewayConfig) (now : Time) (q : GatewayRequest) :
    Except String (BudgetAssertion × ℤ) := do
  let requested ← q.maxTokens
  let a ← verifyBudgetAssertion P cfg.assertionKey q.assertion cfg.modelAlias now
  return (a, requested)

/-- `prepare_request`. -/
def prepareRequest (P : Primitives) (cfg : GatewayConfig) (now : Time) (q : GatewayRequest)
    (l : Ledger) : Except String ((BudgetAssertion × ℤ) × Ledger) := do
  let checked ← checkRequest P cfg now q
  let (_, l) ← reserve cfg.ledger now.posix checked.1 checked.2 l
  return (checked, l)

/-! ### Reservations -/

section Reserve

variable {cfg : LedgerConfig} {current : ℤ} {a : BudgetAssertion} {requested : ℤ} {l l' : Ledger}

/-- The row that a reservation charges. -/
def rowOf (cfg : LedgerConfig) (current : ℤ) (a : BudgetAssertion) (l : Ledger) : RunRow :=
  ((l.liveRuns current).get? a.runId).getD (freshRun cfg current a)

/-- What a reservation that was accepted has checked and written. -/
structure Reserved (cfg : LedgerConfig) (current : ℤ) (a : BudgetAssertion) (requested : ℤ)
    (l l' : Ledger) : Prop where
  spare : (l.liveNonces current).count < cfg.maximumRecords
  nonces : (l.liveNonces current).insert? a.nonce a.expiresAt = some l'.nonces
  alive : ∀ run, (l.liveRuns current).get? a.runId = some run → current < run.expiresAt
  binding : (rowOf cfg current a l).modelAlias = a.modelAlias ∧
    (rowOf cfg current a l).tokenCeiling = a.tokenCeiling
  within : (rowOf cfg current a l).tokensReserved + requested ≤ a.tokenCeiling
  runs : ∀ runId, l'.runs.get? runId =
    if runId = a.runId then some ((rowOf cfg current a l).charge requested a.expiresAt)
    else (l.liveRuns current).get? runId
  records : l.runs.count ≤ cfg.maximumRecords → l'.runs.count ≤ cfg.maximumRecords

/-- **A reservation that was accepted.** -/
theorem reserve_eq_ok (h : reserve cfg current a requested l = .ok ((), l')) :
    Reserved cfg current a requested l l' := by
  simp only [reserve, bind_eq_ok, ensure_eq_ok, fetch_eq_ok, pure_eq_ok, Prod.mk.injEq,
    true_and] at h
  obtain ⟨⟨⟩, hspare, nonces, hnonces, ⟨used, runs⟩, hopen, ⟨⟩, hwithin, rfl⟩ := h
  unfold openRun at hopen
  split at hopen
  · rename_i hnone
    simp only [bind_eq_ok, ensure_eq_ok, pure_eq_ok, Prod.mk.injEq] at hopen
    obtain ⟨⟨⟩, hcount, rfl, rfl⟩ := hopen
    have hrow : rowOf cfg current a l = freshRun cfg current a := by rw [rowOf, hnone, Option.getD_none]
    refine ⟨hspare, hnonces, fun run hrun => ?_, ?_, ?_, fun runId => ?_, fun _ => ?_⟩
    · rw [hnone] at hrun
      cases hrun
    · rw [hrow]
      exact ⟨rfl, rfl⟩
    · rw [hrow]
      simp only [freshRun]
      omega
    · rw [Table.get?_modify, Table.get?_put_self, Table.get?_put, hrow]
      split_ifs <;> rfl
    · rw [Table.count_modify, Table.count_of_insert? (Table.put_of_none hnone _)]
      exact hcount
  · rename_i run hsome
    simp only [bind_eq_ok, ensure_eq_ok, pure_eq_ok, Prod.mk.injEq] at hopen
    obtain ⟨⟨⟩, halive, ⟨⟩, hbinding, rfl, rfl⟩ := hopen
    have hrow : rowOf cfg current a l = run := by rw [rowOf, hsome, Option.getD_some]
    refine ⟨hspare, hnonces, fun run' hrun' => ?_, ?_, ?_, fun runId => ?_, fun hrecords => ?_⟩
    · rw [hsome] at hrun'
      rwa [← Option.some.inj hrun']
    · rwa [hrow]
    · rw [hrow]
      omega
    · rw [Table.get?_modify, hsome, hrow]
      rfl
    · rw [Table.count_modify]
      exact (Table.count_deleteWhere_le l.runs _).trans hrecords

/-- A row that a reservation finds, or opens, with the assertion's own binding. -/
theorem exists_reserve (hspare : (l.liveNonces current).count < cfg.maximumRecords)
    (hnonce : (l.liveNonces current).get? a.nonce = none)
    (hrecords : (l.liveRuns current).get? a.runId = none →
      (l.liveRuns current).count < cfg.maximumRecords)
    (halive : ∀ run, (l.liveRuns current).get? a.runId = some run → current < run.expiresAt)
    (hbinding : (rowOf cfg current a l).modelAlias = a.modelAlias ∧
      (rowOf cfg current a l).tokenCeiling = a.tokenCeiling)
    (hwithin : (rowOf cfg current a l).tokensReserved + requested ≤ a.tokenCeiling) :
    ∃ l', reserve cfg current a requested l = .ok ((), l') := by
  obtain ⟨nonces, hnonces⟩ := Table.insert?_isSome hnonce a.expiresAt
  have hopen : ∃ runs, openRun cfg current a (l.liveRuns current) =
      .ok ((rowOf cfg current a l).tokensReserved, runs) := by
    unfold openRun rowOf
    cases hrun : (l.liveRuns current).get? a.runId with
    | none => exact ⟨_, ensure_bind (hrecords hrun) _⟩
    | some run =>
      rw [rowOf, hrun, Option.getD_some] at hbinding
      exact ⟨_, (ensure_bind (halive run hrun) _).trans (ensure_bind hbinding _)⟩
  obtain ⟨runs, hopen⟩ := hopen
  refine ⟨⟨nonces, runs.modify a.runId (RunRow.charge · requested a.expiresAt)⟩, ?_⟩
  simp only [reserve, bind_eq_ok, ensure_eq_ok, fetch_eq_ok, pure_eq_ok]
  exact ⟨(), hspare, nonces, hnonces, _, hopen, (), by omega, rfl⟩

end Reserve

/-- The transaction of a request whose assertion is verified. -/
theorem prepareRequest_of_verify {P : Primitives} {cfg : GatewayConfig} {now : Time}
    {q : GatewayRequest} {a : BudgetAssertion} {requested : ℤ} (hmax : q.maxTokens = .ok requested)
    (h : verifyBudgetAssertion P cfg.assertionKey q.assertion cfg.modelAlias now = .ok a)
    (l : Ledger) : prepareRequest P cfg now q l =
      (reserve cfg.ledger now.posix a requested l).map fun r => ((a, requested), r.2) := by
  have hcheck : checkRequest P cfg now q = .ok (a, requested) := by
    rw [checkRequest, hmax, ok_bind, h, ok_bind]
    rfl
  rw [prepareRequest, hcheck, ok_bind]
  cases reserve cfg.ledger now.posix a requested l <;> rfl

end CivicLoop.Gateway
