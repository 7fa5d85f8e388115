import CivicLoop.Hermes.Client
import CivicLoop.Transport.Authority
import CivicLoop.Transport.Forward
import Mathlib

/-!
# Reserved and billed cost

The transport reserves the worst-case cost of each inference, rounded up, before it forwards it; the worker
prices the tokens of the whole run at once, and rounds up once. When no inference uses more than was reserved
for it, the price of the run is within the reserved costs, and so within every limit that is checked after the
run.

## Main definitions

* `Usage`, `Bounded` : what an inference used, within what was reserved.
* `reservations` : what was reserved for a token.
* `SamePrices`, `Carries` : the prices of the transport are those of the profile, and the limits of a binding are
  the budgets of a request.

## Main results

* `roundUp_add_le` : a sum is rounded up once or twice.
* `Priced.of_forall₂` : the price of a run is within what was reserved.
* `billedCost_le_reservedCost` : and so within the limits of the binding, of the client and of the budget.
-/

namespace CivicLoop

open Transport

/-! ### Rounding -/

/-- An amount in millionths of a microdollar, in whole microdollars. -/
def roundUp (n : ℤ) : ℤ := (n + 999999) / 1000000

theorem roundUp_zero : roundUp 0 = 0 := rfl

theorem roundUp_mono {m n : ℤ} (h : m ≤ n) : roundUp m ≤ roundUp n := by
  unfold roundUp
  omega

theorem roundUp_nonneg {n : ℤ} (h : 0 ≤ n) : 0 ≤ roundUp n := by
  unfold roundUp
  omega

/-- A sum is at most the sum of its rounded parts. -/
theorem roundUp_add_le (m n : ℤ) : roundUp (m + n) ≤ roundUp m + roundUp n := by
  unfold roundUp
  omega

namespace Hermes

/-! ### Inferences -/

/-- The tokens that an inference used. -/
structure Usage where
  inputTokens : ℤ
  outputTokens : ℤ

/-- The tokens of two inferences. -/
def Usage.add (usage usage' : Usage) : Usage :=
  ⟨usage.inputTokens + usage'.inputTokens, usage.outputTokens + usage'.outputTokens⟩

/-- The tokens of several inferences. -/
def Usage.total (usages : List Usage) : Usage := usages.foldl Usage.add ⟨0, 0⟩

/-- The worst-case cost was reserved for an inference, and it used at most the tokens that were reserved. -/
structure Bounded (pricing : Pricing) (v : Ceilings) (usage : Usage) : Prop where
  cost : pricing.worstCaseCost v.input v.output = .ok v.cost
  input : 0 ≤ usage.inputTokens ∧ usage.inputTokens ≤ v.input
  output : 0 ≤ usage.outputTokens ∧ usage.outputTokens ≤ v.output

/-- The price of tokens. -/
def price (pricing : Pricing) (usage : Usage) : ℤ :=
  roundUp (usage.inputTokens * pricing.inputMicrousdPerMillion +
    usage.outputTokens * pricing.outputMicrousdPerMillion)

/-- The tokens of a run are within what was reserved, and so is their price. -/
structure Priced (pricing : Pricing) (usage : Usage) (reserved : Counters) : Prop where
  input : 0 ≤ usage.inputTokens ∧ usage.inputTokens ≤ reserved.inputTokens
  output : 0 ≤ usage.outputTokens ∧ usage.outputTokens ≤ reserved.outputTokens
  cost : 0 ≤ price pricing usage ∧ price pricing usage ≤ reserved.costMicrousd

/-- What is reserved for an inference is at least its price. -/
theorem Bounded.price_le {pricing : Pricing} {v : Ceilings} {usage : Usage} (h : Bounded pricing v usage) :
    price pricing usage ≤ v.cost := by
  have hcost := h.cost
  simp only [Pricing.worstCaseCost, bind_eq_ok, pure_eq_ok] at hcost
  obtain ⟨_, _, hcost⟩ := hcost
  have hin : usage.inputTokens * pricing.inputMicrousdPerMillion ≤ v.input * pricing.inputMicrousdPerMillion :=
    mul_le_mul_of_nonneg_right h.input.2 (by linarith [pricing.input_rate.1])
  have hout : usage.outputTokens * pricing.outputMicrousdPerMillion ≤
      v.output * pricing.outputMicrousdPerMillion :=
    mul_le_mul_of_nonneg_right h.output.2 (by linarith [pricing.output_rate.1])
  calc price pricing usage
      ≤ roundUp (v.input * pricing.inputMicrousdPerMillion + v.output * pricing.outputMicrousdPerMillion) :=
        roundUp_mono (add_le_add hin hout)
    _ = v.cost := hcost

theorem price_nonneg {pricing : Pricing} {usage : Usage} (hin : 0 ≤ usage.inputTokens)
    (hout : 0 ≤ usage.outputTokens) : 0 ≤ price pricing usage :=
  roundUp_nonneg (add_nonneg (mul_nonneg hin (by linarith [pricing.input_rate.1]))
    (mul_nonneg hout (by linarith [pricing.output_rate.1])))

theorem price_add_le (pricing : Pricing) (usage usage' : Usage) :
    price pricing (usage.add usage') ≤ price pricing usage + price pricing usage' := by
  refine le_trans (le_of_eq ?_) (roundUp_add_le _ _)
  rw [price, Usage.add]
  congr 1
  ring

theorem priced_zero (pricing : Pricing) : Priced pricing ⟨0, 0⟩ .zero := by
  have hprice : price pricing ⟨0, 0⟩ = 0 := by simp [price, roundUp_zero]
  exact ⟨⟨le_rfl, le_rfl⟩, ⟨le_rfl, le_rfl⟩, hprice.ge, hprice.le⟩

/-- One more inference, whose price is within what is reserved for it. -/
theorem Priced.add {pricing : Pricing} {usage usage' : Usage} {reserved : Counters} {v : Ceilings}
    (h : Priced pricing usage reserved) (hbounded : Bounded pricing v usage') :
    Priced pricing (usage.add usage') (reserved.add v) := by
  have hin : 0 ≤ usage.inputTokens + usage'.inputTokens := add_nonneg h.input.1 hbounded.input.1
  have hout : 0 ≤ usage.outputTokens + usage'.outputTokens := add_nonneg h.output.1 hbounded.output.1
  exact ⟨⟨hin, add_le_add h.input.2 hbounded.input.2⟩, ⟨hout, add_le_add h.output.2 hbounded.output.2⟩,
    price_nonneg hin hout, (price_add_le pricing usage usage').trans (add_le_add h.cost.2 hbounded.price_le)⟩

/-- Inference after inference, the price stays within what was reserved. -/
theorem Priced.foldl {pricing : Pricing} {vs : List Ceilings} {usages : List Usage}
    (h : List.Forall₂ (Bounded pricing) vs usages) {usage : Usage} {reserved : Counters}
    (hpriced : Priced pricing usage reserved) :
    Priced pricing (usages.foldl Usage.add usage) (vs.foldl Counters.add reserved) := by
  induction h generalizing usage reserved with
  | nil => exact hpriced
  | cons hbounded _ ih => exact ih (hpriced.add hbounded)

/-! ### The limits -/

section Limits

variable {D : Type} [DecidableEq D] (digest : String → D)

/-- What was reserved for the tokens with a digest, in order. -/
def reservations (d : D) (log : List Event) : List Ceilings := log.filterMap (reservedFor digest d)

end Limits

/-- The prices of the transport are those of the profile. -/
def SamePrices (pricing : Pricing) (profile : ModelProfile) : Prop :=
  profile.inputPriceMicrousdPerMillion.map Nat.cast = some pricing.inputMicrousdPerMillion ∧
    profile.outputPriceMicrousdPerMillion.map Nat.cast = some pricing.outputMicrousdPerMillion

/-- The limits of a binding are the budgets of a request. -/
def Carries (binding : ScopeBinding) (budgets : RunBudgets) : Prop :=
  binding.maxInputTokens = budgets.maxInputTokens ∧ binding.maxOutputTokens = budgets.maxOutputTokens ∧
    binding.maxCostMicrousd = budgets.maxCostMicrousd

/-- The price of the worker is that of the transport. -/
theorem cost_eq_price {pricing : Pricing} {profile : ModelProfile} (h : SamePrices pricing profile) {usage : Usage}
    (hin : 0 ≤ usage.inputTokens) (hout : 0 ≤ usage.outputTokens) :
    Budget.cost profile usage.inputTokens usage.outputTokens = .ok (price pricing usage) := by
  obtain ⟨inputPrice, hinput, hinput'⟩ := Option.map_eq_some_iff.1 h.1
  obtain ⟨outputPrice, houtput, houtput'⟩ := Option.map_eq_some_iff.1 h.2
  simp only [Budget.cost, bind_eq_ok, fetch_eq_ok, ensure_eq_ok, pure_eq_ok]
  refine ⟨inputPrice, hinput, outputPrice, houtput, (), by omega, ?_⟩
  rw [hinput', houtput', price, roundUp]

/-- A reserved row is settled for a usage within the limits, at a cost that is not above the reserved one. -/
theorem settleBudget_eq {b : Budget} {runId : Uuid} {reservation : BudgetReservation} {period : BudgetPeriod}
    {inputTokens outputTokens cost : ℤ} (hget : b.reservations.get? runId = some reservation)
    (hstatus : reservation.status = .reserved) (hperiod : b.periods.get? reservation.period = some period)
    (hlimit : period.reservedMicrousd + period.settledMicrousd ≤ period.limitMicrousd)
    (hcost : Budget.cost reservation.modelProfile inputTokens outputTokens = .ok cost)
    (hin : inputTokens ≤ reservation.modelProfile.maxInputTokens)
    (hout : outputTokens ≤ reservation.modelProfile.maxOutputTokens)
    (hrun : cost ≤ reservation.routingPolicy.perRunLimitMicrousd) (hreserved : cost ≤ reservation.reservedCostMicrousd) :
    b.settleBudget runId inputTokens outputTokens =
      b.settleRow runId reservation period inputTokens outputTokens cost := by
  rw [Budget.settleBudget, hget, fetch]
  simp only [ok_bind, hstatus, hcost, hperiod, fetch]
  rw [ensure_bind (by omega), ensure_bind (by omega), ensure_bind (by omega)]

/-- The last lines of a settlement raise only if the run has a record of a settlement. -/
theorem settleRow_eq_error {b : Budget} {runId : Uuid} {reservation : BudgetReservation} {period : BudgetPeriod}
    {inputTokens outputTokens cost : ℤ} {e : BudgetError}
    (h : b.settleRow runId reservation period inputTokens outputTokens cost = .error e) : e = .integrityError := by
  simp only [Budget.settleRow, Budget.createRecord, ensure] at h
  split_ifs at h
  · cases h
  · cases h
    rfl

/-- What follows for a run from the costs that were reserved for it: the usage is within the limits of the
binding, its price is within the reserved costs, the client accepts the usage, and the settlement of the
reservation goes through to its last lines. -/
structure WithinLimits (binding : ScopeBinding) (counters : Counters) (reservation : BudgetReservation)
    (budgets : RunBudgets) (usage : Usage) (cost : ℤ) : Prop where
  billed : Budget.cost reservation.modelProfile usage.inputTokens usage.outputTokens = .ok cost
  input : usage.inputTokens ≤ binding.maxInputTokens
  output : usage.outputTokens ≤ binding.maxOutputTokens
  reserved : cost ≤ counters.costMicrousd
  maximum : counters.costMicrousd ≤
    min (reservation.routingPolicy.perRunLimitMicrousd : ℤ) reservation.reservedCostMicrousd
  client : clientUsageOk budgets.message (usageMessage usage.inputTokens usage.outputTokens cost) = true
  settled : ∀ (b : Budget) (runId : Uuid) (period : BudgetPeriod),
    b.reservations.get? runId = some reservation → reservation.status = .reserved →
    b.periods.get? reservation.period = some period →
    period.reservedMicrousd + period.settledMicrousd ≤ period.limitMicrousd →
      b.settleBudget runId usage.inputTokens usage.outputTokens =
          b.settleRow runId reservation period usage.inputTokens usage.outputTokens cost ∧
        ∀ e, b.settleBudget runId usage.inputTokens usage.outputTokens = .error e → e = .integrityError

/-- **The reserved costs bound the billed cost.** -/
theorem billedCost_le_reservedCost {D : Type} [DecidableEq D] (digest : String → D) (c : Capacity) (now : Time)
    (actions : List Action) (token : String) (binding : ScopeBinding) (pricing : Pricing) (usages : List Usage)
    (reservation : BudgetReservation) (timeoutSeconds : ℤ) (budgets : RunBudgets)
    (hregistered : Event.registered token binding ∈ log digest c ⟨.empty, now⟩ actions)
    (husages : List.Forall₂ (Bounded pricing)
      (reservations digest (digest token) (log digest c ⟨.empty, now⟩ actions)) usages)
    (hprices : SamePrices pricing reservation.modelProfile)
    (hbudgets : clientBudgets reservation timeoutSeconds = .ok budgets) (hcarries : Carries binding budgets) :
    ∃ cost, WithinLimits binding (spent digest (digest token) (log digest c ⟨.empty, now⟩ actions)) reservation
      budgets (Usage.total usages) cost := by
  have hpriced : Priced pricing (Usage.total usages)
      (spent digest (digest token) (log digest c ⟨.empty, now⟩ actions)) := (priced_zero pricing).foldl husages
  obtain ⟨e, he, -, hwithin, -⟩ := (inv_of_run digest c now actions).bound token binding hregistered
  rw [(inv_of_run digest c now actions).counters _ e he] at hwithin
  obtain ⟨-, hin, hout, hmax⟩ := hwithin
  obtain ⟨hbin, hbout, hbcost⟩ := clientBudgets_eq_ok hbudgets
  obtain ⟨hcin, hcout, hccost⟩ := hcarries
  have hcost := cost_eq_price hprices hpriced.input.1 hpriced.output.1
  have hle := hpriced.cost.2.trans hmax
  refine ⟨price pricing (Usage.total usages), ?_⟩
  refine { billed := hcost
           input := hpriced.input.2.trans hin
           output := hpriced.output.2.trans hout
           reserved := hpriced.cost.2
           maximum := by rw [← hbcost, ← hccost]; exact hmax
           client := ?_
           settled := fun b runId period hget hstatus hperiod hlimit => ?_ }
  · exact (clientUsageOk_iff budgets _ _ _).2
      ⟨⟨hpriced.input.1, hcin ▸ hpriced.input.2.trans hin⟩, ⟨hpriced.output.1, hcout ▸ hpriced.output.2.trans hout⟩,
        hpriced.cost.1, hccost ▸ hle⟩
  · have hsettle := settleBudget_eq hget hstatus hperiod hlimit hcost
      (by rw [← hbin, ← hcin]; exact hpriced.input.2.trans hin)
      (by rw [← hbout, ← hcout]; exact hpriced.output.2.trans hout)
      (by rw [hccost, hbcost] at hle; exact hle.trans (min_le_left _ _))
      (by rw [hccost, hbcost] at hle; exact hle.trans (min_le_right _ _))
    exact ⟨hsettle, fun e he => settleRow_eq_error (hsettle ▸ he)⟩

/-! ### A sample run -/

def sampleToken : String := "scope_xxxxxxxxxxxxxxxxxxxxxxxxxxxxxxxxxxxxxxxxxxx"

/-- The limits of `sampleReservation`. -/
def sampleBinding : ScopeBinding where
  runId := "00000000-0000-0000-0000-000000000001"
  workflowId := 1
  revisionId := 1
  revisionDigest := String.ofList (List.replicate 64 'a')
  actorId := "maya"
  capability := "cap_xxxxxxxxxxxxxxxxxxxxxxxxxxxxxxxxxxxxxxxxxxx"
  modelAlias := "civicloop-default"
  expiresAt := seconds 60
  maxInferences := 5
  maxInputTokens := 1000
  maxOutputTokens := 1000
  maxCostMicrousd := 100

/-- Two inferences are reserved, of 100 and 200 bytes. -/
def sampleActions : List Action :=
  [.register 0 0 sampleToken sampleBinding, .reserve 0 .isTrue 1 sampleToken ⟨100, 10, 1⟩,
    .reserve 0 .isTrue 2 sampleToken ⟨200, 20, 1⟩]

def sampleReservation : BudgetReservation where
  modelProfile := ⟨"default", 1, .hermes, "model", .workflow, 1000, 1000, some 1000, some 2000⟩
  routingPolicy := ⟨"default", 1, .workflow, ("default", 1), 100, 1000⟩
  period := ⟨1970, 1⟩
  estimatedInputTokens := 1000
  estimatedOutputTokens := 1000
  reservedCostMicrousd := 100
  settledInputTokens := none
  settledOutputTokens := none
  settledCostMicrousd := none
  status := .reserved
  expiresAt := minutes 15

def samplePricing : Pricing := ⟨1000, 2000, by decide, by decide⟩

def sampleCapacity : Capacity := ⟨1, 100, false, Nat.zero_lt_one, by decide, by decide⟩

theorem sampleLog : log id sampleCapacity ⟨.empty, 0⟩ sampleActions =
    [.registered sampleToken sampleBinding, .authorized sampleToken sampleBinding,
      .reserved sampleToken ⟨100, 10, 1⟩, .authorized sampleToken sampleBinding,
      .reserved sampleToken ⟨200, 20, 1⟩] := by
  rfl

theorem billedCost_le_reservedCost_sample :
    ∃ cost, WithinLimits sampleBinding (spent id sampleToken (log id sampleCapacity ⟨.empty, 0⟩ sampleActions))
      sampleReservation ⟨1000, 1000, 100, 30⟩ (Usage.total [⟨80, 10⟩, ⟨150, 15⟩]) cost := by
  refine billedCost_le_reservedCost id sampleCapacity 0 sampleActions sampleToken sampleBinding samplePricing
    [⟨80, 10⟩, ⟨150, 15⟩] sampleReservation 30 ⟨1000, 1000, 100, 30⟩ ?_ ?_ ⟨rfl, rfl⟩ rfl ⟨rfl, rfl, rfl⟩
  · rw [sampleLog]
    exact List.mem_cons_self
  · rw [sampleLog]
    refine .cons ⟨rfl, by decide, by decide⟩ (.cons ⟨rfl, by decide, by decide⟩ .nil)

end Hermes

end CivicLoop
