import CivicLoop.Foundation.Transition
import CivicLoop.Gateway.Ledger

/-!
# The ceiling of the ledger

What the ledger is for is said about the reservations that were accepted, without its tables. The
reservations of a run fall into periods: the first one opens a period that lasts for the retention, and
the first one after it opens the next. A period has the binding of its first reservation, never spends
more than the ceiling, and is over for good once the clock reaches the latest expiry of its assertions.

Time is counted in whole seconds, as the ledger reads it.

## Main definitions

* `Accepted` : a reservation that was accepted.
* `Period`, `periodOf` : the period of a run, read off the accepted reservations.
* `Admits` : the conditions under which a period takes one more.
* `LedgerCeiling` : the guarantees.
* `CeilingByClock` : the ceiling, for a period that is counted by the clock and not in whole seconds.

## Main results

* `ceiling_of_run` : the guarantees hold of every run from an empty ledger.
* `not_ceilingByClock` : a period that opens late in a second ends too early by the clock.
-/

namespace CivicLoop.Gateway

/-! ### Periods -/

/-- A reservation that was accepted, and when. -/
structure Accepted where
  assertion : BudgetAssertion
  requested : ℤ
  time : Time
deriving DecidableEq

namespace Accepted

def runId (e : Accepted) : String := e.assertion.runId

def ceiling (e : Accepted) : ℤ := e.assertion.tokenCeiling

/-- The whole seconds of the clock. -/
def second (e : Accepted) : ℤ := e.time.posix

end Accepted

/-- A period of a run: its first reservation, the tokens spent in it, and the latest expiry. -/
structure Period where
  first : Accepted
  spent : ℤ
  expiresAt : ℤ

namespace Period

/-- The period that a reservation opens. -/
def start (e : Accepted) : Period := ⟨e, e.requested, e.assertion.expiresAt⟩

/-- The period with one more reservation. -/
def add (p : Period) (e : Accepted) : Period :=
  ⟨p.first, p.spent + e.requested, max p.expiresAt e.assertion.expiresAt⟩

/-- The row of the period. -/
def row (p : Period) (retention : ℤ) : RunRow :=
  ⟨p.first.assertion.modelAlias, p.first.ceiling, p.spent, p.expiresAt, p.first.second + retention⟩

/-- The period takes the reservation. -/
structure Takes (p : Period) (e : Accepted) : Prop where
  modelAlias : e.assertion.modelAlias = p.first.assertion.modelAlias
  ceiling : e.ceiling = p.first.ceiling
  alive : e.second < p.expiresAt
  within : p.spent + e.requested ≤ p.first.ceiling

end Period

section Periods

variable (retention : ℤ)

/-- The period, if it still lasts at the time `second`. -/
def current (o : Option Period) (second : ℤ) : Option Period :=
  o.filter fun p => second < p.first.second + retention

/-- The period after a reservation: the same one, or a new one. -/
def extend (o : Option Period) (e : Accepted) : Period :=
  match current retention o e.second with
  | some p => p.add e
  | none => .start e

/-- The last period of a run. -/
def periodOf (runId : String) (l : List Accepted) : Option Period :=
  l.foldl (fun o e => if e.runId = runId then some (extend retention o e) else o) none

/-- The reservation opens a period of its run; the first one of a run does. -/
def Opens (l : List Accepted) (e : Accepted) : Prop :=
  current retention (periodOf retention e.runId l) e.second = none

/-- The conditions under which a reservation may follow `l`. -/
def Admits (l : List Accepted) (e : Accepted) : Prop :=
  match current retention (periodOf retention e.runId l) e.second with
  | some p => p.Takes e
  | none => e.requested ≤ e.ceiling

/-- Every reservation was admitted. -/
def AllAdmitted (l : List Accepted) : Prop := ∀ l' e, l' ++ [e] <+: l → Admits retention l' e

variable {retention}

theorem periodOf_concat (runId : String) (l : List Accepted) (e : Accepted) :
    periodOf retention runId (l ++ [e]) =
      if e.runId = runId then some (extend retention (periodOf retention runId l) e)
      else periodOf retention runId l := by
  rw [periodOf, List.foldl_append]
  rfl

theorem current_eq_some {o : Option Period} {second : ℤ} {p : Period} :
    current retention o second = some p ↔ o = some p ∧ second < p.first.second + retention := by
  rw [current, Option.filter_eq_some_iff, decide_eq_true_iff]

theorem current_eq_none {o : Option Period} {second : ℤ} :
    current retention o second = none ↔ ∀ p, o = some p → p.first.second + retention ≤ second := by
  rw [current, Option.filter_eq_none_iff]
  simp only [decide_eq_true_iff, not_lt]

theorem AllAdmitted.concat {l : List Accepted} {e : Accepted} (h : AllAdmitted retention l)
    (he : Admits retention l e) : AllAdmitted retention (l ++ [e]) := by
  intro l' e' hbefore
  rcases List.prefix_concat_iff.1 hbefore with hall | hbefore
  · obtain ⟨rfl, hsame⟩ := List.append_inj' hall rfl
    obtain rfl := List.singleton_inj.1 hsame
    exact he
  · exact h l' e' hbefore

/-- **No period spends more than its ceiling.** -/
theorem AllAdmitted.within {l : List Accepted} (h : AllAdmitted retention l) {runId : String}
    {p : Period} (hp : periodOf retention runId l = some p) : p.spent ≤ p.first.ceiling := by
  induction l using List.reverseRecOn generalizing p with
  | nil => cases hp
  | append_singleton l e ih =>
    have hl : AllAdmitted retention l := fun l' e' hbefore =>
      h l' e' (hbefore.trans (List.prefix_append l [e]))
    rw [periodOf_concat] at hp
    split_ifs at hp with hrun
    · have he := h l e (List.prefix_refl _)
      obtain rfl := Option.some.inj hp
      rw [Admits, hrun] at he
      unfold extend
      split at he
      · exact he.within
      · exact he
    · exact ih hl hp

/-- The sum of the tokens of some reservations. -/
def requestedSum (l : List Accepted) : ℤ := (l.map Accepted.requested).sum

/-- The period of the reservations that follow while it lasts. -/
theorem foldl_of_lasting {runId : String} (l : List Accepted) (p : Period)
    (hlasting : ∀ e ∈ l, e.runId = runId → e.second < p.first.second + retention) :
    ∃ p', l.foldl (fun o e => if e.runId = runId then some (extend retention o e) else o) (some p) =
        some p' ∧ p'.first = p.first ∧
      p'.spent = p.spent + requestedSum (l.filter (·.runId = runId)) ∧
      (p'.expiresAt = p.expiresAt ∨ ∃ e ∈ l, e.runId = runId ∧ p'.expiresAt = e.assertion.expiresAt) := by
  induction l generalizing p with
  | nil => exact ⟨p, rfl, rfl, by simp [requestedSum], .inl rfl⟩
  | cons e l ih =>
    have hrest := fun e' he' => hlasting e' (List.mem_cons_of_mem e he')
    rw [List.foldl_cons]
    by_cases hrun : e.runId = runId
    · have hcurrent : current retention (some p) e.second = some p :=
        current_eq_some.2 ⟨rfl, hlasting e List.mem_cons_self hrun⟩
      have hextend : extend retention (some p) e = p.add e := by rw [extend, hcurrent]
      rw [if_pos hrun, hextend]
      obtain ⟨p', hp', hfirst, hspent, hexpires⟩ := ih (p.add e) hrest
      refine ⟨p', hp', hfirst, ?_, ?_⟩
      · rw [hspent, List.filter_cons_of_pos (by simpa using hrun)]
        simp only [requestedSum, List.map_cons, List.sum_cons, Period.add]
        exact Int.add_assoc ..
      · rcases hexpires with hexpires | ⟨e', he', hrun', hexpires⟩
        · rw [hexpires]
          rcases max_choice p.expiresAt e.assertion.expiresAt with hmax | hmax
          · exact .inl hmax
          · exact .inr ⟨e, List.mem_cons_self, hrun, hmax⟩
        · exact .inr ⟨e', List.mem_cons_of_mem e he', hrun', hexpires⟩
    · rw [if_neg hrun]
      obtain ⟨p', hp', hfirst, hspent, hexpires⟩ := ih p hrest
      refine ⟨p', hp', hfirst, ?_, ?_⟩
      · rw [hspent, List.filter_cons_of_neg (by simpa using hrun)]
      · refine hexpires.imp_right ?_
        rintro ⟨e', he', hrun', hexpires⟩
        exact ⟨e', List.mem_cons_of_mem e he', hrun', hexpires⟩

/-- The period that `f` opens, as long as it lasts. -/
theorem periodOf_of_opens {l₁ l₂ : List Accepted} {f : Accepted} (hopens : Opens retention l₁ f)
    (hlasting : ∀ e ∈ l₂, e.runId = f.runId → e.second < f.second + retention) :
    ∃ p, periodOf retention f.runId (l₁ ++ f :: l₂) = some p ∧ p.first = f ∧
      p.spent = requestedSum ((f :: l₂).filter (·.runId = f.runId)) ∧
      ∃ e ∈ f :: l₂, e.runId = f.runId ∧ p.expiresAt = e.assertion.expiresAt := by
  have hstart : extend retention (periodOf retention f.runId l₁) f = .start f := by
    rw [extend, hopens]
  obtain ⟨p, hp, hfirst, hspent, hexpires⟩ :=
    @foldl_of_lasting _ f.runId l₂ (.start f) hlasting
  refine ⟨p, ?_, hfirst, ?_, ?_⟩
  · rw [periodOf, List.foldl_append, List.foldl_cons, if_pos rfl]
    change l₂.foldl _ (some (extend retention (periodOf retention f.runId l₁) f)) = some p
    rw [hstart]
    exact hp
  · rw [hspent, List.filter_cons_of_pos (by simp)]
    simp only [requestedSum, List.map_cons, List.sum_cons, Period.start]
  · rcases hexpires with hexpires | ⟨e, he, hrun, hexpires⟩
    · exact ⟨f, List.mem_cons_self, rfl, hexpires⟩
    · exact ⟨e, List.mem_cons_of_mem f he, hrun, hexpires⟩

/-- The reservations of a time-ordered list before a point in time are at its beginning. -/
theorem filter_of_sorted {l : List Accepted} (h : l.Pairwise fun e e' => e.second ≤ e'.second)
    (bound : ℤ) (q : Accepted → Bool) :
    l.filter (fun e => q e && decide (e.second < bound)) =
      (l.takeWhile fun e => decide (e.second < bound)).filter q := by
  induction l with
  | nil => rfl
  | cons e l ih =>
    rw [List.pairwise_cons] at h
    by_cases he : e.second < bound
    · rw [List.takeWhile_cons_of_pos (by simpa using he), List.filter_cons, List.filter_cons, ih h.2]
      simp [he]
    · rw [List.takeWhile_cons_of_neg (by simpa using he), List.filter_nil, List.filter_eq_nil_iff]
      intro e' he' hlt
      simp only [Bool.and_eq_true, decide_eq_true_eq] at hlt
      rcases List.mem_cons.1 he' with rfl | he'
      · exact he hlt.2
      · exact he ((h.1 e' he').trans_lt hlt.2)

/-- **The period of a reservation that opens one**: what is accepted while it lasts stays under the
ceiling, has its binding, and comes before the latest expiry. -/
theorem AllAdmitted.period {l₁ l₂ : List Accepted} {f : Accepted}
    (h : AllAdmitted retention (l₁ ++ f :: l₂))
    (hsorted : (l₁ ++ f :: l₂).Pairwise fun e e' => e.second ≤ e'.second)
    (hopens : Opens retention l₁ f) (hretention : 0 < retention) :
    requestedSum ((f :: l₂).filter fun e => e.runId = f.runId && e.second < f.second + retention) ≤
        f.ceiling ∧
      ∀ m e m', l₂ = m ++ e :: m' → e.runId = f.runId → e.second < f.second + retention →
        e.assertion.modelAlias = f.assertion.modelAlias ∧ e.ceiling = f.ceiling ∧
          ∃ e' ∈ f :: m, e'.runId = f.runId ∧ e.second < e'.assertion.expiresAt := by
  have htail : (f :: l₂).Pairwise fun e e' => e.second ≤ e'.second :=
    (List.pairwise_append.1 hsorted).2.1
  constructor
  · have htake : (f :: l₂).takeWhile (fun e => decide (e.second < f.second + retention)) =
        f :: l₂.takeWhile fun e => decide (e.second < f.second + retention) :=
      List.takeWhile_cons_of_pos (by simpa using hretention)
    have hlasting : ∀ e ∈ l₂.takeWhile fun e => decide (e.second < f.second + retention),
        e.runId = f.runId → e.second < f.second + retention :=
      fun e he _ => by simpa using List.mem_takeWhile_imp he
    obtain ⟨p, hp, rfl, hspent, -⟩ := periodOf_of_opens hopens hlasting
    rw [filter_of_sorted htail, htake, ← hspent]
    have hbefore : l₁ ++ p.first :: l₂.takeWhile (fun e => decide (e.second < p.first.second + retention))
        <+: l₁ ++ p.first :: l₂ :=
      List.prefix_append_right_inj l₁ |>.2 (List.cons_prefix_cons.2 ⟨rfl, List.takeWhile_prefix _⟩)
    have hall : AllAdmitted retention (l₁ ++ p.first :: l₂.takeWhile fun e =>
        decide (e.second < p.first.second + retention)) :=
      fun l' e hl' => h l' e (hl'.trans hbefore)
    exact hall.within hp
  · rintro m e m' rfl hrun hlasts
    have hlasting : ∀ e' ∈ m, e'.runId = f.runId → e'.second < f.second + retention := by
      intro e' he' _
      have hm := List.pairwise_append.1 (List.pairwise_cons.1 htail).2
      exact (hm.2.2 e' he' e List.mem_cons_self).trans_lt hlasts
    obtain ⟨p, hp, rfl, -, e', he', hrun', hexpires⟩ := periodOf_of_opens hopens hlasting
    have hadmits := h (l₁ ++ p.first :: m) e ⟨m', by simp⟩
    rw [Admits, hrun, hp, current_eq_some.2 ⟨rfl, hlasts⟩] at hadmits
    exact ⟨hadmits.modelAlias, hadmits.ceiling, e', he', hrun', hexpires ▸ hadmits.alive⟩

end Periods

/-! ### Runs -/

/-- A call: the time that passes before it, the alias that is expected, and the request. -/
structure ReserveCall where
  wait : ℕ
  modelAlias : String
  request : GatewayRequest

/-- The ledger and the clock. -/
structure LedgerState where
  ledger : Ledger
  now : Time

section Runs

variable (P : Primitives) (key : List UInt8) (cfg : LedgerConfig)

/-- The transaction of a call. -/
def performReserve (s : LedgerState) (c : ReserveCall) :
    Except String ((BudgetAssertion × ℤ) × Ledger) :=
  prepareRequest P ⟨cfg, key, c.modelAlias⟩ (s.now + c.wait) c.request s.ledger

/-- One call. -/
def reserveStep (s : LedgerState) (c : ReserveCall) : LedgerState :=
  ⟨commit s.ledger (performReserve P key cfg s c), s.now + c.wait⟩

/-- The reservation of a call, if it is accepted. -/
def accepted (s : LedgerState) (c : ReserveCall) : List Accepted :=
  match performReserve P key cfg s c with
  | .ok (checked, _) => [⟨checked.1, checked.2, s.now + c.wait⟩]
  | .error _ => []

/-- The reservations that a run has accepted. -/
def acceptedOf (now : Time) (cs : List ReserveCall) : List Accepted :=
  Transition.outputs (reserveStep P key cfg) (accepted P key cfg) ⟨.empty, now⟩ cs

/-- What holds of every run from an empty ledger. -/
structure LedgerCeiling (now : Time) : Prop where
  /-- In the period that a reservation opens, the first one of its run among them, the tokens stay
  under its ceiling, its alias and its ceiling do not change, and nothing is accepted once the time
  has reached the latest expiry. -/
  period : ∀ cs l₁ f l₂, acceptedOf P key cfg now cs = l₁ ++ f :: l₂ →
    Opens cfg.runRetentionSeconds l₁ f →
      requestedSum ((f :: l₂).filter fun e =>
        e.runId = f.runId && e.second < f.second + cfg.runRetentionSeconds) ≤ f.ceiling ∧
      ∀ m e m', l₂ = m ++ e :: m' → e.runId = f.runId →
        e.second < f.second + cfg.runRetentionSeconds →
          e.assertion.modelAlias = f.assertion.modelAlias ∧ e.ceiling = f.ceiling ∧
            ∃ e' ∈ f :: m, e'.runId = f.runId ∧ e.second < e'.assertion.expiresAt
  /-- A row is that of the last period of its run. -/
  row : ∀ cs runId run,
    (Transition.run (reserveStep P key cfg) ⟨.empty, now⟩ cs).ledger.runs.get? runId = some run →
      ∃ p, periodOf cfg.runRetentionSeconds runId (acceptedOf P key cfg now cs) = some p ∧
        run = p.row cfg.runRetentionSeconds
  records : ∀ cs,
    (Transition.run (reserveStep P key cfg) ⟨.empty, now⟩ cs).ledger.nonces.count ≤
        cfg.maximumRecords ∧
      (Transition.run (reserveStep P key cfg) ⟨.empty, now⟩ cs).ledger.runs.count ≤ cfg.maximumRecords
  /-- A call that raises leaves both tables as they were. -/
  raises : ∀ cs c e,
    performReserve P key cfg (Transition.run (reserveStep P key cfg) ⟨.empty, now⟩ cs) c = .error e →
      (Transition.run (reserveStep P key cfg) ⟨.empty, now⟩ (cs ++ [c])).ledger =
        (Transition.run (reserveStep P key cfg) ⟨.empty, now⟩ cs).ledger

/-- The ledger agrees with the reservations that were accepted. -/
structure LedgerInv (s : LedgerState) (l : List Accepted) : Prop where
  row : ∀ runId run, s.ledger.runs.get? runId = some run →
    ∃ p, periodOf cfg.runRetentionSeconds runId l = some p ∧ run = p.row cfg.runRetentionSeconds
  pruned : ∀ runId p, s.ledger.runs.get? runId = none →
    periodOf cfg.runRetentionSeconds runId l = some p →
      p.first.second + cfg.runRetentionSeconds ≤ s.now.posix
  admitted : AllAdmitted cfg.runRetentionSeconds l
  sorted : l.Pairwise fun e e' => e.second ≤ e'.second
  past : ∀ e ∈ l, e.second ≤ s.now.posix
  nonces : s.ledger.nonces.count ≤ cfg.maximumRecords
  runs : s.ledger.runs.count ≤ cfg.maximumRecords

variable {P key cfg} {s : LedgerState} {l : List Accepted}

theorem posix_mono {t t' : Time} (h : t ≤ t') : t.posix ≤ t'.posix := by
  unfold Time.posix
  exact Int.tdiv_le_tdiv (by decide) h

/-- Time that passes changes nothing. -/
theorem LedgerInv.wait (h : LedgerInv cfg s l) {now : Time} (hnow : s.now ≤ now) :
    LedgerInv cfg ⟨s.ledger, now⟩ l :=
  ⟨h.row, fun runId p hnone hp => (h.pruned runId p hnone hp).trans (posix_mono hnow), h.admitted,
    h.sorted, fun e he => (h.past e he).trans (posix_mono hnow), h.nonces, h.runs⟩

/-- The live row of a run is that of its period, as long as the period lasts. -/
theorem LedgerInv.liveRun (h : LedgerInv cfg s l) (runId : String) :
    (s.ledger.liveRuns s.now.posix).get? runId =
      (current cfg.runRetentionSeconds (periodOf cfg.runRetentionSeconds runId l) s.now.posix).map
        (Period.row · cfg.runRetentionSeconds) := by
  refine Option.ext fun run => ?_
  rw [Option.map_eq_some_iff]
  constructor
  · intro hlive
    obtain ⟨hrun, hkeep⟩ := Table.get?_of_deleteWhere hlive
    obtain ⟨p, hp, rfl⟩ := h.row runId run hrun
    exact ⟨p, current_eq_some.2 ⟨hp, not_le.1 (of_decide_eq_false hkeep)⟩, rfl⟩
  · rintro ⟨p, hp, rfl⟩
    obtain ⟨hp, hlasts⟩ := current_eq_some.1 hp
    cases hrun : s.ledger.runs.get? runId with
    | none => exact absurd hlasts (not_lt.2 (h.pruned runId p hrun hp))
    | some run =>
      obtain ⟨p', hp', rfl⟩ := h.row runId run hrun
      rw [hp] at hp'
      obtain rfl := Option.some.inj hp'
      exact Table.get?_deleteWhere_of_keep hrun (decide_eq_false (not_le.2 hlasts))

/-- A reservation charges the row of the period that it extends. -/
theorem LedgerInv.charge (h : LedgerInv cfg s l) (a : BudgetAssertion) (requested : ℤ) :
    (rowOf cfg s.now.posix a s.ledger).charge requested a.expiresAt =
      (extend cfg.runRetentionSeconds (periodOf cfg.runRetentionSeconds a.runId l)
        ⟨a, requested, s.now⟩).row cfg.runRetentionSeconds := by
  unfold rowOf extend
  rw [h.liveRun, show (Accepted.mk a requested s.now).second = s.now.posix from rfl]
  cases current cfg.runRetentionSeconds (periodOf cfg.runRetentionSeconds a.runId l) s.now.posix with
  | none => simp [freshRun, RunRow.charge, Period.row, Period.start, Accepted.ceiling, Accepted.second]
  | some p => rfl

/-- A reservation that was accepted is admitted. -/
theorem LedgerInv.admits (h : LedgerInv cfg s l) {a : BudgetAssertion} {requested : ℤ} {l' : Ledger}
    (hreserved : Reserved cfg s.now.posix a requested s.ledger l') :
    Admits cfg.runRetentionSeconds l ⟨a, requested, s.now⟩ := by
  have halive := hreserved.alive
  have hbinding := hreserved.binding
  have hwithin := hreserved.within
  unfold rowOf at hbinding hwithin
  rw [h.liveRun] at halive hbinding hwithin
  unfold Admits
  rw [show (Accepted.mk a requested s.now).second = s.now.posix from rfl,
    show (Accepted.mk a requested s.now).runId = a.runId from rfl]
  cases hcurrent : current cfg.runRetentionSeconds (periodOf cfg.runRetentionSeconds a.runId l)
      s.now.posix with
  | none =>
    rw [hcurrent] at hwithin
    simpa [freshRun, Accepted.ceiling] using hwithin
  | some p =>
    rw [hcurrent] at halive hbinding hwithin
    have hceiling : p.first.ceiling = a.tokenCeiling := hbinding.2
    exact ⟨hbinding.1.symm, hceiling.symm, halive _ rfl, hceiling ▸ hwithin⟩

/-- An accepted reservation keeps the invariant. -/
theorem LedgerInv.accept (h : LedgerInv cfg s l) {a : BudgetAssertion} {requested : ℤ} {l' : Ledger}
    (hreserved : Reserved cfg s.now.posix a requested s.ledger l') :
    LedgerInv cfg ⟨l', s.now⟩ (l ++ [⟨a, requested, s.now⟩]) := by
  have hperiod : ∀ runId, periodOf cfg.runRetentionSeconds runId (l ++ [⟨a, requested, s.now⟩]) =
      if a.runId = runId then some (extend cfg.runRetentionSeconds
        (periodOf cfg.runRetentionSeconds runId l) ⟨a, requested, s.now⟩)
      else periodOf cfg.runRetentionSeconds runId l := fun runId => periodOf_concat ..
  refine ⟨fun runId run hrun => ?_, fun runId p hnone hp => ?_, h.admitted.concat (h.admits hreserved),
    ?_, fun e he => ?_, ?_, hreserved.records h.runs⟩
  · rw [hreserved.runs] at hrun
    rw [hperiod]
    split_ifs at hrun with hid
    · subst hid
      obtain rfl := Option.some.inj hrun
      exact ⟨_, if_pos rfl, h.charge a requested⟩
    · rw [if_neg (Ne.symm hid)]
      exact h.row runId run (Table.get?_of_deleteWhere hrun).1
  · have hlive : (s.ledger.liveRuns s.now.posix).get? runId = none ∧ runId ≠ a.runId := by
      rw [show (LedgerState.mk l' s.now).ledger = l' from rfl, hreserved.runs] at hnone
      split_ifs at hnone with hid
      exact ⟨hnone, hid⟩
    rw [hperiod, if_neg (Ne.symm hlive.2)] at hp
    rw [h.liveRun, Option.map_eq_none_iff] at hlive
    exact current_eq_none.1 hlive.1 p hp
  · rw [List.pairwise_append]
    refine ⟨h.sorted, List.pairwise_singleton _ _, fun e he e' he' => ?_⟩
    obtain rfl := List.mem_singleton.1 he'
    exact h.past e he
  · rcases List.mem_append.1 he with he | he
    · exact h.past e he
    · obtain rfl := List.mem_singleton.1 he
      exact le_refl _
  · rw [show (LedgerState.mk l' s.now).ledger = l' from rfl, Table.count_of_insert? hreserved.nonces]
    exact hreserved.spare

theorem ledgerInv_init (now : Time) : LedgerInv cfg ⟨.empty, now⟩ [] where
  row _ _ h := nomatch h
  pruned _ _ _ h := nomatch h
  admitted l' e h := absurd (List.prefix_nil.1 h) (by simp)
  sorted := .nil
  past _ h := nomatch h
  nonces := Nat.zero_le _
  runs := Nat.zero_le _

/-- The reservations of a run whose first call is accepted. -/
theorem outputs_of_reserve {c : ReserveCall} {a : BudgetAssertion} {requested second : ℤ} {l' : Ledger}
    (h : performReserve P key cfg s c =
      (reserve cfg second a requested s.ledger).map fun r => ((a, requested), r.2))
    (hl' : reserve cfg second a requested s.ledger = .ok ((), l')) (cs : List ReserveCall) :
    Transition.outputs (reserveStep P key cfg) (accepted P key cfg) s (c :: cs) =
      ⟨a, requested, s.now + c.wait⟩ ::
        Transition.outputs (reserveStep P key cfg) (accepted P key cfg) ⟨l', s.now + c.wait⟩ cs := by
  have hok : performReserve P key cfg s c = .ok ((a, requested), l') := by
    rw [h, hl']
    rfl
  rw [Transition.outputs, accepted, reserveStep, hok]
  rfl

/-- **A call keeps the invariant.** -/
theorem LedgerInv.step (h : LedgerInv cfg s l) (c : ReserveCall) :
    LedgerInv cfg (reserveStep P key cfg s c) (l ++ accepted P key cfg s c) := by
  have hwait := h.wait (s.now.le_wait c.wait)
  unfold reserveStep accepted
  cases hresult : performReserve P key cfg s c with
  | error e =>
    rw [commit_error, List.append_nil]
    exact hwait
  | ok r =>
    obtain ⟨⟨a, requested⟩, l'⟩ := r
    simp only [performReserve, prepareRequest, bind_eq_ok, pure_eq_ok, Prod.mk.injEq] at hresult
    obtain ⟨checked, -, ⟨⟨⟩, l''⟩, hreserve, rfl, rfl⟩ := hresult
    exact hwait.accept (reserve_eq_ok hreserve)

end Runs

/-- The invariant, of every run. -/
theorem ledgerInv_of_run (P : Primitives) (key : List UInt8) (cfg : LedgerConfig) (now : Time)
    (cs : List ReserveCall) :
    LedgerInv cfg (Transition.run (reserveStep P key cfg) ⟨.empty, now⟩ cs)
      (acceptedOf P key cfg now cs) :=
  Transition.outputs_induction (P := LedgerInv cfg) (fun _ c _ h => h.step c) (ledgerInv_init now) cs

/-- **The ledger keeps its guarantees over every run.** -/
theorem ceiling_of_run (P : Primitives) (key : List UInt8) (cfg : LedgerConfig) (now : Time) :
    LedgerCeiling P key cfg now where
  period cs l₁ f l₂ hl hopens := by
    have hinv := ledgerInv_of_run P key cfg now cs
    rw [hl] at hinv
    exact hinv.admitted.period hinv.sorted hopens (lt_of_lt_of_le (by decide) cfg.retention_min)
  row cs := (ledgerInv_of_run P key cfg now cs).row
  records cs := ⟨(ledgerInv_of_run P key cfg now cs).nonces, (ledgerInv_of_run P key cfg now cs).runs⟩
  raises cs c e he := by
    rw [Transition.run_concat, reserveStep, he, commit_error]

/-! ### Fractions of a second -/

/-- The tokens of a run stay under the ceiling for the retention, counted by the clock. -/
def CeilingByClock (P : Primitives) (key : List UInt8) (cfg : LedgerConfig) (now : Time) : Prop :=
  ∀ cs l₁ f l₂, acceptedOf P key cfg now cs = l₁ ++ f :: l₂ → (∀ e ∈ l₁, e.runId ≠ f.runId) →
    requestedSum ((f :: l₂).filter fun e =>
      e.runId = f.runId && e.time < f.time + seconds cfg.runRetentionSeconds) ≤ f.ceiling

def sampleKey : List UInt8 := List.replicate 32 7

/-- An assertion for 100 tokens that expires at the second `expiresAt`. -/
def sampleText (runId nonce : String) (expiresAt : ℤ) : String :=
  match issueBudgetAssertion flatPrimitives sampleKey runId "alias" 100 (seconds expiresAt) nonce with
  | .ok text => text
  | .error _ => ""

theorem verify_sampleText {runId nonce : String} {expiresAt : ℤ} {now : Time}
    (hrun : isRunId runId = true) (hnonce : isNonce nonce = true) (halive : now.posix < expiresAt)
    (hlifetime : expiresAt ≤ now.posix + 300) :
    verifyBudgetAssertion flatPrimitives sampleKey (sampleText runId nonce expiresAt) "alias" now =
      .ok ⟨runId, "alias", 100, expiresAt, nonce⟩ := by
  obtain ⟨text, htext⟩ := issue_of_checks flatPrimitives (seconds expiresAt)
    (show 32 ≤ sampleKey.length by decide) hrun (show isRunId "alias" = true by decide +kernel) hnonce
    (show (1 : ℤ) ≤ 100 ∧ (100 : ℤ) ≤ 100000 by decide)
  have hsecond := Time.posix_seconds expiresAt
  rw [← hsecond] at halive hlifetime
  have h := verify_issue htext halive hlifetime
  rw [hsecond] at h
  rw [sampleText, htext]
  exact h

def sampleLedger : LedgerConfig := ⟨100, 86400, by decide, by decide⟩

/-- A call with such an assertion. -/
def sampleCall (wait : ℕ) (runId nonce : String) (expiresAt requested : ℤ) : ReserveCall :=
  ⟨wait, "alias", ⟨sampleText runId nonce expiresAt, .ok requested⟩⟩

theorem performReserve_sampleCall {l : Ledger} {now : Time} {wait : ℕ} {runId nonce : String}
    {expiresAt requested second : ℤ} (hsecond : (now + wait).posix = second)
    (hrun : isRunId runId = true) (hnonce : isNonce nonce = true) (halive : second < expiresAt)
    (hlifetime : expiresAt ≤ second + 300) :
    performReserve flatPrimitives sampleKey sampleLedger ⟨l, now⟩
        (sampleCall wait runId nonce expiresAt requested) =
      (reserve sampleLedger second ⟨runId, "alias", 100, expiresAt, nonce⟩ requested l).map
        fun r => ((⟨runId, "alias", 100, expiresAt, nonce⟩, requested), r.2) := by
  subst hsecond
  have hverify : verifyBudgetAssertion flatPrimitives sampleKey (sampleText runId nonce expiresAt)
      "alias" (now + wait) = .ok ⟨runId, "alias", 100, expiresAt, nonce⟩ :=
    verify_sampleText hrun hnonce halive hlifetime
  exact prepareRequest_of_verify rfl hverify l

/-- A reservation of 60 tokens at 0.9 s. -/
def firstCall : ReserveCall := sampleCall 900000 "run-1" "nonce-0123456789" 100 60

/-- Another one of the same run at 86400.5 s. -/
def lateCall : ReserveCall := sampleCall 86399600000 "run-1" "nonce-1123456789" 86500 60

def firstAssertion : BudgetAssertion := ⟨"run-1", "alias", 100, 100, "nonce-0123456789"⟩

def lateAssertion : BudgetAssertion := ⟨"run-1", "alias", 100, 86500, "nonce-1123456789"⟩

/-- Both are accepted. -/
theorem acceptedOf_lateCall :
    acceptedOf flatPrimitives sampleKey sampleLedger 0 [firstCall, lateCall] =
      [⟨firstAssertion, 60, 900000⟩, ⟨lateAssertion, 60, 86400500000⟩] := by
  have hboth : (reserve sampleLedger 0 firstAssertion 60 .empty >>= fun r =>
      reserve sampleLedger 86400 lateAssertion 60 r.2).isOk = true := by decide +kernel
  obtain ⟨⟨⟨⟩, l₂⟩, hl⟩ := exists_of_isOk hboth
  obtain ⟨⟨⟨⟩, l₁⟩, hl₁, hl₂⟩ := bind_eq_ok.1 hl
  have hfirst : performReserve flatPrimitives sampleKey sampleLedger ⟨.empty, 0⟩ firstCall =
      (reserve sampleLedger 0 firstAssertion 60 .empty).map fun r => ((firstAssertion, 60), r.2) :=
    performReserve_sampleCall (by decide +kernel) (by decide +kernel) (by decide +kernel)
      (by decide +kernel) (by decide +kernel)
  have hlate : performReserve flatPrimitives sampleKey sampleLedger ⟨l₁, 0 + firstCall.wait⟩ lateCall =
      (reserve sampleLedger 86400 lateAssertion 60 l₁).map fun r => ((lateAssertion, 60), r.2) :=
    performReserve_sampleCall (by decide +kernel) (by decide +kernel) (by decide +kernel)
      (by decide +kernel) (by decide +kernel)
  rw [acceptedOf, outputs_of_reserve hfirst hl₁, outputs_of_reserve hlate hl₂]
  rfl

/-- **By the clock the ceiling does not hold**: the second reservation comes 86399.6 s after the first,
but the ledger reads 86400 whole seconds. -/
theorem not_ceilingByClock : ¬ CeilingByClock flatPrimitives sampleKey sampleLedger 0 := fun h =>
  absurd (h _ [] _ _ acceptedOf_lateCall (fun _ he => nomatch he)) (by decide +kernel)

end CivicLoop.Gateway
