import CivicLoop.Gateway.Ceiling

/-!
# Replay

Requests run side by side. Each reads the clock once, and its transaction runs later, with that reading.
So the transactions may run in another order than the readings, and a transaction that read a later
time deletes the nonces that are expired by its own clock. An assertion whose nonce was deleted is then
accepted again by a transaction that read an earlier time, before the expiry.

## Main definitions

* `GatewayState`, `GatewayAction`, `gatewayStep` : requests, and their two steps.
* `Overtaken` : the situation in which an assertion has lost its nonce too early.
* `SpentOnce` : no assertion has been accepted twice.

## Main results

* `spentOnce_of_run` : without that situation an assertion is spent once.
* `not_spentOnce` : with it, twice.
-/

namespace CivicLoop.Gateway

/-- A request that has read the clock, and whether its transaction has run. -/
structure Sampled where
  request : GatewayRequest
  now : Time
  done : Bool

/-- The gateway: its ledger, the clock, the requests, and the reservations it has accepted, in order;
the time of a reservation is the reading of its request. -/
structure GatewayState where
  ledger : Ledger
  now : Time
  requests : Table ℕ Sampled
  accepted : List Accepted

def GatewayState.init (now : Time) : GatewayState := ⟨.empty, now, .empty, []⟩

/-- A request reads the clock, or its transaction runs. -/
inductive GatewayAction
  | sample (wait : ℕ) (id : ℕ) (request : GatewayRequest)
  | transact (id : ℕ)

section Gateway

variable (P : Primitives) (cfg : GatewayConfig)

/-- The transaction of a request. -/
def transact (s : GatewayState) (id : ℕ) (r : Sampled) : GatewayState :=
  let requests := s.requests.set id { r with done := true }
  match prepareRequest P cfg r.now r.request s.ledger with
  | .ok (checked, ledger) =>
    { s with ledger, requests, accepted := s.accepted ++ [⟨checked.1, checked.2, r.now⟩] }
  | .error _ => { s with requests }

/-- One step. -/
def gatewayStep (s : GatewayState) : GatewayAction → GatewayState
  | .sample wait id request =>
    match s.requests.insert? id ⟨request, s.now + wait, false⟩ with
    | some requests => { s with now := s.now + wait, requests }
    | none => s
  | .transact id =>
    match s.requests.get? id with
    | some r => if r.done then s else transact P cfg s id r
    | none => s

/-- A later transaction has read a time from the expiry of an accepted assertion on. -/
def Pruned (l : List Accepted) (a : BudgetAssertion) : Prop :=
  ∃ l₁ e l₂, l = l₁ ++ e :: l₂ ∧ e.assertion = a ∧ ∃ e' ∈ l₂, a.expiresAt ≤ e'.second

/-- The transaction that is about to run has an assertion that was accepted before, and that is alive
by its own clock, but not by that of a transaction that ran in between. -/
def Overtaken (s : GatewayState) : GatewayAction → Prop
  | .sample .. => False
  | .transact id => ∃ r checked, s.requests.get? id = some r ∧
      checkRequest P cfg r.now r.request = .ok checked ∧ Pruned s.accepted checked.1

/-- No assertion has been accepted twice. -/
def SpentOnce (s : GatewayState) : Prop := (s.accepted.map Accepted.assertion).Nodup

variable {P cfg} {s : GatewayState}

/-- The nonce of an accepted assertion is there, unless it was deleted. -/
def NonceKept (s : GatewayState) : Prop :=
  ∀ e ∈ s.accepted, s.ledger.nonces.get? e.assertion.nonce = some e.assertion.expiresAt ∨
    Pruned s.accepted e.assertion

theorem Pruned.append {l l' : List Accepted} {a : BudgetAssertion} (h : Pruned l a) :
    Pruned (l ++ l') a := by
  obtain ⟨l₁, e, l₂, rfl, he, e', he', hlate⟩ := h
  exact ⟨l₁, e, l₂ ++ l', by simp, he, e', List.mem_append_left _ he', hlate⟩

theorem pruned_concat {l : List Accepted} {e e' : Accepted} (he : e ∈ l)
    (hlate : e.assertion.expiresAt ≤ e'.second) : Pruned (l ++ [e']) e.assertion := by
  obtain ⟨l₁, l₂, rfl⟩ := List.append_of_mem he
  exact ⟨l₁, e, l₂ ++ [e'], by simp, rfl, e', by simp, hlate⟩

/-- A live nonce is that of no reservation that is accepted. -/
theorem nonce_ne_of_reserved {current : ℤ} {a : BudgetAssertion} {requested : ℤ} {l l' : Ledger}
    {nonce : String} {expiresAt : ℤ} (h : Reserved cfg.ledger current a requested l l')
    (hnonce : l.nonces.get? nonce = some expiresAt) (halive : current < expiresAt) :
    nonce ≠ a.nonce := by
  have hlive : (l.liveNonces current).get? nonce = some expiresAt :=
    Table.get?_deleteWhere_of_keep hnonce (decide_eq_false (not_le.2 halive))
  rintro rfl
  rw [(Table.insert?_eq_some h.nonces).1] at hlive
  cases hlive

/-- **A transaction that is not overtaken accepts an assertion for the first time.** -/
theorem accept_once {r : Sampled} {checked : BudgetAssertion × ℤ} {l' : Ledger}
    (hcheck : checkRequest P cfg r.now r.request = .ok checked)
    (hreserved : Reserved cfg.ledger r.now.posix checked.1 checked.2 s.ledger l')
    (hkept : NonceKept s) (hnot : ¬ Pruned s.accepted checked.1) :
    checked.1 ∉ s.accepted.map Accepted.assertion := by
  intro hmem
  obtain ⟨e, he, hsame⟩ := List.mem_map.1 hmem
  have halive : r.now.posix < checked.1.expiresAt := by
    simp only [checkRequest, bind_eq_ok, pure_eq_ok] at hcheck
    obtain ⟨requested, -, a, hverify, rfl⟩ := hcheck
    exact (verify_eq_ok hverify).2.1.alive
  rcases hkept e he with hnonce | hpruned
  · rw [hsame] at hnonce
    exact nonce_ne_of_reserved hreserved hnonce halive rfl
  · exact hnot (hsame ▸ hpruned)

theorem NonceKept.accept {current : ℤ} {a : BudgetAssertion} {requested : ℤ} {l' : Ledger} {now : Time}
    (h : NonceKept s) (hcurrent : now.posix = current)
    (hreserved : Reserved cfg.ledger current a requested s.ledger l') {s' : GatewayState}
    (hledger : s'.ledger = l') (haccepted : s'.accepted = s.accepted ++ [⟨a, requested, now⟩]) :
    NonceKept s' := by
  subst hcurrent
  intro e he
  rw [haccepted] at he ⊢
  rw [hledger, Table.get?_of_insert? hreserved.nonces]
  rcases List.mem_append.1 he with he | he
  · rcases h e he with hnonce | hpruned
    · by_cases hlate : e.assertion.expiresAt ≤ now.posix
      · exact .inr (pruned_concat he hlate)
      · rw [if_neg (nonce_ne_of_reserved hreserved hnonce (not_le.1 hlate))]
        exact .inl (Table.get?_deleteWhere_of_keep hnonce (decide_eq_false hlate))
    · exact .inr hpruned.append
  · obtain rfl := List.mem_singleton.1 he
    exact .inl (if_pos rfl)

/-- **A step that is not overtaken keeps it so.** -/
theorem gatewayStep_spentOnce (a : GatewayAction) (hnot : ¬ Overtaken P cfg s a)
    (h : SpentOnce s ∧ NonceKept s) :
    SpentOnce (gatewayStep P cfg s a) ∧ NonceKept (gatewayStep P cfg s a) := by
  cases a with
  | sample wait id request =>
    simp only [gatewayStep]
    split
    · exact h
    · exact h
  | transact id =>
    simp only [gatewayStep]
    split
    · rename_i r hr
      split_ifs
      · exact h
      · unfold transact
        split
        · rename_i checked l' hprepare
          simp only [prepareRequest, bind_eq_ok, pure_eq_ok, Prod.mk.injEq] at hprepare
          obtain ⟨checked', hcheck, ⟨⟨⟩, l''⟩, hreserve, rfl, rfl⟩ := hprepare
          have hreserved := reserve_eq_ok hreserve
          have hfirst := accept_once hcheck hreserved h.2 fun hpruned =>
            hnot ⟨r, checked', hr, hcheck, hpruned⟩
          refine ⟨?_, h.2.accept rfl hreserved rfl rfl⟩
          rw [SpentOnce, List.map_append, List.nodup_append]
          refine ⟨h.1, List.nodup_singleton _, fun b hb b' hb' => ?_⟩
          rintro rfl
          obtain rfl := List.mem_singleton.1 hb'
          exact hfirst hb
        · exact h
    · exact h

end Gateway

/-- Assertions are spent once in every run that is never overtaken. -/
def SpentOnceUnlessOvertaken (P : Primitives) (cfg : GatewayConfig) (now : Time) : Prop :=
  ∀ as, Transition.AllSteps (gatewayStep P cfg) (fun s a => ¬ Overtaken P cfg s a) (.init now) as →
    SpentOnce (Transition.run (gatewayStep P cfg) (.init now) as)

/-- **An assertion is spent once, unless it is overtaken.** -/
theorem spentOnce_of_run (P : Primitives) (cfg : GatewayConfig) (now : Time) :
    SpentOnceUnlessOvertaken P cfg now := fun _ has =>
  (has.run_induction (P := fun s => SpentOnce s ∧ NonceKept s)
    (fun _ a hnot h => gatewayStep_spentOnce a hnot h)
    ⟨List.nodup_nil, fun _ h => nomatch h⟩).1

/-! ### An assertion that is spent twice -/

/-- A transaction that is accepted. -/
theorem gatewayStep_transact {P : Primitives} {cfg : GatewayConfig} {l l' : Ledger} {now : Time}
    {requests : Table ℕ Sampled} {accepted : List Accepted} {id : ℕ} {r : Sampled}
    {a : BudgetAssertion} {requested : ℤ} (hr : requests.get? id = some r) (hdone : r.done = false)
    (hmax : r.request.maxTokens = .ok requested)
    (hverify : verifyBudgetAssertion P cfg.assertionKey r.request.assertion cfg.modelAlias r.now = .ok a)
    (hreserve : reserve cfg.ledger r.now.posix a requested l = .ok ((), l')) :
    gatewayStep P cfg ⟨l, now, requests, accepted⟩ (.transact id) =
      ⟨l', now, requests.set id { r with done := true }, accepted ++ [⟨a, requested, r.now⟩]⟩ := by
  have hprepare : prepareRequest P cfg r.now r.request l = .ok ((a, requested), l') := by
    rw [prepareRequest_of_verify hmax hverify, hreserve]
    rfl
  simp only [gatewayStep, hr, hdone, transact, hprepare]
  rfl

/-- Two requests with one assertion read the clock at 10 s and at 99 s, and one with another assertion
at 100 s. The transaction of the last one runs between those of the first two. -/
def overtakingRun (q q' : GatewayRequest) : List GatewayAction :=
  [.sample 10000000 0 q, .sample 89000000 1 q, .sample 1000000 2 q'] ++
    [.transact 0, .transact 2, .transact 1]

/-- The three readings of the clock. -/
def firstReading : Time := 0 + (10000000 : ℕ)

def secondReading : Time := firstReading + (89000000 : ℕ)

def thirdReading : Time := secondReading + (1000000 : ℕ)

def sampleGateway : GatewayConfig := ⟨sampleLedger, sampleKey, "alias"⟩

/-- An assertion that expires at 100 s. -/
def replayedAssertion : BudgetAssertion := ⟨"run-1", "alias", 100, 100, "nonce-0123456789"⟩

def otherAssertion : BudgetAssertion := ⟨"run-2", "alias", 100, 200, "nonce-1123456789"⟩

/-- The ledger accepts the three reservations in this order. -/
theorem exists_overtakingLedgers : ∃ l₁ l₂ l₃,
    reserve sampleLedger firstReading.posix replayedAssertion 40 .empty = .ok ((), l₁) ∧
      reserve sampleLedger thirdReading.posix otherAssertion 40 l₁ = .ok ((), l₂) ∧
      reserve sampleLedger secondReading.posix replayedAssertion 40 l₂ = .ok ((), l₃) := by
  have hall : (reserve sampleLedger firstReading.posix replayedAssertion 40 .empty >>= fun r =>
      reserve sampleLedger thirdReading.posix otherAssertion 40 r.2 >>= fun r =>
      reserve sampleLedger secondReading.posix replayedAssertion 40 r.2).isOk = true := by
    decide +kernel
  obtain ⟨⟨⟨⟩, l₃⟩, hl⟩ := exists_of_isOk hall
  obtain ⟨⟨⟨⟩, l₁⟩, hl₁, hl⟩ := bind_eq_ok.1 hl
  obtain ⟨⟨⟨⟩, l₂⟩, hl₂, hl₃⟩ := bind_eq_ok.1 hl
  exact ⟨l₁, l₂, l₃, hl₁, hl₂, hl₃⟩

/-- What the run accepts. -/
theorem accepted_overtakingRun {P : Primitives} {q q' : GatewayRequest} (hmax : q.maxTokens = .ok 40)
    (hmax' : q'.maxTokens = .ok 40)
    (hverify : ∀ now ∈ [firstReading, secondReading],
      verifyBudgetAssertion P sampleKey q.assertion "alias" now = .ok replayedAssertion)
    (hverify' : verifyBudgetAssertion P sampleKey q'.assertion "alias" thirdReading =
      .ok otherAssertion) :
    (Transition.run (gatewayStep P sampleGateway) (.init 0) (overtakingRun q q')).accepted =
      [⟨replayedAssertion, 40, firstReading⟩, ⟨otherAssertion, 40, thirdReading⟩,
        ⟨replayedAssertion, 40, secondReading⟩] := by
  obtain ⟨l₁, l₂, l₃, hl₁, hl₂, hl₃⟩ := exists_overtakingLedgers
  let requests : Table ℕ Sampled := ⟨[(0, ⟨q, firstReading, false⟩), (1, ⟨q, secondReading, false⟩),
    (2, ⟨q', thirdReading, false⟩)], by simp⟩
  have hsampled : Transition.run (gatewayStep P sampleGateway) (.init 0)
      [.sample 10000000 0 q, .sample 89000000 1 q, .sample 1000000 2 q'] =
      ⟨.empty, thirdReading, requests, []⟩ := rfl
  have hfirst : requests.get? 0 = some ⟨q, firstReading, false⟩ := rfl
  have hthird : (requests.set 0 ⟨q, firstReading, true⟩).get? 2 = some ⟨q', thirdReading, false⟩ := rfl
  have hsecond : ((requests.set 0 ⟨q, firstReading, true⟩).set 2 ⟨q', thirdReading, true⟩).get? 1 =
      some ⟨q, secondReading, false⟩ := rfl
  rw [overtakingRun, Transition.run_append, hsampled]
  simp only [Transition.run_cons, Transition.run_nil]
  rw [gatewayStep_transact hfirst rfl hmax (hverify firstReading (by simp)) hl₁,
    gatewayStep_transact hthird rfl hmax' hverify' hl₂,
    gatewayStep_transact hsecond rfl hmax (hverify secondReading (by simp)) hl₃]
  rfl

def replayedRequest : GatewayRequest := ⟨sampleText "run-1" "nonce-0123456789" 100, .ok 40⟩

def otherRequest : GatewayRequest := ⟨sampleText "run-2" "nonce-1123456789" 200, .ok 40⟩

/-- **An assertion can be spent twice.** -/
theorem not_spentOnce : ¬ SpentOnce (Transition.run (gatewayStep flatPrimitives sampleGateway) (.init 0)
    (overtakingRun replayedRequest otherRequest)) := by
  rw [SpentOnce, accepted_overtakingRun rfl rfl]
  · decide +kernel
  · intro now hnow
    rcases List.mem_pair.1 hnow with rfl | rfl
    · exact @verify_sampleText "run-1" "nonce-0123456789" 100 _ (by decide +kernel) (by decide +kernel)
        (by decide +kernel) (by decide +kernel)
    · exact @verify_sampleText "run-1" "nonce-0123456789" 100 _ (by decide +kernel) (by decide +kernel)
        (by decide +kernel) (by decide +kernel)
  · exact @verify_sampleText "run-2" "nonce-1123456789" 200 _ (by decide +kernel) (by decide +kernel)
      (by decide +kernel) (by decide +kernel)

end CivicLoop.Gateway
