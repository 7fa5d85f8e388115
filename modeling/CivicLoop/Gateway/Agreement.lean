import CivicLoop.Gateway.Ceiling
import CivicLoop.Transport.Authority
import CivicLoop.Transport.Forward

/-!
# Two budgets of one run

The transport counts the output tokens of a run in the record of its scope token, and the gateway counts
the tokens reserved for it in a row of its ledger. The two meet in the assertions that the transport
signs and the gateway spends. A binding lives for ten minutes at most and an assertion for 300 seconds;
the gateway retires a run when the last of its assertions has expired. So the counts agree as long as no
pause between two requests reaches 300 seconds.

## Main definitions

* `RunRequest`, `BudgetState`, `agreementStep` : the requests of one run, at both ends.
* `Verdict` : what the gateway says to an assertion that was forwarded.
* `Agreement` : the guarantees.

## Main results

* `prepareForward_cases` : a request is charged and gets a signed assertion, or its record keeps its
  counters.
* `agreement_of_run` : the guarantees hold of every run.
* `not_agreesAlways` : a run that pauses for 300 seconds is retired.
-/

namespace CivicLoop

/-! ### The nonce of an assertion -/

theorem isTokenChar_of_isAlphanum {c : Char} (h : c.isAlphanum = true) : isTokenChar c = true := by
  rw [isTokenChar, h, Bool.true_or, Bool.true_or]

theorem isAlphanum_hexDigits {length n : ℕ} {c : Char} (h : c ∈ hexDigits length n) :
    c.isAlphanum = true := by
  have hdigit : ∀ digit < 16, (Nat.digitChar digit).isAlphanum = true := by decide
  obtain ⟨digit, hlt, rfl⟩ := mem_hexDigits h
  exact hdigit digit hlt

/-- The text of a UUID is a nonce. -/
theorem Gateway.isNonce_uuidText (u : Uuid) : Gateway.isNonce (uuidText u) = true := by
  have hlength := length_hexDigits 32 u
  have halnum : ∀ c ∈ hexDigits 32 u, c.isAlphanum = true := fun c => isAlphanum_hexDigits
  unfold Gateway.isNonce uuidText
  rw [String.toList_ofList]
  generalize hexDigits 32 u = digits at hlength halnum
  cases digits with
  | nil => cases hlength
  | cons c digits =>
    rw [List.length_cons, Nat.succ_inj] at hlength
    have hpart : ∀ part : List Char, part.Sublist digits → part.all isTokenChar = true := fun part hpart =>
      List.all_eq_true.2 fun c' hc' =>
        isTokenChar_of_isAlphanum (halnum c' (List.mem_cons_of_mem c (hpart.subset hc')))
    have htake : ∀ n m, ((digits.drop n).take m).all isTokenChar = true := fun n m =>
      hpart _ ((List.take_sublist m _).trans (List.drop_sublist n digits))
    have hdash : isTokenChar '-' = true := by decide
    simp only [List.take_succ_cons, List.drop_succ_cons, List.cons_append, isHeaded, isRepeat,
      List.all_append, List.all_cons, hdash, htake, hpart _ (List.take_sublist _ _),
      hpart _ (List.drop_sublist _ _), halnum c List.mem_cons_self]
    simp [hlength]

/-! ### Forwarding, from the side of the record -/

namespace Transport

open Gateway

variable {D : Type} [DecidableEq D]

/-- The record of a digest has kept its counters, and its lease unless that has ended. -/
def Kept (d : D) (r r' : Registry D) : Prop :=
  ∀ e, r.scopes.get? d = some e → ∃ e', r'.scopes.get? d = some e' ∧
    e'.toCounters = e.toCounters ∧ (e'.binding = e.binding ∨ e'.binding = none)

theorem Kept.refl (d : D) (r : Registry D) : Kept d r r := fun e he => ⟨e, he, rfl, .inl rfl⟩

theorem kept_drop (d d' : D) (r : Registry D) : Kept d r (r.drop d') := by
  intro e he
  rw [get?_drop]
  split_ifs with hd
  · subst hd
    exact ⟨e.dropped, by rw [he, Option.map_some], rfl, .inr rfl⟩
  · exact ⟨e, he, rfl, .inl rfl⟩

/-- The record of the token is charged by a reservation, within the limits of its lease. -/
structure Charged (digest : String → D) (now : Time) (token : String) (v : Ceilings) (b : ScopeBinding) (e : Scope)
    (r : Registry D) : Prop where
  record : r.scopes.get? (digest token) = some e
  bound : e.binding = some b
  alive : now < b.expiresAt
  within : (e.toCounters.add v).within b

/-- The registry after the charge. -/
def charge (digest : String → D) (token : String) (v : Ceilings) (e : Scope) (r : Registry D) :
    Registry D :=
  { r with scopes := r.scopes.set (digest token) (e.spend v) }

section Forwarding

variable {digest : String → D} {P : Primitives} {cfg : ServerConfig} {r : Registry D}

/-- An authorization gives the lease of the record, or ends it, or does nothing. -/
theorem authorize_kept (digest : String → D) (r : Registry D) (c : Capacity) (now : Time) (lease : LeaseReply) (token : String) :
    (∃ e b, r.scopes.get? (digest token) = some e ∧ e.binding = some b ∧ now < b.expiresAt ∧
      authorize digest c now lease token r = (.ok b, r)) ∨
    ∃ error r', authorize digest c now lease token r = (.error error, r') ∧
      Kept (digest token) r r' := by
  rcases authorize_cases now lease token r with ⟨b, hb, halive, hresult, -⟩ | ⟨error, r', hresult, -⟩
  · obtain ⟨e, he, hbound⟩ := binding?_eq_some.1 hb
    exact .inl ⟨e, b, he, hbound, halive, hresult⟩
  · refine .inr ⟨error, r', hresult, ?_⟩
    unfold authorize at hresult
    split at hresult
    · obtain ⟨-, rfl⟩ := Prod.mk.inj hresult
      exact .refl _ _
    · rename_i d hd
      obtain rfl := digestOf_eq_ok hd
      split at hresult
      · split_ifs at hresult with hok
        · cases (Prod.mk.inj hresult).1
        · obtain ⟨-, rfl⟩ := Prod.mk.inj hresult
          exact kept_drop _ _ r
      · obtain ⟨-, rfl⟩ := Prod.mk.inj hresult
        exact .refl _ _

/-- A reservation charges the record, or the record keeps its counters. -/
theorem reserveInference_cases (digest : String → D) (r : Registry D) (c : Capacity) (now : Time) (lease : LeaseReply) (nonce : Uuid)
    (token : String) (v : Ceilings) :
    (∃ b e, Charged digest now token v b e r ∧
      reserveInference digest c now lease nonce token v r = (.ok nonce, charge digest token v e r)) ∨
    ∃ error r', reserveInference digest c now lease nonce token v r = (.error error, r') ∧
      Kept (digest token) r r' := by
  unfold reserveInference
  split_ifs
  · exact .inr ⟨_, r, rfl, .refl _ _⟩
  · rcases authorize_kept digest r c now lease token with
      ⟨e, b, he, hbound, halive, hresult⟩ | ⟨error, r', hresult, hkept⟩
    · rw [hresult]
      simp only [he]
      split_ifs with hwithin
      · exact .inl ⟨b, e, ⟨he, hbound, halive, hwithin⟩, rfl⟩
      · exact .inr ⟨_, r, rfl, .refl _ _⟩
    · rw [hresult]
      exact .inr ⟨error, r', rfl, hkept⟩

theorem revoke_kept (c : Capacity) (token : String) :
    Kept (digest token) r (revoke digest c token r).2 := by
  unfold revoke
  cases hd : digestOf digest token with
  | error e => exact .refl _ _
  | ok d =>
    obtain rfl := digestOf_eq_ok hd
    intro e he
    simp only [he]
    exact kept_drop _ _ r e he

theorem isRunId_of_isModelAlias {s : String} (h : isModelAlias s = true) :
    Gateway.isRunId s = true := by
  unfold isModelAlias at h
  unfold Gateway.isRunId
  cases hs : s.toList with
  | nil =>
    rw [hs] at h
    cases h
  | cons c cs =>
    rw [hs] at h
    simp only [isHeaded, isRepeat, Bool.and_eq_true, decide_eq_true_eq, List.all_eq_true] at h ⊢
    obtain ⟨hfirst, ⟨hmin, hmax⟩, hall⟩ := h
    have hlower : ∀ c : Char, c.isLower = true → c.isAlphanum = true := fun c hc => by
      simp [Char.isAlphanum, Char.isAlpha, hc]
    refine ⟨hlower c hfirst, ⟨by omega, by omega⟩, fun c' hc' => ?_⟩
    have hclass := hall c' hc'
    simp only [Bool.or_eq_true] at hclass
    simp only [isRunIdChar, isTokenChar, Char.isAlphanum, Char.isAlpha, Bool.or_eq_true]
    rcases hclass with ((hc | hc) | hc) | hc <;> simp [hc]

theorem maxTokensOf_eq_ok {b : ScopeBinding} {body : Message} {maximum : ℤ}
    (h : maxTokensOf b body = .ok maximum) : body.int? "max_tokens" = some maximum := by
  simp only [maxTokensOf, bind_eq_ok, ensure_eq_ok, fetch_eq_ok, pure_eq_ok] at h
  obtain ⟨⟨⟩, -, _, hmax, ⟨⟩, -, ⟨⟩, -, rfl⟩ := h
  exact hmax

theorem ceilingsOf_eq_ok {b : ScopeBinding} {q : Request} {v : Ceilings}
    (h : ceilingsOf cfg b q = .ok v) : q.body.int? "max_tokens" = some v.output := by
  simp only [ceilingsOf, bind_eq_ok] at h
  obtain ⟨maximum, hmax, h⟩ := h
  split at h
  · obtain rfl := Except.ok.inj h
    exact maxTokensOf_eq_ok hmax
  · cases h

/-- A request is charged, and gets a signed assertion, or its record keeps its counters. -/
theorem inferenceAssertion_cases (P : Primitives) (cfg : ServerConfig) (t : Readings) (q : Request) {b : ScopeBinding}
    (hbound : r.binding? (digest q.token) = some b) {checkAt : Time} (hvalid : b.Valid checkAt) :
    (∃ v e text, Charged digest t.reserveAt q.token v b e r ∧
      q.body.int? "max_tokens" = some v.output ∧
      issueBudgetAssertion P cfg.assertionKey b.runId b.modelAlias b.maxOutputTokens
        (min b.expiresAt (t.issueAt + seconds 300)) (uuidText t.nonce) = .ok text ∧
      inferenceAssertion digest P cfg t q b r = (.ok text, charge digest q.token v e r)) ∨
    ∃ error r', inferenceAssertion digest P cfg t q b r = (.error error, r') ∧
      Kept (digest q.token) r r' := by
  unfold inferenceAssertion
  cases hceilings : ceilingsOf cfg b q with
  | error error => exact .inr ⟨error, r, rfl, .refl _ _⟩
  | ok v =>
    rcases reserveInference_cases digest r cfg.capacity t.reserveAt t.leaseAgain
        t.nonce q.token v with ⟨b', e, hcharged, hresult⟩ | ⟨error, r', hresult, hkept⟩
    · have hsame : b' = b := by
        have hbound' := binding?_eq_some.2 ⟨e, hcharged.record, hcharged.bound⟩
        rw [hbound] at hbound'
        exact (Option.some.inj hbound').symm
      subst hsame
      obtain ⟨text, htext⟩ := issue_of_checks P (min b'.expiresAt (t.issueAt + seconds 300))
        cfg.key_length hvalid.runId (isRunId_of_isModelAlias hvalid.modelAlias)
        (isNonce_uuidText t.nonce) hvalid.maxOutputTokens
      refine .inl ⟨v, e, text, hcharged, ceilingsOf_eq_ok hceilings, htext, ?_⟩
      simp only [hresult, htext]
    · refine .inr ⟨error, r', ?_, hkept⟩
      simp only [hresult]

/-- What is known of a request that was charged and gets a signed assertion. -/
structure Forwarded (digest : String → D) (P : Primitives) (cfg : ServerConfig) (t : Readings)
    (q : Request) (r : Registry D) (b : ScopeBinding) (v : Ceilings) (e : Scope) (text : String) :
    Prop where
  charged : Charged digest t.reserveAt q.token v b e r
  maxTokens : q.body.int? "max_tokens" = some v.output
  issued : issueBudgetAssertion P cfg.assertionKey b.runId b.modelAlias b.maxOutputTokens
    (min b.expiresAt (t.issueAt + seconds 300)) (uuidText t.nonce) = .ok text

/-- The assertion of what is sent. -/
def sentAssertion : Except TransportError Upstream → Option String
  | .ok u => u.assertion
  | .error _ => none

/-- **A request is charged and its assertion is sent, or its record keeps its counters**, if no time
passes while it is prepared. -/
theorem prepareForward_cases (digest : String → D) (P : Primitives) (cfg : ServerConfig)
    {t : Readings} (q : Request) {e₀ : Scope}
    (hrecord : r.scopes.get? (digest q.token) = some e₀) {checkAt : Time}
    (hvalid : ∀ b, e₀.binding = some b → b.Valid checkAt) (htime : t.sendAt = t.reserveAt) :
    (∃ b v text, Forwarded digest P cfg t q r b v e₀ text ∧
      prepareForward digest P cfg t q r =
        (.ok ⟨.inference, b.capability, some text⟩, charge digest q.token v e₀ r)) ∨
    sentAssertion (prepareForward digest P cfg t q r).1 = none ∧
      Kept (digest q.token) r (prepareForward digest P cfg t q r).2 := by
  unfold prepareForward
  rcases authorize_kept digest r cfg.capacity t.authorizeAt t.lease q.token with
    ⟨e, b, he, hbound, halive, hresult⟩ | ⟨error, r', hresult, hkept⟩
  · obtain rfl : e₀ = e := by
      rw [hrecord] at he
      exact Option.some.inj he
    have hlease := binding?_eq_some.2 ⟨e₀, he, hbound⟩
    simp only [hresult]
    by_cases henabled : t.enabled = false
    · rw [if_pos henabled]
      exact .inr ⟨rfl, revoke_kept cfg.capacity q.token⟩
    rw [if_neg henabled]
    by_cases hauthority : containsAuthority (secretsOf cfg q.token b.capability) q.body = true
    · rw [if_pos hauthority]
      exact .inr ⟨rfl, .refl _ _⟩
    rw [if_neg hauthority]
    unfold upstreamOf
    cases q.path with
    | mcp =>
      simp only
      split_ifs
      · exact .inr ⟨rfl, .refl _ _⟩
      · exact .inr ⟨rfl, .refl _ _⟩
    | inference =>
      rcases inferenceAssertion_cases P cfg t q hlease (hvalid b hbound) with
        ⟨v, e', text, hcharged, hmax, hissued, hassertion⟩ | ⟨error, r', hassertion, hkept⟩
      · obtain rfl : e₀ = e' := by
          have hrecord' := hcharged.record
          rw [hrecord] at hrecord'
          exact Option.some.inj hrecord'
        have hsent : ¬ b.expiresAt ≤ t.sendAt := by
          rw [htime]
          exact not_le.2 hcharged.alive
        simp only [hassertion, if_neg hsent]
        exact .inl ⟨b, v, text, ⟨hcharged, hmax, hissued⟩, rfl⟩
      · simp only [hassertion]
        exact .inr ⟨rfl, hkept⟩
  · simp only [hresult]
    exact .inr ⟨rfl, hkept⟩

end Forwarding

end Transport

namespace Gateway

open Transport

variable {D : Type} [DecidableEq D]

/-! ### Both ends of a run -/

/-- A request with the scope token of the run: the time that passes before it, and what its handler is
told and reads. The time stands still until the gateway has answered. -/
structure RunRequest where
  wait : ℕ
  enabled : Bool
  lease : LeaseReply
  leaseAgain : LeaseReply
  nonce : Uuid
  path : Path
  length : ℕ
  body : Message

/-- The readings of the handler. -/
def RunRequest.readings (c : RunRequest) (now : Time) : Readings :=
  ⟨c.enabled, c.lease, c.leaseAgain, c.nonce, now, now, now, now⟩

/-- The registry of the transport, the ledger of the gateway, and the clock. -/
structure BudgetState (D : Type) where
  registry : Registry D
  ledger : Ledger
  now : Time

/-- What the gateway says to an assertion that was forwarded. -/
structure Verdict where
  time : Time
  reply : Except String Unit

/-- The whole seconds of the clock. -/
def Verdict.second (v : Verdict) : ℤ := v.time.posix

section Ends

variable (digest : String → D) (P : Primitives) (cfg : ServerConfig) (ledger : LedgerConfig)
  (token : String) (b : ScopeBinding)

/-- The transport prepares a request. -/
def forwardOf (s : BudgetState D) (c : RunRequest) : Except TransportError Upstream × Registry D :=
  prepareForward digest P cfg (c.readings (s.now + c.wait)) ⟨token, c.path, c.length, c.body⟩
    s.registry

/-- The gateway verifies an assertion and reserves the tokens that the body asks for. -/
def chargeOf (s : BudgetState D) (c : RunRequest) (assertion : String) :
    Except String ((BudgetAssertion × ℤ) × Ledger) :=
  prepareRequest P ⟨ledger, cfg.assertionKey, b.modelAlias⟩ (s.now + c.wait)
    ⟨assertion, fetch (c.body.int? "max_tokens") "max_tokens is invalid"⟩ s.ledger

/-- A request at both ends. -/
def agreementStep (s : BudgetState D) (c : RunRequest) : BudgetState D :=
  let forward := forwardOf digest P cfg token s c
  ⟨forward.2,
    match sentAssertion forward.1 with
    | some assertion => commit s.ledger (chargeOf P cfg ledger b s c assertion)
    | none => s.ledger,
    s.now + c.wait⟩

/-- The answer to a request, if its assertion was forwarded. -/
def verdicts (s : BudgetState D) (c : RunRequest) : List Verdict :=
  match sentAssertion (forwardOf digest P cfg token s c).1 with
  | some assertion => [⟨s.now + c.wait, (chargeOf P cfg ledger b s c assertion).map fun _ => ()⟩]
  | none => []

/-- The state after some requests. -/
def runOf (s : BudgetState D) (cs : List RunRequest) : BudgetState D :=
  Transition.run (agreementStep digest P cfg ledger token b) s cs

/-- The answers to some requests. -/
def verdictsOf (s : BudgetState D) (cs : List RunRequest) : List Verdict :=
  Transition.outputs (agreementStep digest P cfg ledger token b)
    (verdicts digest P cfg ledger token b) s cs

/-- The binding has just been registered for the token, and the ledger does not know the run and has
room for it. -/
structure Started (s : BudgetState D) : Prop where
  registered : ∃ expireAt checkAt binding r, r.scopes.get? (digest token) = none ∧
    validateBinding binding checkAt = .ok b ∧ checkAt ≤ s.now ∧
      register digest cfg.capacity expireAt checkAt token binding r = (.ok (), s.registry)
  epoch : 0 ≤ s.now
  unknown : s.ledger.runs.get? b.runId = none
  spare : s.ledger.runs.count < ledger.maximumRecords

/-- The requests of a run: their nonces are fresh, the ledger has room for the nonces of those that are
forwarded, and these come at least one second before the expiry. -/
structure Fits (s : BudgetState D) (cs : List RunRequest) : Prop where
  fresh : ∀ c ∈ cs, s.ledger.nonces.get? (uuidText c.nonce) = none
  distinct : (cs.map fun c => uuidText c.nonce).Nodup
  spare : s.ledger.nonces.count + (verdictsOf digest P cfg ledger token b s cs).length ≤
    ledger.maximumRecords
  early : ∀ v ∈ verdictsOf digest P cfg ledger token b s cs, v.time + seconds 1 ≤ b.expiresAt

/-- Between two answers that follow each other there are less than 300 whole seconds. -/
def Spaced (vs : List Verdict) : Prop := ∀ l v v' l', vs = l ++ v :: v' :: l' →
  v'.second < v.second + 300

/-- The output tokens that the transport has counted. -/
def outputTokens (s : BudgetState D) : ℤ :=
  ((s.registry.scopes.get? (digest token)).map fun e => e.outputTokens).getD 0

/-- The tokens that the gateway has reserved. -/
def tokensReserved (s : BudgetState D) : ℤ :=
  ((s.ledger.runs.get? b.runId).map RunRow.tokensReserved).getD 0

/-- What holds of every run that is started and fits. -/
structure Agreement (s : BudgetState D) : Prop where
  /-- Without a long pause everything is accepted, and the two counts are equal. -/
  accepted : Started digest cfg ledger token b s → ∀ cs, Fits digest P cfg ledger token b s cs →
    Spaced (verdictsOf digest P cfg ledger token b s cs) →
      (∀ v ∈ verdictsOf digest P cfg ledger token b s cs, v.reply = .ok ()) ∧
        tokensReserved b (runOf digest P cfg ledger token b s cs) =
          outputTokens digest token (runOf digest P cfg ledger token b s cs)
  /-- What is forwarded after a long pause is refused, and the ledger stays as it is. -/
  retired : Started digest cfg ledger token b s → ∀ cs c,
    Fits digest P cfg ledger token b s (cs ++ [c]) →
      Spaced (verdictsOf digest P cfg ledger token b s cs) →
        ∀ l v v', verdictsOf digest P cfg ledger token b s cs = l ++ [v] →
          v' ∈ verdicts digest P cfg ledger token b (runOf digest P cfg ledger token b s cs) c →
            v.second + 300 ≤ v'.second → v'.reply = .error "run ID is retired" ∧
              (runOf digest P cfg ledger token b s (cs ++ [c])).ledger =
                (runOf digest P cfg ledger token b s cs).ledger

/-- The row of the run, after the last answer, if there was one. -/
def RowAfter (l : Ledger) (now : Time) (output : ℤ) : Option Verdict → Prop
  | none => l.runs.get? b.runId = none ∧ output = 0 ∧ l.runs.count < ledger.maximumRecords
  | some v => v.time ≤ now ∧ ∃ retainUntil, b.expiresAt.posix ≤ retainUntil ∧
      l.runs.get? b.runId = some ⟨b.modelAlias, b.maxOutputTokens, output,
        min b.expiresAt.posix (v.second + 300), retainUntil⟩

/-- The two ends agree, after the answers `vs` to the requests `cs`. -/
structure Agreed (s₀ s : BudgetState D) (cs : List RunRequest) (vs : List Verdict) : Prop where
  record : ∃ e, s.registry.scopes.get? (digest token) = some e ∧
    (e.binding = some b ∨ e.binding = none) ∧ RowAfter ledger b s.ledger s.now e.outputTokens vs.getLast?
  clock : s₀.now ≤ s.now
  nonces : ∀ nonce, s₀.ledger.nonces.get? nonce = none → nonce ∉ cs.map (fun c => uuidText c.nonce) →
    s.ledger.nonces.get? nonce = none
  count : s.ledger.nonces.count ≤ s₀.ledger.nonces.count + vs.length
  replies : ∀ v ∈ vs, v.reply = .ok ()

end Ends

section Steps

variable {digest : String → D} {P : Primitives} {cfg : ServerConfig} {ledger : LedgerConfig}
  {token : String} {b : ScopeBinding} {s₀ s : BudgetState D} {cs : List RunRequest}
  {vs : List Verdict} {c : RunRequest}

theorem posix_add_seconds {t : Time} (ht : 0 ≤ t) {n : ℤ} (hn : 0 ≤ n) :
    Time.posix (t + seconds n) = t.posix + n := by
  have hsum : 0 ≤ t + seconds n := Int.add_nonneg ht (Int.mul_nonneg hn (by decide))
  rw [Time.posix, Time.posix, Int.tdiv_eq_ediv_of_nonneg hsum, Int.tdiv_eq_ediv_of_nonneg ht, seconds,
    Int.add_mul_ediv_right _ _ (by decide)]

theorem posix_min (t t' : Time) : Time.posix (min t t') = min t.posix t'.posix :=
  Monotone.map_min fun _ _ => posix_mono

/-- What is signed for a request at the time `now`. -/
def signedFor (b : ScopeBinding) (now : Time) (nonce : Uuid) : BudgetAssertion :=
  ⟨b.runId, b.modelAlias, b.maxOutputTokens, min b.expiresAt.posix (now.posix + 300), uuidText nonce⟩

/-- The gateway verifies what was signed a moment ago. -/
theorem verify_signedFor {text : String} {now : Time} {nonce : Uuid} (hnow : 0 ≤ now)
    (hearly : now + seconds 1 ≤ b.expiresAt)
    (hissued : issueBudgetAssertion P cfg.assertionKey b.runId b.modelAlias b.maxOutputTokens
      (min b.expiresAt (now + seconds 300)) (uuidText nonce) = .ok text) :
    verifyBudgetAssertion P cfg.assertionKey text b.modelAlias now = .ok (signedFor b now nonce) := by
  have hexpires : Time.posix (min b.expiresAt (now + seconds 300)) =
      min b.expiresAt.posix (now.posix + 300) := by
    rw [posix_min, posix_add_seconds hnow (by decide)]
  have halive : now.posix + 1 ≤ b.expiresAt.posix := by
    rw [← posix_add_seconds hnow (by decide)]
    exact posix_mono hearly
  have hverify := @verify_issue _ _ _ _ _ _ _ _ now hissued (by rw [hexpires]; omega)
    (by rw [hexpires]; omega)
  rwa [hexpires] at hverify

theorem posix_lt_of_early {now : Time} (hnow : 0 ≤ now) (hearly : now + seconds 1 ≤ b.expiresAt) :
    now.posix < b.expiresAt.posix := by
  have hmono := posix_mono hearly
  rw [posix_add_seconds hnow (by decide)] at hmono
  exact hmono

variable {l : Ledger} {output : ℤ} {last : Option Verdict} {before now : Time} {nonce : Uuid}

/-- The row that a request charges: the one that the last answer left, or a new one. -/
theorem rowOf_signedFor (nonce : Uuid) (h : RowAfter ledger b l before output last)
    (hnow : before ≤ now) (hlifetime : b.expiresAt.posix ≤ now.posix + ledger.runRetentionSeconds)
    (halive : now.posix < b.expiresAt.posix) :
    ∃ expiresAt retainUntil, expiresAt ≤ min b.expiresAt.posix (now.posix + 300) ∧
      b.expiresAt.posix ≤ retainUntil ∧
      rowOf ledger now.posix (signedFor b now nonce) l =
        ⟨b.modelAlias, b.maxOutputTokens, output, expiresAt, retainUntil⟩ ∧
      (l.liveRuns now.posix).get? b.runId = last.map fun v => ⟨b.modelAlias, b.maxOutputTokens,
        output, min b.expiresAt.posix (v.second + 300), retainUntil⟩ := by
  cases last with
  | none =>
    obtain ⟨hnone, hzero, -⟩ := h
    have hlive : (l.liveRuns now.posix).get? b.runId = none := by
      rw [Ledger.liveRuns, Table.get?_deleteWhere, hnone]
      rfl
    refine ⟨min b.expiresAt.posix (now.posix + 300), now.posix + ledger.runRetentionSeconds, le_refl _,
      hlifetime, ?_, hlive⟩
    rw [rowOf, show (signedFor b now nonce).runId = b.runId from rfl, hlive, hzero]
    rfl
  | some v =>
    obtain ⟨hv, retainUntil, hretain, hrow⟩ := h
    have hlive : (l.liveRuns now.posix).get? b.runId = some ⟨b.modelAlias, b.maxOutputTokens,
        output, min b.expiresAt.posix (v.second + 300), retainUntil⟩ :=
      Table.get?_deleteWhere_of_keep hrow (decide_eq_false (not_le.2 (halive.trans_le hretain)))
    have hsecond : v.second ≤ now.posix := posix_mono (hv.trans hnow)
    refine ⟨min b.expiresAt.posix (v.second + 300), retainUntil, ?_, hretain, ?_, hlive⟩
    · exact min_le_min_left _ (Int.add_le_add_right hsecond 300)
    · rw [rowOf, show (signedFor b now nonce).runId = b.runId from rfl, hlive]
      rfl

/-- The conditions of a request that is forwarded at the time `now`, when the last one was not after
`before`. -/
structure Meets (ledger : LedgerConfig) (b : ScopeBinding) (l : Ledger) (before now : Time)
    (nonce : Uuid) : Prop where
  epoch : 0 ≤ now
  later : before ≤ now
  early : now + seconds 1 ≤ b.expiresAt
  lifetime : b.expiresAt.posix ≤ now.posix + ledger.runRetentionSeconds
  fresh : l.nonces.get? (uuidText nonce) = none
  spare : l.nonces.count < ledger.maximumRecords

theorem Meets.liveNonce (h : Meets ledger b l before now nonce) :
    (l.liveNonces now.posix).get? (uuidText nonce) = none := by
  rw [Ledger.liveNonces, Table.get?_deleteWhere, h.fresh]
  rfl

theorem Meets.liveSpare (h : Meets ledger b l before now nonce) :
    (l.liveNonces now.posix).count < ledger.maximumRecords :=
  (Table.count_deleteWhere_le _ _).trans_lt h.spare

/-- **The gateway accepts what was forwarded**, if there was no long pause. -/
theorem reserve_signedFor {requested : ℤ} (hmeets : Meets ledger b l before now nonce)
    (hrow : RowAfter ledger b l before output last)
    (hspaced : ∀ v, last = some v → now.posix < v.second + 300)
    (hwithin : output + requested ≤ b.maxOutputTokens) :
    ∃ l', reserve ledger now.posix (signedFor b now nonce) requested l = .ok ((), l') ∧
      ∀ reply, RowAfter ledger b l' now (output + requested) (some ⟨now, reply⟩) := by
  have halive := posix_lt_of_early hmeets.epoch hmeets.early
  obtain ⟨expiresAt, retainUntil, hexpires, hretain, hcharged, hlive⟩ :=
    rowOf_signedFor nonce hrow hmeets.later hmeets.lifetime halive
  have hruns : (l.liveRuns now.posix).get? b.runId = none →
      (l.liveRuns now.posix).count < ledger.maximumRecords := by
    intro hnone
    rw [hlive, Option.map_eq_none_iff] at hnone
    subst hnone
    exact (Table.count_deleteWhere_le _ _).trans_lt hrow.2.2
  have hnotRetired : ∀ run, (l.liveRuns now.posix).get? b.runId = some run →
      now.posix < run.expiresAt := by
    intro run hrun
    rw [hlive, Option.map_eq_some_iff] at hrun
    obtain ⟨v, rfl, rfl⟩ := hrun
    exact lt_min halive (hspaced v rfl)
  have hbinding : (rowOf ledger now.posix (signedFor b now nonce) l).modelAlias = b.modelAlias ∧
      (rowOf ledger now.posix (signedFor b now nonce) l).tokenCeiling = b.maxOutputTokens := by
    rw [hcharged]
    exact ⟨rfl, rfl⟩
  have hbudget : (rowOf ledger now.posix (signedFor b now nonce) l).tokensReserved + requested ≤
      (signedFor b now nonce).tokenCeiling := by
    rw [hcharged]
    exact hwithin
  obtain ⟨l', hreserve⟩ := @exists_reserve ledger now.posix (signedFor b now nonce) requested l
    hmeets.liveSpare hmeets.liveNonce hruns hnotRetired hbinding hbudget
  refine ⟨l', hreserve, fun reply => ⟨le_refl _, retainUntil, hretain, ?_⟩⟩
  have hnew := (reserve_eq_ok hreserve).runs b.runId
  rw [if_pos (show b.runId = (signedFor b now nonce).runId from rfl), hcharged] at hnew
  rw [hnew]
  simp only [RunRow.charge, signedFor, Verdict.second, max_eq_right hexpires]

/-- **The gateway refuses what was forwarded after a long pause.** -/
theorem reserve_retired {v : Verdict} {requested : ℤ} (hmeets : Meets ledger b l before now nonce)
    (hrow : RowAfter ledger b l before output (some v)) (hpause : v.second + 300 ≤ now.posix) :
    reserve ledger now.posix (signedFor b now nonce) requested l = .error "run ID is retired" := by
  have halive := posix_lt_of_early hmeets.epoch hmeets.early
  obtain ⟨-, retainUntil, -, -, -, hlive⟩ :=
    rowOf_signedFor nonce hrow hmeets.later hmeets.lifetime halive
  have hfresh : (l.liveNonces now.posix).get? (signedFor b now nonce).nonce = none := hmeets.liveNonce
  obtain ⟨nonces, hnonces⟩ := Table.insert?_isSome hfresh (signedFor b now nonce).expiresAt
  have hretired : ¬ now.posix < min b.expiresAt.posix (v.second + 300) :=
    not_lt.2 ((min_le_right _ _).trans hpause)
  have hopen : openRun ledger now.posix (signedFor b now nonce) (l.liveRuns now.posix) =
      .error "run ID is retired" := by
    rw [openRun, show (signedFor b now nonce).runId = b.runId from rfl, hlive]
    exact ensure_bind_of_not hretired _
  rw [reserve, ensure_bind hmeets.liveSpare, fetch_bind hnonces, hopen]
  rfl

/-- What a run knows from its start. -/
structure Known (digest : String → D) (cfg : ServerConfig) (ledger : LedgerConfig) (token : String)
    (b : ScopeBinding) (s₀ : BudgetState D) : Prop where
  started : Started digest cfg ledger token b s₀
  valid : ∃ checkAt, b.Valid checkAt ∧ checkAt ≤ s₀.now

theorem Started.known (h : Started digest cfg ledger token b s₀) :
    Known digest cfg ledger token b s₀ := by
  obtain ⟨expireAt, checkAt, binding, r, -, hchecked, hle, -⟩ := h.registered
  exact ⟨h, checkAt, validateBinding_eq_ok hchecked, hle⟩

theorem Known.lifetime (h : Known digest cfg ledger token b s₀) (hnow : s₀.now ≤ now) :
    b.expiresAt.posix ≤ now.posix + ledger.runRetentionSeconds := by
  obtain ⟨checkAt, hvalid, hle⟩ := h.valid
  have hepoch : 0 ≤ now := h.started.epoch.trans hnow
  have hlate : b.expiresAt ≤ now + seconds 600 :=
    hvalid.lifetime.trans (Int.add_le_add_right (hle.trans hnow) _)
  have hposix := posix_mono hlate
  rw [posix_add_seconds hepoch (by decide)] at hposix
  have hretention := ledger.retention_min
  omega

/-- A fresh registration leaves a fresh record. -/
theorem register_fresh {expireAt checkAt : Time} {binding checked : ScopeBinding} {r r' : Registry D}
    {capacity : Capacity} (hnew : r.scopes.get? (digest token) = none)
    (hchecked : validateBinding binding checkAt = .ok checked)
    (h : register digest capacity expireAt checkAt token binding r = (.ok (), r')) :
    r'.scopes.get? (digest token) = some (.fresh (some checked)) := by
  have hexpired : (r.expire expireAt).scopes.get? (digest token) = none := by
    rw [get?_expire, hnew, Option.map_none]
  unfold register at h
  cases hd : digestOf digest token with
  | error e =>
    simp only [hd] at h
    cases (Prod.mk.inj h).1
  | ok d =>
    obtain rfl := digestOf_eq_ok hd
    simp only [hd, hchecked, hexpired] at h
    split_ifs at h
    · cases (Prod.mk.inj h).1
    · cases (Prod.mk.inj h).1
    · obtain ⟨-, rfl⟩ := Prod.mk.inj h
      exact Table.get?_put_self _ _ _

theorem agreed_init (h : Started digest cfg ledger token b s) :
    Agreed digest ledger token b s s [] [] where
  record := by
    obtain ⟨expireAt, checkAt, binding, r, hnew, hchecked, -, hregister⟩ := h.registered
    exact ⟨.fresh (some b), register_fresh hnew hchecked hregister, .inl rfl, h.unknown, rfl, h.spare⟩
  clock := le_refl _
  nonces _ hnone _ := hnone
  count := Nat.le_refl _
  replies _ hv := nomatch hv

/-- A request is forwarded and charged, or nothing is forwarded and the counters stay. -/
theorem Agreed.cases (h : Agreed digest ledger token b s₀ s cs vs)
    (hknown : Known digest cfg ledger token b s₀) (c : RunRequest) :
    (∃ v e text, s.registry.scopes.get? (digest token) = some e ∧ e.binding = some b ∧
      RowAfter ledger b s.ledger s.now e.outputTokens vs.getLast? ∧
      (e.toCounters.add v).within b ∧ c.body.int? "max_tokens" = some v.output ∧
      issueBudgetAssertion P cfg.assertionKey b.runId b.modelAlias b.maxOutputTokens
        (min b.expiresAt (s.now + c.wait + seconds 300)) (uuidText c.nonce) = .ok text ∧
      sentAssertion (forwardOf digest P cfg token s c).1 = some text ∧
      (forwardOf digest P cfg token s c).2 = charge digest token v e s.registry) ∨
    sentAssertion (forwardOf digest P cfg token s c).1 = none ∧
      Kept (digest token) s.registry (forwardOf digest P cfg token s c).2 := by
  obtain ⟨e, he, hbinding, hrow⟩ := h.record
  obtain ⟨checkAt, hvalid, -⟩ := hknown.valid
  have hleased : ∀ b', e.binding = some b' → b' = b := by
    intro b' hb'
    rcases hbinding with hb | hb
    · rw [hb] at hb'
      exact (Option.some.inj hb').symm
    · rw [hb] at hb'
      cases hb'
  have hleaseValid : ∀ b', e.binding = some b' → b'.Valid checkAt := fun b' hb' =>
    (hleased b' hb').symm ▸ hvalid
  have htime : (c.readings (s.now + c.wait)).sendAt = (c.readings (s.now + c.wait)).reserveAt := rfl
  rcases prepareForward_cases digest P cfg ⟨token, c.path, c.length, c.body⟩ he hleaseValid htime with
    ⟨b', v, text, hforwarded, hresult⟩ | hnone
  · obtain rfl := hleased b' hforwarded.charged.bound
    refine .inl ⟨v, e, text, he, hforwarded.charged.bound, hrow, hforwarded.charged.within,
      hforwarded.maxTokens, hforwarded.issued, ?_, ?_⟩
    · rw [forwardOf, hresult]
      rfl
    · rw [forwardOf, hresult]
  · exact .inr hnone

omit [DecidableEq D] in
theorem chargeOf_eq (ledger : LedgerConfig) {v : Ceilings} {text : String} (hmax : c.body.int? "max_tokens" = some v.output)
    (hepoch : 0 ≤ s.now + c.wait) (hearly : s.now + c.wait + seconds 1 ≤ b.expiresAt)
    (hissued : issueBudgetAssertion P cfg.assertionKey b.runId b.modelAlias b.maxOutputTokens
      (min b.expiresAt (s.now + c.wait + seconds 300)) (uuidText c.nonce) = .ok text) :
    chargeOf P cfg ledger b s c text =
      (reserve ledger (s.now + c.wait).posix (signedFor b (s.now + c.wait) c.nonce) v.output
        s.ledger).map fun r => ((signedFor b (s.now + c.wait) c.nonce, v.output), r.2) :=
  prepareRequest_of_verify (by rw [hmax]; rfl) (verify_signedFor hepoch hearly hissued) s.ledger

/-- The conditions under which the next request is forwarded. -/
structure Next (ledger : LedgerConfig) (b : ScopeBinding) (s₀ s : BudgetState D)
    (cs : List RunRequest) (vs : List Verdict) (c : RunRequest) : Prop where
  early : s.now + c.wait + seconds 1 ≤ b.expiresAt
  fresh : s₀.ledger.nonces.get? (uuidText c.nonce) = none
  distinct : uuidText c.nonce ∉ cs.map fun c => uuidText c.nonce
  spare : s₀.ledger.nonces.count + vs.length < ledger.maximumRecords

theorem Agreed.meets (h : Agreed digest ledger token b s₀ s cs vs)
    (hknown : Known digest cfg ledger token b s₀) (hnext : Next ledger b s₀ s cs vs c) :
    Meets ledger b s.ledger s.now (s.now + c.wait) c.nonce := by
  have hwait : s.now ≤ s.now + c.wait := s.now.le_wait c.wait
  have hlater : s₀.now ≤ s.now + c.wait := h.clock.trans hwait
  exact ⟨hknown.started.epoch.trans hlater, hwait, hnext.early, hknown.lifetime hlater,
    h.nonces _ hnext.fresh hnext.distinct, h.count.trans_lt hnext.spare⟩

theorem agreementStep_of_sent {text : String}
    (h : sentAssertion (forwardOf digest P cfg token s c).1 = some text) :
    agreementStep digest P cfg ledger token b s c = ⟨(forwardOf digest P cfg token s c).2,
      commit s.ledger (chargeOf P cfg ledger b s c text), s.now + c.wait⟩ := by
  simp only [agreementStep, h]

theorem verdicts_of_sent (ledger : LedgerConfig) (b : ScopeBinding) {text : String}
    (h : sentAssertion (forwardOf digest P cfg token s c).1 = some text) :
    verdicts digest P cfg ledger token b s c =
      [⟨s.now + c.wait, (chargeOf P cfg ledger b s c text).map fun _ => ()⟩] := by
  simp only [verdicts, h]

theorem agreementStep_of_none (h : sentAssertion (forwardOf digest P cfg token s c).1 = none) :
    agreementStep digest P cfg ledger token b s c =
      ⟨(forwardOf digest P cfg token s c).2, s.ledger, s.now + c.wait⟩ := by
  simp only [agreementStep, h]

theorem verdicts_of_none (h : sentAssertion (forwardOf digest P cfg token s c).1 = none) :
    verdicts digest P cfg ledger token b s c = [] := by
  simp only [verdicts, h]

theorem RowAfter.wait (h : RowAfter ledger b l before output last) (hnow : before ≤ now) :
    RowAfter ledger b l now output last := by
  cases last with
  | none => exact h
  | some v => exact ⟨h.1.trans hnow, h.2⟩

/-- **A request keeps the two ends in agreement**, if it does not come after a long pause. -/
theorem Agreed.step (h : Agreed digest ledger token b s₀ s cs vs)
    (hknown : Known digest cfg ledger token b s₀)
    (hnext : ∀ v ∈ verdicts digest P cfg ledger token b s c, Next ledger b s₀ s cs vs c ∧
      ∀ last, vs.getLast? = some last → v.second < last.second + 300) :
    Agreed digest ledger token b s₀ (agreementStep digest P cfg ledger token b s c) (cs ++ [c])
      (vs ++ verdicts digest P cfg ledger token b s c) := by
  have hwait : s.now ≤ s.now + c.wait := s.now.le_wait c.wait
  rcases h.cases (P := P) hknown c with
    ⟨v, e, text, he, hbound, hrow, hwithin, hmax, hissued, hsent, hafter⟩ | ⟨hnone, hkept⟩
  · rw [verdicts_of_sent ledger b hsent] at hnext ⊢
    obtain ⟨hfits, hspaced⟩ := hnext _ List.mem_cons_self
    have hmeets := h.meets hknown hfits
    obtain ⟨l', hreserve, hrow'⟩ := reserve_signedFor hmeets hrow hspaced hwithin.2.2.1
    have hcharge := chargeOf_eq ledger hmax hmeets.epoch hfits.early hissued
    rw [hreserve] at hcharge
    rw [agreementStep_of_sent hsent, hafter, hcharge]
    refine ⟨⟨e.spend v, Table.get?_set_self he _, .inl hbound, ?_⟩, h.clock.trans hwait, ?_, ?_, ?_⟩
    · rw [List.getLast?_concat]
      exact hrow' _
    · intro nonce hinit hnotMem
      rw [List.map_append, List.mem_append, not_or] at hnotMem
      have hne : nonce ≠ (signedFor b (s.now + c.wait) c.nonce).nonce := fun hsame =>
        hnotMem.2 (List.mem_singleton.2 hsame)
      have hnonces := Table.get?_of_insert? (reserve_eq_ok hreserve).nonces nonce
      rw [if_neg hne, Ledger.liveNonces, Table.get?_deleteWhere, h.nonces nonce hinit hnotMem.1] at hnonces
      exact hnonces
    · have hcount := Table.count_of_insert? (reserve_eq_ok hreserve).nonces
      have hlive : (s.ledger.liveNonces (s.now + c.wait).posix).count ≤ s.ledger.nonces.count :=
        Table.count_deleteWhere_le _ _
      have hbefore := h.count
      rw [List.length_append, List.length_singleton]
      change l'.nonces.count ≤ _
      omega
    · intro v' hv'
      rcases List.mem_append.1 hv' with hv' | hv'
      · exact h.replies v' hv'
      · obtain rfl := List.mem_singleton.1 hv'
        rfl
  · rw [verdicts_of_none hnone, List.append_nil, agreementStep_of_none hnone]
    obtain ⟨e, he, hbinding, hrow⟩ := h.record
    obtain ⟨e', he', hcounters, hbinding'⟩ := hkept e he
    refine ⟨⟨e', he', ?_, ?_⟩, h.clock.trans hwait, fun nonce hinit hnotMem => ?_, h.count, h.replies⟩
    · rcases hbinding' with hsame | hended
      · rw [hsame]
        exact hbinding
      · exact .inr hended
    · rw [hcounters]
      exact hrow.wait hwait
    · rw [List.map_append, List.mem_append, not_or] at hnotMem
      exact h.nonces nonce hinit hnotMem.1

theorem verdictsOf_concat (s : BudgetState D) (cs : List RunRequest) (c : RunRequest) :
    verdictsOf digest P cfg ledger token b s (cs ++ [c]) = verdictsOf digest P cfg ledger token b s cs ++
      verdicts digest P cfg ledger token b (runOf digest P cfg ledger token b s cs) c := by
  rw [verdictsOf, Transition.outputs_append, Transition.outputs, Transition.outputs, List.append_nil]
  rfl

theorem runOf_concat (s : BudgetState D) (cs : List RunRequest) (c : RunRequest) :
    runOf digest P cfg ledger token b s (cs ++ [c]) =
      agreementStep digest P cfg ledger token b (runOf digest P cfg ledger token b s cs) c :=
  Transition.run_concat ..

/-- A request is answered at most once, at its own time. -/
theorem verdicts_eq_singleton {v : Verdict} (h : v ∈ verdicts digest P cfg ledger token b s c) :
    verdicts digest P cfg ledger token b s c = [v] ∧ v.time = s.now + c.wait := by
  cases hsent : sentAssertion (forwardOf digest P cfg token s c).1 with
  | none =>
    rw [verdicts_of_none hsent] at h
    cases h
  | some text =>
    rw [verdicts_of_sent ledger b hsent] at h ⊢
    obtain rfl := List.mem_singleton.1 h
    exact ⟨rfl, rfl⟩

theorem Fits.init (h : Fits digest P cfg ledger token b s (cs ++ [c])) :
    Fits digest P cfg ledger token b s cs where
  fresh c' hc' := h.fresh c' (List.mem_append_left _ hc')
  distinct := by
    have hdistinct := h.distinct
    rw [List.map_append] at hdistinct
    exact (List.nodup_append.1 hdistinct).1
  spare := by
    have hspare := h.spare
    rw [verdictsOf_concat, List.length_append] at hspare
    omega
  early v hv := h.early v (by rw [verdictsOf_concat]; exact List.mem_append_left _ hv)

theorem Fits.next (h : Fits digest P cfg ledger token b s₀ (cs ++ [c])) {v : Verdict}
    (hv : v ∈ verdicts digest P cfg ledger token b (runOf digest P cfg ledger token b s₀ cs) c) :
    Next ledger b s₀ (runOf digest P cfg ledger token b s₀ cs) cs
      (verdictsOf digest P cfg ledger token b s₀ cs) c := by
  obtain ⟨hsingle, htime⟩ := verdicts_eq_singleton hv
  refine ⟨?_, h.fresh c (by simp), ?_, ?_⟩
  · rw [← htime]
    refine h.early v ?_
    rw [verdictsOf_concat]
    exact List.mem_append_right _ hv
  · have hdistinct := h.distinct
    rw [List.map_append, List.nodup_append] at hdistinct
    exact fun hmem => hdistinct.2.2 _ hmem _ List.mem_cons_self rfl
  · have hspare := h.spare
    rw [verdictsOf_concat, hsingle, List.length_append, List.length_singleton] at hspare
    omega

theorem Spaced.init {vs' : List Verdict} (h : Spaced (vs ++ vs')) : Spaced vs := by
  rintro l v v' l' rfl
  exact h l v v' (l' ++ vs') (by simp)

theorem Spaced.second_lt {v last : Verdict} (h : Spaced (vs ++ [v])) (hlast : vs.getLast? = some last) :
    v.second < last.second + 300 := by
  obtain ⟨l, rfl⟩ := List.getLast?_eq_some_iff.1 hlast
  exact h l last v [] (by simp)

/-- **The two ends agree after every run that fits and has no long pause.** -/
theorem agreed_of_run (hknown : Known digest cfg ledger token b s₀) (cs : List RunRequest)
    (hfits : Fits digest P cfg ledger token b s₀ cs)
    (hspaced : Spaced (verdictsOf digest P cfg ledger token b s₀ cs)) :
    Agreed digest ledger token b s₀ (runOf digest P cfg ledger token b s₀ cs) cs
      (verdictsOf digest P cfg ledger token b s₀ cs) := by
  induction cs using List.reverseRecOn with
  | nil => exact agreed_init hknown.started
  | append_singleton cs c ih =>
    rw [verdictsOf_concat] at hspaced ⊢
    rw [runOf_concat]
    refine (ih hfits.init hspaced.init).step hknown fun v hv => ⟨hfits.next hv, fun last hlast => ?_⟩
    rw [(verdicts_eq_singleton hv).1] at hspaced
    exact hspaced.second_lt hlast

omit [DecidableEq D] in
theorem RowAfter.tokensReserved {e : Scope}
    (h : RowAfter ledger b s.ledger s.now e.outputTokens last) :
    tokensReserved b s = e.outputTokens := by
  cases last with
  | none => rw [Gateway.tokensReserved, h.1, h.2.1, Option.map_none, Option.getD_none]
  | some v =>
    obtain ⟨-, retainUntil, -, hrow⟩ := h
    rw [Gateway.tokensReserved, hrow, Option.map_some, Option.getD_some]

end Steps

/-- What is forwarded after a long pause is refused, and the ledger stays as it is. -/
theorem retired_of_run {digest : String → D} {P : Primitives} {cfg : ServerConfig}
    {ledger : LedgerConfig} {token : String} {b : ScopeBinding} {s : BudgetState D}
    (hstarted : Started digest cfg ledger token b s) {cs : List RunRequest} {c : RunRequest}
    (hfits : Fits digest P cfg ledger token b s (cs ++ [c]))
    (hspaced : Spaced (verdictsOf digest P cfg ledger token b s cs)) {l : List Verdict} {v v' : Verdict}
    (hlast : verdictsOf digest P cfg ledger token b s cs = l ++ [v])
    (hv' : v' ∈ verdicts digest P cfg ledger token b (runOf digest P cfg ledger token b s cs) c)
    (hpause : v.second + 300 ≤ v'.second) : v'.reply = .error "run ID is retired" ∧
      (runOf digest P cfg ledger token b s (cs ++ [c])).ledger =
        (runOf digest P cfg ledger token b s cs).ledger := by
  have hknown := hstarted.known
  have hagreed := agreed_of_run hknown cs hfits.init hspaced
  have hmeets := hagreed.meets hknown (hfits.next hv')
  obtain ⟨-, htime⟩ := verdicts_eq_singleton hv'
  rcases hagreed.cases (P := P) hknown c with
    ⟨ceilings, e, text, -, -, hrow, -, hmax, hissued, hsent, -⟩ | ⟨hnone, -⟩
  · rw [hlast, List.getLast?_concat] at hrow
    rw [show v'.second = (_ : Time).posix from congrArg Time.posix htime] at hpause
    have hcharge := chargeOf_eq ledger hmax hmeets.epoch (hfits.next hv').early hissued
    rw [reserve_retired hmeets hrow hpause] at hcharge
    rw [verdicts_of_sent ledger b hsent, hcharge] at hv'
    refine ⟨by rw [List.mem_singleton.1 hv']; rfl, ?_⟩
    rw [runOf_concat, agreementStep_of_sent hsent, hcharge]
    rfl
  · rw [verdicts_of_none hnone] at hv'
    cases hv'

/-- **The budgets of the transport and of the gateway agree.** -/
theorem agreement_of_run (digest : String → D) (P : Primitives) (cfg : ServerConfig)
    (ledger : LedgerConfig) (token : String) (b : ScopeBinding) (s : BudgetState D) :
    Agreement digest P cfg ledger token b s where
  accepted hstarted cs hfits hspaced := by
    have hagreed := agreed_of_run hstarted.known cs hfits hspaced
    obtain ⟨e, he, -, hrow⟩ := hagreed.record
    refine ⟨hagreed.replies, ?_⟩
    rw [hrow.tokensReserved, outputTokens, he, Option.map_some, Option.getD_some]
  retired hstarted _ _ hfits hspaced _ _ _ hlast hv' hpause :=
    retired_of_run hstarted hfits hspaced hlast hv' hpause

/-! ### A long pause -/

/-- Everything is accepted, whatever the pauses are. -/
def AgreesAlways (digest : String → D) (P : Primitives) (cfg : ServerConfig) (ledger : LedgerConfig)
    (token : String) (b : ScopeBinding) (s : BudgetState D) : Prop :=
  Started digest cfg ledger token b s → ∀ cs, Fits digest P cfg ledger token b s cs →
    ∀ v ∈ verdictsOf digest P cfg ledger token b s cs, v.reply = .ok ()

def sampleServer : ServerConfig where
  capacity := ⟨1, 1, false, by decide, by decide, by decide⟩
  controlToken := "control-0123456789"
  clientToken := "client-0123456789"
  mcpToken := "mcp-0123456789abc"
  gatewayToken := "gateway-0123456789"
  assertionKey := sampleKey
  pricing := ⟨1, 1, by decide, by decide⟩
  credentials := by decide +kernel
  distinct := by decide +kernel
  key_length := by decide

def sampleToken : String := String.ofList ("scope_".toList ++ List.replicate 43 't')

/-- A binding that lives for ten minutes. -/
def sampleBinding : ScopeBinding where
  runId := "run-1"
  workflowId := 7
  revisionId := 1
  revisionDigest := String.ofList (List.replicate 64 'a')
  actorId := "1"
  capability := String.ofList ("cap_".toList ++ List.replicate 43 'c')
  modelAlias := "alias"
  expiresAt := seconds 600
  maxInferences := 10
  maxInputTokens := 1000
  maxOutputTokens := 100
  maxCostMicrousd := 1000

/-- The registry after the registration of the binding. -/
def sampleRegistry : Registry String :=
  (register (fun token => token) sampleServer.capacity 0 0 sampleToken sampleBinding .empty).2

def sampleState : BudgetState String := ⟨sampleRegistry, .empty, 0⟩

/-- An inference for ten tokens. -/
def sampleRequest (wait : ℕ) (nonce : Uuid) : RunRequest where
  wait
  enabled := true
  lease := .isTrue
  leaseAgain := .isTrue
  nonce
  path := .inference
  length := 50
  body := .obj [("model", .lit "alias"), ("max_tokens", .int 10)]

theorem started_sampleState :
    Started (fun token => token) sampleServer sampleLedger sampleToken sampleBinding sampleState where
  registered := by
    have hchecked : (validateBinding sampleBinding 0).toOption = some sampleBinding := by decide +kernel
    have hregistered : (register (fun token : String => token) sampleServer.capacity 0 0 sampleToken
        sampleBinding .empty).1.isOk = true := by decide +kernel
    obtain ⟨⟨⟩, hok⟩ := exists_of_isOk hregistered
    refine ⟨0, 0, sampleBinding, .empty, rfl, ?_, le_refl _, Prod.ext hok rfl⟩
    cases hresult : validateBinding sampleBinding 0 with
    | error e =>
      rw [hresult] at hchecked
      cases hchecked
    | ok checked =>
      rw [hresult] at hchecked
      exact congrArg Except.ok (Option.some.inj hchecked)
  epoch := le_refl _
  unknown := rfl
  spare := by decide

/-- Two requests with a long pause between them. -/
theorem not_agreesAlways_of_pause {digest : String → D} {P : Primitives} {cfg : ServerConfig}
    {ledger : LedgerConfig} {token : String} {b : ScopeBinding} {s : BudgetState D} {c c' : RunRequest}
    (hstarted : Started digest cfg ledger token b s)
    (hfresh : ∀ nonce, s.ledger.nonces.get? nonce = none) (hspare : s.ledger.nonces.count + 2 ≤
      ledger.maximumRecords) (hdistinct : uuidText c.nonce ≠ uuidText c'.nonce)
    (hsent : (sentAssertion (forwardOf digest P cfg token s c).1).isSome = true)
    (hsent' : (sentAssertion (forwardOf digest P cfg token
      (agreementStep digest P cfg ledger token b s c) c').1).isSome = true)
    (hearly : s.now + c.wait + c'.wait + seconds 1 ≤ b.expiresAt)
    (hpause : (s.now + c.wait).posix + 300 ≤ (s.now + c.wait + c'.wait).posix) :
    ¬ AgreesAlways digest P cfg ledger token b s := by
  intro h
  obtain ⟨text, htext⟩ := Option.isSome_iff_exists.1 hsent
  obtain ⟨text', htext'⟩ := Option.isSome_iff_exists.1 hsent'
  have hfirst := verdicts_of_sent ledger b htext
  have hsecond := verdicts_of_sent ledger b htext'
  have hone : verdictsOf digest P cfg ledger token b s [c] = verdicts digest P cfg ledger token b s c :=
    verdictsOf_concat s [] c
  have htwo : verdictsOf digest P cfg ledger token b s ([c] ++ [c']) =
      verdicts digest P cfg ledger token b s c ++
        verdicts digest P cfg ledger token b (agreementStep digest P cfg ledger token b s c) c' := by
    rw [verdictsOf_concat, hone]
    rfl
  have hbefore : s.now + c.wait + seconds 1 ≤ b.expiresAt :=
    (Int.add_le_add_right (Time.le_wait _ c'.wait) _).trans hearly
  have hfits : Fits digest P cfg ledger token b s ([c] ++ [c']) := by
    refine ⟨fun _ _ => hfresh _, by simpa using hdistinct, ?_, ?_⟩
    · rw [htwo, hfirst, hsecond]
      exact hspare
    · rw [htwo, hfirst, hsecond]
      intro v hv
      rcases List.mem_pair.1 hv with rfl | rfl
      · exact hbefore
      · exact hearly
  have hspaced : Spaced (verdictsOf digest P cfg ledger token b s [c]) := by
    rw [hone, hfirst]
    intro l v v' l' hsplit
    have hlength := congrArg List.length hsplit
    simp only [List.length_append, List.length_cons, List.length_nil] at hlength
    omega
  have hmem : _ ∈ verdicts digest P cfg ledger token b (runOf digest P cfg ledger token b s [c]) c' :=
    hsecond.symm ▸ List.mem_cons_self
  have hrefused := (retired_of_run hstarted hfits hspaced (l := []) (hone.trans hfirst) hmem hpause).1
  have haccepted := h hstarted ([c] ++ [c']) hfits _ (by
    rw [htwo, hsecond]
    exact List.mem_append_right _ List.mem_cons_self)
  rw [haccepted] at hrefused
  cases hrefused

/-- **A run that pauses for 300 seconds is not served to its end**, although its binding lives on: the
requests come at 10 s and at 311 s. -/
theorem not_agreesAlways : ¬ AgreesAlways (fun token => token) flatPrimitives sampleServer sampleLedger
    sampleToken sampleBinding sampleState :=
  @not_agreesAlways_of_pause _ _ _ _ _ _ _ _ _ (sampleRequest 10000000 1) (sampleRequest 301000000 2)
    started_sampleState (fun _ => rfl) (by decide) (by decide +kernel) (by decide +kernel)
    (by decide +kernel) (by decide +kernel) (by decide +kernel)

end Gateway

end CivicLoop
