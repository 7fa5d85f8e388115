import CivicLoop.Foundation.Calendar
import CivicLoop.Foundation.Checked
import CivicLoop.Foundation.DateTime
import CivicLoop.Foundation.Transition
import Mathlib

/-!
# The codes of a TOTP device

A code is for a time step of thirty seconds. The clock of a device may be wrong: the code of the step before
and of the step after are tried too, and the offset of the one that matched is kept for the next attempt.
A step is not accepted a second time, nor is one before it. After a failure the device is closed for a
second, and for twice as long after each further one.

## Main definitions

* `AdministratorTotpDevice` : the row.
* `totpVerify` : the codes that are tried.
* `verifyTotpTransaction` : an attempt.
* `Attempt` : what an attempt read, and what it wrote.
* `acceptedSteps`, `failuresSince` : the accepted steps, and the failures since the last of them.
* `Throttled` : what the row says of the attempts so far.
* `SoundAttempts` : no replay, and the throttle.

## Main results

* `verifyTotp_effect` : the outcomes of an attempt, and what each writes.
* `throttled_run` : the row says it in every run.
* `soundAttempts_run` : steps increase, failures get rarer, a refused attempt writes nothing.
-/

namespace CivicLoop.Identity

/-! ### The row -/

/-- `AdministratorTOTPDevice`: what an attempt reads and writes. -/
structure AdministratorTotpDevice (Envelope : Type) where
  seedEnvelope : Envelope
  confirmed : Bool
  drift : ℤ
  lastT : ℤ
  lastUsedAt : Option Time
  replacedAt : Option Time
  disabledAt : Option Time
  throttlingFailureCount : ℕ
  throttlingFailureTimestamp : Option Time

/-- The row that `begin_totp_enrollment` creates. -/
def enrolledTotpDevice {Envelope : Type} (seedEnvelope : Envelope) : AdministratorTotpDevice Envelope where
  seedEnvelope
  confirmed := false
  drift := 0
  lastT := -1
  lastUsedAt := none
  replacedAt := none
  disabledAt := none
  throttlingFailureCount := 0
  throttlingFailureTimestamp := none

/-- The last datetime. -/
def datetimeMax : Time := 253402300799999999

/-- The errors other than a failed verification: a span or a datetime out of range, a seed that cannot be
decrypted, and a number that the column cannot hold. -/
inductive TotpError
  | overflow
  | seed
  | data
deriving DecidableEq

/-- The arguments of `verify_totp`. -/
structure TotpCall where
  token : String
  now : Time
  allowUnconfirmed : Bool

/-- `TOTP.verify` with a tolerance of one step, where `code` gives the code of a step: the drift under
which the step is not below `minT` and its code is the token. -/
def totpVerify (code : ℤ → ℕ) (serverStep drift : ℤ) (token : ℕ) (minT : ℤ) : Option ℤ :=
  [drift - 1, drift, drift + 1].find? fun tried =>
    minT ≤ serverStep + tried && code (serverStep + tried) == token

theorem of_totpVerify {code : ℤ → ℕ} {serverStep drift minT drift' : ℤ} {token : ℕ}
    (h : totpVerify code serverStep drift token minT = some drift') :
    drift - 1 ≤ drift' ∧ drift' ≤ drift + 1 ∧ minT ≤ serverStep + drift' ∧ code (serverStep + drift') = token := by
  have hmem := List.mem_of_find?_eq_some h
  have hfound := List.find?_some h
  simp only [Bool.and_eq_true, decide_eq_true_eq, beq_iff_eq] at hfound
  simp only [List.mem_cons, List.not_mem_nil, or_false] at hmem
  refine ⟨?_, ?_, hfound.1, hfound.2⟩ <;> omega

/-! ### An attempt -/

section Verify

variable {Envelope Seed : Type} (decrypt : Envelope → Option Seed) (hotp : Seed → ℤ → ℕ)

/-- `device.step`. -/
def totpStep : ℤ := 30

/-- The step of the server's clock. -/
def serverStep (now : Time) : ℤ := now.posix / totpStep

/-- The time a device is closed after `count` failures. -/
def throttleDelay (count : ℕ) : ℤ := seconds (2 ^ (count - 1))

/-- `_throttle_allows`. -/
def throttleAllows (device : AdministratorTotpDevice Envelope) (now : Time) : Except TotpError Bool :=
  match device.throttlingFailureTimestamp with
  | none => .ok true
  | some failedAt =>
    if device.throttlingFailureCount = 0 then .ok true
    else do
      ensure (failedAt + throttleDelay device.throttlingFailureCount ≤ datetimeMax) TotpError.overflow
      return failedAt + throttleDelay device.throttlingFailureCount ≤ now

/-- The first conditions of an attempt: the device may be used, and it is open. -/
def isRefused (device : AdministratorTotpDevice Envelope) (call : TotpCall) : Except TotpError Bool :=
  if device.disabledAt ≠ none ∨ device.replacedAt ≠ none ∨ (device.confirmed = false ∧ call.allowUnconfirmed = false)
  then .ok true
  else do
    let allowed ← throttleAllows device call.now
    return !allowed

/-- The number that six digits stand for. -/
def sixDigits (token : String) : Option ℕ :=
  if token.toList.length = 6 ∧ token.toList.all Char.isDigit = true then some (digitsValue token.toList) else none

/-- The drift under which the token is a code that was not accepted before. -/
def matchedDrift (device : AdministratorTotpDevice Envelope) (call : TotpCall) : Except TotpError (Option ℤ) :=
  match sixDigits call.token with
  | none => .ok none
  | some token => do
    let seed ← fetch (decrypt device.seedEnvelope) TotpError.seed
    return totpVerify (hotp seed) (serverStep call.now) device.drift token (device.lastT + 1)

/-- `_verify_totp_transaction`: whether the token was accepted. -/
def verifyTotpTransaction (device : AdministratorTotpDevice Envelope) (call : TotpCall) :
    Except TotpError (Bool × AdministratorTotpDevice Envelope) := do
  let refused ← isRefused device call
  if refused = true then return (false, device)
  else do
    match ← matchedDrift decrypt hotp device call with
    | none => return (false, { device with
        throttlingFailureCount := device.throttlingFailureCount + 1
        throttlingFailureTimestamp := some call.now })
    | some drift => do
      ensure (-32768 ≤ drift ∧ drift ≤ 32767) TotpError.data
      return (true, { device with
        lastT := serverStep call.now + drift
        drift
        lastUsedAt := some call.now
        throttlingFailureCount := 0
        throttlingFailureTimestamp := none })

/-- What an attempt can do, and what each outcome writes. -/
inductive VerifyEffect (device : AdministratorTotpDevice Envelope) (call : TotpCall) :
    Except TotpError (Bool × AdministratorTotpDevice Envelope) → Prop
  | raised (e : TotpError) : VerifyEffect device call (.error e)
  | refused (h : isRefused device call = .ok true) : VerifyEffect device call (.ok (false, device))
  | failed (h : isRefused device call = .ok false) : VerifyEffect device call (.ok (false, { device with
      throttlingFailureCount := device.throttlingFailureCount + 1
      throttlingFailureTimestamp := some call.now }))
  | accepted (h : isRefused device call = .ok false) (drift : ℤ)
      (hnear : device.drift - 1 ≤ drift ∧ drift ≤ device.drift + 1)
      (hnew : device.lastT + 1 ≤ serverStep call.now + drift) :
      VerifyEffect device call (.ok (true, { device with
        lastT := serverStep call.now + drift
        drift
        lastUsedAt := some call.now
        throttlingFailureCount := 0
        throttlingFailureTimestamp := none }))

variable {decrypt hotp} in
theorem of_matchedDrift {device : AdministratorTotpDevice Envelope} {call : TotpCall} {drift : ℤ}
    (h : matchedDrift decrypt hotp device call = .ok (some drift)) :
    (device.drift - 1 ≤ drift ∧ drift ≤ device.drift + 1) ∧
      device.lastT + 1 ≤ serverStep call.now + drift := by
  unfold matchedDrift at h
  cases htoken : sixDigits call.token with
  | none =>
    rw [htoken] at h
    cases h
  | some token =>
    rw [htoken] at h
    obtain ⟨seed, -, h⟩ := bind_eq_ok.1 h
    obtain ⟨hlow, hhigh, hnew, -⟩ := of_totpVerify (Except.ok.inj h)
    exact ⟨⟨hlow, hhigh⟩, hnew⟩

theorem verifyTotp_effect (device : AdministratorTotpDevice Envelope) (call : TotpCall) :
    VerifyEffect device call (verifyTotpTransaction decrypt hotp device call) := by
  unfold verifyTotpTransaction
  cases hrefused : isRefused device call with
  | error e => exact .raised e
  | ok refused =>
    cases refused with
    | true => exact .refused hrefused
    | false =>
      change VerifyEffect device call (matchedDrift decrypt hotp device call >>= _)
      cases hmatched : matchedDrift decrypt hotp device call with
      | error e => exact .raised e
      | ok matched =>
        cases matched with
        | none => exact .failed hrefused
        | some drift =>
          obtain ⟨hnear, hnew⟩ := of_matchedDrift hmatched
          by_cases hfits : -32768 ≤ drift ∧ drift ≤ 32767
          · have haccepted := VerifyEffect.accepted hrefused drift hnear hnew
            change VerifyEffect device call (ensure _ _ >>= _)
            rwa [ensure_bind hfits]
          · change VerifyEffect device call (ensure _ _ >>= _)
            rw [ensure_bind_of_not hfits]
            exact .raised _

/-- A device that an attempt may use is open: after its last failure the delay has passed. -/
theorem open_of_not_refused {device : AdministratorTotpDevice Envelope} {call : TotpCall}
    (h : isRefused device call = .ok false) {failedAt : Time}
    (hfailed : device.throttlingFailureTimestamp = some failedAt) (hcount : device.throttlingFailureCount ≠ 0) :
    failedAt + throttleDelay device.throttlingFailureCount ≤ call.now := by
  unfold isRefused at h
  split_ifs at h
  · cases h
  · obtain ⟨allowed, hallows, h⟩ := bind_eq_ok.1 h
    obtain rfl : allowed = true := by simpa using Except.ok.inj h
    unfold throttleAllows at hallows
    rw [hfailed] at hallows
    simp only [if_neg hcount] at hallows
    obtain ⟨-, -, hallows⟩ := bind_eq_ok.1 hallows
    exact of_decide_eq_true (Except.ok.inj hallows)

/-- Whether the device may be used, and whether it is open. -/
theorem isRefused_of {device : AdministratorTotpDevice Envelope} {call : TotpCall}
    (h : device.disabledAt ≠ none ∨ device.replacedAt ≠ none ∨
      (device.confirmed = false ∧ call.allowUnconfirmed = false) ∨ throttleAllows device call.now = .ok false) :
    isRefused device call = .ok true := by
  unfold isRefused
  split_ifs with hunusable
  · rfl
  · have hclosed : throttleAllows device call.now = .ok false := by tauto
    rw [hclosed]
    rfl

/-! ### Runs -/

/-- A call of `verify_totp`: the row before, the call, whether the token was accepted, and the row after. -/
structure Attempt (Envelope : Type) where
  before : AdministratorTotpDevice Envelope
  call : TotpCall
  outcome : Except TotpError Bool
  after : AdministratorTotpDevice Envelope

/-- The token was accepted. -/
def Attempt.accepted (attempt : Attempt Envelope) : Bool :=
  match attempt.outcome with
  | .ok true => true
  | _ => false

/-- The attempt was evaluated, and the token was not accepted. -/
def Attempt.failed (attempt : Attempt Envelope) : Bool :=
  match isRefused attempt.before attempt.call, attempt.outcome with
  | .ok false, .ok false => true
  | _, _ => false

/-- What happens to a device: a call of `verify_totp`, and the other updates of the row, which write whether
it can be used. -/
inductive TotpAction
  | verify (call : TotpCall)
  | update (confirmed : Bool) (replacedAt disabledAt : Option Time)

/-- The row after an action. -/
def totpAction (device : AdministratorTotpDevice Envelope) : TotpAction → AdministratorTotpDevice Envelope
  | .verify call => commit device (verifyTotpTransaction decrypt hotp device call)
  | .update confirmed replacedAt disabledAt => { device with confirmed, replacedAt, disabledAt }

/-- The attempts that an action makes. -/
def totpAttempts (device : AdministratorTotpDevice Envelope) : TotpAction → List (Attempt Envelope)
  | .verify call =>
    [{ before := device, call,
       outcome := (verifyTotpTransaction decrypt hotp device call).map Prod.fst
       after := commit device (verifyTotpTransaction decrypt hotp device call) }]
  | .update _ _ _ => []

/-- The steps that were accepted. -/
def acceptedSteps (log : List (Attempt Envelope)) : List ℤ :=
  (log.filter Attempt.accepted).map fun attempt => attempt.after.lastT

/-- The times of the failures since the last accepted attempt. -/
def failuresSince (log : List (Attempt Envelope)) : List Time :=
  log.foldl (fun times attempt =>
    if attempt.accepted = true then [] else if attempt.failed = true then times ++ [attempt.call.now] else times) []

theorem failuresSince_concat (log : List (Attempt Envelope)) (attempt : Attempt Envelope) :
    failuresSince (log ++ [attempt]) =
      if attempt.accepted = true then []
      else if attempt.failed = true then failuresSince log ++ [attempt.call.now] else failuresSince log := by
  rw [failuresSince, List.foldl_append]
  rfl

theorem acceptedSteps_concat (log : List (Attempt Envelope)) (attempt : Attempt Envelope) :
    acceptedSteps (log ++ [attempt]) =
      if attempt.accepted = true then acceptedSteps log ++ [attempt.after.lastT] else acceptedSteps log := by
  rw [acceptedSteps, List.filter_append, List.map_append]
  cases h : attempt.accepted <;> simp [h, acceptedSteps]

/-- The failures get rarer: the time since the first of them doubles with each. -/
def Rarer (times : List Time) : Prop :=
  ∀ (k : ℕ) (first kth : Time), times[0]? = some first → times[k]? = some kth → first + seconds (2 ^ k - 1) ≤ kth

/-- What the row says of the attempts so far. -/
structure Throttled (device : AdministratorTotpDevice Envelope) (log : List (Attempt Envelope)) : Prop where
  increasing : (acceptedSteps log).Pairwise (· < ·)
  below : ∀ t ∈ acceptedSteps log, t ≤ device.lastT
  near : ∀ attempt ∈ log, attempt.accepted = true →
    serverStep attempt.call.now + attempt.before.drift - 1 ≤ attempt.after.lastT ∧
      attempt.after.lastT ≤ serverStep attempt.call.now + attempt.before.drift + 1
  unchanged : ∀ attempt ∈ log, isRefused attempt.before attempt.call = .ok true → attempt.after = attempt.before
  count : device.throttlingFailureCount = (failuresSince log).length
  stamp : device.throttlingFailureTimestamp = (failuresSince log).getLast?
  rarer : Rarer (failuresSince log)

theorem throttled_enrolled (seedEnvelope : Envelope) : Throttled (enrolledTotpDevice seedEnvelope) [] where
  increasing := .nil
  below := by simp [acceptedSteps]
  near := by simp
  unchanged := by simp
  count := rfl
  stamp := rfl
  rarer := by simp [Rarer, failuresSince]

theorem seconds_double (n : ℕ) : seconds (2 ^ (n + 1) - 1) = seconds (2 ^ n - 1) + seconds (2 ^ n) := by
  simp only [seconds, pow_succ]
  ring

/-- One more failure, after the delay. -/
theorem Rarer.concat {times : List Time} {now : Time} (h : Rarer times)
    (hopen : ∀ last, times.getLast? = some last → last + throttleDelay times.length ≤ now) :
    Rarer (times ++ [now]) := by
  intro k first kth hfirst hkth
  by_cases hk : k < times.length
  · rw [List.getElem?_append_left hk] at hkth
    rw [List.getElem?_append_left (by omega)] at hfirst
    exact h k first kth hfirst hkth
  · obtain ⟨hlast, rfl⟩ : k = times.length ∧ now = kth := by
      have hlt := (List.getElem?_eq_some_iff.1 hkth).1
      rw [List.length_append, List.length_singleton] at hlt
      obtain rfl : k = times.length := by omega
      rw [List.getElem?_append_right le_rfl, Nat.sub_self] at hkth
      exact ⟨rfl, by simpa using hkth⟩
    rcases Nat.eq_zero_or_pos times.length with hzero | hpos
    · -- the first failure
      obtain rfl := List.length_eq_zero_iff.1 hzero
      obtain rfl : now = first := by simpa using hfirst
      rw [hlast]
      exact le_of_eq (add_zero _)
    · obtain ⟨n, hn⟩ : ∃ n, times.length = n + 1 := ⟨times.length - 1, by omega⟩
      have hget : times[n]? = times.getLast? := by rw [List.getLast?_eq_getElem?, hn, Nat.add_sub_cancel]
      have hlt : n < times.length := by omega
      have hlastTime : times.getLast? = some times[n] := by rw [← hget, List.getElem?_eq_getElem hlt]
      rw [List.getElem?_append_left hpos] at hfirst
      have hopen' := hopen _ hlastTime
      rw [throttleDelay, hn, Nat.add_sub_cancel] at hopen'
      rw [hlast, hn]
      calc first + seconds (2 ^ (n + 1) - 1)
          = first + seconds (2 ^ n - 1) + seconds (2 ^ n) := by rw [seconds_double, add_assoc]
        _ ≤ times[n] + seconds (2 ^ n) :=
            Int.add_le_add_right (h n first _ hfirst (hget.trans hlastTime)) _
        _ ≤ now := hopen'

theorem mem_concat {P : Attempt Envelope → Prop} {log : List (Attempt Envelope)} {attempt : Attempt Envelope}
    (hold : ∀ attempt ∈ log, P attempt) (hnew : P attempt) : ∀ attempt' ∈ log ++ [attempt], P attempt' := by
  intro attempt' hmem
  obtain hmem | hmem := List.mem_append.1 hmem
  · exact hold attempt' hmem
  · exact List.mem_singleton.1 hmem ▸ hnew

/-- An attempt that is not evaluated. -/
theorem Throttled.concat_idle {device : AdministratorTotpDevice Envelope} {log : List (Attempt Envelope)}
    {attempt : Attempt Envelope} (h : Throttled device log) (haccepted : attempt.accepted = false)
    (hfailed : attempt.failed = false) (hunchanged : attempt.after = attempt.before) :
    Throttled device (log ++ [attempt]) := by
  have hsteps : acceptedSteps (log ++ [attempt]) = acceptedSteps log := by
    rw [acceptedSteps_concat, haccepted]
    rfl
  have hfailures : failuresSince (log ++ [attempt]) = failuresSince log := by
    rw [failuresSince_concat, haccepted, hfailed]
    rfl
  constructor
  · rw [hsteps]
    exact h.increasing
  · rw [hsteps]
    exact h.below
  · exact mem_concat h.near fun hsome => by rw [haccepted] at hsome; cases hsome
  · exact mem_concat h.unchanged fun _ => hunchanged
  · rw [hfailures]
    exact h.count
  · rw [hfailures]
    exact h.stamp
  · rw [hfailures]
    exact h.rarer

/-- An action keeps what the row says. -/
theorem Throttled.concat {device : AdministratorTotpDevice Envelope} {log : List (Attempt Envelope)}
    (h : Throttled device log) (action : TotpAction) :
    Throttled (totpAction decrypt hotp device action) (log ++ totpAttempts decrypt hotp device action) := by
  cases action with
  | update confirmed replacedAt disabledAt =>
    rw [totpAttempts, List.append_nil]
    exact ⟨h.increasing, h.below, h.near, h.unchanged, h.count, h.stamp, h.rarer⟩
  | verify call =>
    simp only [totpAction, totpAttempts]
    have heffect := verifyTotp_effect decrypt hotp device call
    generalize verifyTotpTransaction decrypt hotp device call = result at heffect
    cases heffect with
    | raised e =>
      refine h.concat_idle rfl ?_ rfl
      simp only [Attempt.failed, Except.map]
      split <;> simp_all
    | refused hrefused =>
      refine h.concat_idle rfl ?_ rfl
      simp only [Attempt.failed, hrefused]
    | failed hopen =>
      have hopened (last : Time) (hlast : (failuresSince log).getLast? = some last) :
          last + throttleDelay (failuresSince log).length ≤ call.now := by
        rw [← h.count]
        refine open_of_not_refused hopen (h.stamp.trans hlast) fun hzero => ?_
        rw [h.count, List.length_eq_zero_iff] at hzero
        rw [hzero] at hlast
        cases hlast
      have hfailures (attempt : Attempt Envelope) (haccepted : attempt.accepted = false)
          (hfailed : attempt.failed = true) :
          failuresSince (log ++ [attempt]) = failuresSince log ++ [attempt.call.now] := by
        rw [failuresSince_concat, haccepted, hfailed]
        rfl
      constructor
      · rw [acceptedSteps_concat]
        exact h.increasing
      · rw [acceptedSteps_concat]
        exact h.below
      · exact mem_concat h.near fun hsome => by cases hsome
      · exact mem_concat h.unchanged fun hrefused => by rw [hopen] at hrefused; cases hrefused
      · rw [hfailures _ rfl (by simp only [Attempt.failed, hopen, Except.map]), List.length_append, ← h.count]
        rfl
      · rw [hfailures _ rfl (by simp only [Attempt.failed, hopen, Except.map]), List.getLast?_concat]
        rfl
      · rw [hfailures _ rfl (by simp only [Attempt.failed, hopen, Except.map])]
        exact h.rarer.concat hopened
    | accepted hopen drift hnear hnew =>
      have hbelow (t : ℤ) (ht : t ∈ acceptedSteps log) : t < serverStep call.now + drift := by
        have hle := h.below t ht
        omega
      constructor
      · rw [acceptedSteps_concat]
        refine List.pairwise_append.2 ⟨h.increasing, List.pairwise_singleton _ _, ?_⟩
        intro t ht step hstep
        rw [List.mem_singleton.1 hstep]
        exact hbelow t ht
      · rw [acceptedSteps_concat]
        intro t ht
        obtain ht | ht := List.mem_append.1 ht
        · exact (hbelow t ht).le
        · exact (List.mem_singleton.1 ht).le
      · refine mem_concat h.near fun _ => ?_
        simp only [commit]
        omega
      · exact mem_concat h.unchanged fun hrefused => by rw [hopen] at hrefused; cases hrefused
      · rw [failuresSince_concat]
        rfl
      · rw [failuresSince_concat]
        rfl
      · rw [failuresSince_concat]
        intro k first kth hfirst
        cases hfirst

/-- Every run of an enrolled device keeps what its row says. -/
theorem throttled_run (seedEnvelope : Envelope) (actions : List TotpAction) :
    Throttled (Transition.run (totpAction decrypt hotp) (enrolledTotpDevice seedEnvelope) actions)
      (Transition.outputs (totpAction decrypt hotp) (totpAttempts decrypt hotp)
        (enrolledTotpDevice seedEnvelope) actions) := by
  rw [← List.nil_append (Transition.outputs (totpAction decrypt hotp) _ _ _)]
  exact Transition.outputs_induction (P := Throttled) (fun device action log h => h.concat decrypt hotp action)
    (throttled_enrolled seedEnvelope) actions

/-- A refused attempt reads the row only. -/
theorem verifyTotp_of_refused {device : AdministratorTotpDevice Envelope} {call : TotpCall}
    (h : isRefused device call = .ok true) :
    verifyTotpTransaction decrypt hotp device call = .ok (false, device) := by
  rw [verifyTotpTransaction, h]
  rfl

/-- No step is accepted twice, each is one that the clock of the device may show, failures get rarer, and an
attempt on a device that is not usable or not open changes nothing. -/
structure SoundAttempts (log : List (Attempt Envelope)) : Prop where
  increasing : (acceptedSteps log).Pairwise (· < ·)
  near : ∀ attempt ∈ log, attempt.accepted = true →
    serverStep attempt.call.now + attempt.before.drift - 1 ≤ attempt.after.lastT ∧
      attempt.after.lastT ≤ serverStep attempt.call.now + attempt.before.drift + 1
  rarer : Rarer (failuresSince log)
  unchanged : ∀ attempt ∈ log,
    attempt.before.disabledAt ≠ none ∨ attempt.before.replacedAt ≠ none ∨
      (attempt.before.confirmed = false ∧ attempt.call.allowUnconfirmed = false) ∨
      throttleAllows attempt.before attempt.call.now = .ok false →
    attempt.outcome = .ok false ∧ attempt.after = attempt.before

/-- The attempts of every run of an enrolled device are sound. -/
theorem soundAttempts_run (seedEnvelope : Envelope) (actions : List TotpAction) :
    SoundAttempts (Transition.outputs (totpAction decrypt hotp) (totpAttempts decrypt hotp)
      (enrolledTotpDevice seedEnvelope) actions) := by
  have h := throttled_run decrypt hotp seedEnvelope actions
  refine ⟨h.increasing, h.near, h.rarer, ?_⟩
  intro attempt hmem hclosed
  obtain ⟨before, action, after, -, hattempt⟩ := Transition.mem_outputs hmem
  cases action with
  | update _ _ _ => cases hattempt
  | verify call =>
    obtain rfl := List.mem_singleton.1 hattempt
    rw [verifyTotp_of_refused decrypt hotp (isRefused_of hclosed)]
    exact ⟨rfl, rfl⟩

end Verify

-- A code is for its step only once; after a failure the device is closed for a second.
example :
    let call (now : ℤ) (token : String) : TotpAction := .verify ⟨token, seconds now, true⟩
    let log := Transition.outputs (totpAction (fun _ : Unit => some ()) fun _ step => step.toNat)
      (totpAttempts (fun _ : Unit => some ()) fun _ step => step.toNat) (enrolledTotpDevice ())
      [call 60 "000002", call 61 "000002", call 61 "000003", call 62 "000003"]
    log.map Attempt.accepted = [true, false, false, true] ∧ acceptedSteps log = [2, 3] := by
  decide +kernel

end CivicLoop.Identity
