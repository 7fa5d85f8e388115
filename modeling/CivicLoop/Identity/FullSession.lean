import CivicLoop.Foundation.Calendar
import CivicLoop.Foundation.Checked
import CivicLoop.Foundation.Json
import CivicLoop.Foundation.Table
import CivicLoop.Foundation.Transition

/-!
# The sessions of the owner

The owner logs in with a password and a TOTP code. A recovery code gives a restricted session only, which
can do nothing but enroll a new device. Each view reads the profile first; the transactions that verify a
code and that make a session come later, and others may run in between. The transactions that confirm an
enrollment read the profile again, under a lock. The one that makes the session of a TOTP login does not:
if the owner was recovered or reset after the code was verified, the session is a full one all the same.

## Main definitions

* `OwnerDb` : the rows of one profile.
* `completeRecovery`, `completeInitialEnrollment`, `completeRecoveryEnrollment`, `establishTotpSession`,
  `resetOwnerMfa` : the transactions.
* `OwnerState`, `ownerStep` : flows, and their steps.
* `NoFullSession` : while the owner is not active, no session is a full one.
* `Late` : the step that breaks it.

## Main results

* `noFullSession_of_run` : it holds of every run without such a step.
* `not_noFullSession` : it does not hold of a run with one.
-/

namespace CivicLoop.Identity

/-! ### Rows -/

/-- `AdministratorProfile.Status`. -/
inductive OwnerStatus
  | enrollmentRequired
  | active
  | recoveryRequired
  | disabled
deriving DecidableEq

/-- `AdministratorSession`. -/
structure OwnerSession where
  mfaVerifiedAt : Option Time
  recoveryRestricted : Bool
  revokedAt : Option Time
deriving DecidableEq

/-- `AdministratorTOTPDevice`. -/
structure TotpDevice where
  confirmed : Bool
  disabledAt : Option Time
  replacedAt : Option Time
deriving DecidableEq

/-- `RecoveryCode`. -/
structure RecoveryCode where
  consumedAt : Option Time
  invalidatedAt : Option Time
deriving DecidableEq

/-- The rows of the profile. -/
structure OwnerDb where
  status : OwnerStatus
  sessions : Table Uuid OwnerSession
  devices : Table Uuid TotpDevice
  codes : Table Uuid RecoveryCode

/-- `update(revoked_at=now)` of the sessions that are not revoked. -/
def OwnerSession.revoke (now : Time) (session : OwnerSession) : OwnerSession :=
  if session.revokedAt = none then { session with revokedAt := some now } else session

/-- `update(invalidated_at=now)`. -/
def RecoveryCode.invalidate (now : Time) (code : RecoveryCode) : RecoveryCode :=
  if code.invalidatedAt = none then { code with invalidatedAt := some now } else code

namespace OwnerDb

/-- Revoke every session. -/
def revokeAll (now : Time) (db : OwnerDb) : OwnerDb :=
  { db with sessions := db.sessions.mapValues (OwnerSession.revoke now) }

/-- Revoke every session but one. -/
def revokeOthers (now : Time) (kept : Uuid) (session : OwnerSession) (db : OwnerDb) : OwnerDb :=
  { db with sessions := (db.sessions.mapValues (OwnerSession.revoke now)).set kept session }

/-- `generate_recovery_batch`; the new codes have the IDs given. -/
def generateRecoveryBatch (now : Time) (codeIds : List Uuid) (db : OwnerDb) : OwnerDb :=
  let codes := db.codes.mapValues fun code =>
    if code.consumedAt = none then code.invalidate now else code
  { db with codes := codeIds.foldl (fun codes codeId => codes.put codeId ⟨none, none⟩) codes }

end OwnerDb

/-! ### Transactions -/

inductive IdentityError
  | verificationFailed
  | integrity
deriving DecidableEq

/-- A transaction on the rows of the profile. -/
abbrev Transaction (α : Type) := OwnerDb → Except IdentityError (α × OwnerDb)

/-- `establish_administrator_session`. -/
def establishSession (sessionId : Uuid) (mfaVerifiedAt : Option Time) (recoveryRestricted : Bool) :
    Transaction Unit := fun db => do
  let sessions ← fetch (db.sessions.insert? sessionId ⟨mfaVerifiedAt, recoveryRestricted, none⟩)
    IdentityError.integrity
  return ((), { db with sessions })

/-- `_verify_totp_transaction` for a device; whether the throttle allows the attempt and the token is the
right one is given. -/
def verifyTotp (deviceId : Uuid) (tokenOk allowUnconfirmed : Bool) : Transaction Unit := fun db => do
  let device ← fetch (db.devices.get? deviceId) IdentityError.verificationFailed
  ensure (device.disabledAt = none ∧ device.replacedAt = none ∧
    (device.confirmed = true ∨ allowUnconfirmed = true) ∧ tokenOk = true)
    IdentityError.verificationFailed
  return ((), db)

/-- `_establish_totp_session`. The profile is not read again. -/
def establishTotpSession (sessionId : Uuid) (verifiedAt : Time) : Transaction Unit :=
  establishSession sessionId (some verifiedAt) false

/-- `_complete_recovery_authentication_transaction`, with the status that the view has read. A wrong code
is reported without an error, so that the attempt is recorded. -/
def completeRecovery (viewed : OwnerStatus) (allowed : Bool) (codeId sessionId : Uuid) (matches_ : Bool)
    (now : Time) : Transaction Bool := fun db => do
  ensure (viewed = .active ∧ allowed = true) IdentityError.verificationFailed
  match db.codes.get? codeId with
  | some code =>
    if code.consumedAt = none ∧ code.invalidatedAt = none ∧ matches_ = true then do
      let codes := db.codes.set codeId { code with consumedAt := some now }
      let (_, db) ← establishSession sessionId none true
        { db.revokeAll now with codes, status := .recoveryRequired }
      return (true, db)
    else return (false, db)
  | none => return (false, db)

/-- The device of an enrollment that can be confirmed. -/
def enrolledDevice (deviceId : Uuid) (db : OwnerDb) : Except IdentityError TotpDevice := do
  let device ← fetch (db.devices.get? deviceId) IdentityError.verificationFailed
  ensure (device.confirmed = false ∧ device.disabledAt = none) IdentityError.verificationFailed
  return device

/-- `_complete_initial_enrollment`. -/
def completeInitialEnrollment (deviceId sessionId : Uuid) (codeIds : List Uuid) (now : Time) :
    Transaction Unit := fun db => do
  ensure (db.status = .enrollmentRequired) IdentityError.verificationFailed
  let device ← enrolledDevice deviceId db
  let devices := db.devices.set deviceId { device with confirmed := true }
  establishSession sessionId (some now) false
    { ({ db with devices } : OwnerDb).generateRecoveryBatch now codeIds with status := .active }

/-- A confirmed device that is replaced. -/
def TotpDevice.replace (now : Time) (device : TotpDevice) : TotpDevice :=
  if device.confirmed = true ∧ device.disabledAt = none then ⟨false, some now, some now⟩ else device

/-- `_complete_recovery_enrollment`. -/
def completeRecoveryEnrollment (deviceId sessionId : Uuid) (codeIds : List Uuid) (now : Time) :
    Transaction Unit := fun db => do
  let session ← fetch (db.sessions.get? sessionId) IdentityError.verificationFailed
  ensure (db.status = .recoveryRequired ∧ session.recoveryRestricted = true ∧ session.revokedAt = none)
    IdentityError.verificationFailed
  let device ← enrolledDevice deviceId db
  let devices := (db.devices.mapValues (TotpDevice.replace now)).set deviceId
    { device with confirmed := true }
  let db := ({ db with devices } : OwnerDb).generateRecoveryBatch now codeIds
  return ((), { db.revokeOthers now sessionId ⟨some now, false, none⟩ with status := .active })

/-- `begin_totp_enrollment`. -/
def beginTotpEnrollment (deviceId : Uuid) (now : Time) : Transaction Unit := fun db => do
  let devices := db.devices.mapValues fun device =>
    if device.confirmed = false ∧ device.disabledAt = none then { device with disabledAt := some now }
    else device
  let devices ← fetch (devices.insert? deviceId ⟨false, none, none⟩) IdentityError.integrity
  return ((), { db with devices })

/-- `reset_owner_mfa`, once the name of the owner is confirmed. -/
def resetOwnerMfa (now : Time) : Transaction Unit := fun db =>
  let devices := db.devices.mapValues fun device =>
    if device.disabledAt = none then ⟨false, some now, device.replacedAt⟩ else device
  let codes := db.codes.mapValues (RecoveryCode.invalidate now)
  .ok ((), { db.revokeAll now with devices, codes, status := .enrollmentRequired })

/-- `logout_administrator`, `revoke_session`, and the end of a session that is not valid any more. -/
def revokeSession (sessionId : Uuid) (now : Time) : Transaction Unit := fun db => do
  let session ← fetch (db.sessions.get? sessionId) IdentityError.verificationFailed
  return ((), { db with sessions := db.sessions.set sessionId (session.revoke now) })

/-! ### Flows -/

/-- A request that is under way: the view has read the status; its code has been verified; it is over. -/
inductive Flow
  | totp (viewed : OwnerStatus)
  | totpVerified (verifiedAt : Time)
  | recovery (viewed : OwnerStatus)
  | enrollment (viewed : OwnerStatus) (session : Option Uuid)
  | enrollmentVerified (viewed : OwnerStatus) (session : Option Uuid) (deviceId : Uuid) (verifiedAt : Time)
  | ended
deriving DecidableEq

/-- The rows, and the requests that are under way. -/
structure OwnerState where
  db : OwnerDb
  flows : Table ℕ Flow

/-- A view reads the profile, or a request takes its next transaction, or another one runs. -/
inductive OwnerAction
  | viewTotp (flow : ℕ)
  | verifyTotp (flow : ℕ) (deviceId : Uuid) (tokenOk : Bool) (now : Time)
  | establishTotp (flow : ℕ) (sessionId : Uuid)
  | viewRecovery (flow : ℕ)
  | recover (flow : ℕ) (allowed : Bool) (codeId sessionId : Uuid) (matches_ : Bool) (now : Time)
  | viewEnrollment (flow : ℕ) (session : Option Uuid)
  | verifyEnrollment (flow : ℕ) (deviceId : Uuid) (tokenOk : Bool) (now : Time)
  | confirmEnrollment (flow : ℕ) (sessionId : Uuid) (codeIds : List Uuid)
  | startEnrollment (deviceId : Uuid) (now : Time)
  | resetMfa (now : Time)
  | revoke (sessionId : Uuid) (now : Time)

/-- A request begins. -/
def OwnerState.begin (s : OwnerState) (flow : ℕ) (new : Flow) : OwnerState :=
  { s with flows := (s.flows.insert? flow new).getD s.flows }

/-- A request takes a transaction, and goes on if that commits. -/
def OwnerState.take {α : Type} (s : OwnerState) (flow : ℕ) (t : Transaction α) (next : Flow) :
    OwnerState :=
  match t s.db with
  | .ok (_, db) => ⟨db, s.flows.set flow next⟩
  | .error _ => { s with flows := s.flows.set flow .ended }

/-- `enrollment_profile`: the session of the request if there is one, and whether the profile may be
enrolled. -/
def enrollmentFlow (session : Option Uuid) (db : OwnerDb) : Option Flow :=
  match session with
  | some sessionId =>
    (db.sessions.get? sessionId).bind fun row =>
      if row.recoveryRestricted = true ∧ db.status = .recoveryRequired then
        some (.enrollment db.status (some sessionId))
      else none
  | none =>
    if db.status = .enrollmentRequired then some (.enrollment db.status none) else none

/-- One step. -/
def ownerStep (s : OwnerState) : OwnerAction → OwnerState
  | .viewTotp flow => s.begin flow (.totp s.db.status)
  | .verifyTotp flow deviceId tokenOk now =>
    match s.flows.get? flow with
    | some (.totp viewed) =>
      -- The status is checked on the profile that the view has read.
      if viewed = .active then s.take flow (verifyTotp deviceId tokenOk false) (.totpVerified now)
      else { s with flows := s.flows.set flow .ended }
    | _ => s
  | .establishTotp flow sessionId =>
    match s.flows.get? flow with
    | some (.totpVerified verifiedAt) => s.take flow (establishTotpSession sessionId verifiedAt) .ended
    | _ => s
  | .viewRecovery flow => s.begin flow (.recovery s.db.status)
  | .recover flow allowed codeId sessionId matches_ now =>
    match s.flows.get? flow with
    | some (.recovery viewed) =>
      s.take flow (completeRecovery viewed allowed codeId sessionId matches_ now) .ended
    | _ => s
  | .viewEnrollment flow session =>
    match enrollmentFlow session s.db with
    | some new => s.begin flow new
    | none => s
  | .verifyEnrollment flow deviceId tokenOk now =>
    match s.flows.get? flow with
    | some (.enrollment viewed session) =>
      s.take flow (verifyTotp deviceId tokenOk true) (.enrollmentVerified viewed session deviceId now)
    | _ => s
  | .confirmEnrollment flow sessionId codeIds =>
    match s.flows.get? flow with
    | some (.enrollmentVerified .enrollmentRequired _ deviceId now) =>
      s.take flow (completeInitialEnrollment deviceId sessionId codeIds now) .ended
    | some (.enrollmentVerified .recoveryRequired (some restricted) deviceId now) =>
      s.take flow (completeRecoveryEnrollment deviceId restricted codeIds now) .ended
    | _ => s
  | .startEnrollment deviceId now => { s with db := commit s.db (beginTotpEnrollment deviceId now s.db) }
  | .resetMfa now => { s with db := commit s.db (resetOwnerMfa now s.db) }
  | .revoke sessionId now => { s with db := commit s.db (revokeSession sessionId now s.db) }

/-- **While the owner is not active, no session is a full one.** -/
def NoFullSession (db : OwnerDb) : Prop :=
  db.status ≠ .active → ∀ sessionId session, db.sessions.get? sessionId = some session →
    session.revokedAt = none → session.recoveryRestricted = true

/-- A TOTP login makes its session although the owner is not active any more. -/
def Late (s : OwnerState) : OwnerAction → Prop
  | .establishTotp flow _ =>
    (∃ verifiedAt, s.flows.get? flow = some (.totpVerified verifiedAt)) ∧ s.db.status ≠ .active
  | _ => False

/-! ### The transactions keep it -/

variable {db db' : OwnerDb} {now : Time} {deviceId sessionId : Uuid} {codeIds : List Uuid}

theorem revokedAt_revoke (now : Time) (session : OwnerSession) : (session.revoke now).revokedAt ≠ none := by
  unfold OwnerSession.revoke
  split_ifs with h
  · simp
  · exact h

/-- After all sessions are revoked, every session is. -/
theorem revoked_of_revokeAll {session : OwnerSession}
    (h : (db.revokeAll now).sessions.get? sessionId = some session) : session.revokedAt ≠ none := by
  rw [OwnerDb.revokeAll, Table.get?_mapValues, Option.map_eq_some_iff] at h
  obtain ⟨old, -, rfl⟩ := h
  exact revokedAt_revoke now old

theorem establishSession_eq_ok {mfaVerifiedAt : Option Time} {recoveryRestricted : Bool}
    (h : establishSession sessionId mfaVerifiedAt recoveryRestricted db = .ok ((), db')) :
    db'.status = db.status ∧ ∀ sessionId', db'.sessions.get? sessionId' =
      if sessionId' = sessionId then some ⟨mfaVerifiedAt, recoveryRestricted, none⟩
      else db.sessions.get? sessionId' := by
  simp only [establishSession, bind_eq_ok, fetch_eq_ok, pure_eq_ok, Prod.mk.injEq, true_and] at h
  obtain ⟨sessions, hinsert, rfl⟩ := h
  exact ⟨rfl, Table.get?_of_insert? hinsert⟩

theorem noFullSession_of_active (h : db.status = .active) : NoFullSession db := fun hnot =>
  absurd h hnot

theorem completeRecovery_noFullSession {viewed : OwnerStatus} {allowed matches_ found : Bool}
    {codeId : Uuid} (h : NoFullSession db)
    (hok : completeRecovery viewed allowed codeId sessionId matches_ now db = .ok (found, db')) :
    NoFullSession db' := by
  simp only [completeRecovery, bind_eq_ok] at hok
  obtain ⟨⟨⟩, -, hok⟩ := hok
  split at hok
  · split_ifs at hok
    · simp only [bind_eq_ok, pure_eq_ok, Prod.mk.injEq] at hok
      obtain ⟨⟨⟨⟩, db₁⟩, hestablish, -, rfl⟩ := hok
      obtain ⟨-, hsessions⟩ := establishSession_eq_ok hestablish
      intro _ sessionId' session hsession hopen
      rw [hsessions] at hsession
      split_ifs at hsession
      · obtain rfl := Option.some.inj hsession
        rfl
      · exact absurd hopen (revoked_of_revokeAll hsession)
    · obtain ⟨-, rfl⟩ := Prod.mk.inj (pure_eq_ok.1 hok)
      exact h
  · obtain ⟨-, rfl⟩ := Prod.mk.inj (pure_eq_ok.1 hok)
    exact h

theorem completeInitialEnrollment_noFullSession
    (hok : completeInitialEnrollment deviceId sessionId codeIds now db = .ok ((), db')) :
    NoFullSession db' := by
  simp only [completeInitialEnrollment, bind_eq_ok] at hok
  obtain ⟨⟨⟩, -, device, -, hestablish⟩ := hok
  exact noFullSession_of_active (establishSession_eq_ok hestablish).1

theorem completeRecoveryEnrollment_noFullSession
    (hok : completeRecoveryEnrollment deviceId sessionId codeIds now db = .ok ((), db')) :
    NoFullSession db' := by
  simp only [completeRecoveryEnrollment, bind_eq_ok, pure_eq_ok, Prod.mk.injEq, true_and] at hok
  obtain ⟨session, -, ⟨⟩, -, device, -, rfl⟩ := hok
  exact noFullSession_of_active rfl

theorem resetOwnerMfa_noFullSession (hok : resetOwnerMfa now db = .ok ((), db')) :
    NoFullSession db' := by
  obtain ⟨-, rfl⟩ := Prod.mk.inj (Except.ok.inj hok)
  exact fun _ _ _ hsession hopen => absurd hopen (revoked_of_revokeAll hsession)

theorem revokeSession_noFullSession (h : NoFullSession db)
    (hok : revokeSession sessionId now db = .ok ((), db')) : NoFullSession db' := by
  simp only [revokeSession, bind_eq_ok, fetch_eq_ok, pure_eq_ok, Prod.mk.injEq, true_and] at hok
  obtain ⟨old, hold, rfl⟩ := hok
  intro hnot sessionId' session hsession hopen
  simp only [Table.get?_set] at hsession
  split_ifs at hsession
  · rw [hold, Option.map_some] at hsession
    obtain rfl := Option.some.inj hsession
    exact absurd hopen (revokedAt_revoke now old)
  · exact h hnot sessionId' session hsession hopen

theorem beginTotpEnrollment_noFullSession (h : NoFullSession db)
    (hok : beginTotpEnrollment deviceId now db = .ok ((), db')) : NoFullSession db' := by
  simp only [beginTotpEnrollment, bind_eq_ok, pure_eq_ok, Prod.mk.injEq, true_and] at hok
  obtain ⟨devices, -, rfl⟩ := hok
  exact h

theorem verifyTotp_noFullSession {tokenOk allowUnconfirmed : Bool} (h : NoFullSession db)
    (hok : verifyTotp deviceId tokenOk allowUnconfirmed db = .ok ((), db')) : NoFullSession db' := by
  simp only [verifyTotp, bind_eq_ok, pure_eq_ok, Prod.mk.injEq, true_and] at hok
  obtain ⟨device, -, ⟨⟩, -, rfl⟩ := hok
  exact h

/-- A session that is made while the owner is active. -/
theorem establishTotpSession_noFullSession (hactive : db.status = .active)
    (hok : establishTotpSession sessionId now db = .ok ((), db')) : NoFullSession db' :=
  noFullSession_of_active ((establishSession_eq_ok hok).1.trans hactive)

/-! ### Runs -/

theorem take_noFullSession {α : Type} {s : OwnerState} {flow : ℕ} {t : Transaction α} {next : Flow}
    (h : NoFullSession s.db) (ht : ∀ a db', t s.db = .ok (a, db') → NoFullSession db') :
    NoFullSession (s.take flow t next).db := by
  unfold OwnerState.take
  split
  · rename_i a db' hok
    exact ht a db' hok
  · exact h

/-- **A step that is not late keeps it so.** -/
theorem ownerStep_noFullSession (s : OwnerState) (a : OwnerAction) (hnot : ¬ Late s a)
    (h : NoFullSession s.db) : NoFullSession (ownerStep s a).db := by
  cases a with
  | viewTotp flow => exact h
  | verifyTotp flow deviceId tokenOk now =>
    simp only [ownerStep]
    split
    · split_ifs
      · exact take_noFullSession h fun _ _ hok => verifyTotp_noFullSession h hok
      · exact h
    · exact h
  | establishTotp flow sessionId =>
    simp only [ownerStep]
    split
    · rename_i verifiedAt hflow
      have hactive : s.db.status = .active := by
        by_contra hstatus
        exact hnot ⟨⟨verifiedAt, hflow⟩, hstatus⟩
      exact take_noFullSession h fun _ _ hok => establishTotpSession_noFullSession hactive hok
    · exact h
  | viewRecovery flow => exact h
  | recover flow allowed codeId sessionId matches_ now =>
    simp only [ownerStep]
    split
    · exact take_noFullSession h fun _ _ hok => completeRecovery_noFullSession h hok
    · exact h
  | viewEnrollment flow session =>
    simp only [ownerStep]
    split <;> exact h
  | verifyEnrollment flow deviceId tokenOk now =>
    simp only [ownerStep]
    split
    · exact take_noFullSession h fun _ _ hok => verifyTotp_noFullSession h hok
    · exact h
  | confirmEnrollment flow sessionId codeIds =>
    simp only [ownerStep]
    split
    · exact take_noFullSession h fun _ _ hok => completeInitialEnrollment_noFullSession hok
    · exact take_noFullSession h fun _ _ hok => completeRecoveryEnrollment_noFullSession hok
    · exact h
  | startEnrollment deviceId now =>
    exact commit_induction h fun _ _ hok => beginTotpEnrollment_noFullSession h hok
  | resetMfa now => exact commit_induction h fun _ _ hok => resetOwnerMfa_noFullSession hok
  | revoke sessionId now => exact commit_induction h fun _ _ hok => revokeSession_noFullSession h hok

/-- **A non-active owner has no full session, unless a login came late**: in every run from a state in which it holds. -/
theorem noFullSession_of_run (s : OwnerState) (as : List OwnerAction) (hs : NoFullSession s.db)
    (has : Transition.AllSteps ownerStep (fun s a => ¬ Late s a) s as) :
    NoFullSession (Transition.run ownerStep s as).db :=
  has.run_induction (P := fun s => NoFullSession s.db)
    (fun s a hnot h => ownerStep_noFullSession s a hnot h) hs

/-! ### A late login -/

/-- An active owner with a device, and without a session. -/
def activeOwner : OwnerState :=
  ⟨⟨.active, .empty, Table.empty.put 1 ⟨true, none, none⟩, Table.empty.put 2 ⟨none, none⟩⟩, .empty⟩

/-- A login is verified; the owner recovers; the login makes its session. -/
def lateRun : List OwnerAction :=
  [.viewTotp 0, .verifyTotp 0 1 true 0, .viewRecovery 1, .recover 1 true 2 11 true 0,
    .establishTotp 0 10]

/-- The login makes its session before the owner recovers. -/
def timelyRun : List OwnerAction :=
  [.viewTotp 0, .verifyTotp 0 1 true 0, .establishTotp 0 10, .viewRecovery 1, .recover 1 true 2 11 true 0]

/-- A recovered owner has no full session after a timely login. -/
theorem noFullSession_timelyRun : NoFullSession (Transition.run ownerStep activeOwner timelyRun).db :=
  noFullSession_of_run activeOwner timelyRun (noFullSession_of_active rfl)
    ⟨id, id, fun h => h.2 (by decide +kernel), id, id, trivial⟩

/-- **A non-active owner can have a full session.** -/
theorem not_noFullSession : NoFullSession activeOwner.db ∧
    ¬ NoFullSession (Transition.run ownerStep activeOwner lateRun).db := by
  refine ⟨noFullSession_of_active rfl, fun h => ?_⟩
  have hstatus : (Transition.run ownerStep activeOwner lateRun).db.status ≠ .active := by decide +kernel
  have hsession : (Transition.run ownerStep activeOwner lateRun).db.sessions.get? 10 =
      some ⟨some 0, false, none⟩ := by decide +kernel
  exact absurd (h hstatus 10 _ hsession rfl) (by decide)

end CivicLoop.Identity
