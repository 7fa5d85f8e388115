import CivicLoop.Foundation.Calendar
import CivicLoop.Foundation.Checked
import CivicLoop.Foundation.Table
import CivicLoop.Foundation.Transition
import CivicLoop.Identity.FullSession
import Mathlib

/-!
# The lifetime of a session

A session ends half an hour after its last request, and twelve hours after its login. The time of the last
request is written only if the one that is stored is a minute old, so what is stored may lie behind by less
than that. Other requests rotate the key of a session, mark it as fresh or revoke it; none of them writes
what the two limits are computed from. A session that is rejected is revoked.

## Main definitions

* `AdministratorSession`, `SessionDb` : the rows of a profile.
* `enforceAdministratorSession` : the check of a request.
* `SessionAction`, `SessionState` : what happens to the sessions, and the system.
* `previousUse` : the last accepted request of a session, or its login.
* `Timed` : what a row says of the uses of its session.
* `Closed` : a session that is revoked.
* `Lifetime` : the limits.

## Main results

* `SessionDb.effect_apply` : what an operation leaves of the sessions.
* `timed_run` : the rows say it in every run.
* `lifetime_run` : the limits hold in every run.
-/

namespace CivicLoop.Identity

/-! ### Rows -/

/-- `AdministratorSession`: what the functions below read. -/
structure AdministratorSession where
  sessionKey : String
  authenticatedAt : Option Time
  lastActivityAt : Option Time
  mfaVerifiedAt : Option Time
  freshVerifiedAt : Option Time
  absoluteExpiresAt : Option Time
  expiresAt : Option Time
  revokedAt : Option Time
  recoveryRestricted : Bool
deriving DecidableEq

/-- The profile and its sessions. -/
structure SessionDb where
  status : OwnerStatus
  sessions : Table Uuid AdministratorSession

/-- `ADMIN_IDLE_SECONDS`. -/
def adminIdle : ℤ := seconds 1800

/-- `ADMIN_ABSOLUTE_SECONDS`. -/
def adminAbsolute : ℤ := seconds 43200

/-- `ADMIN_FRESH_SECONDS`. -/
def adminFresh : ℤ := seconds 600

/-- `ADMIN_ACTIVITY_UPDATE_SECONDS`. -/
def adminActivityUpdate : ℤ := seconds 60

inductive SessionError
  | notFound
  | integrity
  | freshnessRequired
  | credentialMismatch
  | validation
  | verificationFailed
deriving DecidableEq

/-! ### The check of a request -/

/-- What a request says: whether the feature is on, whether its user is the owner, and what its Django
session holds. -/
structure SessionRequest where
  enabled : Bool
  asOwner : Bool
  publicId : Option Uuid
  sessionKey : String

/-- The conditions under which a session is rejected. -/
def AdministratorSession.isInvalid (metadata : AdministratorSession) (status : OwnerStatus) (sessionKey : String)
    (now : Time) : Bool :=
  metadata.sessionKey != sessionKey || metadata.revokedAt.isSome || metadata.expiresAt.all (· ≤ now) ||
    metadata.absoluteExpiresAt.all (· ≤ now) || status == .disabled

/-- `update(revoked_at=now)` of a session that is not revoked. -/
def AdministratorSession.revoke (now : Time) (metadata : AdministratorSession) : AdministratorSession :=
  if metadata.revokedAt = none then { metadata with revokedAt := some now } else metadata

/-- The update of the activity, if the stored one is old. -/
def AdministratorSession.touch (now : Time) (metadata : AdministratorSession) : AdministratorSession :=
  if metadata.lastActivityAt.all fun last => adminActivityUpdate ≤ now - last then
    { metadata with
      lastActivityAt := some now
      expiresAt := metadata.absoluteExpiresAt.map (min (now + adminIdle)) }
  else metadata

namespace SessionDb

/-- The session that a request presents. -/
def presented (db : SessionDb) (request : SessionRequest) : Option (Uuid × AdministratorSession) := do
  let publicId ← request.publicId
  let metadata ← db.sessions.get? publicId
  return (publicId, metadata)

/-- `enforce_administrator_session`: the session that was accepted. -/
def enforceAdministratorSession (request : SessionRequest) (now : Time) (db : SessionDb) : Option Uuid × SessionDb :=
  if request.enabled = false ∨ request.asOwner = false then (none, db)
  else
    match db.presented request with
    | none => (none, db)
    | some (sessionId, metadata) =>
      if metadata.isInvalid db.status request.sessionKey now = true then
        (none, { db with sessions := db.sessions.modify sessionId (·.revoke now) })
      else (some sessionId, { db with sessions := db.sessions.modify sessionId (·.touch now) })

/-! ### Operations on sessions -/

/-- The uniqueness of `session_key`. -/
def keyFree (sessionId : Uuid) (sessionKey : String) (db : SessionDb) : Bool :=
  db.sessions.rows.all fun row => row.1 == sessionId || row.2.sessionKey != sessionKey

/-- `establish_administrator_session`. -/
def establish (sessionId : Uuid) (sessionKey : String) (mfaVerifiedAt : Option Time) (recoveryRestricted : Bool)
    (now : Time) (db : SessionDb) : Except SessionError SessionDb := do
  let authenticatedAt := mfaVerifiedAt.getD now
  let absoluteExpiry := authenticatedAt + adminAbsolute
  let idleExpiry := min (authenticatedAt + adminIdle) absoluteExpiry
  ensure (db.keyFree sessionId sessionKey = true) SessionError.integrity
  let sessions ← fetch (db.sessions.insert? sessionId {
    sessionKey
    authenticatedAt := some authenticatedAt
    lastActivityAt := some authenticatedAt
    mfaVerifiedAt
    freshVerifiedAt := none
    absoluteExpiresAt := some absoluteExpiry
    expiresAt := some idleExpiry
    revokedAt := none
    recoveryRestricted }) SessionError.integrity
  return { db with sessions }

/-- `rotate_administrator_session`: the Django session has a new key. -/
def rotate (sessionId : Uuid) (sessionKey : String) (db : SessionDb) : Except SessionError SessionDb := do
  let _ ← fetch (db.sessions.get? sessionId) SessionError.notFound
  ensure (db.keyFree sessionId sessionKey = true) SessionError.integrity
  return { db with sessions := db.sessions.modify sessionId ({ · with sessionKey }) }

/-- `_revoke_other_sessions`. -/
def revokeOthers (sessionId : Uuid) (now : Time) (db : SessionDb) : SessionDb :=
  { db with sessions := db.sessions.mapKeys (· != sessionId) (·.revoke now) }

/-- Revoke every session. -/
def revokeAll (now : Time) (db : SessionDb) : SessionDb :=
  { db with sessions := db.sessions.mapValues (·.revoke now) }

/-- Write `fresh_verified_at`. -/
def setFresh (sessionId : Uuid) (freshVerifiedAt : Option Time) (db : SessionDb) : SessionDb :=
  { db with sessions := db.sessions.modify sessionId ({ · with freshVerifiedAt }) }

/-- `require_fresh_administrator`. -/
def requireFresh (metadata : AdministratorSession) (now : Time) : Except SessionError Unit :=
  ensure (metadata.recoveryRestricted = false ∧
    metadata.freshVerifiedAt.any (fun verified => verified ≤ now && now < verified + adminFresh) = true)
    SessionError.freshnessRequired

/-- `fresh_reauthenticate`, after the password and the code were checked. -/
def reauthenticate (sessionId : Uuid) (sessionKey : String) (verified : Bool) (now : Time) (db : SessionDb) :
    Except SessionError SessionDb := do
  ensure (verified = true) SessionError.verificationFailed
  let db ← db.rotate sessionId sessionKey
  return db.setFresh sessionId (some now)

/-- `change_password`, with whether the current password is right and the new one is valid; changing the
hash gives the Django session a new key. -/
def changePassword (sessionId : Uuid) (sessionKey : String) (current valid : Bool) (now : Time) (db : SessionDb) :
    Except SessionError SessionDb := do
  let locked ← fetch (db.sessions.get? sessionId) SessionError.notFound
  requireFresh locked now
  ensure (current = true) SessionError.credentialMismatch
  ensure (valid = true) SessionError.validation
  let db ← (db.revokeOthers sessionId now).rotate sessionId sessionKey
  return db.setFresh sessionId none

/-- `regenerate_recovery_codes`. -/
def regenerate (sessionId : Uuid) (sessionKey : String) (now : Time) (db : SessionDb) :
    Except SessionError SessionDb := do
  let locked ← fetch (db.sessions.get? sessionId) SessionError.notFound
  requireFresh locked now
  let db ← (db.revokeOthers sessionId now).rotate sessionId sessionKey
  return db.setFresh sessionId none

/-- `revoke_other_sessions`. -/
def revokeOtherSessions (sessionId : Uuid) (now : Time) (db : SessionDb) : Except SessionError SessionDb := do
  let locked ← fetch (db.sessions.get? sessionId) SessionError.notFound
  requireFresh locked now
  return (db.revokeOthers sessionId now).setFresh sessionId none

/-- `revoke_session`, and `logout_administrator` for its own session. -/
def revokeSession (sessionId : Uuid) (now : Time) (db : SessionDb) : Except SessionError SessionDb := do
  let _ ← fetch (db.sessions.get? sessionId) SessionError.notFound
  return { db with sessions := db.sessions.modify sessionId (·.revoke now) }

/-- `_complete_recovery_authentication_transaction`, after the code was consumed. -/
def recover (sessionId : Uuid) (sessionKey : String) (now : Time) (db : SessionDb) :
    Except SessionError SessionDb := do
  ensure (db.status = .active) SessionError.verificationFailed
  establish sessionId sessionKey none true now { db.revokeAll now with status := .recoveryRequired }

/-- `_complete_initial_enrollment`, after the device was confirmed. -/
def enroll (sessionId : Uuid) (sessionKey : String) (now : Time) (db : SessionDb) :
    Except SessionError SessionDb := do
  ensure (db.status = .enrollmentRequired) SessionError.verificationFailed
  establish sessionId sessionKey (some now) false now { db with status := .active }

/-- `_complete_recovery_enrollment`, where whether the device can be confirmed is given. -/
def enrollRecovered (sessionId : Uuid) (sessionKey : String) (deviceOk : Bool) (now : Time) (db : SessionDb) :
    Except SessionError SessionDb := do
  let locked ← fetch (db.sessions.get? sessionId) SessionError.notFound
  ensure (db.status = .recoveryRequired ∧ locked.recoveryRestricted = true ∧ locked.revokedAt = none ∧
    deviceOk = true) SessionError.verificationFailed
  let db := { db.revokeOthers sessionId now with status := .active }
  let sessions := db.sessions.modify sessionId fun metadata =>
    { metadata with recoveryRestricted := false, mfaVerifiedAt := some now }
  rotate sessionId sessionKey { db with sessions }

/-- `reset_owner_mfa`. -/
def resetOwnerMfa (now : Time) (db : SessionDb) : SessionDb :=
  { db.revokeAll now with status := .enrollmentRequired }

end SessionDb

/-! ### The system -/

/-- What happens to the sessions. The sessions of a TOTP login carry the time at which the code was verified,
some time ago. -/
inductive SessionAction
  | request (request : SessionRequest)
  | login (sessionId : Uuid) (sessionKey : String) (verifiedAgo : ℕ)
  | rotate (sessionId : Uuid) (sessionKey : String)
  | reauthenticate (sessionId : Uuid) (sessionKey : String) (verified : Bool)
  | changePassword (sessionId : Uuid) (sessionKey : String) (current valid : Bool)
  | regenerate (sessionId : Uuid) (sessionKey : String)
  | revokeOthers (sessionId : Uuid)
  | revoke (sessionId : Uuid)
  | recover (sessionId : Uuid) (sessionKey : String)
  | enroll (sessionId : Uuid) (sessionKey : String)
  | enrollRecovered (sessionId : Uuid) (sessionKey : String) (deviceOk : Bool)
  | reset
  | setStatus (status : OwnerStatus)

/-- The rows and the time. -/
structure SessionState where
  clock : Time
  db : SessionDb

/-- The rows after a transaction. -/
def SessionDb.after (db : SessionDb) (result : Except SessionError SessionDb) : SessionDb :=
  match result with
  | .ok db' => db'
  | .error _ => db

/-- The rows after an action. -/
def SessionDb.apply (db : SessionDb) (now : Time) : SessionAction → SessionDb
  | .request request => (db.enforceAdministratorSession request now).2
  | .login sessionId sessionKey verifiedAgo =>
    db.after (db.establish sessionId sessionKey (some (now - verifiedAgo)) false now)
  | .rotate sessionId sessionKey => db.after (db.rotate sessionId sessionKey)
  | .reauthenticate sessionId sessionKey verified =>
    db.after (db.reauthenticate sessionId sessionKey verified now)
  | .changePassword sessionId sessionKey current valid =>
    db.after (db.changePassword sessionId sessionKey current valid now)
  | .regenerate sessionId sessionKey => db.after (db.regenerate sessionId sessionKey now)
  | .revokeOthers sessionId => db.after (db.revokeOtherSessions sessionId now)
  | .revoke sessionId => db.after (db.revokeSession sessionId now)
  | .recover sessionId sessionKey => db.after (db.recover sessionId sessionKey now)
  | .enroll sessionId sessionKey => db.after (db.enroll sessionId sessionKey now)
  | .enrollRecovered sessionId sessionKey deviceOk =>
    db.after (db.enrollRecovered sessionId sessionKey deviceOk now)
  | .reset => db.resetOwnerMfa now
  | .setStatus status => { db with status }

/-- An action after some time. -/
def sessionStep (s : SessionState) (a : ℕ × SessionAction) : SessionState where
  clock := s.clock + a.1
  db := s.db.apply (s.clock + a.1) a.2

/-- A profile without sessions. -/
def SessionState.initial (clock : Time) (status : OwnerStatus) : SessionState := ⟨clock, status, .empty⟩

/-- The accepted requests of an action: the session and the time. -/
def acceptedRequests (s : SessionState) (a : ℕ × SessionAction) : List (Uuid × Time) :=
  match a.2 with
  | .request request =>
    match (s.db.enforceAdministratorSession request (s.clock + a.1)).1 with
    | some sessionId => [(sessionId, s.clock + a.1)]
    | none => []
  | _ => []

/-- The time of the last accepted request of a session, or of its login. -/
def previousUse (accepted : List (Uuid × Time)) (sessionId : Uuid) (authenticatedAt : Time) : Time :=
  (((accepted.filter (·.1 = sessionId)).getLast?).map Prod.snd).getD authenticatedAt

theorem previousUse_concat_self (accepted : List (Uuid × Time)) (sessionId : Uuid) (now authenticatedAt : Time) :
    previousUse (accepted ++ [(sessionId, now)]) sessionId authenticatedAt = now := by
  simp [previousUse]

theorem previousUse_concat_of_ne (accepted : List (Uuid × Time)) {sessionId other : Uuid} (h : sessionId ≠ other)
    (now authenticatedAt : Time) :
    previousUse (accepted ++ [(other, now)]) sessionId authenticatedAt =
      previousUse accepted sessionId authenticatedAt := by
  simp [previousUse, h.symm]

theorem previousUse_of_forall_ne {accepted : List (Uuid × Time)} {sessionId : Uuid}
    (h : ∀ use ∈ accepted, use.1 ≠ sessionId) (authenticatedAt : Time) :
    previousUse accepted sessionId authenticatedAt = authenticatedAt := by
  have hnil : accepted.filter (fun use => use.1 = sessionId) = [] :=
    List.filter_eq_nil_iff.2 fun use huse => by simpa using h use huse
  rw [previousUse, hnil]
  rfl

/-! ### What an operation leaves of a session -/

/-- The limits of a session are the same, and it stays revoked. -/
structure Keeps (metadata metadata' : AdministratorSession) : Prop where
  authenticatedAt : metadata'.authenticatedAt = metadata.authenticatedAt
  lastActivityAt : metadata'.lastActivityAt = metadata.lastActivityAt
  absoluteExpiresAt : metadata'.absoluteExpiresAt = metadata.absoluteExpiresAt
  expiresAt : metadata'.expiresAt = metadata.expiresAt
  revokedAt : metadata.revokedAt ≠ none → metadata'.revokedAt ≠ none

theorem Keeps.refl (metadata : AdministratorSession) : Keeps metadata metadata := ⟨rfl, rfl, rfl, rfl, id⟩

theorem Keeps.trans {a b c : AdministratorSession} (hab : Keeps a b) (hbc : Keeps b c) : Keeps a c :=
  ⟨hbc.authenticatedAt.trans hab.authenticatedAt, hbc.lastActivityAt.trans hab.lastActivityAt,
    hbc.absoluteExpiresAt.trans hab.absoluteExpiresAt, hbc.expiresAt.trans hab.expiresAt,
    fun h => hbc.revokedAt (hab.revokedAt h)⟩

theorem keeps_revoke (now : Time) (metadata : AdministratorSession) : Keeps metadata (metadata.revoke now) := by
  unfold AdministratorSession.revoke
  split_ifs
  · exact ⟨rfl, rfl, rfl, rfl, fun _ => by simp⟩
  · exact .refl _

theorem AdministratorSession.revokedAt_revoke (now : Time) (metadata : AdministratorSession) : (metadata.revoke now).revokedAt ≠ none := by
  unfold AdministratorSession.revoke
  split_ifs with h
  · simp
  · exact h

/-- The sessions are the same ones, each with its limits. -/
def KeepsRows (t t' : Table Uuid AdministratorSession) : Prop :=
  ∀ sessionId, (t.get? sessionId = none → t'.get? sessionId = none) ∧
    ∀ metadata, t.get? sessionId = some metadata → ∃ metadata', t'.get? sessionId = some metadata' ∧
      Keeps metadata metadata'

namespace KeepsRows

variable {t t' t'' : Table Uuid AdministratorSession}

theorem refl (t : Table Uuid AdministratorSession) : KeepsRows t t :=
  fun _ => ⟨id, fun metadata h => ⟨metadata, h, .refl _⟩⟩

theorem trans (h : KeepsRows t t') (h' : KeepsRows t' t'') : KeepsRows t t'' := by
  intro sessionId
  refine ⟨fun hnone => (h' sessionId).1 ((h sessionId).1 hnone), fun metadata hsome => ?_⟩
  obtain ⟨metadata', hsome', hkeeps⟩ := (h sessionId).2 metadata hsome
  obtain ⟨metadata'', hsome'', hkeeps'⟩ := (h' sessionId).2 metadata' hsome'
  exact ⟨metadata'', hsome'', hkeeps.trans hkeeps'⟩

/-- A change of rows by functions that keep the limits. -/
theorem of_get? {f : Uuid → AdministratorSession → AdministratorSession}
    (hget : ∀ sessionId, t'.get? sessionId = (t.get? sessionId).map (f sessionId))
    (hf : ∀ sessionId metadata, Keeps metadata (f sessionId metadata)) : KeepsRows t t' := by
  intro sessionId
  rw [hget]
  refine ⟨fun hnone => by rw [hnone]; rfl, fun metadata hsome => ?_⟩
  exact ⟨_, by rw [hsome, Option.map_some], hf sessionId metadata⟩

theorem modify (t : Table Uuid AdministratorSession) (sessionId : Uuid)
    {f : AdministratorSession → AdministratorSession} (hf : ∀ metadata, Keeps metadata (f metadata)) :
    KeepsRows t (t.modify sessionId f) := by
  refine of_get? (f := fun other metadata => if other = sessionId then f metadata else metadata) (fun other => ?_)
    fun other metadata => ?_
  · rw [Table.get?_modify]
    split_ifs with h
    · rw [h]
    · rw [Option.map_id']
  · split_ifs
    · exact hf metadata
    · exact .refl _

theorem mapKeys (t : Table Uuid AdministratorSession) (p : Uuid → Bool) (now : Time) :
    KeepsRows t (t.mapKeys p (·.revoke now)) := by
  refine of_get? (f := fun other metadata => if p other then metadata.revoke now else metadata)
    (fun other => Table.get?_mapKeys t p _ other) fun other metadata => ?_
  split_ifs
  · exact keeps_revoke now metadata
  · exact .refl _

theorem mapValues (t : Table Uuid AdministratorSession) (now : Time) :
    KeepsRows t (t.mapValues (·.revoke now)) :=
  of_get? (f := fun _ metadata => metadata.revoke now) (fun other => Table.get?_mapValues t _ other)
    fun _ metadata => keeps_revoke now metadata

end KeepsRows

/-- A session as it is established. -/
structure Established (now : Time) (metadata : AdministratorSession) (authenticatedAt : Time) : Prop where
  authenticated : metadata.authenticatedAt = some authenticatedAt
  lastActivity : metadata.lastActivityAt = some authenticatedAt
  absolute : metadata.absoluteExpiresAt = some (authenticatedAt + adminAbsolute)
  expires : metadata.expiresAt = some (min (authenticatedAt + adminIdle) (authenticatedAt + adminAbsolute))
  before : authenticatedAt ≤ now

/-- What an operation does to the sessions: it keeps them, and at most one is new. -/
inductive SessionEffect (now : Time) (t : Table Uuid AdministratorSession) :
    Table Uuid AdministratorSession → Prop
  | kept {t'} (h : KeepsRows t t') : SessionEffect now t t'
  | established {kept t'} (h : KeepsRows t kept) {sessionId metadata authenticatedAt}
      (hinsert : kept.insert? sessionId metadata = some t') (hnew : Established now metadata authenticatedAt) :
      SessionEffect now t t'

namespace SessionDb

theorem effect_establish {db db' : SessionDb} {sessionId : Uuid} {sessionKey : String} {mfaVerifiedAt : Option Time}
    {restricted : Bool} {now : Time} (h : db.establish sessionId sessionKey mfaVerifiedAt restricted now = .ok db')
    (hbefore : mfaVerifiedAt.getD now ≤ now) {t : Table Uuid AdministratorSession} (ht : KeepsRows t db.sessions) :
    SessionEffect now t db'.sessions := by
  simp only [establish, bind_eq_ok, fetch_eq_ok, pure_eq_ok] at h
  obtain ⟨_, -, sessions, hinsert, rfl⟩ := h
  exact .established ht hinsert ⟨rfl, rfl, rfl, rfl, hbefore⟩

theorem keeps_rotate {db db' : SessionDb} {sessionId : Uuid} {sessionKey : String}
    (h : db.rotate sessionId sessionKey = .ok db') : KeepsRows db.sessions db'.sessions := by
  simp only [rotate, bind_eq_ok, pure_eq_ok] at h
  obtain ⟨_, -, _, -, rfl⟩ := h
  exact KeepsRows.modify _ _ fun _ => ⟨rfl, rfl, rfl, rfl, id⟩

theorem keeps_setFresh (db : SessionDb) (sessionId : Uuid) (freshVerifiedAt : Option Time) :
    KeepsRows db.sessions (db.setFresh sessionId freshVerifiedAt).sessions :=
  KeepsRows.modify _ _ fun _ => ⟨rfl, rfl, rfl, rfl, id⟩

theorem keeps_revokeOthers (db : SessionDb) (sessionId : Uuid) (now : Time) :
    KeepsRows db.sessions (db.revokeOthers sessionId now).sessions :=
  KeepsRows.mapKeys _ _ now

/-- An operation that raises writes nothing. -/
theorem effect_after {db : SessionDb} {now : Time} {result : Except SessionError SessionDb}
    (h : ∀ db', result = .ok db' → SessionEffect now db.sessions db'.sessions) :
    SessionEffect now db.sessions (db.after result).sessions := by
  cases result with
  | ok db' => exact h db' rfl
  | error e => exact .kept (.refl _)

theorem effect_changePassword {db db' : SessionDb} {sessionId : Uuid} {sessionKey : String} {current valid : Bool}
    {now : Time} (h : db.changePassword sessionId sessionKey current valid now = .ok db') :
    SessionEffect now db.sessions db'.sessions := by
  simp only [changePassword, bind_eq_ok, pure_eq_ok] at h
  obtain ⟨_, -, _, -, _, -, _, -, rotated, hrotate, rfl⟩ := h
  exact .kept (((keeps_revokeOthers db sessionId now).trans (keeps_rotate hrotate)).trans (keeps_setFresh _ _ _))

theorem effect_regenerate {db db' : SessionDb} {sessionId : Uuid} {sessionKey : String} {now : Time}
    (h : db.regenerate sessionId sessionKey now = .ok db') : SessionEffect now db.sessions db'.sessions := by
  simp only [regenerate, bind_eq_ok, pure_eq_ok] at h
  obtain ⟨_, -, _, -, rotated, hrotate, rfl⟩ := h
  exact .kept (((keeps_revokeOthers db sessionId now).trans (keeps_rotate hrotate)).trans (keeps_setFresh _ _ _))

theorem effect_enrollRecovered {db db' : SessionDb} {sessionId : Uuid} {sessionKey : String} {deviceOk : Bool}
    {now : Time} (h : db.enrollRecovered sessionId sessionKey deviceOk now = .ok db') :
    SessionEffect now db.sessions db'.sessions := by
  simp only [enrollRecovered, bind_eq_ok] at h
  obtain ⟨_, -, _, -, hrotate⟩ := h
  refine .kept (KeepsRows.trans ?_ (keeps_rotate hrotate))
  exact (keeps_revokeOthers db sessionId now).trans (KeepsRows.modify _ _ fun _ => ⟨rfl, rfl, rfl, rfl, id⟩)

/-- What an action other than a request does to the sessions. -/
theorem effect_apply (db : SessionDb) (now : Time) {action : SessionAction}
    (h : ∀ request, action ≠ .request request) :
    SessionEffect now db.sessions (db.apply now action).sessions := by
  cases action with
  | request request => exact absurd rfl (h request)
  | login sessionId sessionKey verifiedAgo =>
    exact effect_after fun db' h => effect_establish h (Int.sub_le_self now (Int.natCast_nonneg verifiedAgo)) (.refl _)
  | rotate sessionId sessionKey => exact effect_after fun db' h => .kept (keeps_rotate h)
  | reauthenticate sessionId sessionKey verified =>
    refine effect_after fun db' h => ?_
    simp only [SessionDb.reauthenticate, bind_eq_ok, pure_eq_ok] at h
    obtain ⟨_, -, rotated, hrotate, rfl⟩ := h
    exact .kept ((keeps_rotate hrotate).trans (keeps_setFresh _ _ _))
  | changePassword sessionId sessionKey current valid => exact effect_after fun db' h => effect_changePassword h
  | regenerate sessionId sessionKey => exact effect_after fun db' h => effect_regenerate h
  | revokeOthers sessionId =>
    refine effect_after fun db' h => ?_
    simp only [SessionDb.revokeOtherSessions, bind_eq_ok, pure_eq_ok] at h
    obtain ⟨_, -, _, -, rfl⟩ := h
    exact .kept ((keeps_revokeOthers db sessionId now).trans (keeps_setFresh _ _ _))
  | revoke sessionId =>
    refine effect_after fun db' h => ?_
    simp only [SessionDb.revokeSession, bind_eq_ok, pure_eq_ok] at h
    obtain ⟨_, -, rfl⟩ := h
    exact .kept (KeepsRows.modify _ _ (keeps_revoke now))
  | recover sessionId sessionKey =>
    refine effect_after fun db' h => ?_
    simp only [SessionDb.recover, bind_eq_ok] at h
    obtain ⟨_, -, h⟩ := h
    exact effect_establish h le_rfl (KeepsRows.mapValues _ now)
  | enroll sessionId sessionKey =>
    refine effect_after fun db' h => ?_
    simp only [SessionDb.enroll, bind_eq_ok] at h
    obtain ⟨_, -, h⟩ := h
    exact effect_establish h le_rfl (.refl _)
  | enrollRecovered sessionId sessionKey deviceOk => exact effect_after fun db' h => effect_enrollRecovered h
  | reset => exact .kept (KeepsRows.mapValues _ now)
  | setStatus status => exact .kept (.refl _)

/-- What a request does: nothing, or it is rejected, or accepted. -/
inductive RequestEffect (db : SessionDb) (request : SessionRequest) (now : Time) : Option Uuid × SessionDb → Prop
  | ignored (h : request.enabled = false ∨ request.asOwner = false ∨ db.presented request = none) :
      RequestEffect db request now (none, db)
  | rejected {sessionId metadata} (hpresented : db.presented request = some (sessionId, metadata))
      (hinvalid : metadata.isInvalid db.status request.sessionKey now = true) :
      RequestEffect db request now (none, { db with sessions := db.sessions.modify sessionId (·.revoke now) })
  | accepted {sessionId metadata} (hpresented : db.presented request = some (sessionId, metadata))
      (hvalid : metadata.isInvalid db.status request.sessionKey now = false) :
      RequestEffect db request now
        (some sessionId, { db with sessions := db.sessions.modify sessionId (·.touch now) })

theorem enforce_effect (db : SessionDb) (request : SessionRequest) (now : Time) :
    RequestEffect db request now (db.enforceAdministratorSession request now) := by
  unfold enforceAdministratorSession
  split_ifs with hignored
  · exact .ignored (by tauto)
  · cases hpresented : db.presented request with
    | none => exact .ignored (.inr (.inr hpresented))
    | some found =>
      obtain ⟨sessionId, metadata⟩ := found
      simp only
      split_ifs with hinvalid
      · exact .rejected hpresented hinvalid
      · exact .accepted hpresented (by simpa using hinvalid)

theorem get?_of_presented {db : SessionDb} {request : SessionRequest} {sessionId : Uuid}
    {metadata : AdministratorSession} (h : db.presented request = some (sessionId, metadata)) :
    request.publicId = some sessionId ∧ db.sessions.get? sessionId = some metadata := by
  simp only [presented, Option.bind_eq_bind, Option.bind_eq_some_iff, Option.pure_def, Option.some.injEq,
    Prod.mk.injEq] at h
  obtain ⟨publicId, hpublic, metadata', hget, rfl, rfl⟩ := h
  exact ⟨hpublic, hget⟩

end SessionDb

/-! ### Runs -/

/-- The limits that the row of a session stores. -/
structure Limits (metadata : AdministratorSession) (authenticatedAt last : ℤ) : Prop where
  authenticated : metadata.authenticatedAt = some authenticatedAt
  lastActivity : metadata.lastActivityAt = some last
  absolute : metadata.absoluteExpiresAt = some (authenticatedAt + adminAbsolute)
  expires : metadata.expiresAt = some (min (last + adminIdle) (authenticatedAt + adminAbsolute))
  before : authenticatedAt ≤ last

theorem Limits.of_keeps {metadata metadata' : AdministratorSession} {authenticatedAt last : ℤ}
    (h : Limits metadata authenticatedAt last) (hkeeps : Keeps metadata metadata') :
    Limits metadata' authenticatedAt last where
  authenticated := hkeeps.authenticatedAt.trans h.authenticated
  lastActivity := hkeeps.lastActivityAt.trans h.lastActivity
  absolute := hkeeps.absoluteExpiresAt.trans h.absolute
  expires := hkeeps.expiresAt.trans h.expires
  before := h.before

/-- The limits after an accepted request, and the activity that is stored. -/
theorem Limits.touch {metadata : AdministratorSession} {authenticatedAt last now : ℤ}
    (h : Limits metadata authenticatedAt last) (hlast : last ≤ now) :
    ∃ last', Limits (metadata.touch now) authenticatedAt last' ∧ last' ≤ now ∧ now < last' + adminActivityUpdate := by
  have hbefore := h.before
  have hupdate : adminActivityUpdate = 60000000 := rfl
  unfold AdministratorSession.touch
  rw [h.lastActivity, Option.all_some]
  split_ifs with hold
  · refine ⟨now, ⟨h.authenticated, rfl, h.absolute, ?_, by omega⟩, le_rfl, by omega⟩
    simp only [h.absolute, Option.map_some]
  · refine ⟨last, h, hlast, ?_⟩
    simp only [decide_eq_true_eq] at hold
    omega

/-- What a row says of the uses of its session: the stored activity is not more than the update interval
behind the last use. -/
structure Timed (s : SessionState) (accepted : List (Uuid × Time)) : Prop where
  row : ∀ sessionId metadata, s.db.sessions.get? sessionId = some metadata →
    ∃ authenticatedAt last, Limits metadata authenticatedAt last ∧
      last ≤ previousUse accepted sessionId authenticatedAt ∧
      previousUse accepted sessionId authenticatedAt < last + adminActivityUpdate ∧
      previousUse accepted sessionId authenticatedAt ≤ s.clock
  known : ∀ use ∈ accepted, s.db.sessions.get? use.1 ≠ none

theorem timed_initial (clock : Time) (status : OwnerStatus) : Timed (.initial clock status) [] where
  row _ _ h := by cases h
  known := by simp

/-- The sessions are kept, and time has passed. -/
theorem Timed.of_keeps {s s' : SessionState} {accepted : List (Uuid × Time)} (h : Timed s accepted)
    (hclock : s.clock ≤ s'.clock) (hkeeps : KeepsRows s.db.sessions s'.db.sessions) : Timed s' accepted where
  row sessionId metadata' hget := by
    cases hold : s.db.sessions.get? sessionId with
    | none =>
      rw [(hkeeps sessionId).1 hold] at hget
      cases hget
    | some metadata =>
      obtain ⟨metadata'', hget', hkept⟩ := (hkeeps sessionId).2 metadata hold
      obtain rfl := Option.some.inj (hget.symm.trans hget')
      obtain ⟨authenticatedAt, last, hlimits, hle, hlt, hnow⟩ := h.row sessionId metadata hold
      exact ⟨authenticatedAt, last, hlimits.of_keeps hkept, hle, hlt, hnow.trans hclock⟩
  known use huse := by
    obtain ⟨metadata, hget⟩ := Option.ne_none_iff_exists'.1 (h.known use huse)
    obtain ⟨metadata', hget', -⟩ := (hkeeps use.1).2 metadata hget
    rw [hget']
    simp

/-- A session is new. -/
theorem Timed.of_established {s s' : SessionState} {accepted : List (Uuid × Time)} (h : Timed s accepted)
    {sessionId : Uuid} {metadata : AdministratorSession} {authenticatedAt : Time}
    (hinsert : s.db.sessions.insert? sessionId metadata = some s'.db.sessions) (hclock : s.clock ≤ s'.clock)
    (hnew : Established s'.clock metadata authenticatedAt) : Timed s' accepted where
  row other metadata' hget := by
    rw [Table.get?_of_insert? hinsert] at hget
    split_ifs at hget with hother
    · obtain rfl := Option.some.inj hget
      have hunused : previousUse accepted other authenticatedAt = authenticatedAt := by
        refine previousUse_of_forall_ne (fun use huse heq => h.known use huse ?_) _
        rw [heq, hother]
        exact (Table.insert?_eq_some hinsert).1
      refine ⟨authenticatedAt, authenticatedAt, ⟨hnew.authenticated, hnew.lastActivity, hnew.absolute,
        hnew.expires, le_rfl⟩, ?_, ?_, ?_⟩
      · rw [hunused]
      · rw [hunused]
        exact Int.lt_add_of_pos_right _ (by decide)
      · rw [hunused]
        exact hnew.before
    · obtain ⟨authenticatedAt', last, hlimits, hle, hlt, hnow⟩ := h.row other metadata' hget
      exact ⟨authenticatedAt', last, hlimits, hle, hlt, hnow.trans hclock⟩
  known use huse := by
    rw [Table.get?_of_insert? hinsert]
    split_ifs
    · simp
    · exact h.known use huse

/-- A request of a session is accepted. -/
theorem Timed.of_accepted {s s' : SessionState} {accepted : List (Uuid × Time)} (h : Timed s accepted)
    {sessionId : Uuid} (hsome : s.db.sessions.get? sessionId ≠ none) (hclock : s.clock ≤ s'.clock)
    (hsessions : s'.db.sessions = s.db.sessions.modify sessionId (·.touch s'.clock)) :
    Timed s' (accepted ++ [(sessionId, s'.clock)]) where
  row other metadata' hget := by
    rw [hsessions, Table.get?_modify] at hget
    split_ifs at hget with hother
    · subst hother
      obtain ⟨metadata, hmetadata, rfl⟩ := Option.map_eq_some_iff.1 hget
      obtain ⟨authenticatedAt, last, hlimits, hle, -, hnow⟩ := h.row other metadata hmetadata
      obtain ⟨last', hlimits', hle', hlt'⟩ := hlimits.touch (hle.trans (hnow.trans hclock))
      refine ⟨authenticatedAt, last', hlimits', ?_⟩
      rw [previousUse_concat_self]
      exact ⟨hle', hlt', le_rfl⟩
    · obtain ⟨authenticatedAt, last, hlimits, hle, hlt, hnow⟩ := h.row other metadata' hget
      refine ⟨authenticatedAt, last, hlimits, ?_⟩
      rw [previousUse_concat_of_ne _ hother]
      exact ⟨hle, hlt, hnow.trans hclock⟩
  known use huse := by
    rw [hsessions, Table.get?_modify]
    split_ifs with hother
    · rw [ne_eq, Option.map_eq_none_iff]
      exact hsome
    · obtain huse | huse := List.mem_append.1 huse
      · exact h.known use huse
      · exact absurd (congrArg Prod.fst (List.mem_singleton.1 huse)) hother

/-- An action keeps what the rows say. -/
theorem Timed.step {s : SessionState} {accepted : List (Uuid × Time)} (h : Timed s accepted)
    (a : ℕ × SessionAction) : Timed (sessionStep s a) (accepted ++ acceptedRequests s a) := by
  obtain ⟨wait, action⟩ := a
  have hclock : s.clock ≤ s.clock + wait := Time.le_wait _ _
  by_cases hrequest : ∃ request, action = .request request
  · obtain ⟨request, rfl⟩ := hrequest
    have heffect := SessionDb.enforce_effect s.db request (s.clock + wait)
    simp only [sessionStep, SessionDb.apply, acceptedRequests]
    generalize s.db.enforceAdministratorSession request (s.clock + wait) = result at heffect
    cases heffect with
    | ignored _ =>
      rw [List.append_nil]
      exact h.of_keeps hclock (.refl _)
    | rejected _ _ =>
      rw [List.append_nil]
      exact h.of_keeps hclock (KeepsRows.modify _ _ (keeps_revoke _))
    | accepted hpresented _ =>
      obtain ⟨-, hget⟩ := SessionDb.get?_of_presented hpresented
      exact h.of_accepted (by rw [hget]; simp) hclock rfl
  · have hother (request : SessionRequest) : action ≠ .request request := fun heq => hrequest ⟨request, heq⟩
    have hnone : acceptedRequests s (wait, action) = [] := by
      cases action with
      | request request => exact absurd rfl (hother request)
      | _ => rfl
    rw [hnone, List.append_nil]
    have heffect := SessionDb.effect_apply s.db (s.clock + wait) hother
    generalize hsessions : (s.db.apply (s.clock + wait) action).sessions = sessions at heffect
    cases heffect with
    | kept hkeeps => exact h.of_keeps hclock (hsessions ▸ hkeeps)
    | @established kept _ hkeeps _ _ _ hinsert hnew =>
      subst hsessions
      have hkept := @Timed.of_keeps _ ⟨s.clock, ⟨s.db.status, kept⟩⟩ _ h le_rfl hkeeps
      exact hkept.of_established hinsert hclock hnew

/-- Every run keeps what the rows say. -/
theorem timed_run (clock : Time) (status : OwnerStatus) (actions : List (ℕ × SessionAction)) :
    Timed (Transition.run sessionStep (.initial clock status) actions)
      (Transition.outputs sessionStep acceptedRequests (.initial clock status) actions) := by
  rw [← List.nil_append (Transition.outputs sessionStep _ _ _)]
  exact Transition.outputs_induction (P := Timed) (fun s a accepted h => h.step a)
    (timed_initial clock status) actions

/-! ### The end of a session -/

/-- A session that is revoked. -/
def Closed (sessionId : Uuid) (s : SessionState) : Prop :=
  ∃ metadata, s.db.sessions.get? sessionId = some metadata ∧ metadata.revokedAt ≠ none

theorem Closed.of_keeps {s s' : SessionState} {sessionId : Uuid} (h : Closed sessionId s)
    (hkeeps : KeepsRows s.db.sessions s'.db.sessions) : Closed sessionId s' := by
  obtain ⟨metadata, hget, hrevoked⟩ := h
  obtain ⟨metadata', hget', hkept⟩ := (hkeeps sessionId).2 metadata hget
  exact ⟨metadata', hget', hkept.revokedAt hrevoked⟩

theorem AdministratorSession.isInvalid_of_revoked {metadata : AdministratorSession} (h : metadata.revokedAt ≠ none)
    (status : OwnerStatus) (sessionKey : String) (now : Time) :
    metadata.isInvalid status sessionKey now = true := by
  simp [AdministratorSession.isInvalid, Option.isSome_iff_ne_none.2 h]

/-- A revoked session is not accepted. -/
theorem Closed.not_accepted {s : SessionState} {sessionId : Uuid} (h : Closed sessionId s)
    (request : SessionRequest) (now : Time) :
    (s.db.enforceAdministratorSession request now).1 ≠ some sessionId := by
  obtain ⟨metadata, hget, hrevoked⟩ := h
  have heffect := SessionDb.enforce_effect s.db request now
  generalize s.db.enforceAdministratorSession request now = result at heffect
  cases heffect with
  | ignored _ => simp
  | rejected _ _ => simp
  | accepted hpresented hvalid =>
    intro heq
    obtain rfl := Option.some.inj heq
    obtain rfl := Option.some.inj ((SessionDb.get?_of_presented hpresented).2.symm.trans hget)
    rw [AdministratorSession.isInvalid_of_revoked hrevoked] at hvalid
    cases hvalid

/-- A revoked session stays revoked. -/
theorem Closed.step {s : SessionState} {sessionId : Uuid} (h : Closed sessionId s) (a : ℕ × SessionAction) :
    Closed sessionId (sessionStep s a) := by
  obtain ⟨wait, action⟩ := a
  by_cases hrequest : ∃ request, action = .request request
  · obtain ⟨request, rfl⟩ := hrequest
    have hnot := h.not_accepted request (s.clock + wait)
    have heffect := SessionDb.enforce_effect s.db request (s.clock + wait)
    have hstep : (sessionStep s (wait, .request request)).db =
        (s.db.enforceAdministratorSession request (s.clock + wait)).2 := rfl
    generalize s.db.enforceAdministratorSession request (s.clock + wait) = result at heffect hnot hstep
    cases heffect with
    | ignored _ => exact h.of_keeps (by rw [hstep]; exact .refl _)
    | rejected _ _ => exact h.of_keeps (by rw [hstep]; exact KeepsRows.modify _ _ (keeps_revoke _))
    | accepted _ _ =>
      obtain ⟨metadata, hget, hrevoked⟩ := h
      refine ⟨metadata, ?_, hrevoked⟩
      rw [hstep, Table.get?_modify_of_ne _ _ fun heq => hnot (congrArg some heq.symm)]
      exact hget
  · have hother (request : SessionRequest) : action ≠ .request request := fun heq => hrequest ⟨request, heq⟩
    have heffect := SessionDb.effect_apply s.db (s.clock + wait) hother
    generalize hsessions : (s.db.apply (s.clock + wait) action).sessions = sessions at heffect
    cases heffect with
    | kept hkeeps => exact h.of_keeps (hsessions ▸ hkeeps)
    | established hkeeps hinsert _ =>
      subst hsessions
      obtain ⟨metadata, hget, hrevoked⟩ := @Closed.of_keeps _ ⟨s.clock, ⟨s.db.status, _⟩⟩ _ h hkeeps
      refine ⟨metadata, ?_, hrevoked⟩
      change (s.db.apply (s.clock + wait) action).sessions.get? sessionId = some metadata
      rw [Table.get?_of_insert? hinsert, if_neg]
      · exact hget
      · rintro rfl
        rw [(Table.insert?_eq_some hinsert).1] at hget
        cases hget

/-- The limits of the sessions, after what was accepted so far. An accepted request comes before both ends
of its session; a request that comes early enough is accepted; a session that is rejected or revoked is not
accepted any more. -/
structure Lifetime (s : SessionState) (accepted : List (Uuid × Time)) : Prop where
  accepts : ∀ (wait : ℕ) request sessionId,
    (s.db.enforceAdministratorSession request (s.clock + wait)).1 = some sessionId →
    ∃ metadata authenticatedAt, s.db.sessions.get? sessionId = some metadata ∧ metadata.revokedAt = none ∧
      metadata.authenticatedAt = some authenticatedAt ∧
      s.clock + wait < previousUse accepted sessionId authenticatedAt + adminIdle ∧
      s.clock + wait < authenticatedAt + adminAbsolute
  accepted : ∀ (wait : ℕ) (request : SessionRequest) sessionId metadata authenticatedAt,
    s.db.sessions.get? sessionId = some metadata → metadata.revokedAt = none →
    metadata.authenticatedAt = some authenticatedAt → request.enabled = true → request.asOwner = true →
    request.publicId = some sessionId → request.sessionKey = metadata.sessionKey → s.db.status ≠ .disabled →
    s.clock + wait ≤ previousUse accepted sessionId authenticatedAt + (adminIdle - adminActivityUpdate) →
    s.clock + wait < authenticatedAt + adminAbsolute →
    (s.db.enforceAdministratorSession request (s.clock + wait)).1 = some sessionId
  bounded : ∀ sessionId metadata, s.db.sessions.get? sessionId = some metadata →
    ∃ expiresAt absoluteExpiresAt, metadata.expiresAt = some expiresAt ∧
      metadata.absoluteExpiresAt = some absoluteExpiresAt ∧ expiresAt ≤ absoluteExpiresAt
  rejected : ∀ (wait : ℕ) (request : SessionRequest) sessionId metadata, request.enabled = true →
    request.asOwner = true → s.db.presented request = some (sessionId, metadata) →
    (s.db.enforceAdministratorSession request (s.clock + wait)).1 = none →
    Closed sessionId (sessionStep s (wait, .request request))
  closed : ∀ sessionId, Closed sessionId s → ∀ actions (wait : ℕ) request,
    ((Transition.run sessionStep s actions).db.enforceAdministratorSession request
      ((Transition.run sessionStep s actions).clock + wait)).1 ≠ some sessionId

/-- The check of a session whose limits are stored. -/
theorem Limits.isInvalid_iff {metadata : AdministratorSession} {authenticatedAt last now : ℤ}
    (h : Limits metadata authenticatedAt last) (status : OwnerStatus) (sessionKey : String) :
    metadata.isInvalid status sessionKey now = false ↔ metadata.sessionKey = sessionKey ∧
      metadata.revokedAt = none ∧ now < last + adminIdle ∧ now < authenticatedAt + adminAbsolute ∧
      status ≠ .disabled := by
  simp only [AdministratorSession.isInvalid, h.expires, h.absolute, Option.all_some, Bool.or_eq_false_iff,
    decide_eq_false_iff_not, not_le, lt_min_iff, bne_eq_false_iff_eq, beq_eq_false_iff_ne,
    Option.isSome_eq_false_iff, Option.isNone_iff_eq_none]
  tauto

theorem lifetime_of_timed {s : SessionState} {accepted : List (Uuid × Time)} (h : Timed s accepted) :
    Lifetime s accepted where
  accepts wait request sessionId haccepted := by
    have heffect := SessionDb.enforce_effect s.db request (s.clock + wait)
    generalize s.db.enforceAdministratorSession request (s.clock + wait) = result at heffect haccepted
    cases heffect with
    | ignored _ => cases haccepted
    | rejected _ _ => cases haccepted
    | @accepted _ metadata hpresented hvalid =>
      obtain rfl := Option.some.inj haccepted
      obtain ⟨-, hget⟩ := SessionDb.get?_of_presented hpresented
      obtain ⟨authenticatedAt, last, hlimits, hle, -, -⟩ := h.row _ metadata hget
      obtain ⟨-, hrevoked, hidle, habsolute, -⟩ := (hlimits.isInvalid_iff _ _).1 hvalid
      exact ⟨metadata, authenticatedAt, hget, hrevoked, hlimits.authenticated,
        lt_of_lt_of_le hidle (Int.add_le_add_right hle _), habsolute⟩
  accepted wait request sessionId metadata authenticatedAt hget hrevoked hauthenticated henabled howner hpublic hkey
      hstatus hidle habsolute := by
    obtain ⟨authenticatedAt', last, hlimits, -, hlt, -⟩ := h.row sessionId metadata hget
    obtain rfl := Option.some.inj (hauthenticated.symm.trans hlimits.authenticated)
    have hvalid : metadata.isInvalid s.db.status request.sessionKey (s.clock + wait) = false := by
      refine (hlimits.isInvalid_iff _ _).2 ⟨hkey.symm, hrevoked, ?_, habsolute, hstatus⟩
      calc s.clock + wait
          ≤ previousUse accepted sessionId authenticatedAt + (adminIdle - adminActivityUpdate) := hidle
        _ < last + adminActivityUpdate + (adminIdle - adminActivityUpdate) := Int.add_lt_add_right hlt _
        _ = last + adminIdle := by ring
    have hpresented : s.db.presented request = some (sessionId, metadata) := by
      rw [SessionDb.presented, hpublic, Option.bind_eq_bind, Option.bind_some, hget]
      rfl
    rw [SessionDb.enforceAdministratorSession, if_neg (by simp [henabled, howner]), hpresented]
    simp only [hvalid, Bool.false_eq_true, if_false]
  bounded sessionId metadata hget := by
    obtain ⟨authenticatedAt, last, hlimits, -⟩ := h.row sessionId metadata hget
    exact ⟨_, _, hlimits.expires, hlimits.absolute, min_le_right _ _⟩
  rejected wait request sessionId metadata henabled howner hpresented hrejected := by
    have hget := (SessionDb.get?_of_presented hpresented).2
    have heffect := SessionDb.enforce_effect s.db request (s.clock + wait)
    have hstep : (sessionStep s (wait, .request request)).db =
        (s.db.enforceAdministratorSession request (s.clock + wait)).2 := rfl
    generalize s.db.enforceAdministratorSession request (s.clock + wait) = result at heffect hrejected hstep
    cases heffect with
    | ignored hignored =>
      rw [henabled, howner, hpresented] at hignored
      simp at hignored
    | rejected hpresented' _ =>
      obtain ⟨rfl, rfl⟩ := Prod.mk.inj (Option.some.inj (hpresented.symm.trans hpresented'))
      refine ⟨metadata.revoke (s.clock + wait), ?_, metadata.revokedAt_revoke _⟩
      rw [hstep, Table.get?_modify_self, hget, Option.map_some]
    | accepted _ _ => cases hrejected
  closed sessionId hclosed actions wait request :=
    (Transition.run_induction (fun _ a hs => hs.step a) hclosed actions).not_accepted request _

/-- The limits hold in every run. -/
theorem lifetime_run (clock : Time) (status : OwnerStatus) (actions : List (ℕ × SessionAction)) :
    Lifetime (Transition.run sessionStep (.initial clock status) actions)
      (Transition.outputs sessionStep acceptedRequests (.initial clock status) actions) :=
  lifetime_of_timed (timed_run clock status actions)

-- A request after 59 seconds is not written; one at most 29 minutes after it is still accepted.
example :
    let request : SessionRequest := ⟨true, true, some 1, "k"⟩
    let at_ (n : ℕ) (action : SessionAction) : ℕ × SessionAction := (n * 1000000, action)
    let actions := [at_ 0 (.login 1 "k" 0), at_ 59 (.request request), at_ 1740 (.request request),
      at_ 1800 (.request request)]
    Transition.outputs sessionStep acceptedRequests (.initial 0 .active) actions =
      [(1, seconds 59), (1, seconds 1799)] := by
  decide +kernel

end CivicLoop.Identity
