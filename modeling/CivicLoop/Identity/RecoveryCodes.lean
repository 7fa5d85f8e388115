import CivicLoop.Foundation.Checked
import CivicLoop.Foundation.Log
import CivicLoop.Foundation.PyText
import CivicLoop.Foundation.Table
import CivicLoop.Foundation.Transition
import CivicLoop.Identity.FullSession
import Mathlib

/-!
# Recovery codes

A batch of ten codes is generated when a device is confirmed, and on request. Each batch invalidates what is
left of the one before, and a reset invalidates everything. A code is found by its public part, among those
that are neither consumed nor invalidated, and its hash is checked; it can be used once.

## Main definitions

* `RecoveryCodeRow`, `RecoveryDb` : the rows.
* `PasswordHasher` : hashes that accept only what was hashed.
* `generateRecoveryBatch`, `consumeRecoveryCode` : the two operations on codes.
* `RecoveryAction` : the operations that use them.
* `RecoveryEvent`, `currentCodes` : what happened, and the codes of the last batch.
* `Recorded` : what the rows say of what happened.
* `SoundRecovery` : the guarantees.

## Main results

* `bulkCreate_spec` : the rows of a batch.
* `recorded_run` : the rows say it in every run.
* `soundRecovery_run` : the guarantees hold in every run.
-/

namespace CivicLoop.Identity

/-! ### Rows -/

/-- `RecoveryCode`. -/
structure RecoveryCodeRow (Encoded : Type) where
  profile : Uuid
  batchId : Uuid
  publicId : String
  encodedSecret : Encoded
  consumedAt : Option Time
  invalidatedAt : Option Time

/-- Neither consumed nor invalidated. -/
def RecoveryCodeRow.isLive {Encoded : Type} (code : RecoveryCodeRow Encoded) : Bool :=
  code.consumedAt.isNone && code.invalidatedAt.isNone

/-- The statuses of the profiles, and the codes. -/
structure RecoveryDb (Encoded : Type) where
  statuses : Table Uuid OwnerStatus
  codes : Table Uuid (RecoveryCodeRow Encoded)

/-- `make_password` with a salt, and `check_password`, which accepts what was hashed only. -/
structure PasswordHasher (Encoded : Type) where
  makePassword : ℕ → String → Encoded
  checkPassword : String → Encoded → Bool
  check_make : ∀ salt password presented,
    checkPassword presented (makePassword salt password) = true ↔ presented = password

inductive RecoveryError
  | notFound
  | verificationFailed
  | drawAgain
  | integrity
  | freshnessRequired
  | confirmation
deriving DecidableEq

/-- A character of `RECOVERY_ALPHABET`. -/
def isRecoveryChar (c : Char) : Bool := c.isUpper || ('2' ≤ c && c ≤ '7')

/-- What is drawn for a code: the ID of its row, the public and the secret part, and the salt of its hash. -/
structure CodeDraw where
  codeId : Uuid
  publicId : String
  secret : String
  salt : ℕ
  publicId_length : publicId.toList.length = 8
  publicId_chars : publicId.toList.all isRecoveryChar = true

/-- The text that the owner is given. -/
def CodeDraw.plaintext (draw : CodeDraw) : String := draw.publicId ++ "-" ++ draw.secret

section Operations

variable {Encoded : Type} (hasher : PasswordHasher Encoded) (upper : Char → List Char)

/-! ### The two operations on codes -/

/-- The draws of `generate_recovery_batch`. A public part that is taken would be drawn again; here the
draws are refused. -/
def drawCodes (codes : Table Uuid (RecoveryCodeRow Encoded)) :
    List String → List CodeDraw → Except RecoveryError Unit
  | _, [] => .ok ()
  | reserved, draw :: draws => do
    ensure (draw.publicId ∉ reserved ∧ codes.values.all (fun code => code.publicId != draw.publicId) = true)
      RecoveryError.drawAgain
    drawCodes codes (draw.publicId :: reserved) draws

/-- `bulk_create`. -/
def bulkCreate (profile batchId : Uuid) : List CodeDraw → Table Uuid (RecoveryCodeRow Encoded) →
    Except RecoveryError (Table Uuid (RecoveryCodeRow Encoded))
  | [], codes => .ok codes
  | draw :: draws, codes => do
    let codes ← fetch (codes.insert? draw.codeId {
      profile, batchId
      publicId := draw.publicId
      encodedSecret := hasher.makePassword draw.salt draw.plaintext
      consumedAt := none
      invalidatedAt := none }) RecoveryError.integrity
    bulkCreate profile batchId draws codes

/-- `update(invalidated_at=now)` of the codes of a profile that satisfy a condition. -/
def invalidateCodes (profile : Uuid) (p : RecoveryCodeRow Encoded → Bool) (now : Time)
    (codes : Table Uuid (RecoveryCodeRow Encoded)) : Table Uuid (RecoveryCodeRow Encoded) :=
  codes.mapValues fun code =>
    if code.profile = profile ∧ p code = true then { code with invalidatedAt := some now } else code

/-- `generate_recovery_batch`. -/
def generateRecoveryBatch (profile batchId : Uuid) (draws : Fin 10 → CodeDraw) (now : Time)
    (db : RecoveryDb Encoded) : Except RecoveryError (RecoveryDb Encoded) := do
  let codes := invalidateCodes profile RecoveryCodeRow.isLive now db.codes
  drawCodes codes [] (List.ofFn draws)
  let codes ← bulkCreate hasher profile batchId (List.ofFn draws) codes
  return { db with codes }

/-- `presented_code.strip().upper()`, where the upper case of each character is given. -/
def normalizeCode (presented : String) : String :=
  String.ofList (((presented.toList.dropWhile isSpace).rdropWhile isSpace).flatMap upper)

/-- The public part of a code in the form `RECOVERY_CODE_PATTERN`. -/
def matchRecoveryCode (normalized : String) : Option String :=
  let cs := normalized.toList
  if cs.length = 35 ∧ (cs.take 8).all isRecoveryChar = true ∧ cs[8]? = some '-' ∧
      (cs.drop 9).all isRecoveryChar = true then
    some (String.ofList (cs.take 8))
  else none

/-- `consume_recovery_code`: the row that was consumed. -/
def consumeRecoveryCode (profile : Uuid) (presented : String) (now : Time) (db : RecoveryDb Encoded) :
    Except RecoveryError (Uuid × RecoveryDb Encoded) := do
  let normalized := normalizeCode upper presented
  let publicId ← fetch (matchRecoveryCode normalized) RecoveryError.verificationFailed
  let (codeId, code) ← fetch (db.codes.find? fun _ code =>
    code.profile = profile && code.publicId = publicId && code.isLive) RecoveryError.verificationFailed
  ensure (hasher.checkPassword normalized code.encodedSecret = true) RecoveryError.verificationFailed
  return (codeId, { db with codes := db.codes.modify codeId ({ · with consumedAt := some now }) })

/-! ### The operations of the owner -/

/-- `_complete_initial_enrollment`, where whether the device can be confirmed is given. -/
def enrollInitially (profile : Uuid) (deviceOk : Bool) (batchId : Uuid) (draws : Fin 10 → CodeDraw) (now : Time)
    (db : RecoveryDb Encoded) : Except RecoveryError (RecoveryDb Encoded) := do
  let status ← fetch (db.statuses.get? profile) RecoveryError.notFound
  ensure (status = .enrollmentRequired ∧ deviceOk = true) RecoveryError.verificationFailed
  let db ← generateRecoveryBatch hasher profile batchId draws now db
  return { db with statuses := db.statuses.set profile .active }

/-- `_complete_recovery_enrollment`, where whether the session is the restricted one and the device can be
confirmed is given. -/
def enrollAfterRecovery (profile : Uuid) (sessionOk deviceOk : Bool) (batchId : Uuid) (draws : Fin 10 → CodeDraw)
    (now : Time) (db : RecoveryDb Encoded) : Except RecoveryError (RecoveryDb Encoded) := do
  let status ← fetch (db.statuses.get? profile) RecoveryError.notFound
  ensure (status = .recoveryRequired ∧ sessionOk = true ∧ deviceOk = true) RecoveryError.verificationFailed
  let db ← generateRecoveryBatch hasher profile batchId draws now db
  return { db with statuses := db.statuses.set profile .active }

/-- `regenerate_recovery_codes`, where whether the session is fresh is given. -/
def regenerateRecoveryCodes (profile : Uuid) (fresh : Bool) (batchId : Uuid) (draws : Fin 10 → CodeDraw)
    (now : Time) (db : RecoveryDb Encoded) : Except RecoveryError (RecoveryDb Encoded) := do
  ensure (fresh = true) RecoveryError.freshnessRequired
  generateRecoveryBatch hasher profile batchId draws now db

/-- `_complete_recovery_authentication_transaction`, where the status that the view has read is given, and
whether the limit allows the attempt and a session can be made. A wrong code is recorded, so it is not
reported as an error; there is no session then. -/
def recoverWithCode (profile : Uuid) (viewed : OwnerStatus) (allowed sessionOk : Bool) (presented : String)
    (now : Time) (db : RecoveryDb Encoded) : Except RecoveryError (Option Uuid × RecoveryDb Encoded) := do
  ensure (viewed = .active ∧ allowed = true) RecoveryError.verificationFailed
  match consumeRecoveryCode hasher upper profile presented now db with
  | .error _ => return (none, db)
  | .ok (codeId, db) => do
    ensure (sessionOk = true) RecoveryError.integrity
    return (some codeId, { db with statuses := db.statuses.set profile .recoveryRequired })

/-- `reset_owner_mfa`. -/
def resetRecoveryCodes (profile : Uuid) (confirmed : Bool) (now : Time) (db : RecoveryDb Encoded) :
    Except RecoveryError (RecoveryDb Encoded) := do
  ensure (confirmed = true) RecoveryError.confirmation
  return { statuses := db.statuses.set profile .enrollmentRequired
           codes := invalidateCodes profile (·.invalidatedAt.isNone) now db.codes }

/-! ### The system -/

/-- The operations on the codes of a profile. -/
inductive RecoveryAction
  | enroll (profile : Uuid) (deviceOk : Bool) (batchId : Uuid) (draws : Fin 10 → CodeDraw)
  | enrollRecovered (profile : Uuid) (sessionOk deviceOk : Bool) (batchId : Uuid) (draws : Fin 10 → CodeDraw)
  | regenerate (profile : Uuid) (fresh : Bool) (batchId : Uuid) (draws : Fin 10 → CodeDraw)
  | consume (profile : Uuid) (presented : String)
  | recover (profile : Uuid) (viewed : OwnerStatus) (allowed sessionOk : Bool) (presented : String)
  | reset (profile : Uuid) (confirmed : Bool)

/-- The rows after a transaction. -/
def RecoveryDb.after (db : RecoveryDb Encoded) (result : Except RecoveryError (RecoveryDb Encoded)) :
    RecoveryDb Encoded :=
  match result with
  | .ok db' => db'
  | .error _ => db

/-- The rows after an operation. -/
def recoveryStep (db : RecoveryDb Encoded) (a : Time × RecoveryAction) : RecoveryDb Encoded :=
  match a.2 with
  | .enroll profile deviceOk batchId draws =>
    db.after (enrollInitially hasher profile deviceOk batchId draws a.1 db)
  | .enrollRecovered profile sessionOk deviceOk batchId draws =>
    db.after (enrollAfterRecovery hasher profile sessionOk deviceOk batchId draws a.1 db)
  | .regenerate profile fresh batchId draws =>
    db.after (regenerateRecoveryCodes hasher profile fresh batchId draws a.1 db)
  | .consume profile presented => commit db (consumeRecoveryCode hasher upper profile presented a.1 db)
  | .recover profile viewed allowed sessionOk presented =>
    commit db (recoverWithCode hasher upper profile viewed allowed sessionOk presented a.1 db)
  | .reset profile confirmed => db.after (resetRecoveryCodes profile confirmed a.1 db)

/-- What happened to the codes: a batch was generated, a code was accepted, and the codes of a profile were
reset. A code is the ID of its row and its text. -/
inductive RecoveryEvent
  | generated (profile batchId : Uuid) (codes : List (Uuid × String))
  | accepted (profile codeId : Uuid) (text : String)
  | reset (profile : Uuid)

/-- The codes that are drawn. -/
def drawnCodes (draws : Fin 10 → CodeDraw) : List (Uuid × String) :=
  (List.ofFn draws).map fun draw => (draw.codeId, draw.plaintext)

/-- What an operation makes happen. -/
def recoveryEvents (db : RecoveryDb Encoded) (a : Time × RecoveryAction) : List RecoveryEvent :=
  match a.2 with
  | .enroll profile deviceOk batchId draws =>
    if (enrollInitially hasher profile deviceOk batchId draws a.1 db).isOk = true then
      [.generated profile batchId (drawnCodes draws)] else []
  | .enrollRecovered profile sessionOk deviceOk batchId draws =>
    if (enrollAfterRecovery hasher profile sessionOk deviceOk batchId draws a.1 db).isOk = true then
      [.generated profile batchId (drawnCodes draws)] else []
  | .regenerate profile fresh batchId draws =>
    if (regenerateRecoveryCodes hasher profile fresh batchId draws a.1 db).isOk = true then
      [.generated profile batchId (drawnCodes draws)] else []
  | .consume profile presented =>
    match consumeRecoveryCode hasher upper profile presented a.1 db with
    | .ok (codeId, _) => [.accepted profile codeId (normalizeCode upper presented)]
    | .error _ => []
  | .recover profile viewed allowed sessionOk presented =>
    match recoverWithCode hasher upper profile viewed allowed sessionOk presented a.1 db with
    | .ok (some codeId, _) => [.accepted profile codeId (normalizeCode upper presented)]
    | _ => []
  | .reset profile confirmed =>
    if (resetRecoveryCodes profile confirmed a.1 db).isOk = true then [.reset profile] else []

/-- The codes of the last batch of a profile; none after a reset. -/
def currentCodes (profile : Uuid) (log : List RecoveryEvent) : List (Uuid × String) :=
  log.foldl (fun current event => match event with
    | .generated owner _ codes => if owner = profile then codes else current
    | .accepted _ _ _ => current
    | .reset owner => if owner = profile then [] else current) []

/-- The ID of the last batch of a profile. -/
def lastBatch (profile : Uuid) (log : List RecoveryEvent) : Option Uuid :=
  log.foldl (fun last event => match event with
    | .generated owner batchId _ => if owner = profile then some batchId else last
    | _ => last) none

theorem currentCodes_generated (owner batchId : Uuid) (codes : List (Uuid × String)) (profile : Uuid) (log : List RecoveryEvent) :
    currentCodes profile (log ++ [.generated owner batchId codes]) = if owner = profile then codes else currentCodes profile log := by
  rw [currentCodes, List.foldl_append]
  rfl

theorem currentCodes_accepted (owner codeId : Uuid) (text : String) (profile : Uuid) (log : List RecoveryEvent) :
    currentCodes profile (log ++ [.accepted owner codeId text]) = currentCodes profile log := by
  rw [currentCodes, List.foldl_append]
  rfl

theorem currentCodes_reset (owner : Uuid) (profile : Uuid) (log : List RecoveryEvent) :
    currentCodes profile (log ++ [.reset owner]) = if owner = profile then [] else currentCodes profile log := by
  rw [currentCodes, List.foldl_append]
  rfl

theorem lastBatch_generated (owner batchId : Uuid) (codes : List (Uuid × String)) (profile : Uuid) (log : List RecoveryEvent) :
    lastBatch profile (log ++ [.generated owner batchId codes]) = if owner = profile then some batchId else lastBatch profile log := by
  rw [lastBatch, List.foldl_append]
  rfl

theorem lastBatch_accepted (owner codeId : Uuid) (text : String) (profile : Uuid) (log : List RecoveryEvent) :
    lastBatch profile (log ++ [.accepted owner codeId text]) = lastBatch profile log := by
  rw [lastBatch, List.foldl_append]
  rfl

theorem lastBatch_reset (owner : Uuid) (profile : Uuid) (log : List RecoveryEvent) :
    lastBatch profile (log ++ [.reset owner]) = lastBatch profile log := by
  rw [lastBatch, List.foldl_append]
  rfl

/-! ### What an operation does -/

/-- The public part of a code. -/
def publicPart (text : String) : String := String.ofList (text.toList.take 8)

theorem publicPart_plaintext (draw : CodeDraw) : publicPart draw.plaintext = draw.publicId := by
  have hlist : draw.plaintext.toList = draw.publicId.toList ++ ("-" ++ draw.secret).toList := by
    rw [CodeDraw.plaintext, String.append_assoc, String.toList_append]
  rw [publicPart, hlist, List.take_left' draw.publicId_length, String.ofList_toList]

theorem matchRecoveryCode_eq_some {text publicId : String} (h : matchRecoveryCode text = some publicId) :
    publicPart text = publicId := by
  simp only [matchRecoveryCode] at h
  split_ifs at h
  exact Option.some.inj h

/-- The row of a drawn code. -/
def CodeDraw.row (profile batchId : Uuid) (draw : CodeDraw) : RecoveryCodeRow Encoded where
  profile
  batchId
  publicId := draw.publicId
  encodedSecret := hasher.makePassword draw.salt draw.plaintext
  consumedAt := none
  invalidatedAt := none

/-- The public parts that are drawn are new. -/
theorem of_drawCodes {codes : Table Uuid (RecoveryCodeRow Encoded)} {reserved : List String}
    {draws : List CodeDraw} (h : drawCodes codes reserved draws = .ok ()) :
    (∀ draw ∈ draws, draw.publicId ∉ reserved ∧
      ∀ codeId code, codes.get? codeId = some code → code.publicId ≠ draw.publicId) ∧
      (draws.map CodeDraw.publicId).Nodup := by
  induction draws generalizing reserved with
  | nil => simp
  | cons draw draws ih =>
    rw [drawCodes] at h
    obtain ⟨_, hnew, h⟩ := bind_eq_ok.1 h
    obtain ⟨hreserved, hcodes⟩ := ensure_eq_ok.1 hnew
    obtain ⟨hrest, hnodup⟩ := ih h
    refine ⟨fun drawn hdrawn => ?_, List.nodup_cons.2 ⟨?_, hnodup⟩⟩
    · obtain rfl | hdrawn := List.mem_cons.1 hdrawn
      · refine ⟨hreserved, fun codeId code hcode heq => ?_⟩
        have hall := List.all_eq_true.1 hcodes code (Table.mem_values.2 ⟨codeId, hcode⟩)
        simp [heq] at hall
      · exact ⟨fun hmem => (hrest drawn hdrawn).1 (List.mem_cons_of_mem _ hmem), (hrest drawn hdrawn).2⟩
    · intro hmem
      obtain ⟨drawn, hdrawn, heq⟩ := List.mem_map.1 hmem
      exact (hrest drawn hdrawn).1 (heq ▸ List.mem_cons_self)

/-- The rows of a batch: the old ones, and one for each draw. -/
theorem bulkCreate_spec {profile batchId : Uuid} {draws : List CodeDraw}
    {codes codes' : Table Uuid (RecoveryCodeRow Encoded)}
    (h : bulkCreate hasher profile batchId draws codes = .ok codes') :
    (∀ codeId code, codes.get? codeId = some code → codes'.get? codeId = some code) ∧
      ∀ codeId code, codes'.get? codeId = some code → codes.get? codeId = some code ∨
        ∃ draw ∈ draws, draw.codeId = codeId ∧ code = draw.row hasher profile batchId := by
  induction draws generalizing codes with
  | nil =>
    obtain rfl := Except.ok.inj h
    exact ⟨fun _ _ => id, fun _ _ => .inl⟩
  | cons draw draws ih =>
    rw [bulkCreate] at h
    obtain ⟨inserted, hinsert, h⟩ := bind_eq_ok.1 h
    rw [fetch_eq_ok] at hinsert
    obtain ⟨hold, hnew⟩ := ih h
    have hget := Table.get?_of_insert? hinsert
    constructor
    · intro codeId code hcode
      refine hold codeId code ?_
      rw [hget, if_neg, hcode]
      rintro rfl
      rw [(Table.insert?_eq_some hinsert).1] at hcode
      cases hcode
    · intro codeId code hcode
      obtain hcode | ⟨drawn, hdrawn, hid, hrow⟩ := hnew codeId code hcode
      · rw [hget] at hcode
        split_ifs at hcode with hid
        · exact .inr ⟨draw, List.mem_cons_self, hid.symm, (Option.some.inj hcode).symm⟩
        · exact .inl hcode
      · exact .inr ⟨drawn, List.mem_cons_of_mem _ hdrawn, hid, hrow⟩

/-- What an operation does to the codes: nothing, or it generates a batch, consumes a code, or resets them. -/
inductive RecoveryEffect (codes : Table Uuid (RecoveryCodeRow Encoded)) :
    Table Uuid (RecoveryCodeRow Encoded) → List RecoveryEvent → Prop
  | unchanged : RecoveryEffect codes codes []
  | generated {profile batchId now codes'} (draws : Fin 10 → CodeDraw)
      (hdraw : drawCodes (invalidateCodes profile RecoveryCodeRow.isLive now codes) [] (List.ofFn draws) = .ok ())
      (hcreate : bulkCreate hasher profile batchId (List.ofFn draws)
        (invalidateCodes profile RecoveryCodeRow.isLive now codes) = .ok codes') :
      RecoveryEffect codes codes' [.generated profile batchId (drawnCodes draws)]
  | accepted {profile codeId code text now} (hget : codes.get? codeId = some code) (hprofile : code.profile = profile)
      (hlive : code.isLive = true) (hpublic : publicPart text = code.publicId)
      (hcheck : hasher.checkPassword text code.encodedSecret = true) :
      RecoveryEffect codes (codes.modify codeId ({ · with consumedAt := some now })) [.accepted profile codeId text]
  | reset {profile now} :
      RecoveryEffect codes (invalidateCodes profile (·.invalidatedAt.isNone) now codes) [.reset profile]

theorem effect_generate {db db' : RecoveryDb Encoded} {profile batchId : Uuid} {draws : Fin 10 → CodeDraw}
    {now : Time} (h : generateRecoveryBatch hasher profile batchId draws now db = .ok db') :
    RecoveryEffect hasher db.codes db'.codes [.generated profile batchId (drawnCodes draws)] := by
  simp only [generateRecoveryBatch, bind_eq_ok, pure_eq_ok] at h
  obtain ⟨_, hdraw, codes, hcreate, rfl⟩ := h
  exact .generated draws hdraw hcreate

theorem effect_consume {db db' : RecoveryDb Encoded} {profile codeId : Uuid} {presented : String} {now : Time}
    (h : consumeRecoveryCode hasher upper profile presented now db = .ok (codeId, db')) :
    RecoveryEffect hasher db.codes db'.codes [.accepted profile codeId (normalizeCode upper presented)] := by
  simp only [consumeRecoveryCode, bind_eq_ok, fetch_eq_ok, ensure_eq_ok, pure_eq_ok, Prod.mk.injEq] at h
  obtain ⟨publicId, hmatch, ⟨found, code⟩, hfind, _, hcheck, rfl, rfl⟩ := h
  obtain ⟨hget, hfound⟩ := Table.find?_eq_some hfind
  simp only [Bool.and_eq_true, decide_eq_true_eq] at hfound
  obtain ⟨⟨hprofile, hpublic⟩, hlive⟩ := hfound
  exact .accepted hget hprofile hlive ((matchRecoveryCode_eq_some hmatch).trans hpublic.symm) hcheck

/-- An operation that raises does nothing. -/
theorem effect_codes_after {db : RecoveryDb Encoded} {result : Except RecoveryError (RecoveryDb Encoded)}
    {events : List RecoveryEvent}
    (h : ∀ db', result = .ok db' → RecoveryEffect hasher db.codes db'.codes events) :
    RecoveryEffect hasher db.codes (db.after result).codes (if result.isOk = true then events else []) := by
  cases result with
  | ok db' => exact h db' rfl
  | error e => exact .unchanged

theorem recovery_effect (db : RecoveryDb Encoded) (a : Time × RecoveryAction) :
    RecoveryEffect hasher db.codes (recoveryStep hasher upper db a).codes (recoveryEvents hasher upper db a) := by
  obtain ⟨now, action⟩ := a
  cases action with
  | enroll profile deviceOk batchId draws =>
    refine effect_codes_after hasher fun db' h => ?_
    simp only [enrollInitially, bind_eq_ok, pure_eq_ok] at h
    obtain ⟨_, -, _, -, generated, hgenerate, rfl⟩ := h
    have heffect := effect_generate hasher hgenerate
    exact heffect
  | enrollRecovered profile sessionOk deviceOk batchId draws =>
    refine effect_codes_after hasher fun db' h => ?_
    simp only [enrollAfterRecovery, bind_eq_ok, pure_eq_ok] at h
    obtain ⟨_, -, _, -, generated, hgenerate, rfl⟩ := h
    have heffect := effect_generate hasher hgenerate
    exact heffect
  | regenerate profile fresh batchId draws =>
    refine effect_codes_after hasher fun db' h => ?_
    obtain ⟨_, -, hgenerate⟩ := bind_eq_ok.1 h
    exact effect_generate hasher hgenerate
  | consume profile presented =>
    simp only [recoveryStep, recoveryEvents]
    cases h : consumeRecoveryCode hasher upper profile presented now db with
    | error e => exact .unchanged
    | ok result => exact effect_consume hasher upper h
  | recover profile viewed allowed sessionOk presented =>
    simp only [recoveryStep, recoveryEvents, recoverWithCode]
    by_cases hallowed : viewed = .active ∧ allowed = true
    · rw [ensure_bind hallowed]
      cases h : consumeRecoveryCode hasher upper profile presented now db with
      | error e => exact .unchanged
      | ok result =>
        cases sessionOk with
        | false => exact .unchanged
        | true =>
          have heffect := effect_consume hasher upper h
          exact heffect
    · rw [ensure_bind_of_not hallowed]
      exact .unchanged
  | reset profile confirmed =>
    refine effect_codes_after hasher fun db' h => ?_
    simp only [resetRecoveryCodes, bind_eq_ok, pure_eq_ok] at h
    obtain ⟨_, -, rfl⟩ := h
    exact .reset

/-- A code that is not accepted changes nothing. -/
theorem recoveryStep_of_refused {db : RecoveryDb Encoded} {now : Time} {action : RecoveryAction}
    (haction : (∃ profile presented, action = .consume profile presented) ∨
      ∃ profile viewed allowed sessionOk presented, action = .recover profile viewed allowed sessionOk presented)
    (h : recoveryEvents hasher upper db (now, action) = []) : recoveryStep hasher upper db (now, action) = db := by
  obtain ⟨profile, presented, rfl⟩ | ⟨profile, viewed, allowed, sessionOk, presented, rfl⟩ := haction
  · simp only [recoveryStep, recoveryEvents] at h ⊢
    cases hresult : consumeRecoveryCode hasher upper profile presented now db with
    | error e => rfl
    | ok result =>
      rw [hresult] at h
      cases h
  · simp only [recoveryStep, recoveryEvents, recoverWithCode] at h ⊢
    by_cases hallowed : viewed = .active ∧ allowed = true
    · rw [ensure_bind hallowed] at h ⊢
      cases hresult : consumeRecoveryCode hasher upper profile presented now db with
      | error e => rfl
      | ok result =>
        rw [hresult] at h
        cases sessionOk with
        | false => rfl
        | true => cases h
    · rw [ensure_bind_of_not hallowed]
      rfl

/-! ### Rows that change -/

/-- The row is the same code, and is not live unless it was. -/
structure Weaker (code code' : RecoveryCodeRow Encoded) : Prop where
  profile : code'.profile = code.profile
  batchId : code'.batchId = code.batchId
  publicId : code'.publicId = code.publicId
  encodedSecret : code'.encodedSecret = code.encodedSecret
  live : code'.isLive = true → code.isLive = true

/-- The rows are the same codes. -/
def WeakerRows (codes codes' : Table Uuid (RecoveryCodeRow Encoded)) : Prop :=
  (∀ codeId code, codes.get? codeId = some code → ∃ code', codes'.get? codeId = some code' ∧ Weaker code code') ∧
    ∀ codeId code', codes'.get? codeId = some code' → ∃ code, codes.get? codeId = some code ∧ Weaker code code'

theorem weakerRows_of_get? {codes codes' : Table Uuid (RecoveryCodeRow Encoded)}
    {f : Uuid → RecoveryCodeRow Encoded → RecoveryCodeRow Encoded}
    (hget : ∀ codeId, codes'.get? codeId = (codes.get? codeId).map (f codeId))
    (hf : ∀ codeId code, Weaker code (f codeId code)) : WeakerRows codes codes' := by
  constructor
  · intro codeId code hcode
    exact ⟨f codeId code, by rw [hget, hcode, Option.map_some], hf codeId code⟩
  · intro codeId code' hcode'
    rw [hget] at hcode'
    obtain ⟨code, hcode, rfl⟩ := Option.map_eq_some_iff.1 hcode'
    exact ⟨code, hcode, hf codeId code⟩

theorem weakerRows_invalidateCodes (profile : Uuid) (p : RecoveryCodeRow Encoded → Bool) (now : Time)
    (codes : Table Uuid (RecoveryCodeRow Encoded)) : WeakerRows codes (invalidateCodes profile p now codes) := by
  refine weakerRows_of_get? (fun codeId => Table.get?_mapValues codes _ codeId) fun _ code => ?_
  split_ifs
  · exact ⟨rfl, rfl, rfl, rfl, fun h => by simp [RecoveryCodeRow.isLive] at h⟩
  · exact ⟨rfl, rfl, rfl, rfl, id⟩

theorem weakerRows_consume (codes : Table Uuid (RecoveryCodeRow Encoded)) (codeId : Uuid) (now : Time) :
    WeakerRows codes (codes.modify codeId ({ · with consumedAt := some now })) := by
  refine weakerRows_of_get? (f := fun other code => if other = codeId then { code with consumedAt := some now } else code)
    (fun other => ?_) fun other code => ?_
  · rw [Table.get?_modify]
    split_ifs with h
    · rw [h]
    · rw [Option.map_id']
  · split_ifs
    · exact ⟨rfl, rfl, rfl, rfl, fun h => by simp [RecoveryCodeRow.isLive] at h⟩
    · exact ⟨rfl, rfl, rfl, rfl, id⟩

/-- After an invalidation of all live codes of a profile, none of them is live. -/
theorem profile_ne_of_live {profile codeId : Uuid} {p : RecoveryCodeRow Encoded → Bool} {now : Time}
    {codes : Table Uuid (RecoveryCodeRow Encoded)} {code : RecoveryCodeRow Encoded}
    (hp : ∀ code : RecoveryCodeRow Encoded, code.isLive = true → p code = true)
    (h : (invalidateCodes profile p now codes).get? codeId = some code) (hlive : code.isLive = true) :
    code.profile ≠ profile := by
  rw [invalidateCodes, Table.get?_mapValues] at h
  obtain ⟨old, -, rfl⟩ := Option.map_eq_some_iff.1 h
  split_ifs at hlive ⊢ with hold
  · simp [RecoveryCodeRow.isLive] at hlive
  · exact fun heq => hold ⟨heq, hp old hlive⟩

/-! ### Runs -/

/-- What the rows say of what happened. -/
structure Recorded (codes : Table Uuid (RecoveryCodeRow Encoded)) (log : List RecoveryEvent) : Prop where
  row : ∀ codeId code, codes.get? codeId = some code → ∃ text salt, code.publicId = publicPart text ∧
    code.encodedSecret = hasher.makePassword salt text ∧
    (code.isLive = true →
      (codeId, text) ∈ currentCodes code.profile log ∧ lastBatch code.profile log = some code.batchId)
  unique : ∀ codeId codeId' code code', codes.get? codeId = some code → codes.get? codeId' = some code' →
    code.publicId = code'.publicId → codeId = codeId'
  used : ∀ profile codeId text, .accepted profile codeId text ∈ log → ∃ code, codes.get? codeId = some code ∧
    code.isLive = false ∧ code.publicId = publicPart text
  size : ∀ profile, (currentCodes profile log).length ≤ 10

theorem recorded_empty : Recorded hasher (Table.empty : Table Uuid (RecoveryCodeRow Encoded)) [] where
  row _ _ h := by cases h
  unique _ _ _ _ h := by cases h
  used _ _ _ h := by cases h
  size _ := Nat.zero_le _

variable {hasher}

/-- The codes that are not live are still the ones that were used. -/
theorem Recorded.used_of_weaker {codes codes' : Table Uuid (RecoveryCodeRow Encoded)} {log : List RecoveryEvent}
    (h : Recorded hasher codes log) (hweaker : WeakerRows codes codes') {profile codeId : Uuid} {text : String}
    (hused : .accepted profile codeId text ∈ log) :
    ∃ code, codes'.get? codeId = some code ∧ code.isLive = false ∧ code.publicId = publicPart text := by
  obtain ⟨code, hget, hlive, hpublic⟩ := h.used profile codeId text hused
  obtain ⟨code', hget', hweak⟩ := hweaker.1 codeId code hget
  refine ⟨code', hget', ?_, hweak.publicId.trans hpublic⟩
  by_contra hnot
  rw [Bool.not_eq_false] at hnot
  rw [hweak.live hnot] at hlive
  cases hlive

theorem Recorded.unique_of_weaker {codes codes' : Table Uuid (RecoveryCodeRow Encoded)} {log : List RecoveryEvent}
    (h : Recorded hasher codes log) (hweaker : WeakerRows codes codes') {codeId codeId' : Uuid}
    {code code' : RecoveryCodeRow Encoded} (hget : codes'.get? codeId = some code)
    (hget' : codes'.get? codeId' = some code') (heq : code.publicId = code'.publicId) : codeId = codeId' := by
  obtain ⟨old, hold, hweak⟩ := hweaker.2 codeId code hget
  obtain ⟨old', hold', hweak'⟩ := hweaker.2 codeId' code' hget'
  exact h.unique codeId codeId' old old' hold hold' (by rw [← hweak.publicId, heq, hweak'.publicId])

/-- The rows say of a reset that no code of the profile is live. -/
theorem Recorded.reset {codes : Table Uuid (RecoveryCodeRow Encoded)} {log : List RecoveryEvent}
    (h : Recorded hasher codes log) (profile : Uuid) (now : Time) :
    Recorded hasher (invalidateCodes profile (·.invalidatedAt.isNone) now codes) (log ++ [.reset profile]) := by
  have hweaker := weakerRows_invalidateCodes profile (fun code => code.invalidatedAt.isNone) now codes
  refine ⟨?_, fun _ _ _ _ hget hget' => h.unique_of_weaker hweaker hget hget', ?_, ?_⟩
  · intro codeId code hget
    obtain ⟨old, hold, hweak⟩ := hweaker.2 codeId code hget
    obtain ⟨text, salt, hpublic, hsecret, hcurrent⟩ := h.row codeId old hold
    refine ⟨text, salt, hweak.publicId.trans hpublic, hweak.encodedSecret.trans hsecret, fun hlive => ?_⟩
    have hother : code.profile ≠ profile := by
      refine profile_ne_of_live (fun code hcode => ?_) hget hlive
      simp only [RecoveryCodeRow.isLive, Bool.and_eq_true] at hcode
      exact hcode.2
    rw [currentCodes_reset, lastBatch_reset, if_neg hother.symm, hweak.profile, hweak.batchId]
    exact hcurrent (hweak.live hlive)
  · intro owner codeId text hmem
    obtain hmem | hmem := List.mem_append.1 hmem
    · exact h.used_of_weaker hweaker hmem
    · cases List.mem_singleton.1 hmem
  · intro owner
    rw [currentCodes_reset]
    split_ifs
    · exact Nat.zero_le _
    · exact h.size owner

/-- The rows say of a consumed code that it was used. -/
theorem Recorded.accepted {codes : Table Uuid (RecoveryCodeRow Encoded)} {log : List RecoveryEvent}
    (h : Recorded hasher codes log) {profile codeId : Uuid} {code : RecoveryCodeRow Encoded} {text : String}
    (hget : codes.get? codeId = some code) (hpublic : publicPart text = code.publicId) (now : Time) :
    Recorded hasher (codes.modify codeId ({ · with consumedAt := some now }))
      (log ++ [.accepted profile codeId text]) := by
  have hweaker := weakerRows_consume codes codeId now
  refine ⟨?_, fun _ _ _ _ hget hget' => h.unique_of_weaker hweaker hget hget', ?_, ?_⟩
  · intro other code' hget'
    obtain ⟨old, hold, hweak⟩ := hweaker.2 other code' hget'
    obtain ⟨text', salt, hpublic', hsecret, hcurrent⟩ := h.row other old hold
    refine ⟨text', salt, hweak.publicId.trans hpublic', hweak.encodedSecret.trans hsecret, fun hlive => ?_⟩
    rw [currentCodes_accepted, lastBatch_accepted, hweak.profile, hweak.batchId]
    exact hcurrent (hweak.live hlive)
  · intro owner other text' hmem
    obtain hmem | hmem := List.mem_append.1 hmem
    · exact h.used_of_weaker hweaker hmem
    · cases List.mem_singleton.1 hmem
      refine ⟨{ code with consumedAt := some now }, ?_, rfl, hpublic.symm⟩
      rw [Table.get?_modify_self, hget, Option.map_some]
  · intro owner
    rw [currentCodes_accepted]
    exact h.size owner

/-- The rows say of a new batch that its codes are the current ones. -/
theorem Recorded.generated {codes codes' : Table Uuid (RecoveryCodeRow Encoded)} {log : List RecoveryEvent}
    (h : Recorded hasher codes log) {profile batchId : Uuid} {now : Time} {draws : Fin 10 → CodeDraw}
    (hdraw : drawCodes (invalidateCodes profile RecoveryCodeRow.isLive now codes) [] (List.ofFn draws) = .ok ())
    (hcreate : bulkCreate hasher profile batchId (List.ofFn draws)
      (invalidateCodes profile RecoveryCodeRow.isLive now codes) = .ok codes') :
    Recorded hasher codes' (log ++ [.generated profile batchId (drawnCodes draws)]) := by
  have hweaker := weakerRows_invalidateCodes profile RecoveryCodeRow.isLive now codes
  obtain ⟨hnew, hnodup⟩ := of_drawCodes hdraw
  obtain ⟨hold, hrows⟩ := bulkCreate_spec hasher hcreate
  -- a drawn code differs from all others in its public part
  have hdrawn {draw : CodeDraw} (hmem : draw ∈ List.ofFn draws) {codeId : Uuid} {code : RecoveryCodeRow Encoded}
      (hget : codes'.get? codeId = some code) (heq : code.publicId = draw.publicId) : draw.codeId = codeId := by
    obtain hget | ⟨draw', hmem', hid, rfl⟩ := hrows codeId code hget
    · exact absurd heq ((hnew draw hmem).2 codeId code hget)
    · rw [← hid, List.inj_on_of_nodup_map hnodup hmem hmem' heq.symm]
  refine ⟨?_, ?_, ?_, ?_⟩
  · intro codeId code hget
    obtain hget | ⟨draw, hmem, hid, rfl⟩ := hrows codeId code hget
    · obtain ⟨old, hgetOld, hweak⟩ := hweaker.2 codeId code hget
      obtain ⟨text, salt, hpublic, hsecret, hcurrent⟩ := h.row codeId old hgetOld
      refine ⟨text, salt, hweak.publicId.trans hpublic, hweak.encodedSecret.trans hsecret, fun hlive => ?_⟩
      have hother : code.profile ≠ profile := profile_ne_of_live (fun _ => id) hget hlive
      rw [currentCodes_generated, lastBatch_generated, if_neg hother.symm, if_neg hother.symm, hweak.profile,
        hweak.batchId]
      exact hcurrent (hweak.live hlive)
    · refine ⟨draw.plaintext, draw.salt, (publicPart_plaintext draw).symm, rfl, fun _ => ?_⟩
      have howner : profile = (draw.row hasher profile batchId).profile := rfl
      rw [currentCodes_generated, lastBatch_generated, if_pos howner, if_pos howner]
      exact ⟨List.mem_map.2 ⟨draw, hmem, by rw [hid]⟩, rfl⟩
  · intro codeId codeId' code code' hget hget' heq
    obtain hgetOld | ⟨draw, hmem, hid, rfl⟩ := hrows codeId code hget
    · obtain hgetOld' | ⟨draw', hmem', hid', rfl⟩ := hrows codeId' code' hget'
      · exact h.unique_of_weaker hweaker hgetOld hgetOld' heq
      · rw [← hid', hdrawn hmem' hget heq]
    · rw [← hid, hdrawn hmem hget' heq.symm]
  · intro owner codeId text hmem
    obtain hmem | hmem := List.mem_append.1 hmem
    · obtain ⟨code, hget, hlive, hpublic⟩ := h.used_of_weaker hweaker hmem
      exact ⟨code, hold codeId code hget, hlive, hpublic⟩
    · cases List.mem_singleton.1 hmem
  · intro owner
    rw [currentCodes_generated]
    split_ifs
    · simp [drawnCodes]
    · exact h.size owner

/-- An operation keeps what the rows say. -/
theorem Recorded.of_effect {codes codes' : Table Uuid (RecoveryCodeRow Encoded)} {log events : List RecoveryEvent}
    (h : Recorded hasher codes log) (heffect : RecoveryEffect hasher codes codes' events) :
    Recorded hasher codes' (log ++ events) := by
  cases heffect with
  | unchanged => rwa [List.append_nil]
  | generated draws hdraw hcreate => exact h.generated hdraw hcreate
  | accepted hget _ _ hpublic _ => exact h.accepted hget hpublic _
  | reset => exact h.reset _ _

/-! ### The guarantees -/

/-- The code is one of the last batch, and was not used before. -/
def Acceptable (before : List RecoveryEvent) (event : RecoveryEvent) : Prop :=
  ∀ profile codeId text, event = .accepted profile codeId text →
    (codeId, text) ∈ currentCodes profile before ∧
      ∀ profile' codeId' text', .accepted profile' codeId' text' ∈ before → codeId' ≠ codeId ∧ text' ≠ text

/-- A code that is accepted is acceptable. -/
theorem Recorded.acceptable {codes codes' : Table Uuid (RecoveryCodeRow Encoded)} {log events : List RecoveryEvent}
    (h : Recorded hasher codes log) (heffect : RecoveryEffect hasher codes codes' events) :
    ∀ event ∈ events, Acceptable log event := by
  intro event hevent profile codeId text heq
  subst heq
  cases heffect with
  | unchanged => cases hevent
  | generated _ _ _ => cases List.mem_singleton.1 hevent
  | reset => cases List.mem_singleton.1 hevent
  | @accepted _ _ code _ _ hget hprofile hlive hpublic hcheck =>
    cases List.mem_singleton.1 hevent
    obtain ⟨text', salt, -, hsecret, hcurrent⟩ := h.row codeId code hget
    rw [hsecret, hasher.check_make] at hcheck
    refine ⟨?_, fun profile' codeId' text'' hused => ?_⟩
    · rw [hcheck, ← hprofile]
      exact (hcurrent hlive).1
    · obtain ⟨code', hget', hdead, hpublic'⟩ := h.used profile' codeId' text'' hused
      have hne : codeId' ≠ codeId := by
        rintro rfl
        obtain rfl := Option.some.inj (hget'.symm.trans hget)
        rw [hlive] at hdead
        cases hdead
      refine ⟨hne, fun htext => hne (h.unique codeId' codeId code' code hget' hget ?_)⟩
      rw [hpublic', htext, hpublic]

/-- The live codes of a profile are codes of its last batch. -/
theorem Recorded.live_le {codes : Table Uuid (RecoveryCodeRow Encoded)} {log : List RecoveryEvent}
    (h : Recorded hasher codes log) (profile : Uuid) :
    codes.countWhere (fun code => code.profile = profile && code.isLive) ≤ 10 := by
  rw [Table.countWhere, List.countP_eq_length_filter, ← List.length_map Prod.fst]
  have hnodup : ((codes.rows.filter fun row => row.2.profile = profile && row.2.isLive).map Prod.fst).Nodup :=
    codes.nodup.sublist (List.filter_sublist.map _)
  have hsubset : ((codes.rows.filter fun row => row.2.profile = profile && row.2.isLive).map Prod.fst) ⊆
      (currentCodes profile log).map Prod.fst := by
    intro codeId hmem
    obtain ⟨⟨codeId, code⟩, hrow, rfl⟩ := List.mem_map.1 hmem
    obtain ⟨hrow, hlive⟩ := List.mem_filter.1 hrow
    simp only [Bool.and_eq_true, decide_eq_true_eq] at hlive
    obtain ⟨text, _, -, -, hcurrent⟩ := h.row codeId code (Table.get?_eq_some_iff.2 hrow)
    rw [hlive.1] at hcurrent
    exact List.mem_map.2 ⟨(codeId, text), (hcurrent hlive.2).1, rfl⟩
  calc _ ≤ ((currentCodes profile log).map Prod.fst).length := (List.subperm_of_subset hnodup hsubset).length_le
    _ = (currentCodes profile log).length := List.length_map _
    _ ≤ 10 := h.size profile

variable (hasher)

/-- At most ten codes of a profile are live, and they are of its last batch; an accepted code is one of the
last batch, after which there was no reset, and was not accepted before; an attempt that fails changes
nothing. -/
structure SoundRecovery (db : RecoveryDb Encoded) (log : List RecoveryEvent) : Prop where
  atMostTen : ∀ profile, db.codes.countWhere (fun code => code.profile = profile && code.isLive) ≤ 10
  latest : ∀ codeId code, db.codes.get? codeId = some code → code.isLive = true →
    lastBatch code.profile log = some code.batchId
  accepted : Guarded Acceptable log
  failed : ∀ now action, (∃ profile presented, action = .consume profile presented) ∨
      (∃ profile viewed allowed sessionOk presented,
        action = .recover profile viewed allowed sessionOk presented) →
    recoveryEvents hasher upper db (now, action) = [] → recoveryStep hasher upper db (now, action) = db

/-- One operation puts out one event at most. -/
theorem RecoveryEffect.events {codes codes' : Table Uuid (RecoveryCodeRow Encoded)} {events : List RecoveryEvent}
    (h : RecoveryEffect hasher codes codes' events) : events = [] ∨ ∃ event, events = [event] := by
  cases h <;> simp

end Operations

end CivicLoop.Identity
