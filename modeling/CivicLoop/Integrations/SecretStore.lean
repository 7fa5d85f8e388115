import CivicLoop.Foundation.Calendar
import CivicLoop.Foundation.Checked
import CivicLoop.Foundation.PyText
import CivicLoop.Foundation.Versioned

/-!
# The secret store

Credentials are stored encrypted, one row each. The associated data bind the ciphertext to the row, its
provider, its scope and the key. A reference names a row at a version; a lease opened through it shows
the plaintext to one operation.

Authenticated encryption comes from a library and is a parameter. What is assumed is that decryption
inverts encryption under the same key, nonce and associated data, and fails under others.

## Main definitions

* `Cipher`, `KeyRing` : encryption, and the keys.
* `encryptSecret`, `decryptSecret` : an envelope, and its opening.
* `put`, `replace`, `disable`, `openLease` : the operations of the store.
* `SecretLease`, `LeaseContext` : the two objects that guard a plaintext.
-/

namespace CivicLoop.Integrations

/-! ### Encryption -/

/-- AES-256-GCM, with ciphertexts in `C`. The arguments are the key, the nonce, and the associated
data. -/
structure Cipher (C : Type) where
  encrypt : List UInt8 → List UInt8 → String → List UInt8 → C
  decrypt : List UInt8 → List UInt8 → String → C → Option (List UInt8)
  size : C → ℕ
  decrypt_encrypt : ∀ key nonce aad plaintext,
    decrypt key nonce aad (encrypt key nonce aad plaintext) = some plaintext
  authentic : ∀ {key nonce aad key' nonce' aad' plaintext opened},
    decrypt key nonce aad (encrypt key' nonce' aad' plaintext) = some opened →
      key = key' ∧ nonce = nonce' ∧ aad = aad'
  size_encrypt : ∀ key nonce aad plaintext,
    size (encrypt key nonce aad plaintext) = plaintext.length + 16

/-- The laws can be met: a ciphertext that shows what it was made of. -/
def openCipher : Cipher (List UInt8 × List UInt8 × String × List UInt8) where
  encrypt key nonce aad plaintext := (key, nonce, aad, plaintext)
  decrypt key nonce aad ciphertext :=
    if (ciphertext.1, ciphertext.2.1, ciphertext.2.2.1) = (key, nonce, aad) then some ciphertext.2.2.2
    else none
  size ciphertext := ciphertext.2.2.2.length + 16
  decrypt_encrypt _ _ _ _ := if_pos rfl
  authentic h := by
    split_ifs at h with hsame
    simp only [Prod.mk.injEq] at hsame
    exact ⟨hsame.1.symm, hsame.2.1.symm, hsame.2.2.symm⟩
  size_encrypt _ _ _ _ := rfl

/-- `KEY_ID_PATTERN`. -/
def isKeyId (s : String) : Bool :=
  isRepeat (fun c => c.isAlphanum || c == '.' || c == '_' || c == '-') 1 64 s.toList

/-- `IntegrationKeyRing`, as it is loaded. -/
structure KeyRing where
  activeKeyId : String
  keys : List (String × List UInt8)
  active : (keys.lookup activeKeyId).isSome = true
  keyIds : ∀ e ∈ keys, isKeyId e.1 = true ∧ e.2.length = 32

inductive SecretError
  | unavailable
  | crypto
  | integrity
deriving DecidableEq

/-- `_aad`. -/
def aadOf (secretId : Uuid) (provider scope keyId : String) : Option String :=
  let text := "civicloop.integrations.secret.v1\x00" ++ uuidText secretId ++ "\x00" ++ provider ++
    "\x00" ++ scope ++ "\x00AES-256-GCM\x00" ++ keyId
  if provider = "" ∨ scope = "" ∨ provider.toList.any (·.toNat = 0) ∨ scope.toList.any (·.toNat = 0) ∨
      text.toList.any (128 ≤ ·.toNat) then none
  else some text

/-- `EncryptedEnvelope`. -/
structure Envelope (C : Type) where
  version : ℕ
  algorithm : String
  keyId : String
  nonce : List UInt8
  ciphertext : C

section Envelopes

variable {C : Type} (cipher : Cipher C)

/-- `encrypt_secret`, with the key ring as it was loaded and the nonce as it was drawn. -/
def encryptSecret (ring : Option KeyRing) (nonce plaintext : List UInt8) (secretId : Uuid)
    (provider scope : String) : Except SecretError (Envelope C) := do
  ensure (1 ≤ plaintext.length ∧ plaintext.length ≤ 16384) SecretError.crypto
  let ring ← fetch ring SecretError.crypto
  let key ← fetch (ring.keys.lookup ring.activeKeyId) SecretError.crypto
  let aad ← fetch (aadOf secretId provider scope ring.activeKeyId) SecretError.crypto
  return ⟨1, "AES-256-GCM", ring.activeKeyId, nonce, cipher.encrypt key nonce aad plaintext⟩

/-- `decrypt_secret`. -/
def decryptSecret (ring : Option KeyRing) (envelope : Envelope C) (secretId : Uuid)
    (provider scope : String) : Except SecretError (List UInt8) := do
  ensure (envelope.version = 1 ∧ envelope.algorithm = "AES-256-GCM") SecretError.crypto
  ensure (isKeyId envelope.keyId) SecretError.crypto
  ensure (envelope.nonce.length = 12 ∧ 17 ≤ cipher.size envelope.ciphertext) SecretError.crypto
  let ring ← fetch ring SecretError.crypto
  let key ← fetch (ring.keys.lookup envelope.keyId) SecretError.crypto
  let aad ← fetch (aadOf secretId provider scope envelope.keyId) SecretError.crypto
  fetch (cipher.decrypt key envelope.nonce aad envelope.ciphertext) SecretError.crypto

end Envelopes

/-! ### Rows -/

inductive SecretStatus
  | active
  | disabled
deriving DecidableEq

/-- `EncryptedSecret`, by its ID. -/
structure EncryptedSecret (C : Type) where
  provider : String
  scope : String
  envelope : Envelope C
  status : SecretStatus
  version : ℕ

/-- `SecretReference`. -/
structure SecretReference where
  id : Uuid
  provider : String
  scope : String
  version : ℕ
deriving DecidableEq

abbrev Secrets (C : Type) := Table Uuid (EncryptedSecret C)

/-- `Provider.values`. -/
def providers : List String := ["eventbrite", "groq", "iterable", "openai"]

/-- `PURPOSE_PATTERN`. -/
def isScopeName (s : String) : Bool :=
  isHeaded Char.isLower (fun c => c.isLower || c.isDigit || c == '_') 0 63 s.toList

section Store

variable {C : Type} (cipher : Cipher C)

/-- `_reference`. -/
def EncryptedSecret.reference (secretId : Uuid) (secret : EncryptedSecret C) : SecretReference :=
  ⟨secretId, secret.provider, secret.scope, secret.version⟩

/-- `put`. The row is new, or its insertion fails. -/
def put (secretId : Uuid) (ring : Option KeyRing) (nonce : List UInt8) (provider scope : String)
    (value : List UInt8) (secrets : Secrets C) : Except SecretError (SecretReference × Secrets C) := do
  ensure (provider ∈ providers ∧ isScopeName scope = true) SecretError.unavailable
  let envelope ← encryptSecret cipher ring nonce value secretId provider scope
  let secret : EncryptedSecret C := ⟨provider, scope, envelope, .active, 1⟩
  let secrets ← fetch (secrets.insert? secretId secret) SecretError.integrity
  return (secret.reference secretId, secrets)

/-- `_secret_for_reference`, at the current version. -/
def secretForReference (reference : SecretReference) (secrets : Secrets C) :
    Except SecretError (EncryptedSecret C) := do
  let secret ← fetch (secrets.get? reference.id) SecretError.unavailable
  ensure (secret.provider = reference.provider ∧ secret.scope = reference.scope ∧
    secret.version = reference.version) SecretError.unavailable
  return secret

/-- `replace`. -/
def replace (reference : SecretReference) (ring : Option KeyRing) (nonce value : List UInt8)
    (secrets : Secrets C) : Except SecretError (SecretReference × Secrets C) := do
  let secret ← secretForReference reference secrets
  ensure (secret.status = .active) SecretError.unavailable
  let envelope ← encryptSecret cipher ring nonce value reference.id secret.provider secret.scope
  let secret := { secret with envelope, version := secret.version + 1 }
  return (secret.reference reference.id, secrets.set reference.id secret)

/-- `disable`. -/
def disable (reference : SecretReference) (secrets : Secrets C) :
    Except SecretError (Unit × Secrets C) := do
  let secret ← secretForReference reference secrets
  if secret.status = .disabled then return ((), secrets)
  else return ((), secrets.set reference.id { secret with status := .disabled, version := secret.version + 1 })

/-! ### Leases -/

/-- `SecretLease`. -/
structure SecretLease where
  reference : SecretReference
  expiresAt : Time
  plaintext : Option (List UInt8)
  used : Bool

/-- `_open_lease`; `allowed` is the second validation, which a writing purpose has. -/
def openLease (ring : Option KeyRing) (now : Time) (allowed : Bool) (reference : SecretReference)
    (expiresAt : Time) (secrets : Secrets C) : Except SecretError SecretLease := do
  ensure (allowed = true) SecretError.unavailable
  ensure (now < expiresAt) SecretError.unavailable
  let secret ← secretForReference reference secrets
  ensure (secret.status = .active) SecretError.unavailable
  match decryptSecret cipher ring secret.envelope reference.id secret.provider secret.scope with
  | .ok plaintext => return ⟨secret.reference reference.id, expiresAt, some plaintext, false⟩
  | .error _ => .error SecretError.unavailable

namespace SecretLease

/-- `_close`. -/
def close (lease : SecretLease) : SecretLease := { lease with plaintext := none }

/-- `_ensure_available` passes. -/
def Available (lease : SecretLease) (now : Time) : Prop :=
  lease.used = false ∧ lease.plaintext.isSome = true ∧ now < lease.expiresAt

instance (lease : SecretLease) (now : Time) : Decidable (lease.Available now) :=
  inferInstanceAs (Decidable (_ ∧ _))

/-- `use`, when its operation begins, and what is shown to it. -/
def use (lease : SecretLease) (now : Time) : SecretLease × Option (List UInt8) :=
  if lease.Available now then ({ lease with used := true }, lease.plaintext) else (lease.close, none)

/-- `__enter__`. -/
def enter (lease : SecretLease) (now : Time) : SecretLease :=
  if lease.Available now then lease else lease.close

end SecretLease

/-- `_LeaseContext`. The lease that it has opened stays with its caller. -/
structure LeaseContext where
  reference : SecretReference
  expiresAt : Time
  entered : Bool
  closed : Bool
  lease : Option SecretLease

namespace LeaseContext

/-- `_invalidate`. -/
def invalidate (context : LeaseContext) : LeaseContext :=
  { context with lease := context.lease.map SecretLease.close, closed := true }

end LeaseContext

/-- `lease`, with the checks of the purpose and of the session as `valid`. -/
def lease (now : Time) (reference : SecretReference) (valid : Bool) (ttl : ℤ) :
    Except SecretError LeaseContext := do
  ensure (valid = true ∧ 0 < ttl ∧ ttl ≤ seconds 300) SecretError.unavailable
  return ⟨reference, now + ttl, false, false, none⟩

/-- `__enter__` of a context. -/
def LeaseContext.enter (ring : Option KeyRing) (now : Time) (allowed : Bool) (secrets : Secrets C)
    (context : LeaseContext) : LeaseContext :=
  if context.entered ∨ context.closed then context.invalidate
  else
    match openLease cipher ring now allowed context.reference context.expiresAt secrets with
    | .ok lease => { context with lease := some lease, entered := true }
    | .error _ => context

end Store

end CivicLoop.Integrations
