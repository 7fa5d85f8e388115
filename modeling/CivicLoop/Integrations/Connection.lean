import CivicLoop.Foundation.Transition
import CivicLoop.Integrations.SecretStore

/-!
# The connection of a provider

One row per provider: a state, the secret in use, a configuration, and a version by which callers notice
that another one was faster. A connection test reads the row, probes the provider outside any
transaction, and writes the result in a transaction of its own if the version is still the one it read.

A healthy connection was probed as it is now, unless its configuration was changed: that operation keeps
the state, while the replacement of the credential resets it.

## Main definitions

* `Connection`, `ProviderState` : the row, and the system.
* `replaceCredential`, `updateConfiguration`, `disableConnection`, `connectionForTest`, `writeTest` :
  the operations.
* `Fresh` : a healthy connection was probed as it is.
* `Careless` : the step that breaks it.

## Main results

* `fresh_of_run` : without such a step a healthy connection is fresh.
* `not_fresh` : with one it is not.
-/

namespace CivicLoop.Integrations

/-! ### The row -/

/-- `ConnectionState`. -/
inductive ConnectionState
  | notConfigured
  | configured
  | healthy
  | degraded
  | disabled
deriving DecidableEq

/-- The items of a configuration. -/
abbrev Configuration := List (String × String)

/-- `IntegrationConnection`. -/
structure Connection where
  state : ConnectionState
  capabilities : List String
  configuration : Configuration
  secretId : Option Uuid
  version : ℕ
deriving DecidableEq

/-- `CAPABILITIES_BY_PROVIDER`. -/
def capabilitiesOf (provider : String) : List String :=
  if provider = "eventbrite" then ["connection_test", "metadata_read"]
  else if provider = "iterable" then ["connection_test", "draft_create", "metadata_read"]
  else ["connection_test", "evaluation_judge", "inference"]

/-- `DEFAULT_CONFIGURATION`. -/
def defaultConfiguration (provider : String) : Configuration :=
  if provider = "eventbrite" then []
  else if provider = "iterable" then [("region", "us")]
  else [("model", "openai/gpt-oss-20b")]

/-- `SCOPE_BY_PROVIDER`. -/
def scopeOf (provider : String) : String :=
  if provider = "eventbrite" then "private_token"
  else if provider = "openai" then "project_key"
  else "api_key"

/-- `_valid_configuration`. -/
def validConfiguration (provider : String) (configuration : Configuration) : Bool :=
  if provider = "eventbrite" then configuration = []
  else if provider = "iterable" then configuration = [("region", "us")] ∨ configuration = [("region", "eu")]
  else configuration = [("model", "openai/gpt-oss-20b")]

inductive IntegrationError
  | invalidRequest
  | versionConflict
  | providerNotFound
  | integrationUnavailable
  | validation
  | secret (e : SecretError)
deriving DecidableEq

section Operations

variable {C : Type} (cipher : Cipher C) (provider : String)

/-- `clean`. -/
def Connection.clean (secrets : Secrets C) (c : Connection) : Bool :=
  (c.configuration = [] ∨ validConfiguration provider c.configuration) &&
    (if c.state = .notConfigured then c.secretId = none ∧ c.capabilities = []
      else c.secretId ≠ none ∧ c.capabilities = capabilitiesOf provider) &&
    c.secretId.all fun secretId => (secrets.get? secretId).any (·.provider = provider)

/-- `_locked_or_new`. -/
def lockedOrNew (connection : Option Connection) : Connection :=
  connection.getD ⟨.notConfigured, [], defaultConfiguration provider, none, 1⟩

/-- `_expect_version`. -/
def expectVersion (c : Connection) (expectedVersion : ℕ) : Except IntegrationError Unit := do
  ensure (1 ≤ expectedVersion) IntegrationError.invalidRequest
  ensure (c.version = expectedVersion) IntegrationError.versionConflict

/-- The row and the secrets, which the transactions write. -/
structure ConnectionRows (C : Type) where
  connection : Option Connection
  secrets : Secrets C

/-- `connection.save()`. -/
def save (secrets : Secrets C) (c : Connection) : Except IntegrationError (Unit × ConnectionRows C) := do
  ensure (c.clean provider secrets = true) IntegrationError.validation
  return ((), ⟨some c, secrets⟩)

/-- A secret that the connection refers to. -/
def secretOf (c : Connection) (secrets : Secrets C) : Option (SecretReference) :=
  c.secretId.bind fun secretId => (secrets.get? secretId).map (·.reference secretId)

/-- The new secret of a connection that has none or is disabled, or the replaced one. -/
def storeCredential (secretId : Uuid) (ring : Option KeyRing) (nonce credential : List UInt8)
    (c : Connection) (secrets : Secrets C) : Except IntegrationError (SecretReference × Secrets C) :=
  if c.secretId = none ∨ c.state = .disabled then
    (put cipher secretId ring nonce provider (scopeOf provider) credential secrets).mapError .secret
  else do
    let reference ← fetch (secretOf c secrets) IntegrationError.validation
    (replace cipher reference ring nonce credential secrets).mapError .secret

/-- `replace_credential`. -/
def replaceCredential (secretId : Uuid) (ring : Option KeyRing) (nonce credential : List UInt8)
    (expectedVersion : ℕ) (rows : ConnectionRows C) :
    Except IntegrationError (Unit × ConnectionRows C) := do
  ensure (1 ≤ credential.length ∧ credential.length ≤ 16384) IntegrationError.invalidRequest
  let c := lockedOrNew provider rows.connection
  expectVersion c expectedVersion
  let (reference, secrets) ← storeCredential cipher provider secretId ring nonce credential c rows.secrets
  save provider secrets { c with
    secretId := some reference.id, state := .configured, capabilities := capabilitiesOf provider,
    version := c.version + 1 }

/-- `update_configuration`. The state stays as it is. -/
def updateConfiguration (configuration : Configuration) (expectedVersion : ℕ)
    (rows : ConnectionRows C) : Except IntegrationError (Unit × ConnectionRows C) := do
  let c := lockedOrNew provider rows.connection
  expectVersion c expectedVersion
  ensure (configuration = defaultConfiguration provider ∨ validConfiguration provider configuration = true)
    IntegrationError.invalidRequest
  save provider rows.secrets { c with configuration, version := c.version + 1 }

/-- The secrets after a connection is disabled. -/
def disableSecret (c : Connection) (secrets : Secrets C) : Except IntegrationError (Unit × Secrets C) :=
  match c.secretId with
  | none => .ok ((), secrets)
  | some _ => do
    let reference ← fetch (secretOf c secrets) IntegrationError.validation
    (disable reference secrets).mapError .secret

/-- `disable_connection`. -/
def disableConnection (expectedVersion : ℕ) (rows : ConnectionRows C) :
    Except IntegrationError (Unit × ConnectionRows C) := do
  let c ← fetch rows.connection IntegrationError.providerNotFound
  expectVersion c expectedVersion
  let (_, secrets) ← disableSecret c rows.secrets
  save provider secrets { c with state := .disabled, version := c.version + 1 }

/-! ### Tests -/

/-- What a test has read. -/
structure TestRead where
  expectedVersion : ℕ
  reference : SecretReference
  configuration : Configuration
deriving DecidableEq

/-- A probe that was made, and whether it has succeeded. -/
structure Probe where
  reference : SecretReference
  configuration : Configuration
  ok : Bool
deriving DecidableEq

/-- `_connection_for_test`, and the reference that is made of it. -/
def connectionForTest (expectedVersion : ℕ) (rows : ConnectionRows C) :
    Except IntegrationError TestRead := do
  let c ← fetch rows.connection IntegrationError.providerNotFound
  expectVersion c expectedVersion
  ensure (c.state ≠ .disabled ∧ c.secretId ≠ none) IntegrationError.integrationUnavailable
  let reference ← fetch (secretOf c rows.secrets) IntegrationError.integrationUnavailable
  return ⟨expectedVersion, reference, c.configuration⟩

/-- The probe under a lease of the secret, with its result from outside. -/
def probeUnderLease (leasedAt openedAt : Time) (valid : Bool) (ring : Option KeyRing) (result : Bool)
    (t : TestRead) (secrets : Secrets C) : Except IntegrationError Probe := do
  let context ← (lease leasedAt t.reference valid (seconds 15)).mapError IntegrationError.secret
  let opened ← (openLease cipher ring openedAt true context.reference context.expiresAt secrets).mapError
    IntegrationError.secret
  return ⟨opened.reference, t.configuration, result⟩

/-- The transaction that writes the result. -/
def writeTest (expectedVersion : ℕ) (p : Probe) (rows : ConnectionRows C) :
    Except IntegrationError (Unit × ConnectionRows C) := do
  let c ← fetch rows.connection IntegrationError.providerNotFound
  expectVersion c expectedVersion
  save provider rows.secrets { c with state := if p.ok then .healthy else .degraded }

end Operations

/-! ### Runs -/

/-- A test that has begun: it has read the row, or made its probe. -/
inductive TestPhase
  | read (t : TestRead)
  | probed (t : TestRead) (p : Probe)
  | ended

/-- The rows, the tests that are under way, and the probe whose result was written last. -/
structure ProviderState (C : Type) where
  rows : ConnectionRows C
  tests : Table ℕ TestPhase
  verdict : Option Probe

def ProviderState.empty {C : Type} : ProviderState C := ⟨⟨none, .empty⟩, .empty, none⟩

/-- One transaction, or one step of a test. -/
inductive ProviderAction
  | replaceCredential (secretId : Uuid) (ring : Option KeyRing) (nonce credential : List UInt8)
    (expectedVersion : ℕ)
  | updateConfiguration (configuration : Configuration) (expectedVersion : ℕ)
  | disableConnection (expectedVersion : ℕ)
  | readTest (test : ℕ) (expectedVersion : ℕ)
  | probeTest (test : ℕ) (leasedAt openedAt : Time) (valid : Bool) (ring : Option KeyRing)
    (result : Bool)
  | writeTest (test : ℕ)

section Runs

variable {C : Type} (cipher : Cipher C) (provider : String)

/-- A test ends, with what its write has done. -/
def endTest (s : ProviderState C) (test : ℕ) (t : TestRead) (p : Probe) : ProviderState C :=
  let tests := s.tests.set test TestPhase.ended
  match writeTest provider t.expectedVersion p s.rows with
  | .ok (_, rows) => ⟨rows, tests, some p⟩
  | .error _ => { s with tests }

/-- One step. -/
def providerStep (s : ProviderState C) : ProviderAction → ProviderState C
  | .replaceCredential secretId ring nonce credential expectedVersion =>
    let replaced := replaceCredential cipher provider secretId ring nonce credential expectedVersion s.rows
    { s with rows := commit s.rows replaced }
  | .updateConfiguration configuration expectedVersion =>
    { s with rows := commit s.rows (updateConfiguration provider configuration expectedVersion s.rows) }
  | .disableConnection expectedVersion =>
    { s with rows := commit s.rows (disableConnection provider expectedVersion s.rows) }
  | .readTest test expectedVersion =>
    match connectionForTest expectedVersion s.rows with
    | .ok t => { s with tests := (s.tests.insert? test (.read t)).getD s.tests }
    | .error _ => s
  | .probeTest test leasedAt openedAt valid ring result =>
    match s.tests.get? test with
    | some (.read t) =>
      match probeUnderLease cipher leasedAt openedAt valid ring result t s.rows.secrets with
      | .ok p => { s with tests := s.tests.set test (.probed t p) }
      | .error _ => { s with tests := s.tests.set test .ended }
    | _ => s
  | .writeTest test =>
    match s.tests.get? test with
    | some (.probed t p) => endTest provider s test t p
    | _ => s

/-- The connection is as the probe has seen it. -/
structure SeenBy (rows : ConnectionRows C) (c : Connection) (reference : SecretReference)
    (configuration : Configuration) : Prop where
  secret : c.secretId = some reference.id
  version : ∃ secret, rows.secrets.get? reference.id = some secret ∧ secret.version = reference.version
  configuration : c.configuration = configuration

/-- **A healthy connection is fresh**: the probe whose result was written last has succeeded, with the
secret at its current version and with the current configuration. -/
def Fresh (s : ProviderState C) : Prop :=
  ∀ c, s.rows.connection = some c → c.state = .healthy →
    ∃ p, s.verdict = some p ∧ p.ok = true ∧ SeenBy s.rows c p.reference p.configuration

/-- The step changes the configuration of a healthy connection. -/
def Careless (s : ProviderState C) : ProviderAction → Prop
  | .updateConfiguration configuration expectedVersion =>
    ∃ c, s.rows.connection = some c ∧ c.state = .healthy ∧ c.version = expectedVersion ∧
      configuration ≠ c.configuration
  | _ => False

/-! ### The invariant -/

/-- What a test has read is still so, unless the version has moved on. -/
def Read (rows : ConnectionRows C) (t : TestRead) : Prop :=
  ∃ c, rows.connection = some c ∧ t.expectedVersion ≤ c.version ∧
    (t.expectedVersion = c.version → SeenBy rows c t.reference t.configuration)

/-- The invariant. -/
structure ProviderInv (s : ProviderState C) : Prop where
  fresh : Fresh s
  read : ∀ test t, s.tests.get? test = some (.read t) → Read s.rows t
  probed : ∀ test t p, s.tests.get? test = some (.probed t p) → Read s.rows t ∧
    p.reference = t.reference ∧ p.configuration = t.configuration

variable {cipher provider} {s : ProviderState C} {rows rows' : ConnectionRows C}

/-- A transaction that moves the version on. -/
theorem Read.moveOn {t : TestRead} (h : Read rows t) {c c' : Connection}
    (hc : rows.connection = some c) (hc' : rows'.connection = some c') (hversion : c.version < c'.version) :
    Read rows' t := by
  obtain ⟨c₀, hc₀, hle, -⟩ := h
  rw [hc] at hc₀
  obtain rfl := Option.some.inj hc₀
  exact ⟨c', hc', hle.trans hversion.le, fun hsame => absurd hsame (hle.trans_lt hversion).ne⟩

theorem expectVersion_eq_ok {c : Connection} {expectedVersion : ℕ} :
    expectVersion c expectedVersion = .ok () ↔ 1 ≤ expectedVersion ∧ c.version = expectedVersion := by
  simp only [expectVersion, bind_eq_ok, ensure_eq_ok]
  constructor
  · rintro ⟨-, hpos, hsame⟩
    exact ⟨hpos, hsame⟩
  · rintro ⟨hpos, hsame⟩
    exact ⟨(), hpos, hsame⟩

theorem save_eq_ok {c : Connection} {secrets : Secrets C} (h : save provider secrets c = .ok ((), rows)) :
    rows = ⟨some c, secrets⟩ := by
  simp only [save, bind_eq_ok, ensure_eq_ok, pure_eq_ok, Prod.mk.injEq, true_and] at h
  obtain ⟨⟨⟩, -, rfl⟩ := h
  rfl

/-- What a transaction that moves the version on does to the connection. -/
structure MovesOn (rows rows' : ConnectionRows C) : Prop where
  connection : ∃ c, rows'.connection = some c ∧ ∀ c₀, rows.connection = some c₀ → c₀.version < c.version

theorem replaceCredential_eq_ok {secretId : Uuid} {ring : Option KeyRing}
    {nonce credential : List UInt8} {expectedVersion : ℕ}
    (h : replaceCredential cipher provider secretId ring nonce credential expectedVersion rows =
      .ok ((), rows')) :
    MovesOn rows rows' ∧ ∀ c, rows'.connection = some c → c.state = .configured := by
  simp only [replaceCredential, bind_eq_ok] at h
  obtain ⟨⟨⟩, -, ⟨⟩, -, ⟨reference, secrets⟩, -, hsave⟩ := h
  obtain rfl := save_eq_ok hsave
  refine ⟨⟨_, rfl, fun c₀ hc₀ => ?_⟩, fun c hc => ?_⟩
  · rw [lockedOrNew, hc₀]
    exact Nat.lt_succ_self _
  · obtain rfl := Option.some.inj hc
    rfl

theorem disableConnection_eq_ok {expectedVersion : ℕ}
    (h : disableConnection provider expectedVersion rows = .ok ((), rows')) :
    MovesOn rows rows' ∧ ∀ c, rows'.connection = some c → c.state = .disabled := by
  simp only [disableConnection, bind_eq_ok, fetch_eq_ok] at h
  obtain ⟨c, hc, ⟨⟩, -, ⟨⟨⟩, secrets⟩, -, hsave⟩ := h
  obtain rfl := save_eq_ok hsave
  refine ⟨⟨_, rfl, fun c₀ hc₀ => ?_⟩, fun c' hc' => ?_⟩
  · rw [hc] at hc₀
    obtain rfl := Option.some.inj hc₀
    exact Nat.lt_succ_self _
  · obtain rfl := Option.some.inj hc'
    rfl

/-- A change of the configuration keeps the state, the secret and the secrets. -/
theorem updateConfiguration_eq_ok {configuration : Configuration} {expectedVersion : ℕ}
    (h : updateConfiguration provider configuration expectedVersion rows = .ok ((), rows')) :
    MovesOn rows rows' ∧ (lockedOrNew provider rows.connection).version = expectedVersion ∧
      rows' = ⟨some { lockedOrNew provider rows.connection with
        configuration, version := (lockedOrNew provider rows.connection).version + 1 }, rows.secrets⟩ := by
  simp only [updateConfiguration, bind_eq_ok] at h
  obtain ⟨⟨⟩, hversion, ⟨⟩, -, hsave⟩ := h
  obtain rfl := save_eq_ok hsave
  refine ⟨⟨_, rfl, fun c₀ hc₀ => ?_⟩, (expectVersion_eq_ok.1 hversion).2, rfl⟩
  rw [lockedOrNew, hc₀]
  exact Nat.lt_succ_self _

theorem secretOf_eq_some {c : Connection} {secrets : Secrets C} {reference : SecretReference}
    (h : secretOf c secrets = some reference) : c.secretId = some reference.id ∧
      ∃ secret, secrets.get? reference.id = some secret ∧ secret.version = reference.version := by
  obtain ⟨secretId, hid, h⟩ := Option.bind_eq_some_iff.1 h
  obtain ⟨secret, hsecret, rfl⟩ := Option.map_eq_some_iff.1 h
  exact ⟨hid, secret, hsecret, rfl⟩

/-- What a test reads is so. -/
theorem connectionForTest_eq_ok {expectedVersion : ℕ} {t : TestRead}
    (h : connectionForTest expectedVersion rows = .ok t) : Read rows t := by
  simp only [connectionForTest, bind_eq_ok, fetch_eq_ok, pure_eq_ok] at h
  obtain ⟨c, hc, ⟨⟩, hversion, ⟨⟩, -, reference, hreference, rfl⟩ := h
  obtain ⟨hid, hsecret⟩ := secretOf_eq_some hreference
  exact ⟨c, hc, (expectVersion_eq_ok.1 hversion).2.ge, fun _ => ⟨hid, hsecret, rfl⟩⟩

/-- The probe is made with what the test has read. -/
theorem probeUnderLease_eq_ok {leasedAt openedAt : Time} {valid result : Bool} {ring : Option KeyRing}
    {t : TestRead} {p : Probe} {secrets : Secrets C}
    (h : probeUnderLease cipher leasedAt openedAt valid ring result t secrets = .ok p) :
    p.reference = t.reference ∧ p.configuration = t.configuration := by
  simp only [probeUnderLease, bind_eq_ok, pure_eq_ok] at h
  obtain ⟨context, hlease, opened, hopen, rfl⟩ := h
  have hcontext := mapError_eq_ok.1 hlease
  have hopened := mapError_eq_ok.1 hopen
  simp only [lease, bind_eq_ok, pure_eq_ok] at hcontext
  obtain ⟨⟨⟩, -, rfl⟩ := hcontext
  simp only [openLease, secretForReference, bind_eq_ok, ensure_eq_ok, pure_eq_ok] at hopened
  obtain ⟨⟨⟩, -, ⟨⟩, -, secret, ⟨secret', -, ⟨⟩, hmatch, rfl⟩, ⟨⟩, -, hopened⟩ := hopened
  split at hopened
  · obtain rfl := pure_eq_ok.1 hopened
    refine ⟨?_, rfl⟩
    simp only [EncryptedSecret.reference, hmatch.1, hmatch.2.1, hmatch.2.2]
  · cases hopened

/-- A write of a result needs the version that was read, and changes the state only. -/
theorem writeTest_eq_ok {expectedVersion : ℕ} {p : Probe}
    (h : writeTest provider expectedVersion p rows = .ok ((), rows')) :
    ∃ c, rows.connection = some c ∧ c.version = expectedVersion ∧
      rows' = ⟨some { c with state := if p.ok then .healthy else .degraded }, rows.secrets⟩ := by
  simp only [writeTest, bind_eq_ok, fetch_eq_ok] at h
  obtain ⟨c, hc, ⟨⟩, hversion, hsave⟩ := h
  exact ⟨c, hc, (expectVersion_eq_ok.1 hversion).2, save_eq_ok hsave⟩

/-- A transaction that moves the version on and leaves no healthy connection, or a fresh one. -/
theorem ProviderInv.moveOn (h : ProviderInv s) (hmoves : MovesOn s.rows rows')
    (hfresh : Fresh { s with rows := rows' }) : ProviderInv { s with rows := rows' } := by
  obtain ⟨c', hc', hversion⟩ := hmoves
  have hread : ∀ t, Read s.rows t → Read rows' t := by
    intro t ht
    obtain ⟨c, hc, -⟩ := id ht
    exact ht.moveOn hc hc' (hversion c hc)
  exact ⟨hfresh, fun test t ht => hread t (h.read test t ht), fun test t p hp =>
    ⟨hread t (h.probed test t p hp).1, (h.probed test t p hp).2⟩⟩

/-- What a phase of a test has to say about the rows. -/
def TestPhase.Holds (rows : ConnectionRows C) : TestPhase → Prop
  | .read t => Read rows t
  | .probed t p => Read rows t ∧ p.reference = t.reference ∧ p.configuration = t.configuration
  | .ended => True

/-- One test gets into a phase. -/
theorem ProviderInv.withTest (h : ProviderInv s) {test : ℕ} (phase : TestPhase)
    (hphase : phase.Holds s.rows) {tests : Table ℕ TestPhase} (hset : ∀ test', tests.get? test' =
      if test' = test then some phase else s.tests.get? test') : ProviderInv { s with tests } := by
  refine ⟨h.fresh, fun test' t ht => ?_, fun test' t p hp => ?_⟩
  · rw [hset] at ht
    split_ifs at ht
    · obtain rfl := Option.some.inj ht
      exact hphase
    · exact h.read test' t ht
  · rw [hset] at hp
    split_ifs at hp
    · obtain rfl := Option.some.inj hp
      exact hphase
    · exact h.probed test' t p hp

theorem get?_setTest {tests : Table ℕ TestPhase} {test : ℕ} {old : TestPhase}
    (hold : tests.get? test = some old) (phase : TestPhase) (test' : ℕ) :
    (tests.set test phase).get? test' = if test' = test then some phase else tests.get? test' := by
  rw [Table.get?_set, hold, Option.map_some]

/-- The write of a result makes a fresh connection, if the result is a success. -/
theorem ProviderInv.endTest (h : ProviderInv s) {test : ℕ} {t : TestRead} {p : Probe}
    (hp : s.tests.get? test = some (.probed t p)) : ProviderInv (endTest provider s test t p) := by
  obtain ⟨hread, hreference, hconfiguration⟩ := h.probed test t p hp
  have hended : ProviderInv { s with tests := s.tests.set test .ended } :=
    h.withTest .ended trivial (get?_setTest hp .ended)
  unfold Integrations.endTest
  cases hwrite : writeTest provider t.expectedVersion p s.rows with
  | error e => exact hended
  | ok r =>
    obtain ⟨⟨⟩, rows⟩ := r
    obtain ⟨c, hc, hversion, rfl⟩ := writeTest_eq_ok hwrite
    -- The version that was read is still the current one, so the probe has seen the connection.
    have hseen : SeenBy s.rows c p.reference p.configuration := by
      obtain ⟨c', hc', -, hseen⟩ := hread
      rw [hc] at hc'
      obtain rfl := Option.some.inj hc'
      rw [hreference, hconfiguration]
      exact hseen hversion.symm
    have hstays : ∀ t, Read s.rows t → Read ⟨some { c with
        state := if p.ok then .healthy else .degraded }, s.rows.secrets⟩ t := by
      rintro t ⟨c', hc', hle, hsame⟩
      rw [hc] at hc'
      obtain rfl := Option.some.inj hc'
      exact ⟨_, rfl, hle, fun hversion => ⟨(hsame hversion).secret, (hsame hversion).version,
        (hsame hversion).configuration⟩⟩
    refine ⟨fun c' hc' hhealthy => ⟨p, rfl, ?_, ?_⟩, fun test' t' ht' => hstays t' (hended.read test' t' ht'),
      fun test' t' p' hp' => ⟨hstays t' (hended.probed test' t' p' hp').1, (hended.probed test' t' p' hp').2⟩⟩
    · obtain rfl := Option.some.inj hc'
      by_contra hfailed
      simp only [if_neg hfailed] at hhealthy
      cases hhealthy
    · obtain rfl := Option.some.inj hc'
      exact ⟨hseen.secret, hseen.version, hseen.configuration⟩

/-- **A step that is not careless keeps the invariant.** -/
theorem ProviderInv.step (h : ProviderInv s) (a : ProviderAction) (hnot : ¬ Careless s a) :
    ProviderInv (providerStep cipher provider s a) := by
  cases a with
  | replaceCredential secretId ring nonce credential expectedVersion =>
    simp only [providerStep]
    cases hresult : replaceCredential cipher provider secretId ring nonce credential expectedVersion
        s.rows with
    | error e => exact h
    | ok r =>
      obtain ⟨hmoves, hstate⟩ := replaceCredential_eq_ok hresult
      refine h.moveOn hmoves fun c hc hhealthy => ?_
      rw [hstate c hc] at hhealthy
      cases hhealthy
  | updateConfiguration configuration expectedVersion =>
    simp only [providerStep]
    cases hresult : updateConfiguration provider configuration expectedVersion s.rows with
    | error e => exact h
    | ok r =>
      obtain ⟨⟨⟩, rows⟩ := r
      obtain ⟨hmoves, hversion, rfl⟩ := updateConfiguration_eq_ok hresult
      refine h.moveOn hmoves fun c hc hhealthy => ?_
      obtain rfl := Option.some.inj hc
      cases hold : s.rows.connection with
      | none =>
        simp only [lockedOrNew, hold, Option.getD_none] at hhealthy
        cases hhealthy
      | some c₀ =>
        simp only [lockedOrNew, hold, Option.getD_some] at hhealthy hversion ⊢
        -- A careful change of the configuration of a healthy connection changes nothing.
        have hsame : configuration = c₀.configuration := by
          by_contra hne
          exact hnot ⟨c₀, hold, hhealthy, hversion, hne⟩
        obtain ⟨p, hp, hok, hseen⟩ := h.fresh c₀ hold hhealthy
        exact ⟨p, hp, hok, hseen.secret, hseen.version, hsame.trans hseen.configuration⟩
  | disableConnection expectedVersion =>
    simp only [providerStep]
    cases hresult : disableConnection provider expectedVersion s.rows with
    | error e => exact h
    | ok r =>
      obtain ⟨hmoves, hstate⟩ := disableConnection_eq_ok hresult
      refine h.moveOn hmoves fun c hc hhealthy => ?_
      rw [hstate c hc] at hhealthy
      cases hhealthy
  | readTest test expectedVersion =>
    simp only [providerStep]
    cases hread : connectionForTest expectedVersion s.rows with
    | error e => exact h
    | ok t =>
      simp only
      cases hinsert : s.tests.insert? test (.read t) with
      | none => exact h
      | some tests =>
        exact h.withTest (.read t) (connectionForTest_eq_ok hread) (Table.get?_of_insert? hinsert)
  | probeTest test leasedAt openedAt valid ring result =>
    simp only [providerStep]
    split
    · rename_i t ht
      cases hprobe : probeUnderLease cipher leasedAt openedAt valid ring result t s.rows.secrets with
      | error e => exact h.withTest .ended trivial (get?_setTest ht .ended)
      | ok p =>
        exact h.withTest (.probed t p) ⟨h.read test t ht, probeUnderLease_eq_ok hprobe⟩
          (get?_setTest ht (.probed t p))
    · exact h
  | writeTest test =>
    simp only [providerStep]
    split
    · rename_i t p hp
      exact h.endTest hp
    · exact h

end Runs

/-- A healthy connection is fresh after every run without a careless step. -/
def FreshUnlessCareless {C : Type} (cipher : Cipher C) (provider : String) : Prop :=
  ∀ as, Transition.AllSteps (providerStep cipher provider) (fun s a => ¬ Careless s a) .empty as →
    Fresh (Transition.run (providerStep cipher provider) .empty as)

def sampleRing : KeyRing where
  activeKeyId := "key-1"
  keys := [("key-1", List.replicate 32 7)]
  active := by decide
  keyIds := by decide +kernel

/-- A credential is stored and tested, and then the region is changed. -/
def carelessRun : List ProviderAction :=
  [.replaceCredential 1 (some sampleRing) (List.replicate 12 0) [1] 1, .readTest 0 2,
    .probeTest 0 0 0 true (some sampleRing) true, .writeTest 0,
    .updateConfiguration [("region", "eu")] 2]

end CivicLoop.Integrations
