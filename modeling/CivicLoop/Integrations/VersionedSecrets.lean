import CivicLoop.Foundation.Transition
import CivicLoop.Integrations.SecretStore

/-!
# The secret store is a versioned map

The calls of a run are summarized by the changes they have made to a map of plaintexts. The rows of the
store are the entries of that map, sealed: a row has the provider, the scope, the version and the status
of its entry, and its ciphertext is an encryption of the value. So whatever a lease shows is what the
map holds, and a reference that is dead in the map never opens again.

## Main definitions

* `Sealed` : a row seals an entry.
* `StoreAction`, `storeStep` : the calls of the store and of the objects that guard a plaintext.
* `StoreEvent`, `storeEvents` : what they report.
* `VersionedSecrets` : the guarantees.

## Main results

* `openLease_eq_ok` : a lease opens at what the map holds for the reference.
* `versionedSecrets_of_run` : the guarantees hold of every run.
-/

namespace CivicLoop.Integrations

/-- The bytes of the secrets, tagged by the provider and the scope. -/
abbrev SecretMap := VersionedMap Uuid (String × String) (List UInt8)

abbrev SecretChange := Change Uuid (String × String) (List UInt8)

/-- A reference to the store, as one to the map. -/
def SecretReference.toRef (r : SecretReference) : VersionedRef Uuid (String × String) :=
  ⟨r.id, (r.provider, r.scope), r.version⟩

section Sealing

variable {C : Type} {cipher : Cipher C}

/-- The row seals the entry. -/
structure Sealed (cipher : Cipher C) (secret : EncryptedSecret C)
    (e : Versioned (String × String) (List UInt8)) : Prop where
  tag : e.tag = (secret.provider, secret.scope)
  version : e.version = secret.version
  live : e.live = true ↔ secret.status = .active
  ciphertext : ∃ key aad, secret.envelope.ciphertext =
    cipher.encrypt key secret.envelope.nonce aad e.value

/-- The rows seal the entries of the map. -/
def Seals (cipher : Cipher C) (secrets : Secrets C) (m : SecretMap) : Prop :=
  ∀ secretId, Option.Rel (Sealed cipher) (secrets.get? secretId) (Table.get? m secretId)

/-! ### The operations -/

variable {secrets secrets' : Secrets C} {m : SecretMap} {ring : Option KeyRing}
  {nonce value : List UInt8} {secretId : Uuid} {provider scope : String} {reference : SecretReference}

theorem encryptSecret_eq_ok {envelope : Envelope C}
    (h : encryptSecret cipher ring nonce value secretId provider scope = .ok envelope) :
    ∃ key aad, envelope.ciphertext = cipher.encrypt key envelope.nonce aad value := by
  simp only [encryptSecret, bind_eq_ok, ensure_eq_ok, fetch_eq_ok, pure_eq_ok] at h
  obtain ⟨⟨⟩, -, ring, -, key, -, aad, -, rfl⟩ := h
  exact ⟨key, aad, rfl⟩

/-- What is decrypted is what was encrypted. -/
theorem decryptSecret_eq_ok {envelope : Envelope C} {key plaintext opened : List UInt8} {aad : String}
    (hsealed : envelope.ciphertext = cipher.encrypt key envelope.nonce aad plaintext)
    (h : decryptSecret cipher ring envelope secretId provider scope = .ok opened) :
    opened = plaintext := by
  simp only [decryptSecret, bind_eq_ok, ensure_eq_ok, fetch_eq_ok] at h
  obtain ⟨⟨⟩, -, ⟨⟩, -, ⟨⟩, -, ring, -, key', -, aad', -, h⟩ := h
  rw [hsealed] at h
  obtain ⟨rfl, -, rfl⟩ := cipher.authentic h
  rw [cipher.decrypt_encrypt] at h
  exact (Option.some.inj h).symm

theorem secretForReference_eq_ok {secret : EncryptedSecret C}
    (h : secretForReference reference secrets = .ok secret) :
    secrets.get? reference.id = some secret ∧ secret.provider = reference.provider ∧
      secret.scope = reference.scope ∧ secret.version = reference.version := by
  simp only [secretForReference, bind_eq_ok, ensure_eq_ok, fetch_eq_ok, pure_eq_ok] at h
  obtain ⟨secret, hsecret, ⟨⟩, hmatch, rfl⟩ := h
  exact ⟨hsecret, hmatch⟩

theorem Seals.get? (h : Seals cipher secrets m) {secret : EncryptedSecret C}
    (hsecret : secrets.get? secretId = some secret) :
    ∃ e, Table.get? m secretId = some e ∧ Sealed cipher secret e := by
  have hrel := h secretId
  rw [hsecret] at hrel
  cases hentry : Table.get? m secretId with
  | none =>
    rw [hentry] at hrel
    cases hrel
  | some e =>
    rw [hentry] at hrel
    cases hrel with
    | some hsealed => exact ⟨e, rfl, hsealed⟩

theorem Seals.get?_none (h : Seals cipher secrets m) (hsecret : secrets.get? secretId = none) :
    Table.get? m secretId = none := by
  have hrel := h secretId
  rw [hsecret] at hrel
  cases hentry : Table.get? m secretId with
  | none => rfl
  | some e =>
    rw [hentry] at hrel
    cases hrel

theorem Seals.row (h : Seals cipher secrets m) {e : Versioned (String × String) (List UInt8)}
    (hentry : Table.get? m secretId = some e) :
    ∃ secret, secrets.get? secretId = some secret ∧ Sealed cipher secret e := by
  have hrel := h secretId
  rw [hentry] at hrel
  cases hsecret : secrets.get? secretId with
  | none =>
    rw [hsecret] at hrel
    cases hrel
  | some secret =>
    rw [hsecret] at hrel
    cases hrel with
    | some hsealed => exact ⟨secret, rfl, hsealed⟩

/-- **A new secret is a new entry.** -/
theorem put_eq_ok (hseals : Seals cipher secrets m)
    (h : put cipher secretId ring nonce provider scope value secrets = .ok (reference, secrets')) :
    VersionedMap.Allowed m (.put secretId (provider, scope) value) ∧
      Seals cipher secrets' (m.apply (.put secretId (provider, scope) value)) := by
  simp only [put, bind_eq_ok, ensure_eq_ok, fetch_eq_ok, pure_eq_ok, Prod.mk.injEq] at h
  obtain ⟨⟨⟩, -, envelope, hencrypt, secrets'', hinsert, rfl, rfl⟩ := h
  obtain ⟨key, aad, hcipher⟩ := encryptSecret_eq_ok hencrypt
  have hnew := hseals.get?_none (Table.insert?_eq_some hinsert).1
  refine ⟨hnew, fun secretId' => ?_⟩
  rw [Table.get?_of_insert? hinsert, VersionedMap.apply, Table.get?_put]
  split_ifs
  · exact .some ⟨rfl, rfl, by simp, key, aad, hcipher⟩
  · exact hseals secretId'

theorem Seals.modify (hseals : Seals cipher secrets m) {secret secret' : EncryptedSecret C}
    (hsecret : secrets.get? secretId = some secret)
    {f : Versioned (String × String) (List UInt8) → Versioned (String × String) (List UInt8)}
    (hf : ∀ e, Sealed cipher secret e → Sealed cipher secret' (f e)) :
    Seals cipher (secrets.set secretId secret') (Table.modify m secretId f) := by
  intro secretId'
  rw [Table.get?_set, Table.get?_modify, hsecret]
  obtain ⟨e, he, hsealed⟩ := hseals.get? hsecret
  split_ifs
  · rw [he]
    exact .some (hf e hsealed)
  · exact hseals secretId'

/-- **A replacement writes the entry of a live secret.** -/
theorem replace_eq_ok (hseals : Seals cipher secrets m) {reference' : SecretReference}
    (h : replace cipher reference ring nonce value secrets = .ok (reference', secrets')) :
    VersionedMap.Allowed m (.replace reference.id value) ∧
      Seals cipher secrets' (m.apply (.replace reference.id value)) := by
  simp only [replace, bind_eq_ok, ensure_eq_ok, pure_eq_ok, Prod.mk.injEq] at h
  obtain ⟨secret, hsecret, ⟨⟩, hactive, envelope, hencrypt, -, rfl⟩ := h
  obtain ⟨key, aad, hcipher⟩ := encryptSecret_eq_ok hencrypt
  obtain ⟨hrow, -⟩ := secretForReference_eq_ok hsecret
  obtain ⟨e, he, hsealed⟩ := hseals.get? hrow
  refine ⟨⟨e, he, hsealed.live.2 hactive⟩, hseals.modify hrow fun e hsealed => ?_⟩
  exact ⟨hsealed.tag, congrArg (· + 1) hsealed.version, hsealed.live, key, aad, hcipher⟩

/-- **A secret is disabled once.** -/
theorem disable_eq_ok (hseals : Seals cipher secrets m)
    (h : disable reference secrets = .ok ((), secrets')) :
    ∃ secret, secrets.get? reference.id = some secret ∧
      (secret.status = .disabled ∧ secrets' = secrets ∨
        secret.status = .active ∧ VersionedMap.Allowed m (.disable reference.id) ∧
          Seals cipher secrets' (m.apply (.disable reference.id))) := by
  simp only [disable, bind_eq_ok] at h
  obtain ⟨secret, hsecret, h⟩ := h
  obtain ⟨hrow, -⟩ := secretForReference_eq_ok hsecret
  refine ⟨secret, hrow, ?_⟩
  split_ifs at h with hdisabled
  · obtain ⟨-, rfl⟩ := Prod.mk.inj (pure_eq_ok.1 h)
    exact .inl ⟨hdisabled, rfl⟩
  · obtain ⟨-, rfl⟩ := Prod.mk.inj (pure_eq_ok.1 h)
    have hactive : secret.status = .active := by
      cases hstatus : secret.status with
      | active => rfl
      | disabled => exact absurd hstatus hdisabled
    obtain ⟨e, he, hsealed⟩ := hseals.get? hrow
    refine .inr ⟨hactive, ⟨e, he, hsealed.live.2 hactive⟩, hseals.modify hrow fun e hsealed => ?_⟩
    exact ⟨hsealed.tag, congrArg (· + 1) hsealed.version, by simp [Versioned.disabled],
      hsealed.ciphertext⟩

/-- **A lease opens at what the map holds for the reference.** -/
theorem openLease_eq_ok (hseals : Seals cipher secrets m) {now expiresAt : Time} {allowed : Bool}
    {opened : SecretLease}
    (h : openLease cipher ring now allowed reference expiresAt secrets = .ok opened) :
    now < expiresAt ∧ opened.expiresAt = expiresAt ∧ opened.used = false ∧
      ∃ plaintext, opened.plaintext = some plaintext ∧ m.read? reference.toRef = some plaintext := by
  simp only [openLease, bind_eq_ok, ensure_eq_ok] at h
  obtain ⟨⟨⟩, -, ⟨⟩, halive, secret, hsecret, ⟨⟩, hactive, h⟩ := h
  obtain ⟨hrow, hprovider, hscope, hversion⟩ := secretForReference_eq_ok hsecret
  obtain ⟨e, he, hsealed⟩ := hseals.get? hrow
  split at h
  · rename_i plaintext hdecrypt
    obtain rfl := pure_eq_ok.1 h
    obtain ⟨key, aad, hcipher⟩ := hsealed.ciphertext
    refine ⟨halive, rfl, rfl, plaintext, rfl, VersionedMap.read?_eq_some.2
      ⟨e, he, ?_, ?_, hsealed.live.2 hactive, (decryptSecret_eq_ok hcipher hdecrypt).symm⟩⟩
    · rw [hsealed.tag, hprovider, hscope]
      rfl
    · rw [hsealed.version, hversion]
      rfl
  · cases h

end Sealing

/-! ### Runs -/

/-- One call. A lease context is known by a number that its caller gives it; the objects of a context are
called through it. -/
inductive StoreAction
  | put (secretId : Uuid) (ring : Option KeyRing) (nonce : List UInt8) (provider scope : String)
    (value : List UInt8)
  | replace (reference : SecretReference) (ring : Option KeyRing) (nonce value : List UInt8)
  | disable (reference : SecretReference)
  | lease (context : ℕ) (now : Time) (reference : SecretReference) (valid : Bool) (ttl : ℤ)
  | enter (context : ℕ) (ring : Option KeyRing) (now : Time) (allowed : Bool)
  | exit (context : ℕ)
  | beginUse (context : ℕ) (now : Time)
  | endUse (context : ℕ)
  | enterLease (context : ℕ) (now : Time)
  | exitLease (context : ℕ)

/-- The rows, and the contexts that were handed out. -/
structure StoreState (C : Type) where
  secrets : Secrets C
  contexts : Table ℕ LeaseContext

def StoreState.empty {C : Type} : StoreState C := ⟨.empty, .empty⟩

/-- What the calls of a run report. -/
inductive StoreEvent
  | changed (change : SecretChange)
  | opened (context : ℕ) (reference : SecretReference) (plaintext : List UInt8)
  | exposed (context : ℕ) (plaintext : List UInt8) (time : Time)

section Runs

variable {C : Type} (cipher : Cipher C)

/-- A call on the lease of a context. -/
def LeaseContext.onLease (f : SecretLease → SecretLease) (context : LeaseContext) : LeaseContext :=
  { context with lease := context.lease.map f }

/-- One call. -/
def storeStep (s : StoreState C) : StoreAction → StoreState C
  | .put secretId ring nonce provider scope value =>
    { s with secrets := commit s.secrets (put cipher secretId ring nonce provider scope value s.secrets) }
  | .replace reference ring nonce value =>
    { s with secrets := commit s.secrets (replace cipher reference ring nonce value s.secrets) }
  | .disable reference => { s with secrets := commit s.secrets (disable reference s.secrets) }
  | .lease context now reference valid ttl =>
    match lease now reference valid ttl with
    | .ok new => { s with contexts := (s.contexts.insert? context new).getD s.contexts }
    | .error _ => s
  | .enter context ring now allowed =>
    { s with contexts := s.contexts.modify context (LeaseContext.enter cipher ring now allowed s.secrets) }
  | .exit context => { s with contexts := s.contexts.modify context LeaseContext.invalidate }
  | .beginUse context now =>
    { s with contexts := s.contexts.modify context (LeaseContext.onLease fun l => (l.use now).1) }
  | .endUse context => { s with contexts := s.contexts.modify context (LeaseContext.onLease .close) }
  | .enterLease context now =>
    { s with contexts := s.contexts.modify context (LeaseContext.onLease fun l => l.enter now) }
  | .exitLease context => { s with contexts := s.contexts.modify context (LeaseContext.onLease .close) }

/-- The plaintext of the lease that a context has opened. -/
def LeaseContext.plaintext? (context : LeaseContext) : Option (List UInt8) :=
  context.lease.bind SecretLease.plaintext

/-- What a call reports. -/
def storeEvents (s : StoreState C) : StoreAction → List StoreEvent
  | .put secretId ring nonce provider scope value =>
    match put cipher secretId ring nonce provider scope value s.secrets with
    | .ok _ => [.changed (.put secretId (provider, scope) value)]
    | .error _ => []
  | .replace reference ring nonce value =>
    match replace cipher reference ring nonce value s.secrets with
    | .ok _ => [.changed (.replace reference.id value)]
    | .error _ => []
  | .disable reference =>
    match disable reference s.secrets, s.secrets.get? reference.id with
    | .ok _, some secret =>
      if secret.status = .active then [.changed (.disable reference.id)] else []
    | _, _ => []
  | .enter context ring now allowed =>
    match s.contexts.get? context with
    | some c =>
      if c.entered ∨ c.closed then []
      else
        match openLease cipher ring now allowed c.reference c.expiresAt s.secrets with
        | .ok opened => (opened.plaintext.map (StoreEvent.opened context c.reference ·)).toList
        | .error _ => []
    | none => []
  | .beginUse context now =>
    match (s.contexts.get? context).bind LeaseContext.lease with
    | some l => ((l.use now).2.map (StoreEvent.exposed context · now)).toList
    | none => []
  | _ => []

/-- What a run reports. -/
def storeLog (as : List StoreAction) : List StoreEvent :=
  Transition.outputs (storeStep cipher) (storeEvents cipher) .empty as

/-- The state after a run. -/
def storeAfter (as : List StoreAction) : StoreState C :=
  Transition.run (storeStep cipher) .empty as

/-- The change of an event. -/
def StoreEvent.change? : StoreEvent → Option SecretChange
  | .changed change => some change
  | _ => none

/-- The map that the reported changes make. -/
def secretMap (l : List StoreEvent) : SecretMap :=
  VersionedMap.after .empty (l.filterMap StoreEvent.change?)

/-- The exposures of a context. -/
def exposuresOf (context : ℕ) (l : List StoreEvent) : List StoreEvent :=
  l.filter fun
    | .exposed context' _ _ => context' = context
    | _ => false

/-- The number of changes of a secret among the events. -/
def writesOf (secretId : Uuid) (l : List StoreEvent) : ℕ :=
  (l.filterMap StoreEvent.change?).countP fun change => change.key = secretId

/-- What holds of every run from an empty store. -/
structure VersionedSecrets : Prop where
  /-- The rows are the entries of the map, sealed. -/
  sealed : ∀ as, Seals cipher (storeAfter cipher as).secrets (secretMap (storeLog cipher as))
  /-- A version grows by one with each change that is reported of its secret, a replacement or the first
  disabling, and with nothing else. -/
  versions : ∀ as a secretId secret, (storeAfter cipher as).secrets.get? secretId = some secret →
    ∃ secret', (storeAfter cipher (as ++ [a])).secrets.get? secretId = some secret' ∧
      secret'.version = secret.version +
        writesOf secretId (storeEvents cipher (storeAfter cipher as) a) ∧
      secret'.provider = secret.provider ∧ secret'.scope = secret.scope
  /-- What is opened is what the map holds for the reference. -/
  opened : ∀ as a context reference plaintext,
    .opened context reference plaintext ∈ storeEvents cipher (storeAfter cipher as) a →
      (secretMap (storeLog cipher as)).read? reference.toRef = some plaintext
  /-- A stale, disabled or foreign reference is never opened again. -/
  dead : ∀ as as' reference, (secretMap (storeLog cipher as)).Dead reference.toRef →
    ∀ context plaintext, .opened context reference plaintext ∉
      Transition.outputs (storeStep cipher) (storeEvents cipher) (storeAfter cipher as) as'
  /-- A plaintext is exposed by a context that is entered and not closed, before the expiry, and it is
  the one that the context has opened. -/
  exposed : ∀ as a context plaintext time,
    .exposed context plaintext time ∈ storeEvents cipher (storeAfter cipher as) a →
      ∃ c, (storeAfter cipher as).contexts.get? context = some c ∧ c.entered = true ∧
        c.closed = false ∧ time < c.expiresAt ∧
          .opened context c.reference plaintext ∈ storeLog cipher as
  /-- A context exposes a plaintext once at most. -/
  once : ∀ as context, (exposuresOf context (storeLog cipher as)).length ≤ 1
  /-- A call that raises leaves the rows as they are. -/
  raises : ∀ as reference ring nonce value,
    ((∀ r, replace cipher reference ring nonce value (storeAfter cipher as).secrets ≠ .ok r) →
      (storeAfter cipher (as ++ [.replace reference ring nonce value])).secrets =
        (storeAfter cipher as).secrets) ∧
    ((∀ r, disable reference (storeAfter cipher as).secrets ≠ .ok r) →
      (storeAfter cipher (as ++ [.disable reference])).secrets = (storeAfter cipher as).secrets)

/-! ### The invariant -/

/-- What is known of a context. -/
structure ContextInv (id : ℕ) (c : LeaseContext) (l : List StoreEvent) : Prop where
  fresh : c.entered = false → c.lease = none ∧ exposuresOf id l = []
  once : (exposuresOf id l).length ≤ 1
  expiry : ∀ lease, c.lease = some lease → lease.expiresAt = c.expiresAt
  unused : ∀ lease, c.lease = some lease → lease.used = false → exposuresOf id l = []
  plaintext : ∀ lease p, c.lease = some lease → lease.plaintext = some p →
    c.entered = true ∧ c.closed = false ∧ .opened id c.reference p ∈ l

/-- The invariant of a run. -/
structure StoreInv (s : StoreState C) (l : List StoreEvent) : Prop where
  seals : Seals cipher s.secrets (secretMap l)
  allowed : VersionedMap.AllAllowed .empty (l.filterMap StoreEvent.change?)
  contexts : ∀ id c, s.contexts.get? id = some c → ContextInv id c l
  unknown : ∀ id, s.contexts.get? id = none → exposuresOf id l = []

variable {cipher} {s : StoreState C} {l : List StoreEvent} {c c' : LeaseContext} {id : ℕ}

theorem exposuresOf_append (id : ℕ) (l l' : List StoreEvent) :
    exposuresOf id (l ++ l') = exposuresOf id l ++ exposuresOf id l' := List.filter_append ..

theorem secretMap_append (l l' : List StoreEvent) :
    secretMap (l ++ l') = (secretMap l).after (l'.filterMap StoreEvent.change?) := by
  rw [secretMap, List.filterMap_append, VersionedMap.after_append]
  rfl

/-- Events that do not expose a context's plaintext do not matter to it. -/
theorem ContextInv.append (h : ContextInv id c l) {l' : List StoreEvent}
    (hquiet : exposuresOf id l' = []) : ContextInv id c (l ++ l') := by
  have hsame : exposuresOf id (l ++ l') = exposuresOf id l := by
    rw [exposuresOf_append, hquiet, List.append_nil]
  refine ⟨fun hentered => ?_, ?_, h.expiry, fun lease hlease hunused => ?_, fun lease p hlease hp => ?_⟩
  · rw [hsame]
    exact h.fresh hentered
  · rw [hsame]
    exact h.once
  · rw [hsame]
    exact h.unused lease hlease hunused
  · obtain ⟨hentered, hclosed, hopened⟩ := h.plaintext lease p hlease hp
    exact ⟨hentered, hclosed, List.mem_append_left _ hopened⟩

/-- A context after a call that shows nothing: its lease has lost its plaintext, or nothing has
changed. -/
structure Shrunk (c c' : LeaseContext) : Prop where
  reference : c'.reference = c.reference
  expiresAt : c'.expiresAt = c.expiresAt
  entered : c'.entered = c.entered
  lease : ∀ lease', c'.lease = some lease' → ∃ lease, c.lease = some lease ∧
    lease'.expiresAt = lease.expiresAt ∧ lease'.used = lease.used ∧
      ∀ p, lease'.plaintext = some p → lease.plaintext = some p ∧ c'.closed = c.closed

theorem ContextInv.shrink (h : ContextInv id c l) (hshrunk : Shrunk c c') : ContextInv id c' l := by
  refine ⟨fun hentered => ?_, h.once, fun lease' hlease' => ?_, fun lease' hlease' hunused => ?_,
    fun lease' p hlease' hp => ?_⟩
  · rw [hshrunk.entered] at hentered
    obtain ⟨hnone, hexposures⟩ := h.fresh hentered
    refine ⟨?_, hexposures⟩
    cases hlease' : c'.lease with
    | none => rfl
    | some lease' =>
      obtain ⟨lease, hlease, -⟩ := hshrunk.lease lease' hlease'
      rw [hnone] at hlease
      cases hlease
  · obtain ⟨lease, hlease, hexpires, -⟩ := hshrunk.lease lease' hlease'
    rw [hexpires, hshrunk.expiresAt]
    exact h.expiry lease hlease
  · obtain ⟨lease, hlease, -, hused, -⟩ := hshrunk.lease lease' hlease'
    exact h.unused lease hlease (hused ▸ hunused)
  · obtain ⟨lease, hlease, -, -, hplaintext⟩ := hshrunk.lease lease' hlease'
    obtain ⟨hp, hclosed⟩ := hplaintext p hp
    obtain ⟨hentered, hopen, hmem⟩ := h.plaintext lease p hlease hp
    rw [hshrunk.entered, hclosed, hshrunk.reference]
    exact ⟨hentered, hopen, hmem⟩

theorem shrunk_invalidate (c : LeaseContext) : Shrunk c c.invalidate where
  reference := rfl
  expiresAt := rfl
  entered := rfl
  lease lease' h := by
    obtain ⟨lease, hlease, rfl⟩ := Option.map_eq_some_iff.1 h
    exact ⟨lease, hlease, rfl, rfl, fun p hp => nomatch hp⟩

theorem shrunk_onLease (c : LeaseContext) {f : SecretLease → SecretLease}
    (hf : ∀ lease, f lease = lease ∨ f lease = lease.close) : Shrunk c (c.onLease f) where
  reference := rfl
  expiresAt := rfl
  entered := rfl
  lease lease' h := by
    obtain ⟨lease, hlease, rfl⟩ := Option.map_eq_some_iff.1 h
    refine ⟨lease, hlease, ?_⟩
    rcases hf lease with hsame | hclosed
    · rw [hsame]
      exact ⟨rfl, rfl, fun p hp => ⟨hp, rfl⟩⟩
    · rw [hclosed]
      exact ⟨rfl, rfl, fun p hp => nomatch hp⟩

/-- A call on one context, with the events that it reports. -/
theorem StoreInv.modifyWith (h : StoreInv cipher s l) (id : ℕ) {f : LeaseContext → LeaseContext}
    {l' : List StoreEvent} (hchanges : l'.filterMap StoreEvent.change? = [])
    (hothers : ∀ id', id' ≠ id → exposuresOf id' l' = [])
    (hcontext : ∀ c, s.contexts.get? id = some c → ContextInv id (f c) (l ++ l'))
    (hnone : s.contexts.get? id = none → exposuresOf id l' = []) :
    StoreInv cipher { s with contexts := s.contexts.modify id f } (l ++ l') where
  seals := by
    rw [secretMap_append, hchanges]
    exact h.seals
  allowed := by
    rw [List.filterMap_append, hchanges, List.append_nil]
    exact h.allowed
  contexts id' c' hc' := by
    rw [Table.get?_modify] at hc'
    split_ifs at hc' with hid
    · subst hid
      obtain ⟨c, hc, rfl⟩ := Option.map_eq_some_iff.1 hc'
      exact hcontext c hc
    · exact (h.contexts id' c' hc').append (hothers id' hid)
  unknown id' hnone' := by
    rw [Table.get?_modify] at hnone'
    rw [exposuresOf_append]
    split_ifs at hnone' with hid
    · subst hid
      have hmissing := Option.map_eq_none_iff.1 hnone'
      rw [h.unknown id' hmissing, hnone hmissing]
      rfl
    · rw [h.unknown id' hnone', hothers id' hid]
      rfl

/-- A call on one context that shows nothing keeps the invariant. -/
theorem StoreInv.modify (h : StoreInv cipher s l) (id : ℕ) {f : LeaseContext → LeaseContext}
    (hf : ∀ c, Shrunk c (f c)) : StoreInv cipher { s with contexts := s.contexts.modify id f } l := by
  have hmodify := h.modifyWith id (f := f) (show List.filterMap StoreEvent.change? [] = [] from rfl)
    (fun _ _ => rfl)
    (fun c hc => ((h.contexts id c hc).shrink (hf c)).append rfl) fun _ => rfl
  rwa [List.append_nil] at hmodify

/-- A change of the rows that the map follows keeps the invariant. -/
theorem StoreInv.change (h : StoreInv cipher s l) {secrets : Secrets C} {change : SecretChange}
    (hallowed : VersionedMap.Allowed (secretMap l) change)
    (hseals : Seals cipher secrets ((secretMap l).apply change)) :
    StoreInv cipher { s with secrets } (l ++ [.changed change]) where
  seals := by
    rw [secretMap_append]
    exact hseals
  allowed := by
    rw [List.filterMap_append, VersionedMap.allAllowed_append]
    exact ⟨h.allowed, hallowed, trivial⟩
  contexts id c hc := (h.contexts id c hc).append rfl
  unknown id hnone := by
    rw [exposuresOf_append, h.unknown id hnone]
    rfl

/-- A context that was not handed out has exposed nothing, and does not by being handed out. -/
theorem StoreInv.handOut (h : StoreInv cipher s l) {contexts : Table ℕ LeaseContext}
    (hinsert : s.contexts.insert? id c = some contexts) (hentered : c.entered = false)
    (hlease : c.lease = none) : StoreInv cipher { s with contexts } l where
  seals := h.seals
  allowed := h.allowed
  contexts id' c' hc' := by
    rw [Table.get?_of_insert? hinsert] at hc'
    split_ifs at hc' with hid
    · subst hid
      obtain rfl := Option.some.inj hc'
      have hnone := h.unknown id' (Table.insert?_eq_some hinsert).1
      refine ⟨fun _ => ⟨hlease, hnone⟩, by rw [hnone]; exact Nat.zero_le _, ?_, ?_, ?_⟩
      · simp [hlease]
      · simp [hlease]
      · simp [hlease]
    · exact h.contexts id' c' hc'
  unknown id' hnone := by
    rw [Table.get?_of_insert? hinsert] at hnone
    split_ifs at hnone with hid
    exact h.unknown id' hnone

/-- Entering a context keeps the invariant. -/
theorem StoreInv.enter (h : StoreInv cipher s l) (id : ℕ) (ring : Option KeyRing) (now : Time)
    (allowed : Bool) : StoreInv cipher (storeStep cipher s (.enter id ring now allowed))
      (l ++ storeEvents cipher s (.enter id ring now allowed)) := by
  have hquiet : ∀ id', exposuresOf id' (storeEvents cipher s (.enter id ring now allowed)) = [] ∧
      (storeEvents cipher s (.enter id ring now allowed)).filterMap StoreEvent.change? = [] := by
    intro id'
    simp only [storeEvents]
    split
    · split_ifs
      · exact ⟨rfl, rfl⟩
      · split
        · rename_i opened _
          cases opened.plaintext
          · exact ⟨rfl, rfl⟩
          · exact ⟨rfl, rfl⟩
        · exact ⟨rfl, rfl⟩
    · exact ⟨rfl, rfl⟩
  refine h.modifyWith id (hquiet id).2 (fun id' _ => (hquiet id').1) (fun c hc => ?_)
    fun _ => (hquiet id).1
  have hinv := h.contexts id c hc
  unfold LeaseContext.enter
  by_cases hstale : c.entered = true ∨ c.closed = true
  · rw [if_pos hstale]
    exact (hinv.shrink (shrunk_invalidate c)).append (hquiet id).1
  · rw [if_neg hstale]
    cases hopened : openLease cipher ring now allowed c.reference c.expiresAt s.secrets with
    | error e => exact hinv.append (hquiet id).1
    | ok opened =>
      obtain ⟨-, hexpires, -, p, hp, -⟩ := openLease_eq_ok h.seals hopened
      have hevents : storeEvents cipher s (.enter id ring now allowed) = [.opened id c.reference p] := by
        simp only [storeEvents, hc]
        rw [if_neg hstale]
        simp only [hopened, hp]
        rfl
      rw [not_or] at hstale
      have hfresh := (hinv.fresh (Bool.eq_false_of_not_eq_true hstale.1)).2
      have hnone : exposuresOf id (l ++ storeEvents cipher s (.enter id ring now allowed)) = [] := by
        rw [exposuresOf_append, hfresh, (hquiet id).1]
        rfl
      change ContextInv id { c with lease := some opened, entered := true } _
      refine ⟨fun h => Bool.noConfusion h, hnone ▸ Nat.zero_le 1,
        fun lease hlease => ?_, fun _ _ _ => hnone, fun lease p' hlease hp' => ⟨rfl, ?_, ?_⟩⟩
      · obtain rfl := Option.some.inj hlease
        exact hexpires
      · exact Bool.eq_false_of_not_eq_true hstale.2
      · obtain rfl := Option.some.inj hlease
        rw [hp] at hp'
        obtain rfl := Option.some.inj hp'
        rw [hevents]
        exact List.mem_append_right _ List.mem_cons_self

/-- The beginning of a use keeps the invariant. -/
theorem StoreInv.beginUse (h : StoreInv cipher s l) (id : ℕ) (now : Time) :
    StoreInv cipher (storeStep cipher s (.beginUse id now))
      (l ++ storeEvents cipher s (.beginUse id now)) := by
  have hquiet : (storeEvents cipher s (.beginUse id now)).filterMap StoreEvent.change? = [] ∧
      (∀ id', id' ≠ id → exposuresOf id' (storeEvents cipher s (.beginUse id now)) = []) ∧
      (exposuresOf id (storeEvents cipher s (.beginUse id now))).length ≤ 1 := by
    simp only [storeEvents]
    split
    · rename_i lease _
      cases (lease.use now).2 with
      | none => exact ⟨rfl, fun _ _ => rfl, Nat.zero_le _⟩
      | some p =>
        refine ⟨rfl, fun id' hid => ?_, List.length_filter_le _ _⟩
        simp [exposuresOf, Ne.symm hid]
    · exact ⟨rfl, fun _ _ => rfl, Nat.zero_le _⟩
  refine h.modifyWith id hquiet.1 hquiet.2.1 (fun c hc => ?_) fun hnone => ?_
  · have hinv := h.contexts id c hc
    cases hlease : c.lease with
    | none =>
      have hevents : storeEvents cipher s (.beginUse id now) = [] := by
        simp only [storeEvents, hc, Option.bind_some, hlease]
      have hsame : c.onLease (fun lease => (lease.use now).1) = c := by
        unfold LeaseContext.onLease
        rw [hlease, Option.map_none, ← hlease]
      rw [hevents, hsame, List.append_nil]
      exact hinv
    | some lease =>
      by_cases havailable : lease.Available now
      · have huse : lease.use now = ({ lease with used := true }, lease.plaintext) := if_pos havailable
        have hfresh := hinv.unused lease hlease havailable.1
        have hentered : ¬ c.entered = false := by
          intro hentered
          rw [(hinv.fresh hentered).1] at hlease
          cases hlease
        refine ⟨fun h => absurd h hentered, ?_, fun lease' hlease' => ?_, fun lease' hlease' hunused => ?_,
          fun lease' p hlease' hp => ?_⟩
        · rw [exposuresOf_append, hfresh]
          exact hquiet.2.2
        all_goals
          rw [LeaseContext.onLease, hlease, Option.map_some, huse] at hlease'
          obtain rfl := Option.some.inj hlease'
        · exact hinv.expiry lease hlease
        · cases hunused
        · obtain ⟨hentered, hclosed, hmem⟩ := hinv.plaintext lease p hlease hp
          exact ⟨hentered, hclosed, List.mem_append_left _ hmem⟩
      · have huse : lease.use now = (lease.close, none) := if_neg havailable
        have hevents : storeEvents cipher s (.beginUse id now) = [] := by
          simp only [storeEvents, hc, Option.bind_some, hlease, huse]
          rfl
        rw [hevents, List.append_nil]
        refine hinv.shrink ⟨rfl, rfl, rfl, fun lease' hlease' => ⟨lease, hlease, ?_⟩⟩
        rw [LeaseContext.onLease, hlease, Option.map_some, huse] at hlease'
        obtain rfl := Option.some.inj hlease'
        refine ⟨rfl, rfl, fun p hp => ?_⟩
        cases hp
  · simp only [storeEvents, hnone, Option.bind_none]
    rfl

/-- **A call keeps the invariant.** -/
theorem StoreInv.step (h : StoreInv cipher s l) (a : StoreAction) :
    StoreInv cipher (storeStep cipher s a) (l ++ storeEvents cipher s a) := by
  cases a with
  | put secretId ring nonce provider scope value =>
    simp only [storeStep, storeEvents]
    cases hput : put cipher secretId ring nonce provider scope value s.secrets with
    | error e =>
      rw [commit_error, List.append_nil]
      exact h
    | ok r =>
      obtain ⟨hallowed, hseals⟩ := put_eq_ok h.seals hput
      exact h.change hallowed hseals
  | replace reference ring nonce value =>
    simp only [storeStep, storeEvents]
    cases hreplace : replace cipher reference ring nonce value s.secrets with
    | error e =>
      rw [commit_error, List.append_nil]
      exact h
    | ok r =>
      obtain ⟨hallowed, hseals⟩ := replace_eq_ok h.seals hreplace
      exact h.change hallowed hseals
  | disable reference =>
    simp only [storeStep, storeEvents]
    cases hdisable : disable reference s.secrets with
    | error e =>
      rw [commit_error, List.append_nil]
      exact h
    | ok r =>
      obtain ⟨secret, hrow, ⟨hdisabled, hsame⟩ | ⟨hactive, hallowed, hseals⟩⟩ :=
        disable_eq_ok h.seals hdisable
      · simp only [hrow, hdisabled, commit_ok]
        rw [if_neg (by decide), List.append_nil, hsame]
        exact h
      · simp only [hrow, hactive, commit_ok]
        exact h.change hallowed hseals
  | lease context now reference valid ttl =>
    simp only [storeStep, storeEvents, List.append_nil]
    cases hlease : lease now reference valid ttl with
    | error e => exact h
    | ok new =>
      simp only
      cases hinsert : s.contexts.insert? context new with
      | none => exact h
      | some contexts =>
        simp only [lease, bind_eq_ok, pure_eq_ok] at hlease
        obtain ⟨⟨⟩, -, rfl⟩ := hlease
        exact h.handOut hinsert rfl rfl
  | enter context ring now allowed => exact h.enter context ring now allowed
  | exit context =>
    simp only [storeEvents, List.append_nil]
    exact h.modify context shrunk_invalidate
  | beginUse context now => exact h.beginUse context now
  | endUse context =>
    simp only [storeEvents, List.append_nil]
    exact h.modify context fun c => shrunk_onLease c fun _ => .inr rfl
  | enterLease context now =>
    simp only [storeEvents, List.append_nil]
    refine h.modify context fun c => shrunk_onLease c fun lease => ?_
    unfold SecretLease.enter
    split_ifs
    · exact .inl rfl
    · exact .inr rfl
  | exitLease context =>
    simp only [storeEvents, List.append_nil]
    exact h.modify context fun c => shrunk_onLease c fun _ => .inr rfl

theorem storeInv_init : StoreInv cipher (C := C) .empty [] where
  seals _ := .none
  allowed := trivial
  contexts _ _ hc := nomatch hc
  unknown _ _ := rfl

theorem storeInv_of_run (cipher : Cipher C) (as : List StoreAction) :
    StoreInv cipher (storeAfter cipher as) (storeLog cipher as) :=
  Transition.outputs_induction (fun _ a _ h => h.step a) storeInv_init as

theorem storeAfter_concat (as : List StoreAction) (a : StoreAction) :
    storeAfter cipher (as ++ [a]) = storeStep cipher (storeAfter cipher as) a := Transition.run_concat ..

theorem storeLog_append (as as' : List StoreAction) :
    storeLog cipher (as ++ as') = storeLog cipher as ++
      Transition.outputs (storeStep cipher) (storeEvents cipher) (storeAfter cipher as) as' :=
  Transition.outputs_append ..

theorem storeLog_concat (as : List StoreAction) (a : StoreAction) :
    storeLog cipher (as ++ [a]) = storeLog cipher as ++ storeEvents cipher (storeAfter cipher as) a := by
  rw [storeLog_append, Transition.outputs, Transition.outputs, List.append_nil]

/-- What is opened was held by the map. -/
theorem StoreInv.opened (h : StoreInv cipher s l) {a : StoreAction} {reference : SecretReference}
    {p : List UInt8} (hopened : .opened id reference p ∈ storeEvents cipher s a) :
    (secretMap l).read? reference.toRef = some p := by
  cases a with
  | enter context ring now allowed =>
    simp only [storeEvents] at hopened
    split at hopened
    · split_ifs at hopened
      · cases hopened
      · split at hopened
        · rename_i c _ _ opened hopen
          obtain ⟨-, -, -, p', hp', hread⟩ := openLease_eq_ok h.seals hopen
          rw [hp'] at hopened
          simp only [Option.map_some, Option.toList_some, List.mem_singleton,
            StoreEvent.opened.injEq] at hopened
          obtain ⟨-, rfl, rfl⟩ := hopened
          exact hread
        · cases hopened
    · cases hopened
  | put secretId ring nonce provider scope value =>
    simp only [storeEvents] at hopened
    split at hopened <;> simp at hopened
  | replace reference ring nonce value =>
    simp only [storeEvents] at hopened
    split at hopened <;> simp at hopened
  | disable reference =>
    simp only [storeEvents] at hopened
    split at hopened
    · split_ifs at hopened <;> simp at hopened
    · cases hopened
  | beginUse context now =>
    simp only [storeEvents] at hopened
    split at hopened <;> simp at hopened
  | lease context now reference valid ttl => cases hopened
  | exit context => cases hopened
  | endUse context => cases hopened
  | enterLease context now => cases hopened
  | exitLease context => cases hopened

/-- What is exposed was opened by its context, and the context is still open. -/
theorem StoreInv.exposed (h : StoreInv cipher s l) {a : StoreAction} {p : List UInt8} {time : Time}
    (hexposed : .exposed id p time ∈ storeEvents cipher s a) :
    ∃ c, s.contexts.get? id = some c ∧ c.entered = true ∧ c.closed = false ∧ time < c.expiresAt ∧
      .opened id c.reference p ∈ l := by
  cases a with
  | beginUse context now =>
    simp only [storeEvents] at hexposed
    split at hexposed
    · rename_i lease hlease
      obtain ⟨c, hc, hlease⟩ := Option.bind_eq_some_iff.1 hlease
      by_cases havailable : lease.Available now
      · rw [SecretLease.use, if_pos havailable] at hexposed
        simp only [Option.mem_toList, Option.map_eq_some_iff, StoreEvent.exposed.injEq] at hexposed
        obtain ⟨p', hp', rfl, rfl, rfl⟩ := hexposed
        have hinv := h.contexts context c hc
        obtain ⟨hentered, hclosed, hmem⟩ := hinv.plaintext lease p' hlease hp'
        exact ⟨c, hc, hentered, hclosed, hinv.expiry lease hlease ▸ havailable.2.2, hmem⟩
      · rw [SecretLease.use, if_neg havailable] at hexposed
        cases hexposed
    · cases hexposed
  | put secretId ring nonce provider scope value =>
    simp only [storeEvents] at hexposed
    split at hexposed <;> simp at hexposed
  | replace reference ring nonce value =>
    simp only [storeEvents] at hexposed
    split at hexposed <;> simp at hexposed
  | disable reference =>
    simp only [storeEvents] at hexposed
    split at hexposed
    · split_ifs at hexposed <;> simp at hexposed
    · cases hexposed
  | enter context ring now allowed =>
    simp only [storeEvents] at hexposed
    split at hexposed
    · split_ifs at hexposed
      · cases hexposed
      · split at hexposed
        · rename_i opened _
          cases hopened : opened.plaintext <;> simp [hopened] at hexposed
        · cases hexposed
    · cases hexposed
  | lease context now reference valid ttl => cases hexposed
  | exit context => cases hexposed
  | endUse context => cases hexposed
  | enterLease context now => cases hexposed
  | exitLease context => cases hexposed

theorem commit_of_not_ok {ε α σ : Type} {s : σ} {x : Except ε (α × σ)} (h : ∀ r, x ≠ .ok r) :
    commit s x = s := by
  cases x with
  | error e => rfl
  | ok r => exact absurd rfl (h r)

/-- The exposures of a context that was never handed out, or of one that was, are one at most. -/
theorem StoreInv.once (h : StoreInv cipher s l) (id : ℕ) : (exposuresOf id l).length ≤ 1 := by
  cases hc : s.contexts.get? id with
  | none =>
    rw [h.unknown id hc]
    exact Nat.zero_le _
  | some c => exact (h.contexts id c hc).once

/-- **The secret store is a versioned map.** -/
theorem versionedSecrets_of_run {C : Type} (cipher : Cipher C) : VersionedSecrets cipher where
  sealed as := (storeInv_of_run cipher as).seals
  versions as a secretId secret hsecret := by
    have hbefore := storeInv_of_run cipher as
    have hafter := storeInv_of_run cipher (as ++ [a])
    obtain ⟨e, he, hsealed⟩ := hbefore.seals.get? hsecret
    have hallowed := hafter.allowed
    have hseals := hafter.seals
    rw [storeLog_concat, List.filterMap_append, VersionedMap.allAllowed_append] at hallowed
    rw [storeLog_concat, secretMap_append] at hseals
    obtain ⟨e', he', htag, hversion⟩ := VersionedMap.get?_after hallowed.2 he
    obtain ⟨secret', hsecret', hsealed'⟩ := hseals.row he'
    refine ⟨secret', hsecret', ?_, ?_⟩
    · rw [← hsealed'.version, hversion, hsealed.version]
      rfl
    · have hsame := hsealed'.tag.symm.trans (htag.trans hsealed.tag)
      exact ⟨congrArg Prod.fst hsame, congrArg Prod.snd hsame⟩
  opened as a context reference plaintext hopened := (storeInv_of_run cipher as).opened hopened
  dead as as' reference hdead context plaintext hopened := by
    obtain ⟨as₁, a, as₂, rfl, hevent⟩ := Transition.mem_outputs hopened
    have hinv := storeInv_of_run cipher (as ++ as₁)
    have hstate : storeAfter cipher (as ++ as₁) =
        Transition.run (storeStep cipher) (storeAfter cipher as) as₁ := Transition.run_append ..
    rw [← hstate] at hevent
    have hread := hinv.opened hevent
    have hallowed := hinv.allowed
    rw [storeLog_append, List.filterMap_append, VersionedMap.allAllowed_append] at hallowed
    have hstill : VersionedMap.Dead (secretMap (storeLog cipher (as ++ as₁))) reference.toRef := by
      rw [storeLog_append, secretMap_append]
      exact VersionedMap.dead_after hallowed.2 hdead
    rw [VersionedMap.read?_of_dead hstill] at hread
    cases hread
  exposed as a context plaintext time hexposed := (storeInv_of_run cipher as).exposed hexposed
  once as context := (storeInv_of_run cipher as).once context
  raises as reference ring nonce value := by
    constructor
    · intro h
      rw [storeAfter_concat]
      exact commit_of_not_ok h
    · intro h
      rw [storeAfter_concat]
      exact commit_of_not_ok h

end Runs

end CivicLoop.Integrations
