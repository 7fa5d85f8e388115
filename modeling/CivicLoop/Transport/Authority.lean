import CivicLoop.Transport.Registry

/-!
# What the registry guarantees over every run

The events of a run are its registrations, authorizations, reservations, failed lease checks and
revocations. The invariant ties the records to the events: a record holds the binding that was
registered for its token or none, and its counters are the sum of the reservations for the token. A
record without a lease never gets one again.

## Main definitions

* `Event`, `events` : what a call reports.
* `spent` : the sum of the reservations for a token.
* `Inv` : the invariant.
* `Authority` : the guarantees.

## Main results

* `step_inv` : the invariant is kept.
* `step_tombstone` : a dead token stays dead.
* `registry_authority` : the guarantees hold of every run.
-/

namespace CivicLoop.Transport

variable {D : Type} [DecidableEq D]

/-! ### Events -/

inductive Event
  | registered (token : String) (binding : ScopeBinding)
  | authorized (token : String) (binding : ScopeBinding)
  | reserved (token : String) (v : Ceilings)
  | leaseFailed (token : String)
  | revoked (token : String)

section Events

variable (digest : String → D) (c : Capacity)

/-- A registration that succeeded, with the binding as it was checked. -/
def registerEvents (expireAt checkAt : Time) (token : String) (binding : ScopeBinding)
    (r : Registry D) : List Event :=
  match (register digest c expireAt checkAt token binding r).1, validateBinding binding checkAt with
  | .ok (), .ok checked => [.registered token checked]
  | _, _ => []

/-- An authorization, or a lease check that failed. -/
def authorizeEvents (now : Time) (lease : LeaseReply) (token : String) (r : Registry D) :
    List Event :=
  match digestOf digest token with
  | .error _ => []
  | .ok d =>
    match r.binding? d with
    | some b =>
      if leaseOk c now lease b then [.authorized token b]
      else if now < b.expiresAt then [.leaseFailed token] else []
    | none => []

def reserveEvents (now : Time) (lease : LeaseReply) (nonce : Uuid) (token : String) (v : Ceilings)
    (r : Registry D) : List Event :=
  if v.input ≤ 0 ∨ v.output ≤ 0 ∨ v.cost ≤ 0 then []
  else authorizeEvents digest c now lease token r ++
    match (reserveInference digest c now lease nonce token v r).1 with
    | .ok _ => [.reserved token v]
    | .error _ => []

def revokeEvents (token : String) (r : Registry D) : List Event :=
  match (revoke digest c token r).1 with
  | .ok () => [.revoked token]
  | .error _ => []

/-- What a call reports. -/
def events (s : State D) : Action → List Event
  | .register wait lag token binding =>
    registerEvents digest c (s.now + wait) (s.now + wait + lag) token binding s.registry
  | .authorize wait lease token => authorizeEvents digest c (s.now + wait) lease token s.registry
  | .reserve wait lease nonce token v =>
    reserveEvents digest c (s.now + wait) lease nonce token v s.registry
  | .revoke _ token => revokeEvents digest c token s.registry

/-- What a run reports. -/
def log (s : State D) (as : List Action) : List Event :=
  Transition.outputs (step digest c) (events digest c) s as

/-- The reservation of an event, if it is one for a token with this digest. -/
def reservedFor (d : D) : Event → Option Ceilings
  | .reserved token v => if digest token = d then some v else none
  | _ => none

/-- The sum of the reservations for the tokens with this digest. -/
def spent (d : D) (l : List Event) : Counters :=
  (l.filterMap (reservedFor digest d)).foldl Counters.add .zero

/-- The event ends the authority of the token. -/
def Event.ends (token : String) : Event → Prop
  | .revoked t => t = token
  | .leaseFailed t => t = token
  | _ => False

end Events

/-! ### The guarantees -/

/-- What holds of every run from an empty registry. -/
structure Authority (digest : String → D) (c : Capacity) (now : Time) : Prop where
  active : ∀ as, (Transition.run (step digest c) ⟨.empty, now⟩ as).registry.live ≤ c.maximumActive
  records : ∀ as,
    (Transition.run (step digest c) ⟨.empty, now⟩ as).registry.scopes.count ≤ c.maximumRecords
  limits : ∀ as token b, Event.registered token b ∈ log digest c ⟨.empty, now⟩ as →
    (spent digest (digest token) (log digest c ⟨.empty, now⟩ as)).within b
  registered : ∀ as token v, Event.reserved token v ∈ log digest c ⟨.empty, now⟩ as →
    ∃ token' b, Event.registered token' b ∈ log digest c ⟨.empty, now⟩ as ∧
      digest token' = digest token
  counters : ∀ as d e,
    (Transition.run (step digest c) ⟨.empty, now⟩ as).registry.scopes.get? d = some e →
      e.toCounters = spent digest d (log digest c ⟨.empty, now⟩ as)
  ended : ∀ as₁ as₂ token, (∃ e ∈ log digest c ⟨.empty, now⟩ as₁, e.ends token) →
    ∀ b, Event.authorized token b ∉
      log digest c (Transition.run (step digest c) ⟨.empty, now⟩ as₁) as₂
  expired : ∀ as₁ as₂ token b, Event.registered token b ∈ log digest c ⟨.empty, now⟩ as₁ →
    b.expiresAt ≤ (Transition.run (step digest c) ⟨.empty, now⟩ as₁).now →
      ∀ b', Event.authorized token b' ∉
        log digest c (Transition.run (step digest c) ⟨.empty, now⟩ as₁) as₂
  run : ∀ as token token' b b', Event.registered token b ∈ log digest c ⟨.empty, now⟩ as →
    Event.registered token' b' ∈ log digest c ⟨.empty, now⟩ as → b.runId = b'.runId →
      digest token = digest token' ∧ (Function.Injective digest → token = token')
  raises : ∀ as a e,
    (perform digest c (Transition.run (step digest c) ⟨.empty, now⟩ as) a).1 = .error e →
      ∀ d, ((Transition.run (step digest c) ⟨.empty, now⟩ (as ++ [a])).registry.scopes.get? d).map
          Scope.toCounters =
        ((Transition.run (step digest c) ⟨.empty, now⟩ as).registry.scopes.get? d).map
          Scope.toCounters

/-! ### Reading after a change -/

section Reads

variable (r : Registry D)

@[simp] theorem Scope.toCounters_dropped (e : Scope) : e.dropped.toCounters = e.toCounters := rfl

@[simp] theorem Scope.binding_dropped (e : Scope) : e.dropped.binding = none := rfl

theorem Scope.expire_eq (now : Time) (e : Scope) : e.expire now = e ∨ e.expire now = e.dropped := by
  unfold Scope.expire
  split
  · split_ifs
    · exact .inr rfl
    · exact .inl rfl
  · exact .inl rfl

@[simp] theorem Scope.toCounters_expire (now : Time) (e : Scope) :
    (e.expire now).toCounters = e.toCounters := by
  rcases e.expire_eq now with h | h <;> rw [h]
  rfl

/-- Marking the expired leases makes no lease live. -/
theorem Scope.binding_expire {now : Time} {e : Scope} {b : ScopeBinding}
    (h : (e.expire now).binding = some b) : e.binding = some b := by
  rcases e.expire_eq now with h' | h' <;> rw [h'] at h
  · exact h
  · cases h

theorem get?_expire (now : Time) (d : D) :
    (r.expire now).scopes.get? d = (r.scopes.get? d).map (Scope.expire now) :=
  Table.get?_mapValues ..

theorem get?_drop (d d' : D) : (r.drop d).scopes.get? d' =
    if d' = d then (r.scopes.get? d).map Scope.dropped else r.scopes.get? d' :=
  Table.get?_modify ..

theorem live_expire_le (now : Time) : (r.expire now).live ≤ r.live := by
  refine Table.countWhere_mapValues_le _ fun e he => ?_
  obtain ⟨b, hb⟩ := Option.isSome_iff_exists.1 he
  rw [Scope.binding_expire hb, Option.isSome_some]

theorem live_drop_le (d : D) : (r.drop d).live ≤ r.live :=
  Table.countWhere_modify_le _ d fun _ he => by cases he

end Reads

/-- The token has a record, and no lease. -/
def Tombstone (r : Registry D) (d : D) : Prop :=
  ∃ e, r.scopes.get? d = some e ∧ e.binding = none

theorem Tombstone.binding? {r : Registry D} {d : D} (h : Tombstone r d) : r.binding? d = none := by
  obtain ⟨e, he, hb⟩ := h
  rw [Registry.binding?, he, Option.bind_some, hb]

theorem binding?_eq_some {r : Registry D} {d : D} {b : ScopeBinding} :
    r.binding? d = some b ↔ ∃ e, r.scopes.get? d = some e ∧ e.binding = some b := by
  rw [Registry.binding?, Option.bind_eq_some_iff]

theorem Tombstone.expire {r : Registry D} {d : D} (h : Tombstone r d) (now : Time) :
    Tombstone (r.expire now) d := by
  obtain ⟨e, he, hb⟩ := h
  refine ⟨e.expire now, by rw [get?_expire, he, Option.map_some], ?_⟩
  rcases e.expire_eq now with h' | h' <;> rw [h']
  · exact hb
  · rfl

theorem Tombstone.drop {r : Registry D} {d : D} (h : Tombstone r d) (d' : D) :
    Tombstone (r.drop d') d := by
  obtain ⟨e, he, hb⟩ := h
  by_cases hd : d = d'
  · subst hd
    exact ⟨e.dropped, by rw [get?_drop, if_pos rfl, he, Option.map_some], rfl⟩
  · exact ⟨e, by rw [get?_drop, if_neg hd, he], hb⟩

theorem tombstone_drop {r : Registry D} {d : D} {e : Scope} (h : r.scopes.get? d = some e) :
    Tombstone (r.drop d) d :=
  ⟨e.dropped, by rw [get?_drop, if_pos rfl, h, Option.map_some], rfl⟩

/-! ### The moves of the registry -/

section Moves

variable (digest : String → D) (c : Capacity)

/-- What a call can do to the registry, beside what it reports. -/
inductive Moves (r : Registry D) : List Event → Registry D → Prop
  | stays : Moves r [] r
  | expires (now : Time) : Moves r [] (r.expire now)
  | registers (now checkAt : Time) (token : String) (b : ScopeBinding) (hvalid : b.Valid checkAt)
      (hnew : (r.expire now).scopes.get? (digest token) = none)
      (hrun : digest b.runId ∉ r.runs) (hrecords : r.scopes.count < c.maximumRecords)
      (hactive : (r.expire now).live < c.maximumActive) :
      Moves r [.registered token b]
        ⟨(r.expire now).scopes.put (digest token) (.fresh (some b)), digest b.runId :: r.runs⟩
  | replays (now : Time) (token : String) (b : ScopeBinding)
      (hbound : (r.expire now).binding? (digest token) = some b) :
      Moves r [.registered token b] (r.expire now)
  | authorizes (token : String) (b : ScopeBinding) (hbound : r.binding? (digest token) = some b) :
      Moves r [.authorized token b] r
  | fails (token : String) (b : ScopeBinding) (hbound : r.binding? (digest token) = some b)
      (new : List Event) (hnew : new = [] ∨ new = [.leaseFailed token]) :
      Moves r new (r.drop (digest token))
  | reserves (token : String) (v : Ceilings) (b : ScopeBinding) (e : Scope)
      (he : r.scopes.get? (digest token) = some e) (hbound : e.binding = some b)
      (hwithin : (e.toCounters.add v).within b) :
      Moves r [.authorized token b, .reserved token v]
        { r with scopes := r.scopes.set (digest token) (e.spend v) }
  | revokes (token : String) (e : Scope) (he : r.scopes.get? (digest token) = some e) :
      Moves r [.revoked token] (r.drop (digest token))
  | buries (token : String) (hnew : r.scopes.get? (digest token) = none)
      (hrecords : r.scopes.count < c.maximumRecords) :
      Moves r [.revoked token] { r with scopes := r.scopes.put (digest token) (.fresh none) }

variable {digest c}

theorem digestOf_eq_ok {token : String} {d : D} (h : digestOf digest token = .ok d) :
    digest token = d := by
  unfold digestOf at h
  split_ifs at h
  exact Except.ok.inj h

theorem register_moves (expireAt checkAt : Time) (token : String) (binding : ScopeBinding)
    (r : Registry D) : Moves digest c r (registerEvents digest c expireAt checkAt token binding r)
      (register digest c expireAt checkAt token binding r).2 := by
  unfold registerEvents register
  cases hd : digestOf digest token with
  | error e => exact .stays
  | ok d =>
    obtain rfl := digestOf_eq_ok hd
    cases hchecked : validateBinding binding checkAt with
    | error e => exact .expires expireAt
    | ok checked =>
      simp only
      cases hentry : (r.expire expireAt).scopes.get? (digest token) with
      | some entry =>
        simp only
        split_ifs with hbound
        · exact .replays expireAt token checked (binding?_eq_some.2 ⟨entry, hentry, hbound⟩)
        · exact .expires expireAt
      | none =>
        simp only
        split_ifs with hrun hroom
        · exact .expires expireAt
        · exact .expires expireAt
        · rw [not_or, not_le, not_le] at hroom
          have hrecords : r.scopes.count < c.maximumRecords := by
            rw [← Table.count_mapValues r.scopes (Scope.expire expireAt)]
            exact hroom.1
          exact .registers expireAt checkAt token checked (validateBinding_eq_ok hchecked) hentry hrun
            hrecords hroom.2

/-- An authorization leaves the registry as it is and reports itself, or ends the lease, or does
nothing. -/
theorem authorize_cases (now : Time) (lease : LeaseReply) (token : String) (r : Registry D) :
    (∃ b, r.binding? (digest token) = some b ∧ now < b.expiresAt ∧
      authorize digest c now lease token r = (.ok b, r) ∧
      authorizeEvents digest c now lease token r = [.authorized token b]) ∨
    ∃ e r', authorize digest c now lease token r = (.error e, r') ∧
      Moves digest c r (authorizeEvents digest c now lease token r) r' := by
  unfold authorize authorizeEvents
  cases hd : digestOf digest token with
  | error e => exact .inr ⟨e, r, rfl, .stays⟩
  | ok d =>
    obtain rfl := digestOf_eq_ok hd
    cases hb : r.binding? (digest token) with
    | none =>
      simp only [hb]
      exact .inr ⟨_, r, rfl, .stays⟩
    | some b =>
      simp only [hb]
      split_ifs with hok halive
      · exact .inl ⟨b, rfl, hok.1, rfl, rfl⟩
      · exact .inr ⟨_, _, rfl, .fails token b hb _ (.inr rfl)⟩
      · exact .inr ⟨_, _, rfl, .fails token b hb _ (.inl rfl)⟩

theorem authorize_moves (now : Time) (lease : LeaseReply) (token : String) (r : Registry D) :
    Moves digest c r (authorizeEvents digest c now lease token r)
      (authorize digest c now lease token r).2 := by
  rcases authorize_cases now lease token r with ⟨b, hb, -, hresult, hevents⟩ | ⟨e, r', hresult, hmoves⟩
  · rw [hresult, hevents]
    exact .authorizes token b hb
  · rw [hresult]
    exact hmoves

theorem reserve_moves (now : Time) (lease : LeaseReply) (nonce : Uuid) (token : String)
    (v : Ceilings) (r : Registry D) :
    Moves digest c r (reserveEvents digest c now lease nonce token v r)
      (reserveInference digest c now lease nonce token v r).2 := by
  unfold reserveEvents reserveInference
  split_ifs
  · exact .stays
  · rcases authorize_cases now lease token r with
      ⟨b, hb, -, hresult, hevents⟩ | ⟨e, r', hresult, hmoves⟩
    · obtain ⟨entry, hentry, hbound⟩ := binding?_eq_some.1 hb
      rw [hresult, hevents]
      simp only [hentry]
      split_ifs with hwithin
      · exact .reserves token v b entry hentry hbound hwithin
      · exact .authorizes token b hb
    · rw [hresult]
      simpa using hmoves

theorem revoke_moves (token : String) (r : Registry D) :
    Moves digest c r (revokeEvents digest c token r) (revoke digest c token r).2 := by
  unfold revokeEvents revoke
  cases hd : digestOf digest token with
  | error e => exact .stays
  | ok d =>
    obtain rfl := digestOf_eq_ok hd
    cases hentry : r.scopes.get? (digest token) with
    | some entry =>
      simp only [hentry]
      exact .revokes token entry hentry
    | none =>
      simp only [hentry]
      split_ifs with hroom
      · exact .stays
      · exact .buries token hentry (not_le.1 hroom)

/-- **What a call can do.** -/
theorem step_moves (s : State D) (a : Action) :
    Moves digest c s.registry (events digest c s a) (step digest c s a).registry := by
  cases a with
  | register wait lag token binding => exact register_moves ..
  | authorize wait lease token => exact authorize_moves ..
  | reserve wait lease nonce token v => exact reserve_moves ..
  | revoke wait token => exact revoke_moves ..

end Moves

/-! ### The invariant -/

section Invariant

variable (digest : String → D) (c : Capacity)

/-- The records beside the events so far. -/
structure Inv (r : Registry D) (l : List Event) : Prop where
  active : r.live ≤ c.maximumActive
  records : r.scopes.count ≤ c.maximumRecords
  counters : ∀ d e, r.scopes.get? d = some e → e.toCounters = spent digest d l
  unspent : ∀ d, r.scopes.get? d = none → spent digest d l = .zero
  bound : ∀ token b, Event.registered token b ∈ l → ∃ e, r.scopes.get? (digest token) = some e ∧
    (e.binding = none ∨ e.binding = some b) ∧ e.toCounters.within b ∧ digest b.runId ∈ r.runs
  registered : ∀ d b, r.binding? d = some b → ∃ token, Event.registered token b ∈ l ∧
    digest token = d
  reserved : ∀ token v, Event.reserved token v ∈ l →
    ∃ token' b, Event.registered token' b ∈ l ∧ digest token' = digest token
  run : ∀ token token' b b', Event.registered token b ∈ l → Event.registered token' b' ∈ l →
    digest b.runId = digest b'.runId → digest token = digest token'
  ended : ∀ e ∈ l, ∀ token, e.ends token → Tombstone r (digest token)

variable {digest c} {r : Registry D} {l : List Event}

theorem spent_append_of_none {d : D} {new : List Event}
    (h : ∀ e ∈ new, reservedFor digest d e = none) :
    spent digest d (l ++ new) = spent digest d l := by
  rw [spent, List.filterMap_append, List.filterMap_eq_nil_iff.2 h, List.append_nil, spent]

theorem inv_empty : Inv digest c .empty [] where
  active := Nat.zero_le _
  records := Nat.zero_le _
  counters _ _ h := by cases h
  unspent _ _ := rfl
  bound _ _ h := by cases h
  registered _ _ h := by cases h
  reserved _ _ h := by cases h
  run _ _ _ _ h := by cases h
  ended _ h := by cases h

/-- The invariant is kept when records only lose leases. -/
theorem Inv.weaken (h : Inv digest c r l) {r' : Registry D} {f : D → Scope → Scope}
    (hget : ∀ d, r'.scopes.get? d = (r.scopes.get? d).map (f d))
    (hf : ∀ d e, f d e = e ∨ f d e = e.dropped) (hlive : r'.live ≤ r.live)
    (hcount : r'.scopes.count = r.scopes.count) (hruns : r'.runs = r.runs) : Inv digest c r' l where
  active := hlive.trans h.active
  records := hcount ▸ h.records
  counters d e he := by
    rw [hget, Option.map_eq_some_iff] at he
    obtain ⟨e₀, he₀, rfl⟩ := he
    rw [← h.counters d e₀ he₀]
    rcases hf d e₀ with h' | h' <;> rw [h']
    rfl
  unspent d hd := h.unspent d (by rwa [hget, Option.map_eq_none_iff] at hd)
  bound token b hb := by
    obtain ⟨e, he, hbinding, hwithin, hrun⟩ := h.bound token b hb
    refine ⟨f (digest token) e, by rw [hget, he, Option.map_some], ?_, ?_, hruns ▸ hrun⟩ <;>
      rcases hf (digest token) e with h' | h' <;> rw [h']
    · exact hbinding
    · exact .inl rfl
    · exact hwithin
    · exact hwithin
  registered d b hb := by
    obtain ⟨e, he, hbinding⟩ := binding?_eq_some.1 hb
    rw [hget, Option.map_eq_some_iff] at he
    obtain ⟨e₀, he₀, rfl⟩ := he
    rcases hf d e₀ with h' | h' <;> rw [h'] at hbinding
    · exact h.registered d b (binding?_eq_some.2 ⟨e₀, he₀, hbinding⟩)
    · cases hbinding
  reserved := h.reserved
  run := h.run
  ended e he token hends := by
    obtain ⟨e₀, he₀, hnone⟩ := h.ended e he token hends
    refine ⟨f (digest token) e₀, by rw [hget, he₀, Option.map_some], ?_⟩
    rcases hf (digest token) e₀ with h' | h' <;> rw [h']
    · exact hnone
    · rfl

theorem Inv.expire (h : Inv digest c r l) (now : Time) : Inv digest c (r.expire now) l :=
  h.weaken (f := fun _ => Scope.expire now) (get?_expire r now) (fun _ e => e.expire_eq now)
    (live_expire_le r now) (Table.count_mapValues ..) rfl

theorem Inv.drop (h : Inv digest c r l) (d : D) : Inv digest c (r.drop d) l := by
  refine h.weaken (f := fun d' e => if d' = d then e.dropped else e) (fun d' => ?_)
    (fun d' e => ?_) (live_drop_le r d) (Table.count_modify ..) rfl
  · rw [get?_drop]
    split_ifs with hd
    · rw [hd]
    · simp
  · split_ifs
    · exact .inr rfl
    · exact .inl rfl

/-- Events that neither register nor reserve may be reported where the tokens they end are dead. -/
theorem Inv.report (h : Inv digest c r l) {new : List Event}
    (hquiet : ∀ e ∈ new, (∀ token b, e ≠ .registered token b) ∧ ∀ token v, e ≠ .reserved token v)
    (hends : ∀ e ∈ new, ∀ token, e.ends token → Tombstone r (digest token)) :
    Inv digest c r (l ++ new) := by
  have hspent : ∀ d, spent digest d (l ++ new) = spent digest d l := fun d =>
    spent_append_of_none fun e he => by
      cases e with
      | reserved token v => exact absurd rfl ((hquiet _ he).2 token v)
      | _ => rfl
  have hold : ∀ {token b}, Event.registered token b ∈ l ++ new → Event.registered token b ∈ l := by
    intro token b hb
    rcases List.mem_append.1 hb with hb | hb
    · exact hb
    · exact absurd rfl ((hquiet _ hb).1 token b)
  refine ⟨h.active, h.records, fun d e he => ?_, fun d hd => ?_, fun token b hb => ?_,
    fun d b hb => ?_, fun token v hv => ?_, fun token token' b b' hb hb' => ?_,
    fun e he token hends' => ?_⟩
  · rw [hspent, h.counters d e he]
  · rw [hspent, h.unspent d hd]
  · exact h.bound token b (hold hb)
  · obtain ⟨token, htoken, hd⟩ := h.registered d b hb
    exact ⟨token, List.mem_append_left _ htoken, hd⟩
  · rcases List.mem_append.1 hv with hv | hv
    · obtain ⟨token', b, htoken, hd⟩ := h.reserved token v hv
      exact ⟨token', b, List.mem_append_left _ htoken, hd⟩
    · exact absurd rfl ((hquiet _ hv).2 token v)
  · exact h.run token token' b b' (hold hb) (hold hb')
  · rcases List.mem_append.1 he with he | he
    · exact h.ended e he token hends'
    · exact hends e he token hends'

/-- A registration is reported where the token holds the binding, whether it is new or not. -/
theorem Inv.report_registered (h : Inv digest c r l) {token : String} {b : ScopeBinding}
    (hbound : ∃ e, r.scopes.get? (digest token) = some e ∧ (e.binding = none ∨ e.binding = some b) ∧
      e.toCounters.within b ∧ digest b.runId ∈ r.runs)
    (hrun : ∀ token' b', Event.registered token' b' ∈ l → digest b.runId = digest b'.runId →
      digest token = digest token') :
    Inv digest c r (l ++ [.registered token b]) := by
  have hspent : ∀ d, spent digest d (l ++ [.registered token b]) = spent digest d l := fun d =>
    spent_append_of_none (by simp [reservedFor])
  refine ⟨h.active, h.records, fun d e he => ?_, fun d hd => ?_, fun token' b' hb => ?_,
    fun d b' hb => ?_, fun token' v hv => ?_, fun token₁ token₂ b₁ b₂ hb₁ hb₂ hsame => ?_,
    fun e he token' hends => ?_⟩
  · rw [hspent, h.counters d e he]
  · rw [hspent, h.unspent d hd]
  · rcases List.mem_append.1 hb with hb | hb
    · exact h.bound token' b' hb
    · obtain ⟨rfl, rfl⟩ := Event.registered.inj (List.mem_singleton.1 hb)
      exact hbound
  · obtain ⟨token', htoken, hd⟩ := h.registered d b' hb
    exact ⟨token', List.mem_append_left _ htoken, hd⟩
  · rcases List.mem_append.1 hv with hv | hv
    · obtain ⟨token₀, b₀, htoken, hd⟩ := h.reserved token' v hv
      exact ⟨token₀, b₀, List.mem_append_left _ htoken, hd⟩
    · cases List.mem_singleton.1 hv
  · rcases List.mem_append.1 hb₁ with hold₁ | hnew₁ <;>
      rcases List.mem_append.1 hb₂ with hold₂ | hnew₂
    · exact h.run token₁ token₂ b₁ b₂ hold₁ hold₂ hsame
    · obtain ⟨rfl, rfl⟩ := Event.registered.inj (List.mem_singleton.1 hnew₂)
      exact (hrun token₁ b₁ hold₁ hsame.symm).symm
    · obtain ⟨rfl, rfl⟩ := Event.registered.inj (List.mem_singleton.1 hnew₁)
      exact hrun token₂ b₂ hold₂ hsame
    · obtain ⟨rfl, rfl⟩ := Event.registered.inj (List.mem_singleton.1 hnew₁)
      obtain ⟨rfl, rfl⟩ := Event.registered.inj (List.mem_singleton.1 hnew₂)
      rfl
  · rcases List.mem_append.1 he with he | he
    · exact h.ended e he token' hends
    · obtain rfl := List.mem_singleton.1 he
      exact hends.elim

/-- A new record, whose lease is reported, or which has none. -/
theorem Inv.put (h : Inv digest c r l) {token : String}
    (hnew : r.scopes.get? (digest token) = none) (hrecords : r.scopes.count < c.maximumRecords)
    {binding : Option ScopeBinding} {runs : List D} (hruns : ∀ d ∈ r.runs, d ∈ runs)
    (hbinding : ∀ b, binding = some b → r.live < c.maximumActive ∧ Counters.zero.within b ∧
      digest b.runId ∈ runs ∧ digest b.runId ∉ r.runs) :
    Inv digest c ⟨r.scopes.put (digest token) (.fresh binding), runs⟩
      (l ++ (binding.map (Event.registered token)).toList) := by
  have hspent : ∀ d, spent digest d (l ++ (binding.map (Event.registered token)).toList) =
      spent digest d l := fun d => spent_append_of_none (by cases binding <;> simp [reservedFor])
  have hmem : ∀ {e}, e ∈ l ++ (binding.map (Event.registered token)).toList →
      e ∈ l ∨ ∃ b, binding = some b ∧ e = .registered token b := by
    intro e he
    rcases List.mem_append.1 he with he | he
    · exact .inl he
    · rw [Option.mem_toList, Option.map_eq_some_iff] at he
      obtain ⟨b, hb, rfl⟩ := he
      exact .inr ⟨b, hb, rfl⟩
  have hother : ∀ {d e}, r.scopes.get? d = some e → d ≠ digest token := by
    rintro d e he rfl
    rw [hnew] at he
    cases he
  refine ⟨?_, ?_, fun d e he => ?_, fun d hd => ?_, fun token' b hb => ?_, fun d b hb => ?_,
    fun token' v hv => ?_, fun token₁ token₂ b₁ b₂ hb₁ hb₂ hsame => ?_, fun e he token' hends => ?_⟩
  · rw [Registry.live, Table.countWhere_of_insert? (Table.put_of_none hnew _)]
    split_ifs with hlive
    · obtain ⟨b, hb⟩ := Option.isSome_iff_exists.1 hlive
      exact (hbinding b hb).1
    · exact h.active
  · rw [Table.count_of_insert? (Table.put_of_none hnew _)]
    exact hrecords
  · rw [hspent]
    rw [Table.get?_put] at he
    split_ifs at he with hd
    · obtain rfl := Option.some.inj he
      rw [hd, h.unspent _ hnew]
      rfl
    · exact h.counters d e he
  · rw [hspent]
    rw [Table.get?_put] at hd
    split_ifs at hd
    exact h.unspent d hd
  · rcases hmem hb with hb | ⟨b', hb', hsame⟩
    · obtain ⟨e, he, hkeep, hwithin, hrun⟩ := h.bound token' b hb
      exact ⟨e, by rw [Table.get?_put_of_ne _ _ (hother he), he], hkeep, hwithin, hruns _ hrun⟩
    · obtain ⟨rfl, rfl⟩ := Event.registered.inj hsame
      obtain ⟨-, hwithin, hrun, -⟩ := hbinding b hb'
      exact ⟨_, Table.get?_put_self .., .inr hb', hwithin, hrun⟩
  · obtain ⟨e, he, hb⟩ := binding?_eq_some.1 hb
    rw [Table.get?_put] at he
    split_ifs at he with hd
    · obtain rfl := Option.some.inj he
      exact ⟨token, List.mem_append_right _ (by simp [show binding = some b from hb]), hd.symm⟩
    · obtain ⟨token', htoken, hd⟩ := h.registered d b (binding?_eq_some.2 ⟨e, he, hb⟩)
      exact ⟨token', List.mem_append_left _ htoken, hd⟩
  · rcases hmem hv with hv | ⟨b, -, hsame⟩
    · obtain ⟨token₀, b, htoken, hd⟩ := h.reserved token' v hv
      exact ⟨token₀, b, List.mem_append_left _ htoken, hd⟩
    · cases hsame
  · rcases hmem hb₁ with hold₁ | ⟨b₁', hb₁', hnew₁⟩ <;>
      rcases hmem hb₂ with hold₂ | ⟨b₂', hb₂', hnew₂⟩
    · exact h.run token₁ token₂ b₁ b₂ hold₁ hold₂ hsame
    · obtain ⟨rfl, rfl⟩ := Event.registered.inj hnew₂
      obtain ⟨_, -, -, -, hrun⟩ := h.bound token₁ b₁ hold₁
      exact absurd (hsame ▸ hrun) (hbinding b₂ hb₂').2.2.2
    · obtain ⟨rfl, rfl⟩ := Event.registered.inj hnew₁
      obtain ⟨_, -, -, -, hrun⟩ := h.bound token₂ b₂ hold₂
      exact absurd (hsame ▸ hrun) (hbinding b₁ hb₁').2.2.2
    · rw [(Event.registered.inj hnew₁).1, (Event.registered.inj hnew₂).1]
  · rcases hmem he with he | ⟨b, -, rfl⟩
    · obtain ⟨e₀, he₀, hnone⟩ := h.ended e he token' hends
      exact ⟨e₀, by rw [Table.get?_put_of_ne _ _ (hother he₀), he₀], hnone⟩
    · exact hends.elim

/-- A reservation within the limits of the lease. -/
theorem Inv.reserve (h : Inv digest c r l) {token : String} {v : Ceilings} {b : ScopeBinding}
    {e : Scope} (he : r.scopes.get? (digest token) = some e) (hb : e.binding = some b)
    (hwithin : (e.toCounters.add v).within b) :
    Inv digest c
      { r with scopes := r.scopes.set (digest token) (e.spend v) }
      (l ++ [.reserved token v]) := by
  have hget : ∀ d, (r.scopes.set (digest token) (e.spend v)).get? d =
      if d = digest token then some (e.spend v) else r.scopes.get? d := fun d => by
    rw [Table.get?_set, he, Option.map_some]
  have hspent : ∀ d, spent digest d (l ++ [.reserved token v]) =
      if digest token = d then (spent digest d l).add v else spent digest d l := by
    intro d
    rw [spent, List.filterMap_append, List.foldl_append]
    split_ifs with hd <;> simp [reservedFor, hd, spent]
  have hold : ∀ {token' b}, Event.registered token' b ∈ l ++ [.reserved token v] →
      Event.registered token' b ∈ l := fun hb => by simpa using hb
  refine ⟨?_, ?_, fun d e' he' => ?_, fun d hd => ?_, fun token' b' hb' => ?_, fun d b' hb' => ?_,
    fun token' v' hv => ?_, fun token₁ token₂ b₁ b₂ hb₁ hb₂ => h.run _ _ _ _ (hold hb₁) (hold hb₂),
    fun e' he' token' hends => ?_⟩
  · rw [Registry.live, Table.set_of_get? he]
    have hle : (r.scopes.modify (digest token) (Scope.spend v)).countWhere
        (fun e => e.binding.isSome) ≤ r.live :=
      Table.countWhere_modify_le r.scopes (digest token) fun _ hlive => hlive
    exact hle.trans h.active
  · rw [Table.count_set]
    exact h.records
  · rw [hget] at he'
    rw [hspent]
    split_ifs at he' with hd
    · obtain rfl := Option.some.inj he'
      rw [if_pos hd.symm, hd, ← h.counters _ e he]
      rfl
    · rw [if_neg fun hd' => hd hd'.symm]
      exact h.counters d e' he'
  · rw [hget] at hd
    split_ifs at hd with hne
    rw [hspent, if_neg fun hd' => hne hd'.symm]
    exact h.unspent d hd
  · obtain ⟨e₀, he₀, hkeep, hin, hrun⟩ := h.bound token' b' (hold hb')
    by_cases hd : digest token' = digest token
    · rw [hd, he] at he₀
      obtain rfl := Option.some.inj he₀
      refine ⟨e.spend v, by rw [hget, if_pos hd], hkeep, ?_, hrun⟩
      rcases hkeep with hnone | hsome
      · rw [hb] at hnone
        cases hnone
      · rw [hb] at hsome
        obtain rfl := Option.some.inj hsome
        exact hwithin
    · exact ⟨e₀, by rw [hget, if_neg hd, he₀], hkeep, hin, hrun⟩
  · obtain ⟨e₀, he₀, hbinding⟩ := binding?_eq_some.1 hb'
    have hlive : r.binding? d = some b' := by
      rw [hget] at he₀
      split_ifs at he₀ with hd
      · obtain rfl := Option.some.inj he₀
        exact binding?_eq_some.2 ⟨e, hd ▸ he, hbinding⟩
      · exact binding?_eq_some.2 ⟨e₀, he₀, hbinding⟩
    obtain ⟨token', htoken, hd⟩ := h.registered d b' hlive
    exact ⟨token', List.mem_append_left _ htoken, hd⟩
  · have hfirst : ∃ token₀ b₀, Event.registered token₀ b₀ ∈ l ∧ digest token₀ = digest token' := by
      rcases List.mem_append.1 hv with hv | hv
      · exact h.reserved token' v' hv
      · obtain ⟨rfl, -⟩ := Event.reserved.inj (List.mem_singleton.1 hv)
        obtain ⟨token₀, htoken, hd⟩ := h.registered _ b (binding?_eq_some.2 ⟨e, he, hb⟩)
        exact ⟨token₀, b, htoken, hd⟩
    obtain ⟨token₀, b₀, htoken, hd⟩ := hfirst
    exact ⟨token₀, b₀, List.mem_append_left _ htoken, hd⟩
  · rcases List.mem_append.1 he' with he' | he'
    · obtain ⟨e₀, he₀, hnone⟩ := h.ended e' he' token' hends
      refine ⟨e₀, ?_, hnone⟩
      rw [hget, if_neg, he₀]
      intro hd
      rw [hd, he] at he₀
      rw [← Option.some.inj he₀, hb] at hnone
      cases hnone
    · obtain rfl := List.mem_singleton.1 he'
      exact hends.elim

theorem Counters.zero_within {b : ScopeBinding} {now : Time} (h : b.Valid now) :
    Counters.zero.within b := by
  obtain ⟨-, -, -, -, h₁, h₂, h₃, h₄⟩ := h
  simp only [Counters.within, Counters.zero]
  omega

/-- **Every move keeps the invariant.** -/
theorem Moves.inv {new : List Event} {r' : Registry D} (hmoves : Moves digest c r new r')
    (h : Inv digest c r l) : Inv digest c r' (l ++ new) := by
  cases hmoves with
  | stays => exact (List.append_nil l).symm ▸ h
  | expires now => exact (List.append_nil l).symm ▸ h.expire now
  | registers now checkAt token b hvalid hnew hrun hrecords hactive =>
    refine (h.expire now).put hnew ?_ (fun d hd => List.mem_cons_of_mem _ hd) ?_
    · exact (Table.count_mapValues r.scopes (Scope.expire now)).trans_lt hrecords
    · rintro b' hb'
      obtain rfl := Option.some.inj hb'
      exact ⟨hactive, Counters.zero_within hvalid, List.mem_cons_self, hrun⟩
  | replays now token b hbound =>
    have hexpired := h.expire now
    obtain ⟨e, he, hb⟩ := binding?_eq_some.1 hbound
    obtain ⟨token₀, htoken, hd⟩ := hexpired.registered _ b hbound
    obtain ⟨e₀, he₀, -, hwithin, hrun⟩ := hexpired.bound token₀ b htoken
    rw [hd, he] at he₀
    obtain rfl := Option.some.inj he₀
    refine hexpired.report_registered ⟨e, he, .inr hb, hwithin, hrun⟩ fun token' b' hb' hsame => ?_
    exact hd ▸ hexpired.run token₀ token' b b' htoken hb' hsame
  | authorizes token b _ =>
    exact h.report (by simp) fun e he token' hends => by
      obtain rfl := List.mem_singleton.1 he
      exact hends.elim
  | fails token b hbound new hnew =>
    obtain ⟨e, he, -⟩ := binding?_eq_some.1 hbound
    rcases hnew with rfl | rfl
    · exact (List.append_nil l).symm ▸ h.drop _
    · refine (h.drop (digest token)).report (by simp) fun e' he' token' hends => ?_
      obtain rfl := List.mem_singleton.1 he'
      obtain rfl : token = token' := hends
      exact tombstone_drop he
  | reserves token v b e he hb hwithin =>
    have hreport : Inv digest c r (l ++ [.authorized token b]) :=
      h.report (by simp) fun e he token' hends => by
        obtain rfl := List.mem_singleton.1 he
        exact hends.elim
    have hreserve := hreport.reserve he hb hwithin
    rw [List.append_assoc] at hreserve
    exact hreserve
  | revokes token e he =>
    refine (h.drop (digest token)).report (by simp) fun e' he' token' hends => ?_
    obtain rfl := List.mem_singleton.1 he'
    obtain rfl : token = token' := hends
    exact tombstone_drop he
  | buries token hnew hrecords =>
    have hput : Inv digest c ⟨r.scopes.put (digest token) (.fresh none), r.runs⟩ (l ++ []) :=
      h.put hnew hrecords (fun _ hd => hd) fun b hb => by cases hb
    rw [List.append_nil] at hput
    refine hput.report (by simp) fun e' he' token' hends => ?_
    obtain rfl := List.mem_singleton.1 he'
    obtain rfl : token = token' := hends
    exact ⟨.fresh none, Table.get?_put_self .., rfl⟩

/-- A dead token stays dead. -/
theorem Moves.tombstone {new : List Event} {r' : Registry D} (hmoves : Moves digest c r new r')
    {d : D} (h : Tombstone r d) : Tombstone r' d := by
  have hput : ∀ {r₀ : Registry D} {d' : D} {binding : Option ScopeBinding} {runs : List D},
      Tombstone r₀ d → r₀.scopes.get? d' = none →
      Tombstone ⟨r₀.scopes.put d' (.fresh binding), runs⟩ d := by
    rintro r₀ d' binding runs ⟨e, he, hnone⟩ hnew
    refine ⟨e, ?_, hnone⟩
    rw [Table.get?_put_of_ne, he]
    rintro rfl
    rw [hnew] at he
    cases he
  cases hmoves with
  | stays => exact h
  | expires now => exact h.expire now
  | registers now checkAt token b hvalid hnew => exact hput (h.expire now) hnew
  | replays now token b hbound => exact h.expire now
  | authorizes => exact h
  | fails => exact h.drop _
  | reserves token v b e he hb _ =>
    obtain ⟨e₀, he₀, hnone⟩ := h
    refine ⟨e₀, ?_, hnone⟩
    rw [Table.get?_set_of_ne, he₀]
    rintro rfl
    rw [he] at he₀
    rw [← Option.some.inj he₀, hb] at hnone
    cases hnone
  | revokes => exact h.drop _
  | buries token hnew => exact hput h hnew

end Invariant

/-! ### Runs -/

section Runs

variable {digest : String → D} {c : Capacity}

theorem step_now (s : State D) (a : Action) : s.now ≤ (step digest c s a).now := by
  cases a with
  | register wait lag token binding => exact (s.now.le_wait wait).trans (Time.le_wait _ lag)
  | authorize wait lease token => exact s.now.le_wait wait
  | reserve wait lease nonce token v => exact s.now.le_wait wait
  | revoke wait token => exact s.now.le_wait wait

theorem run_now (s : State D) (as : List Action) :
    s.now ≤ (Transition.run (step digest c) s as).now :=
  Transition.run_rel (P := fun _ => True) (R := fun s s' : State D => s.now ≤ s'.now)
    (fun _ _ _ => trivial) (fun _ => le_refl _) (fun _ _ _ => le_trans)
    (fun s a _ => step_now s a) trivial as

/-- What an authorization has checked. -/
theorem mem_authorizeEvents {now : Time} {lease : LeaseReply} {token t : String} {r : Registry D}
    {b : ScopeBinding} (h : Event.authorized token b ∈ authorizeEvents digest c now lease t r) :
    r.binding? (digest token) = some b ∧ now < b.expiresAt := by
  unfold authorizeEvents at h
  split at h
  · cases h
  · rename_i d hd
    obtain rfl := digestOf_eq_ok hd
    split at h
    · rename_i b' hb'
      split_ifs at h with hok
      · obtain ⟨rfl, rfl⟩ := Event.authorized.inj (List.mem_singleton.1 h)
        exact ⟨hb', hok.1⟩
      · cases List.mem_singleton.1 h
      · cases h
    · cases h

theorem mem_events_authorized {s : State D} {a : Action} {token : String} {b : ScopeBinding}
    (h : Event.authorized token b ∈ events digest c s a) :
    s.registry.binding? (digest token) = some b ∧ s.now < b.expiresAt := by
  have hauthorize : ∀ {wait : ℕ} {lease t}, Event.authorized token b ∈
      authorizeEvents digest c (s.now + wait) lease t s.registry →
      s.registry.binding? (digest token) = some b ∧ s.now < b.expiresAt := fun {wait} _ _ h =>
    (mem_authorizeEvents h).imp_right (s.now.le_wait wait).trans_lt
  cases a with
  | register wait lag t binding =>
    simp only [events, registerEvents] at h
    split at h
    · cases List.mem_singleton.1 h
    · cases h
  | authorize wait lease t => exact hauthorize h
  | reserve wait lease nonce t v =>
    simp only [events, reserveEvents] at h
    split_ifs at h
    · cases h
    · rcases List.mem_append.1 h with h | h
      · exact hauthorize h
      · split at h
        · cases List.mem_singleton.1 h
        · cases h
  | revoke wait t =>
    simp only [events, revokeEvents] at h
    split at h
    · cases List.mem_singleton.1 h
    · cases h

/-- The counters of a record, if there is one. -/
theorem counters_expire (r : Registry D) (now : Time) (d : D) :
    ((r.expire now).scopes.get? d).map Scope.toCounters =
      (r.scopes.get? d).map Scope.toCounters := by
  rw [get?_expire, Option.map_map]
  exact congrArg (Option.map · _) (funext (Scope.toCounters_expire now))

theorem counters_drop (r : Registry D) (d d' : D) :
    ((r.drop d).scopes.get? d').map Scope.toCounters =
      (r.scopes.get? d').map Scope.toCounters := by
  rw [get?_drop]
  split_ifs with hd
  · rw [hd, Option.map_map]
    rfl
  · rfl

/-- An authorization or a failed lease check. -/
def Event.quiet : Event → Bool
  | .authorized .. => true
  | .leaseFailed _ => true
  | _ => false

/-- A move that reports no more than authorizations changes no counter. -/
theorem Moves.counters {r r' : Registry D} {new : List Event} (h : Moves digest c r new r')
    (hquiet : ∀ e ∈ new, e.quiet = true) (d : D) :
    (r'.scopes.get? d).map Scope.toCounters = (r.scopes.get? d).map Scope.toCounters := by
  cases h with
  | stays => rfl
  | expires now => exact counters_expire r now d
  | authorizes => rfl
  | fails => exact counters_drop r _ d
  | replays now => exact counters_expire r now d
  | revokes => exact counters_drop r _ d
  | registers now checkAt token b => cases hquiet (.registered token b) List.mem_cons_self
  | reserves token v b => cases hquiet (.reserved token v) (by simp)
  | buries token => cases hquiet (.revoked token) List.mem_cons_self

theorem quiet_authorizeEvents {now : Time} {lease : LeaseReply} {token : String} {r : Registry D} :
    ∀ e ∈ authorizeEvents digest c now lease token r, e.quiet = true := by
  intro e he
  unfold authorizeEvents at he
  split at he
  · cases he
  · split at he
    · split_ifs at he
      · rw [List.mem_singleton.1 he]
        rfl
      · rw [List.mem_singleton.1 he]
        rfl
      · cases he
    · cases he

/-- A call that raises reports no more than an authorization. -/
theorem quiet_of_raise {s : State D} {a : Action} {e : TransportError}
    (h : (perform digest c s a).1 = .error e) : ∀ e ∈ events digest c s a, e.quiet = true := by
  cases a with
  | register wait lag token binding =>
    have hresult : (register digest c (s.now + wait) (s.now + wait + lag) token binding
        s.registry).1 = .error e := h
    simp [events, registerEvents, hresult]
  | authorize wait lease token => exact quiet_authorizeEvents
  | reserve wait lease nonce token v =>
    have hresult : (reserveInference digest c (s.now + wait) lease nonce token v s.registry).1.map
        (fun _ => ()) = .error e := h
    simp only [events, reserveEvents]
    split_ifs
    · simp
    · cases hok : (reserveInference digest c (s.now + wait) lease nonce token v s.registry).1 with
      | ok nonce' =>
        rw [hok] at hresult
        cases hresult
      | error e' =>
        intro e he
        rw [List.append_nil] at he
        exact quiet_authorizeEvents e he
  | revoke wait token =>
    have hresult : (revoke digest c token s.registry).1 = .error e := h
    simp [events, revokeEvents, hresult]

end Runs

/-- The invariant, of every run from an empty registry. -/
theorem inv_of_run (digest : String → D) (c : Capacity) (now : Time) (as : List Action) :
    Inv digest c (Transition.run (step digest c) ⟨.empty, now⟩ as).registry
      (log digest c ⟨.empty, now⟩ as) := by
  have h : Inv digest c (Transition.run (step digest c) ⟨.empty, now⟩ as).registry
      ([] ++ log digest c ⟨.empty, now⟩ as) :=
    Transition.outputs_induction (f := events digest c)
      (P := fun s l => Inv digest c s.registry l) (fun s a _ h => (step_moves s a).inv h)
      inv_empty as
  rwa [List.nil_append] at h

/-- **The registry keeps its guarantees over every run.** -/
theorem registry_authority (digest : String → D) (c : Capacity) (now : Time) :
    Authority digest c now := by
  have hinv := inv_of_run digest c now
  refine ⟨fun as => (hinv as).active, fun as => (hinv as).records, fun as token b hb => ?_,
    fun as => (hinv as).reserved, fun as => (hinv as).counters, fun as₁ as₂ token hends b hb => ?_,
    fun as₁ as₂ token b hb hexpired b' hb' => ?_, fun as token token' b b' hb hb' hrun => ?_,
    fun as a e he d => ?_⟩
  · obtain ⟨e, he, -, hwithin, -⟩ := (hinv as).bound token b hb
    rw [← (hinv as).counters _ e he]
    exact hwithin
  · obtain ⟨e, he, hends⟩ := hends
    obtain ⟨as₃, a, as₄, rfl, hevent⟩ := Transition.mem_outputs hb
    have hdead : Tombstone (Transition.run (step digest c)
        (Transition.run (step digest c) ⟨.empty, now⟩ as₁) as₃).registry (digest token) :=
      Transition.run_induction (P := fun s => Tombstone s.registry (digest token))
        (fun s a h => (step_moves s a).tombstone h) ((hinv as₁).ended e he token hends) as₃
    exact absurd (mem_events_authorized hevent).1 (by rw [hdead.binding?]; simp)
  · obtain ⟨as₃, a, as₄, rfl, hevent⟩ := Transition.mem_outputs hb'
    obtain ⟨hlive, halive⟩ := mem_events_authorized hevent
    -- The lease that is authorized is the one that was registered.
    have hsame : b' = b := by
      have hmem : Event.registered token b ∈ log digest c ⟨.empty, now⟩ (as₁ ++ as₃) := by
        rw [log, Transition.outputs_append]
        exact List.mem_append_left _ hb
      obtain ⟨e, he, hbinding, -⟩ := (hinv (as₁ ++ as₃)).bound token b hmem
      rw [Transition.run_append] at he
      rw [Registry.binding?, he, Option.bind_some] at hlive
      rw [hlive] at hbinding
      simpa using hbinding
    rw [hsame] at halive
    exact absurd (hexpired.trans (run_now _ as₃)) (not_le.2 halive)
  · have hsame := (hinv as).run token token' b b' hb hb' (congrArg digest hrun)
    exact ⟨hsame, fun hinjective => hinjective hsame⟩
  · rw [Transition.run_concat]
    exact (step_moves _ a).counters (quiet_of_raise he) d

end CivicLoop.Transport
