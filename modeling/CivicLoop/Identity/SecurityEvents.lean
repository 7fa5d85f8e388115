import CivicLoop.Foundation.Checked
import CivicLoop.Foundation.InstantText
import CivicLoop.Foundation.Keyset
import CivicLoop.Foundation.Table
import Mathlib

/-!
# The pages of the security events

The events are listed from the latest one down; those of one moment by their IDs. A cursor is the signed
position of the last event of a page, and the next page takes the events below it. The account page lists
the events of an owner, and the page of a provider those of its connection.

## Main definitions

* `SecurityEvent` : the row.
* `Signer` : signed values.
* `auditPage` : the query of a page.
* `listSecurityEvents`, `integrationAudit` : the two lists.
* `Grown` : later events were recorded.
* `ExactListing` : the pages list the events of a kind.

## Main results

* `exactListing_auditPage` : a query whose cursors are read back lists what it selects.
* `exactListing_audits` : the two lists do.
-/

namespace CivicLoop.Identity

/-! ### Rows and cursors -/

/-- `AdministratorSecurityEvent.Outcome`. -/
inductive EventOutcome
  | success
  | failure
  | denied
  | unavailable
deriving DecidableEq

/-- `AdministratorSecurityEvent`. -/
structure SecurityEvent where
  profile : Option Uuid
  action : String
  outcome : EventOutcome
  targetType : String
  targetId : String
  details : Message
  sourceIp : Option String
  sessionId : Option Uuid
  createdAt : Instant

/-- The rows, by their IDs. -/
abbrev SecurityEvents := Table Uuid SecurityEvent

/-- `django.core.signing` with a salt: a value that was signed with it is read back. -/
structure Signer (Token : Type) where
  dumps : String → Message → Token
  loads : String → Token → Option Message
  loads_dumps : ∀ salt value, loads salt (dumps salt value) = some value

/-- The place of an event in the order of the lists. -/
def position (event : Uuid × SecurityEvent) : Time ×ₗ Uuid := toLex (event.2.createdAt.time, event.1)

/-- The filter of the events after a cursor. -/
def isAfter (createdAt : Time) (eventId : Uuid) (event : Uuid × SecurityEvent) : Bool :=
  event.2.createdAt.time < createdAt || (event.2.createdAt.time = createdAt && event.1 < eventId)

theorem isAfter_iff {createdAt : Time} {eventId : Uuid} {event : Uuid × SecurityEvent} :
    isAfter createdAt eventId event = true ↔ position event < toLex (createdAt, eventId) := by
  simp [isAfter, position, Prod.Lex.toLex_lt_toLex]

section Lists

variable {Token : Type} (signer : Signer Token)

/-- `_encode_cursor`. -/
def encodeCursor (salt : String) (event : Uuid × SecurityEvent) : Token :=
  signer.dumps salt (.arr [.lit (isoformat event.2.createdAt.time), .str (.uuid event.1)])

/-- `UUID` of a text. -/
def uuidOf : Text Empty → Option Uuid
  | .uuid u => some u
  | .lit _ => none

/-! ### The lists -/

/-- The rows after a cursor, a page of them, and the cursor of the last one if there are more. -/
def auditPage {ε : Type} (salt : String) (decodeCursor : Token → Except ε (Time × Uuid))
    (selected : SecurityEvent → Bool) (events : SecurityEvents) (cursor : Option Token) (limit : ℕ) :
    Except ε (Page (Uuid × SecurityEvent) Token) := do
  let query := events.rows.filter fun event => selected event.2
  let query ← match cursor with
    | none => pure query
    | some cursor => do
      let (createdAt, eventId) ← decodeCursor cursor
      pure (query.filter (isAfter createdAt eventId))
  let rows := (descending position query).take (limit + 1)
  let pageRows := rows.take limit
  return ⟨pageRows, if limit < rows.length then pageRows.getLast?.map (encodeCursor signer salt) else none⟩

inductive SecurityEventError
  | pageSize
  | cursor
deriving DecidableEq

/-- `CURSOR_SALT`. -/
def securityEventSalt : String := "civicloop.identity.security-events.v1"

/-- `_decode_cursor`, of the security events. -/
def decodeSecurityCursor (cursor : Token) : Except SecurityEventError (Time × Uuid) :=
  match signer.loads securityEventSalt cursor with
  | some (.arr [.str createdAt, .str eventId]) => do
    let createdAt ← fetch (parseDateTime createdAt.plain) SecurityEventError.cursor
    let eventId ← fetch (uuidOf eventId) SecurityEventError.cursor
    return (createdAt, eventId)
  | _ => .error .cursor

/-- `list_security_events`. -/
def listSecurityEvents (events : SecurityEvents) (owner : Uuid) (cursor : Option Token) (limit : ℤ) :
    Except SecurityEventError (Page (Uuid × SecurityEvent) Token) := do
  ensure (1 ≤ limit ∧ limit ≤ 100) SecurityEventError.pageSize
  auditPage signer securityEventSalt (decodeSecurityCursor signer) (fun event => event.profile = some owner)
    events cursor limit.toNat

inductive AuditError
  | providerNotFound
  | invalidPagination
  | attributeError
deriving DecidableEq

/-- `PROVIDERS`. -/
def providers : List String := ["eventbrite", "groq", "iterable", "openai"]

/-- The salt of the cursors of `integration_audit`. -/
def integrationAuditSalt : String := "civicloop.integrations.audit.v1"

/-- `_decode_cursor`, of the integrations. The types of the two values are not checked: `parse_datetime`
refuses what is not a string by the error that is caught, and `UUID` by another one. -/
def decodeAuditCursor (cursor : Token) : Except AuditError (Time × Uuid) :=
  match signer.loads integrationAuditSalt cursor with
  | some (.arr [.str createdAt, .str eventId]) => do
    let createdAt ← fetch (parseDateTime createdAt.plain) AuditError.invalidPagination
    let eventId ← fetch (uuidOf eventId) AuditError.invalidPagination
    return (createdAt, eventId)
  | some (.arr [.str _, .null]) => .error .invalidPagination
  | some (.arr [.str _, _]) => .error .attributeError
  | _ => .error .invalidPagination

/-- `integration_audit`. -/
def integrationAudit (events : SecurityEvents) (provider : String) (owner : Uuid) (cursor : Option Token)
    (limit : ℤ) : Except AuditError (Page (Uuid × SecurityEvent) Token) := do
  ensure (provider ∈ providers) AuditError.providerNotFound
  ensure (1 ≤ limit ∧ limit ≤ 100) AuditError.invalidPagination
  auditPage signer integrationAuditSalt (decodeAuditCursor signer)
    (fun event => event.profile = some owner && event.targetType = "integration_connection" &&
      event.targetId = provider)
    events cursor limit.toNat

theorem decodeSecurityCursor_encodeCursor (event : Uuid × SecurityEvent) :
    decodeSecurityCursor signer (encodeCursor signer securityEventSalt event) =
      .ok (event.2.createdAt.time, event.1) := by
  rw [decodeSecurityCursor, encodeCursor, signer.loads_dumps]
  simp only [Json.lit, Text.plain, parseDateTime_isoformat event.2.createdAt.isDate, uuidOf]
  rfl

theorem decodeAuditCursor_encodeCursor (event : Uuid × SecurityEvent) :
    decodeAuditCursor signer (encodeCursor signer integrationAuditSalt event) =
      .ok (event.2.createdAt.time, event.1) := by
  rw [decodeAuditCursor, encodeCursor, signer.loads_dumps]
  simp only [Json.lit, Text.plain, parseDateTime_isoformat event.2.createdAt.isDate, uuidOf]
  rfl

end Lists

/-! ### Events recorded between the reads -/

/-- Later events were recorded. -/
def Grown (events events' : SecurityEvents) : Prop :=
  ∃ new, events'.rows = events.rows ++ new ∧
    ∀ event ∈ new, ∀ old ∈ events.rows, old.2.createdAt.time < event.2.createdAt.time

theorem Grown.refl (events : SecurityEvents) : Grown events events := ⟨[], by simp⟩

theorem Grown.trans {a b c : SecurityEvents} (hab : Grown a b) (hbc : Grown b c) : Grown a c := by
  obtain ⟨new, hb, hnew⟩ := hab
  obtain ⟨newer, hc, hnewer⟩ := hbc
  refine ⟨new ++ newer, by rw [hc, hb, List.append_assoc], fun event hevent old hold => ?_⟩
  obtain hevent | hevent := List.mem_append.1 hevent
  · exact hnew event hevent old hold
  · exact hnewer event hevent old (by rw [hb]; exact List.mem_append_left _ hold)

/-- What was recorded since the first of the reads. -/
theorem grown_of_steps {events : ℕ → SecurityEvents} (h : ∀ n, Grown (events n) (events (n + 1))) (n : ℕ) :
    Grown (events 0) (events n) := by
  induction n with
  | zero => exact .refl _
  | succ n ih => exact ih.trans (h n)

/-- A recorded event is a later one if it is recorded after all others. -/
theorem grown_of_insert? {events events' : SecurityEvents} {eventId : Uuid} {event : SecurityEvent}
    (h : events.insert? eventId event = some events')
    (hlater : ∀ old ∈ events.rows, old.2.createdAt.time < event.createdAt.time) : Grown events events' :=
  ⟨_, (Table.insert?_eq_some h).2, by simpa using hlater⟩

/-! ### The pages -/

/-- From the first page on, following the cursors lists the events of a kind, each once, from the latest
one down. Events that are recorded later, between the reads, change nothing. -/
def ExactListing {Token ε : Type}
    (read : SecurityEvents → Option Token → Except ε (Page (Uuid × SecurityEvent) Token))
    (selected : SecurityEvent → Bool) (limit : ℕ) : Prop :=
  ∀ events : ℕ → SecurityEvents, (∀ n, Grown (events n) (events (n + 1))) → ∃ pages listed,
    (∀ pages', Followed (fun n => read (events n)) 0 none pages' ↔ pages' = pages) ∧
    (∀ pages', Followed (fun _ => read (events 0)) 0 none pages' ↔ pages' = pages) ∧
    ExactPages limit listed pages ∧ Descends position listed ∧
    ∀ event, event ∈ listed ↔ event ∈ (events 0).rows ∧ selected event.2 = true

section Exact

variable {Token ε : Type} {signer : Signer Token} {salt : String}
  {decodeCursor : Token → Except ε (Time × Uuid)} {selected : SecurityEvent → Bool}

/-- The rows of a query have different places. -/
theorem nodup_position (events : SecurityEvents) (p : Uuid × SecurityEvent → Bool) :
    ((events.rows.filter p).map position).Nodup := by
  have hids : ((events.rows.filter p).map Prod.fst).Nodup :=
    events.nodup.sublist (List.filter_sublist.map _)
  rw [List.Nodup, List.pairwise_map] at hids ⊢
  exact hids.imp fun hne e => hne (congrArg (fun place => (ofLex place).2) e)

/-- A query whose cursors are read back shows the next events. -/
theorem servesPages_auditPage {events : ℕ → SecurityEvents} {limit : ℕ}
    (hdecode : ∀ event, decodeCursor (encodeCursor signer salt event) = .ok (event.2.createdAt.time, event.1))
    (hgrown : ∀ n, Grown (events 0) (events n)) :
    ServesPages (fun n cursor => auditPage signer salt decodeCursor selected (events n) cursor limit)
      (encodeCursor signer salt) limit
      (descending position ((events 0).rows.filter fun event => selected event.2)) := by
  intro n seen rest hlisted hfirst
  have hdescends : Descends position (seen ++ rest) :=
    hlisted ▸ descends_descending (nodup_position _ _)
  have hrest : Descends position rest := (List.pairwise_append.1 hdescends).2.1
  have hmem (event : Uuid × SecurityEvent) :
      event ∈ seen ++ rest ↔ event ∈ (events 0).rows ∧ selected event.2 = true := by
    rw [← hlisted, mem_descending, List.mem_filter]
  have hpage (query : List (Uuid × SecurityEvent)) (hquery : descending position query = rest) :
      (pure ⟨((descending position query).take (limit + 1)).take limit,
        if limit < ((descending position query).take (limit + 1)).length then
          (((descending position query).take (limit + 1)).take limit).getLast?.map (encodeCursor signer salt)
        else none⟩ : Except ε (Page (Uuid × SecurityEvent) Token)) =
      .ok ⟨rest.take limit, if limit < rest.length then
        (rest.take limit).getLast?.map (encodeCursor signer salt) else none⟩ := by
    rw [hquery, List.take_take, min_eq_left (Nat.le_succ limit), List.length_take]
    by_cases hmore : limit < rest.length
    · rw [if_pos (by omega), if_pos hmore]
      rfl
    · rw [if_neg (by omega), if_neg hmore]
      rfl
  cases hlast : seen.getLast? with
  | none =>
    -- the first read
    obtain rfl := List.getLast?_eq_none_iff.1 hlast
    rw [hfirst rfl]
    exact hpage _ hlisted
  | some x =>
    have hx : x ∈ (events 0).rows := ((hmem x).1 (List.mem_append_left _ (List.mem_of_getLast? hlast))).1
    obtain ⟨new, hrows, hnew⟩ := hgrown n
    simp only [auditPage, Option.map_some, hdecode]
    refine hpage _ (descending_eq ?_ hrest fun event => ?_)
    · rw [List.filter_filter]
      exact nodup_position _ _
    · rw [List.mem_filter, List.mem_filter, isAfter_iff, ← hdescends.mem_and_lt_iff hlast event, hmem event, hrows,
        List.mem_append]
      -- a later event is before the cursor
      have hbefore : event ∈ new → ¬ position event < position x := by
        intro hevent hlt
        have hlater := hnew event hevent x hx
        rw [position, position, Prod.Lex.toLex_lt_toLex] at hlt
        exact hlt.elim (fun h => absurd h hlater.asymm) fun h => absurd h.1 hlater.ne'
      tauto

/-- A query whose cursors are read back lists what it selects. -/
theorem exactListing_auditPage {limit : ℕ} (hlimit : 0 < limit)
    (hdecode : ∀ event, decodeCursor (encodeCursor signer salt event) = .ok (event.2.createdAt.time, event.1)) :
    ExactListing (fun events cursor => auditPage signer salt decodeCursor selected events cursor limit)
      selected limit := by
  intro events hsteps
  have hserves : ServesPages (fun n cursor => auditPage signer salt decodeCursor selected (events n) cursor limit)
      (encodeCursor signer salt) limit
      (descending position ((events 0).rows.filter fun event => selected event.2)) :=
    servesPages_auditPage hdecode (grown_of_steps hsteps)
  have hconst : ServesPages (fun _ cursor => auditPage signer salt decodeCursor selected (events 0) cursor limit)
      (encodeCursor signer salt) limit
      (descending position ((events 0).rows.filter fun event => selected event.2)) :=
    servesPages_auditPage hdecode fun _ => .refl _
  refine ⟨_, _, hserves.followed_start hlimit, hconst.followed_start hlimit,
    exactPages_pagesOf hlimit le_rfl, descends_descending (nodup_position _ _), fun event => ?_⟩
  rw [mem_descending, List.mem_filter]

end Exact

/-- Following `next_cursor` through `list_security_events`, or through `integration_audit` for a provider,
lists the events of the owner, each once, from the latest one down. -/
theorem exactListing_audits {Token : Type} (signer : Signer Token) (owner : Uuid) {limit : ℤ}
    (hlimit : 1 ≤ limit ∧ limit ≤ 100) :
    ExactListing (fun events cursor => listSecurityEvents signer events owner cursor limit)
        (fun event => event.profile = some owner) limit.toNat ∧
      ∀ provider ∈ providers,
        ExactListing (fun events cursor => integrationAudit signer events provider owner cursor limit)
          (fun event => event.profile = some owner && event.targetType = "integration_connection" &&
            event.targetId = provider) limit.toNat := by
  have hpos : 0 < limit.toNat := by omega
  constructor
  · simp only [listSecurityEvents, ensure_bind hlimit]
    exact exactListing_auditPage hpos (decodeSecurityCursor_encodeCursor signer)
  · intro provider hprovider
    simp only [integrationAudit, ensure_bind hlimit, ensure_bind hprovider]
    exact exactListing_auditPage hpos (decodeAuditCursor_encodeCursor signer)

/-! ### Two events of one moment -/

/-- A signer whose tokens carry their salt. -/
def carryingSigner : Signer (String × Message) where
  dumps salt value := (salt, value)
  loads salt token := if token.1 = salt then some token.2 else none
  loads_dumps _ _ := if_pos rfl

/-- A login of the first owner at the epoch. -/
def sampleEvent : SecurityEvent :=
  ⟨some 1, "login", .success, "", "", .obj [], none, none, ⟨0, by decide⟩⟩

/-- Two such logins. -/
def sampleEvents : SecurityEvents := ⟨[(5, sampleEvent), (7, sampleEvent)], by decide⟩

theorem exactListing_audits_sample :
    ExactListing (fun events cursor => listSecurityEvents carryingSigner events 1 cursor 1)
        (fun event => event.profile = some 1) 1 ∧
      ExactListing (fun events cursor => integrationAudit carryingSigner events "groq" 1 cursor 1)
        (fun event => event.profile = some 1 && event.targetType = "integration_connection" &&
          event.targetId = "groq") 1 :=
  have h := @exactListing_audits _ carryingSigner 1 1 (by decide)
  ⟨h.1, h.2 "groq" (by decide)⟩

-- The larger ID comes first, and the cursor is for it.
example : ((listSecurityEvents carryingSigner sampleEvents 1 none 1).toOption.map fun page =>
    (page.rows.map Prod.fst, page.next.isSome)) = some ([7], true) := by
  decide +kernel

end CivicLoop.Identity
