import CivicLoop.Agents.Calls
import CivicLoop.Agents.LaneInvariant
import Mathlib

/-!
# The event log of a run

Admission, the claim, the acceptance, a cancellation and the end of a run each append to the log of the run, in
transactions of their own, with the number after the greatest one that is stored. The log of a run in a status is
one of a few lists (`Fits`): it begins with the admission, may have the claim and the request to cancel, and ends
with the final status.

## Main definitions

* `Db.log`, `Db.logTypes` : the entries of a run, and what they record.
* `Fits` : the logs of a run in a status.
* `Db.GapFree` : what should hold of the logs.

## Main results

* `logged_step` : every step of the service keeps the logs fitting.
* `gapFree_of_run` : the logs are free of gaps in every reachable state.

## References

Source: `backend/agents/tasks.py`, lines 213–228, 368–431 and 546–700.
-/

namespace CivicLoop

variable {D : Type}

/-- The text of a status. -/
def RunStatus.value : RunStatus → String
  | queued => "queued"
  | running => "running"
  | succeeded => "succeeded"
  | failed => "failed"
  | cancelled => "cancelled"

/-- The entries of a run. -/
def Db.log (db : Db D) (runId : Uuid) : List (AgentRunEvent D) := db.events.filter fun e => e.run == runId

/-- What the entries of a run record. -/
def Db.logTypes (db : Db D) (runId : Uuid) : List String := (db.log runId).map AgentRunEvent.eventType

/-- The numbers of the entries are those from one on. -/
def Numbered (log : List (AgentRunEvent D)) : Prop :=
  log.map AgentRunEvent.sequence = List.range' 1 log.length

/-- The statuses in which a run ends. -/
def finalTypes : List String := ["succeeded", "failed", "cancelled"]

/-- The log of every run of the lane is numbered without a gap and begins with its admission; there is one claim
and one request to cancel at most; a final entry is the last one and names the status of the run; and a run with a
final status has one. -/
structure Db.GapFree (db : Db D) : Prop where
  numbered : ∀ id, Numbered (db.log id)
  first : ∀ id status, db.statusOf id = some status → (db.logTypes id).head? = some "queued"
  oneRunning : ∀ id, (db.logTypes id).count "running" ≤ 1
  oneRequest : ∀ id, (db.logTypes id).count "cancel_requested" ≤ 1
  final_last : ∀ id before type after, db.logTypes id = before ++ type :: after → type ∈ finalTypes →
    after = [] ∧ ∃ status, db.statusOf id = some status ∧ type = status.value
  final_logged : ∀ id status, db.statusOf id = some status → status.active = false →
    (db.logTypes id).getLast? = some status.value

/-! ### Numbers -/

/-- The number of the next entry of a run. -/
def Db.nextSequence (db : Db D) (runId : Uuid) : ℕ := ((db.log runId).map AgentRunEvent.sequence).foldl max 0 + 1

theorem foldl_max_range' (n : ℕ) : (List.range' 1 n).foldl max 0 = n := by
  induction n with
  | zero => rfl
  | succ n ih =>
    rw [List.range'_concat, List.foldl_append, ih]
    simp only [List.foldl_cons, List.foldl_nil]
    omega

theorem Numbered.nextSequence {db : Db D} {runId : Uuid} (h : Numbered (db.log runId)) :
    db.nextSequence runId = (db.log runId).length + 1 := by
  rw [Db.nextSequence, h, foldl_max_range']

theorem Numbered.append {log : List (AgentRunEvent D)} (h : Numbered log) {e : AgentRunEvent D}
    (he : e.sequence = log.length + 1) : Numbered (log ++ [e]) := by
  rw [Numbered, List.map_append, h, List.length_append, List.length_singleton, List.range'_concat]
  simp only [List.map_cons, List.map_nil, he]
  congr 2
  omega

/-! ### Entries -/

/-- The events of a database with one more entry, for a run. -/
def Db.Appends (db db' : Db D) (runId : Uuid) (eventType : String) : Prop :=
  ∃ outcome detailDigest, db'.events =
    db.events ++ [⟨runId, db.nextSequence runId, eventType, outcome, detailDigest⟩]

namespace Db

theorem appends_event {H : Hash D} {runId : Uuid} {eventType outcome : String} {db db' : Db D}
    (h : db.event H runId eventType outcome = .ok db') : db.Appends db' runId eventType := by
  simp only [event, bind_eq_ok, pure_eq_ok] at h
  obtain ⟨digest, -, binding, -, rfl⟩ := h
  exact ⟨outcome, digest, rfl⟩

theorem Appends.log {db db' : Db D} {runId : Uuid} {eventType : String} (h : db.Appends db' runId eventType) :
    ∃ outcome detailDigest, ∀ k, db'.log k = if k = runId then
      db.log k ++ [⟨runId, db.nextSequence runId, eventType, outcome, detailDigest⟩] else db.log k := by
  obtain ⟨outcome, digest, hevents⟩ := h
  refine ⟨outcome, digest, fun k => ?_⟩
  rw [Db.log, hevents, List.filter_append]
  by_cases hk : k = runId
  · subst hk
    simp [Db.log]
  · have hne : (runId == k) = false := by simpa using Ne.symm hk
    simp [Db.log, hk, hne]

theorem Appends.logTypes {db db' : Db D} {runId : Uuid} {eventType : String} (h : db.Appends db' runId eventType)
    (k : Uuid) : db'.logTypes k = if k = runId then db.logTypes k ++ [eventType] else db.logTypes k := by
  obtain ⟨outcome, digest, hlog⟩ := h.log
  rw [Db.logTypes, hlog]
  split_ifs
  · rw [List.map_append]
    rfl
  · rfl

theorem Appends.numbered {db db' : Db D} {runId : Uuid} {eventType : String} (h : db.Appends db' runId eventType)
    (hnumbered : ∀ k, Numbered (db.log k)) (k : Uuid) : Numbered (db'.log k) := by
  obtain ⟨outcome, digest, hlog⟩ := h.log
  rw [hlog]
  split_ifs with hk
  · subst hk
    exact (hnumbered k).append (hnumbered k).nextSequence
  · exact hnumbered k

end Db

/-! ### The logs of a run -/

/-- The log of a run that has not ended: its admission, its claim and the request to cancel it, as far as they
have taken place. -/
def openLog (claimed requested : Bool) : List String :=
  "queued" :: ((if claimed then ["running"] else []) ++ if requested then ["cancel_requested"] else [])

/-- The logs of a run in a status that was asked to cancel or not. -/
def Fits : Option RunStatus → Bool → List String → Prop
  | none, requested, types => requested = false ∧ types = []
  | some .queued, requested, types => requested = false ∧ types = openLog false false
  | some .running, requested, types => types = openLog true requested
  | some status, requested, types => ∃ claimed, types = openLog claimed requested ++ [status.value]

/-- The logs of all runs fit their status. -/
structure Db.Logged (db : Db D) : Prop where
  numbered : ∀ k, Numbered (db.log k)
  fits : ∀ k, Fits (db.statusOf k) (db.cancelRequested k) (db.logTypes k)

/-- The logs of all runs but one fit their status. -/
structure Db.LoggedBut (db : Db D) (runId : Uuid) : Prop where
  numbered : ∀ k, Numbered (db.log k)
  fits : ∀ k, k ≠ runId → Fits (db.statusOf k) (db.cancelRequested k) (db.logTypes k)

theorem Db.Logged.but {db : Db D} (h : db.Logged) (runId : Uuid) : db.LoggedBut runId :=
  ⟨h.numbered, fun k _ => h.fits k⟩

/-- A change of the status and the control of one run. -/
theorem Db.LoggedBut.of_same {db db' : Db D} {runId : Uuid} (h : db.LoggedBut runId) (hevents : db'.events = db.events)
    (hstatus : ∀ k, k ≠ runId → db'.statusOf k = db.statusOf k)
    (hcancel : ∀ k, k ≠ runId → db'.cancelRequested k = db.cancelRequested k) : db'.LoggedBut runId where
  numbered k := by
    rw [Db.log, hevents]
    exact h.numbered k
  fits k hk := by
    have hfits := h.fits k hk
    rwa [Db.logTypes, Db.log, hevents, hstatus k hk, hcancel k hk]

theorem Db.Logged.of_same {db db' : Db D} (h : db.Logged) (hevents : db'.events = db.events)
    (hstatus : ∀ k, db'.statusOf k = db.statusOf k)
    (hcancel : ∀ k, db'.cancelRequested k = db.cancelRequested k) : db'.Logged where
  numbered k := by
    rw [Db.log, hevents]
    exact h.numbered k
  fits k := by
    have hfits := h.fits k
    rwa [Db.logTypes, Db.log, hevents, hstatus, hcancel]

/-- **An entry of a run** whose log fits then. -/
theorem Db.LoggedBut.append {db db' : Db D} {runId : Uuid} {eventType : String} {status : Option RunStatus}
    {requested : Bool} (h : db.LoggedBut runId) (happends : db.Appends db' runId eventType)
    (hstatus : ∀ k, db'.statusOf k = if k = runId then status else db.statusOf k)
    (hcancel : ∀ k, db'.cancelRequested k = if k = runId then requested else db.cancelRequested k)
    (hfits : Fits status requested (db.logTypes runId ++ [eventType])) : db'.Logged where
  numbered := happends.numbered h.numbered
  fits k := by
    rw [happends.logTypes, hstatus, hcancel]
    split_ifs with hk
    · rw [hk]
      exact hfits
    · exact h.fits k hk

/-! ### Fitting logs have no gaps -/

theorem notMem_finalTypes {claimed requested : Bool} {type : String} (h : type ∈ openLog claimed requested) :
    type ∉ finalTypes := by
  have hall : ∀ claimed requested, ∀ type ∈ openLog claimed requested, type ∉ finalTypes := by decide
  exact hall claimed requested type h

theorem value_mem_finalTypes {status : RunStatus} (h : status.active = false) : status.value ∈ finalTypes := by
  cases status with
  | queued | running => cases h
  | succeeded | failed | cancelled => decide

/-- A log that fits is open, or a final entry stands after an open log. -/
theorem Fits.cases {status : Option RunStatus} {requested : Bool} {types : List String}
    (h : Fits status requested types) :
    (status = none ∧ types = []) ∨
      (∃ s claimed, status = some s ∧ s.active = true ∧ types = openLog claimed requested) ∨
        ∃ s claimed, status = some s ∧ s.active = false ∧ types = openLog claimed requested ++ [s.value] := by
  cases status with
  | none => exact .inl ⟨rfl, h.2⟩
  | some s =>
    cases s with
    | queued =>
      obtain ⟨rfl, rfl⟩ := h
      exact .inr (.inl ⟨.queued, false, rfl, rfl, rfl⟩)
    | running => exact .inr (.inl ⟨.running, true, rfl, rfl, h⟩)
    | succeeded | failed | cancelled =>
      obtain ⟨claimed, rfl⟩ := h
      exact .inr (.inr ⟨_, claimed, rfl, rfl, rfl⟩)

theorem Fits.head? {status : RunStatus} {requested : Bool} {types : List String}
    (h : Fits (some status) requested types) : types.head? = some "queued" := by
  obtain ⟨hnone, -⟩ | ⟨_, _, _, _, rfl⟩ | ⟨_, _, _, _, rfl⟩ := h.cases
  · cases hnone
  · rfl
  · rfl

/-- An entry that is not final stands in the open log. -/
theorem Fits.count_le {status : Option RunStatus} {requested : Bool} {types : List String}
    (h : Fits status requested types) {type : String} (hopen : ∀ c r, (openLog c r).count type ≤ 1)
    (hfinal : type ∉ finalTypes) : types.count type ≤ 1 := by
  obtain ⟨-, rfl⟩ | ⟨_, claimed, _, _, rfl⟩ | ⟨s, claimed, _, hs, rfl⟩ := h.cases
  · simp
  · exact hopen claimed requested
  · have hne : s.value ≠ type := by
      rintro rfl
      exact hfinal (value_mem_finalTypes hs)
    rw [List.count_append, List.count_singleton, if_neg (by simpa using hne)]
    exact hopen claimed requested

theorem Fits.final_last {status : Option RunStatus} {requested : Bool} {before after : List String} {type : String}
    (h : Fits status requested (before ++ type :: after)) (hfinal : type ∈ finalTypes) :
    after = [] ∧ ∃ s, status = some s ∧ type = s.value := by
  obtain ⟨-, hnil⟩ | ⟨_, claimed, _, _, htypes⟩ | ⟨s, claimed, rfl, hs, htypes⟩ := h.cases
  · simp at hnil
  · have hmem : type ∈ openLog claimed requested := by
      rw [← htypes]
      simp
    exact absurd hfinal (notMem_finalTypes hmem)
  · rcases List.eq_nil_or_concat after with rfl | ⟨init, last, rfl⟩
    · obtain ⟨-, heq⟩ := List.append_inj' htypes rfl
      exact ⟨rfl, s, rfl, by simpa using heq⟩
    · -- then the entry stands in the open log
      have hassoc : before ++ type :: (init ++ [last]) = (before ++ type :: init) ++ [last] := by simp
      rw [List.concat_eq_append, hassoc] at htypes
      obtain ⟨hopen, -⟩ := List.append_inj' htypes rfl
      have hmem : type ∈ openLog claimed requested := by
        rw [← hopen]
        simp
      exact absurd hfinal (notMem_finalTypes hmem)

theorem Fits.getLast? {status : RunStatus} {requested : Bool} {types : List String}
    (h : Fits (some status) requested types) (hs : status.active = false) :
    types.getLast? = some status.value := by
  obtain ⟨hnone, -⟩ | ⟨s, _, heq, hactive, -⟩ | ⟨s, _, heq, -, rfl⟩ := h.cases
  · cases hnone
  · rw [Option.some.inj heq, hactive] at hs
    cases hs
  · rw [Option.some.inj heq, List.getLast?_concat]

/-- Fitting logs are free of gaps. -/
theorem Db.Logged.gapFree {db : Db D} (h : db.Logged) : db.GapFree where
  numbered := h.numbered
  first id status hstatus := by
    have hfits := h.fits id
    rw [hstatus] at hfits
    exact hfits.head?
  oneRunning id := (h.fits id).count_le (by decide) (by decide)
  oneRequest id := (h.fits id).count_le (by decide) (by decide)
  final_last id before type after htypes hfinal := by
    have hfits := h.fits id
    rw [htypes] at hfits
    exact hfits.final_last hfinal
  final_logged id status hstatus hs := by
    have hfits := h.fits id
    rw [hstatus] at hfits
    exact hfits.getLast? hs

/-! ### What does not touch the logs -/

section Operations

variable {db db' : Db D}

namespace Db

/-- A change of other tables. -/
theorem Logged.of_sameLane (h : db.Logged) (hsame : db.SameLane db') (hevents : db'.events = db.events) :
    db'.Logged :=
  h.of_same hevents (fun k => by rw [statusOf, hsame.runs]; rfl) fun k => by rw [cancelRequested, hsame.controls]; rfl

theorem events_tryRevoke {revokeFails : Bool} {now : Time} {control : AgentRunControl}
    (h : db.tryRevoke revokeFails now control = some db') : db'.events = db.events := by
  unfold tryRevoke revokeRecord at h
  split_ifs at h
  split at h
  · rename_i db₁ hrevoke
    obtain rfl := Option.some.inj h
    split at hrevoke
    · cases hrevoke
      rfl
    · simp only [bind_eq_ok, fetch_eq_ok] at hrevoke
      obtain ⟨record, -, hrevoke⟩ := hrevoke
      split_ifs at hrevoke <;> cases hrevoke
      · rfl
      · rfl
  · cases h

theorem cancelRequested_markCancelled {now : Time} {runId : Uuid} {control : AgentRunControl}
    (hcontrol : db.controls.get? runId = some control) (k : Uuid) :
    (db.markCancelled now runId control).cancelRequested k = if k = runId then true else db.cancelRequested k := by
  rw [cancelRequested, markCancelled, Table.get?_set]
  split_ifs with hk
  · simp [hcontrol]
  · rfl

variable [DecidableEq D]

theorem events_issueWorkflowCapability {H : Hash D} {now : Time} {id : Uuid} {token : ℕ} {workflowId : Uuid}
    {revisionId : ℤ} {actorId : Text D} {tools : List Tool} {lifetimeSeconds : ℤ} {id' : Uuid}
    (h : db.issueWorkflowCapability H now id token workflowId revisionId actorId tools lifetimeSeconds =
      .ok (id', db')) : db'.events = db.events := by
  simp only [issueWorkflowCapability, bind_eq_ok, ensure_eq_ok, fetch_eq_ok, pure_eq_ok, Prod.mk.injEq] at h
  obtain ⟨-, -, workflow, -, revision, -, actor, -, -, -, digest, -, -, -, capabilities, -, -, rfl⟩ := h
  rfl

theorem events_revokeWorkflowCapability {H : Hash D} {now : Time} {token : ℕ} {u : Unit}
    (h : db.revokeWorkflowCapability H now token = .ok (u, db')) : db'.events = db.events := by
  simp only [revokeWorkflowCapability, bind_eq_ok, fetch_eq_ok, pure_eq_ok, Prod.exists, Prod.mk.injEq] at h
  obtain ⟨id, record, -, -, rfl⟩ := h
  rfl

/-- A tool call writes no event. -/
theorem events_dispatchMcpTool (H : Hash D) (call : ToolCall D) (db : Db D) :
    (db.dispatchMcpTool H call).2.events = db.events := by
  cases hcall : db.tryTool H call with
  | error e =>
    obtain ⟨audits, haudits⟩ := dispatchMcpTool_eq_error (dispatchMcpTool_of_error hcall)
    rw [haudits]
  | ok r =>
    obtain ⟨tool, recordId, record, workflow, revision, correlationId, -, hinvoke⟩ := tryTool_eq_ok hcall
    rw [dispatchMcpTool_of_ok hcall]
    obtain ⟨_, _, _, _, -, ⟨_, _, -, -, -, hdb⟩ | ⟨-, _, db₁, invocations, hexecute, -, -, hdb⟩⟩ :=
      invoke_eq_ok hinvoke
    · rw [hdb]
      rfl
    · rw [hdb, audit, (execute_eq_ok hexecute).frame]
      rfl

theorem frame_account (accountingFails billable : Bool) (runId : Uuid) (db : Db D) :
    (db.account accountingFails billable runId).2.events = db.events ∧
      (db.account accountingFails billable runId).2.runs = db.runs ∧
        ∀ k, (db.account accountingFails billable runId).2.cancelRequested k = db.cancelRequested k := by
  cases accountingFails with
  | true => exact ⟨rfl, rfl, cancelRequested_closeLane db runId⟩
  | false =>
    cases billable with
    | true =>
      cases hcharge : db.budget.chargeReservedBudget runId with
      | error e =>
        have hclosed : (db.account false true runId).2 = db.closeLane runId := by simp [account, hcharge, closeLane]
        rw [hclosed]
        exact ⟨rfl, rfl, cancelRequested_closeLane db runId⟩
      | ok r =>
        have hcharged : (db.account false true runId).2 = { db with budget := r.2 } := by simp [account, hcharge]
        rw [hcharged]
        exact ⟨rfl, rfl, fun _ => rfl⟩
    | false =>
      cases hrelease : db.budget.releaseBudget runId with
      | error e =>
        have hclosed : (db.account false false runId).2 = db.closeLane runId := by simp [account, hrelease, closeLane]
        rw [hclosed]
        exact ⟨rfl, rfl, cancelRequested_closeLane db runId⟩
      | ok r =>
        have hreleased : (db.account false false runId).2 = { db with budget := r.2 } := by simp [account, hrelease]
        rw [hreleased]
        exact ⟨rfl, rfl, fun _ => rfl⟩

/-! ### What writes an entry -/

theorem appends_queueHermesRun {H : Hash D} {E : Engine D} {input : QueueInput} {workflowId : Uuid} {revisionId : ℤ}
    {actorSlug : Text D} {ownerSessionId : Option Uuid} {id : Uuid}
    (h : db.queueHermesRun H E input workflowId revisionId actorSlug ownerSessionId = .ok (id, db')) :
    db.Appends db' id "queued" := by
  simp only [queueHermesRun, bind_eq_ok, ensure_eq_ok, fetch_eq_ok, orRaise_eq_ok, pure_eq_ok, Prod.exists,
    Prod.mk.injEq] at h
  obtain ⟨-, -, -, -, timeout, -, workflow, revision, live, session, -, profile, -, -, -, policyId, policyRevision,
    policy, -, reservation, budget, -, -, -, runs, -, digest, -, -, -, bindings, -, controls, -, db₁, hevent, rfl,
    rfl⟩ := h
  obtain ⟨outcome, digest, hevents⟩ := appends_event hevent
  exact ⟨outcome, digest, hevents⟩

theorem appends_beginRun {H : Hash D} {E : Engine D} {input : ClaimInput} {runId : Uuid} {run : AgentRun D}
    (h : db.beginRun H E input runId run = .ok db') : db.Appends db' runId "running" := by
  simp only [beginRun, bind_eq_ok, ensure_eq_ok, fetch_eq_ok, orRaise_eq_ok, Prod.exists] at h
  obtain ⟨control, -, binding, -, -, -, ⟨⟩, -, -, -, lease, -, capabilityId, db₁, hissue, capability, -, db₂, hsave,
    hevent⟩ := h
  obtain rfl := saveRun_eq_ok hsave
  obtain ⟨outcome, digest, hevents⟩ := appends_event hevent
  have hissued := events_issueWorkflowCapability hissue
  refine ⟨outcome, digest, ?_⟩
  rw [hevents]
  simp only [nextSequence, log, hissued]

theorem appends_complete {H : Hash D} {E : Engine D} {input : CompleteInput} {runId : Uuid} {token : ℕ}
    {result : HermesResult D} {u : Unit} (h : db.complete H E input runId token result = .ok (u, db')) :
    db.Appends db' runId "succeeded" := by
  simp only [complete, bind_eq_ok, ensure_eq_ok, fetch_eq_ok, orRaise_eq_ok, pure_eq_ok, Prod.exists,
    Prod.mk.injEq] at h
  obtain ⟨-, -, run, -, -, -, control, -, binding, -, capabilityId, -, capability, -, -, -, ⟨⟩, -, ⟨⟩, -, -, -, ⟨⟩,
    revoked, hrevoke, settlement, budget, -, db₁, hsave, db₂, hevent, -, rfl⟩ := h
  obtain rfl := saveRun_eq_ok hsave
  obtain ⟨outcome, digest, hevents⟩ := appends_event hevent
  have hrevoked := events_revokeWorkflowCapability hrevoke
  refine ⟨outcome, digest, ?_⟩
  simp only [hevents, nextSequence, log, hrevoked]

theorem appends_terminal {H : Hash D} {now : Time} {accountingFails : Bool} {runId : Uuid} {run : AgentRun D}
    {category : FailureCategory} {billable : Bool}
    (h : db.terminal H now accountingFails runId run category billable = .ok db') :
    db.Appends db' runId (endedStatus category).value := by
  simp only [terminal, bind_eq_ok, pure_eq_ok] at h
  obtain ⟨db₁, hsave, db₂, hevent, rfl⟩ := h
  obtain rfl := saveRun_eq_ok hsave
  obtain ⟨outcome, digest, hevents⟩ := appends_event hevent
  obtain ⟨haccount, -, -⟩ := frame_account accountingFails billable runId db
  have htype : (if category = .cancelled then "cancelled" else "failed") = (endedStatus category).value := by
    unfold endedStatus
    split_ifs <;> rfl
  refine ⟨outcome, digest, ?_⟩
  rw [← htype]
  simp only [hevents, nextSequence, log, haccount]

/-! ### Every operation keeps the logs fitting -/

theorem Logged.queueHermesRun (h : db.Logged) {H : Hash D} {E : Engine D} {input : QueueInput} {workflowId : Uuid}
    {revisionId : ℤ} {actorSlug : Text D} {ownerSessionId : Option Uuid} {id : Uuid}
    (hqueue : db.queueHermesRun H E input workflowId revisionId actorSlug ownerSessionId = .ok (id, db')) :
    db'.Logged := by
  have happends := appends_queueHermesRun hqueue
  obtain ⟨-, -, request, reservation, run, binding, control, budget, runs, bindings, controls, events, audits, -, -,
    hlane, hstatus, -, -, hruns, -, -, hcancel, -, -, hcontrols, rfl⟩ := queueHermesRun_eq_ok hqueue
  have hnew : db.statusOf id = none := by
    rw [statusOf, (Table.insert?_eq_some hruns).1]
    rfl
  have hfits := h.fits id
  rw [hnew] at hfits
  obtain ⟨-, htypes⟩ : _ ∧ db.logTypes id = [] := hfits
  have hfits' : Fits (some .queued) false (db.logTypes id ++ ["queued"]) := by
    rw [htypes]
    exact ⟨rfl, rfl⟩
  refine (h.but id).append happends (fun k => ?_) (fun k => ?_) hfits'
  · rw [statusOf, Table.get?_of_insert? hruns]
    split_ifs with hk
    · simp [hlane, hstatus]
    · rfl
  · rw [cancelRequested, Table.get?_of_insert? hcontrols]
    split_ifs with hk
    · simp [hcancel]
    · rfl

theorem Logged.claim (h : db.Logged) {H : Hash D} {E : Engine D} {input : ClaimInput} {runId : Uuid}
    {token : Option ℕ} (hclaim : db.claim H E input runId = .ok (token, db')) : db'.Logged := by
  obtain ⟨-, rfl | rfl⟩ | ⟨-, run, hrun, hlane, hstatus, hbegin⟩ := claim_eq_ok hclaim
  · exact h
  · exact h.of_same rfl (fun _ => rfl) fun _ => rfl
  · have happends := appends_beginRun hbegin
    obtain ⟨control, binding, record, capabilities, events, audits, hcontrol, -, -, -, -, -, rfl⟩ :=
      beginRun_eq_ok hbegin
    have hfits := h.fits runId
    rw [statusOf_eq hrun hlane, hstatus] at hfits
    obtain ⟨hrequested, htypes⟩ := hfits
    have hfits' : Fits (some .running) (db.cancelRequested runId) (db.logTypes runId ++ ["running"]) := by
      rw [hrequested, htypes]
      rfl
    refine (h.but runId).append happends (statusOf_set db hrun (startedRun input.now run) hlane rfl) (fun k => ?_)
      hfits'
    rw [cancelRequested, Table.get?_set]
    split_ifs with hk
    · simp [cancelRequested, hcontrol]
    · rfl

/-- A run with a result: it was running and not asked to cancel. -/
theorem Logged.complete (h : db.Logged) (hsound : db.laneView.Sound) {H : Hash D} {E : Engine D}
    {input : CompleteInput} {runId : Uuid} {token : ℕ} {result : HermesResult D} {u : Unit}
    (hcomplete : db.complete H E input runId token result = .ok (u, db')) : db'.Logged := by
  have happends := appends_complete hcomplete
  obtain ⟨run, control, binding, capabilityId, capability, budget, settlement, revoked, events, audits, hrun, hstatus,
    hcontrol, hcancel, -, -, -, -, hactive, -, -, -, -, rfl⟩ := complete_eq_ok hcomplete
  have hlane : run.hermesLane = true := by
    have hrow := (hsound.active runId).1 hactive
    by_contra hl
    simp [laneView, RunView.Active, statusOf, hrun, hl] at hrow
  have hrequested : db.cancelRequested runId = false := by simp [cancelRequested, hcontrol, hcancel]
  have hfits := h.fits runId
  rw [statusOf_eq hrun hlane, hstatus, hrequested] at hfits
  have hfits' : Fits (some .succeeded) (db.cancelRequested runId) (db.logTypes runId ++ ["succeeded"]) := by
    rw [hrequested]
    exact ⟨true, congrArg (· ++ ["succeeded"]) hfits⟩
  refine (h.but runId).append happends (statusOf_set db hrun (acceptedRun input.now run settlement) hlane rfl)
    (fun k => ?_) hfits'
  split_ifs with hk
  · rw [hk]
    rfl
  · rfl

/-- **The end of a run** whose log is open. -/
theorem LoggedBut.terminal {H : Hash D} {now : Time} {accountingFails : Bool} {runId : Uuid} {run : AgentRun D}
    {category : FailureCategory} {billable claimed : Bool} (h : db.LoggedBut runId)
    (hterminal : db.terminal H now accountingFails runId run category billable = .ok db')
    (hrun : db.runs.get? runId = some run) (hlane : run.hermesLane = true)
    (htypes : db.logTypes runId = openLog claimed (db.cancelRequested runId)) : db'.Logged := by
  have happends := appends_terminal hterminal
  obtain ⟨-, hruns, hcancels⟩ := frame_account accountingFails billable runId db
  obtain ⟨reservation, events, audits, -, rfl⟩ := terminal_eq_ok hterminal
  have hfits : Fits (some (endedStatus category)) (db.cancelRequested runId)
      (db.logTypes runId ++ [(endedStatus category).value]) := by
    rw [htypes]
    cases category <;> exact ⟨claimed, rfl⟩
  refine h.append happends (fun k => ?_) (fun k => ?_) hfits
  · have hended : (endedRun now run category reservation).status = endedStatus category := rfl
    rw [← statusOf_set db hrun (endedRun now run category reservation) hlane hended k]
    simp only [statusOf, hruns]
  · refine (hcancels k).trans ?_
    split_ifs with hk
    · rw [hk]
    · rfl

theorem Logged.finish (h : db.Logged) {H : Hash D} {input : FinishInput} {runId : Uuid} {category : FailureCategory}
    {billable cleanupOk : Bool} {u : Unit} (hfinish : db.finish H input runId category billable cleanupOk = .ok (u, db')) :
    db'.Logged := by
  obtain rfl | rfl | ⟨run, control, category', billable', db₁, db₂, hrun, hlane, hactive, -, -, hrevoke, hclose,
    hterminal⟩ := finish_cases hfinish
  · exact h
  · exact h.of_same rfl (fun _ => rfl) fun _ => rfl
  · -- the revocation and the closed lane do not touch the logs
    have h₁ : db₁.Logged ∧ db₁.runs = db.runs := by
      obtain rfl | hrevoke := hrevoke
      · exact ⟨h, rfl⟩
      · have hsame := sameLane_tryRevoke hrevoke
        exact ⟨h.of_sameLane hsame (events_tryRevoke hrevoke), hsame.runs⟩
    have h₂ : db₂.Logged ∧ db₂.runs = db₁.runs := by
      obtain rfl | rfl := hclose
      · exact ⟨h₁.1, rfl⟩
      · exact ⟨h₁.1.of_same rfl (fun _ => rfl) (cancelRequested_closeLane db₁ runId), rfl⟩
    have hrun₂ : db₂.runs.get? runId = some run := by rw [h₂.2, h₁.2, hrun]
    obtain ⟨hnone, -⟩ | ⟨s, claimed, -, -, htypes⟩ | ⟨s, claimed, hs, hfinal, -⟩ := (h₂.1.fits runId).cases
    · rw [statusOf_eq hrun₂ hlane] at hnone
      cases hnone
    · exact (h₂.1.but runId).terminal hterminal hrun₂ hlane htypes
    · rw [statusOf_eq hrun₂ hlane] at hs
      rw [← Option.some.inj hs, hactive] at hfinal
      cases hfinal

/-- A request to cancel: the second one writes nothing, and a queued run ends with the first. -/
theorem Logged.cancelHermesRun (h : db.Logged) {H : Hash D} {input : FinishInput} {runId : Uuid} {u : Unit}
    (hcancel : db.cancelHermesRun H input runId = .ok (u, db')) : db'.Logged := by
  obtain rfl | rfl | ⟨run, control, db₁, db₂, hrun, hlane, hactive, hcontrol, hnone, hrevoke, hevent, hend⟩ :=
    cancelHermesRun_cases hcancel
  · exact h
  · exact h.of_same rfl (fun _ => rfl) fun _ => rfl
  · have hstatus := statusOf_eq hrun hlane
    have hrequested : db.cancelRequested runId = false := by simp [cancelRequested, hcontrol, hnone]
    have hmarked : ∀ k, (db.markCancelled input.now runId control).cancelRequested k =
        if k = runId then true else db.cancelRequested k := cancelRequested_markCancelled hcontrol
    -- the request and the revocation leave runs and events as they are
    have hsame₁ : db₁.events = db.events ∧ db₁.runs = db.runs ∧
        ∀ k, db₁.cancelRequested k = if k = runId then true else db.cancelRequested k := by
      obtain hrevoke | rfl := hrevoke
      · have hsame := sameLane_tryRevoke hrevoke
        have hkept := events_tryRevoke hrevoke
        refine ⟨hkept, hsame.runs, fun k => ?_⟩
        rw [← hmarked, cancelRequested, hsame.controls]
        rfl
      · exact ⟨rfl, rfl, fun k => (cancelRequested_closeLane _ runId k).trans (hmarked k)⟩
    obtain ⟨hevents, hruns, hcancels⟩ := hsame₁
    have hstatuses : ∀ k, db₁.statusOf k = db.statusOf k := fun k => by rw [statusOf, hruns]; rfl
    have htypes : db₁.logTypes runId = db.logTypes runId := by rw [logTypes, log, hevents]; rfl
    have hbut : db₁.LoggedBut runId := (h.but runId).of_same hevents (fun k _ => hstatuses k) fun k hk => by
      rw [hcancels, if_neg hk]
    have happends := appends_event hevent
    have hsame₂ := sameLane_event hevent
    have hstatuses₂ : ∀ k, db₂.statusOf k = db.statusOf k := fun k => by rw [← hstatuses, statusOf, hsame₂.runs]; rfl
    have hcancels₂ : ∀ k, db₂.cancelRequested k = if k = runId then true else db.cancelRequested k := fun k => by
      rw [← hcancels, cancelRequested, hsame₂.controls]
      rfl
    have hfits := h.fits runId
    rw [hstatus, hrequested, ← htypes] at hfits
    obtain ⟨hnotQueued, rfl⟩ | ⟨hqueued, hterminal⟩ := hend
    · have hrunning : run.status = .running := by
        cases hs : run.status <;> simp_all [RunStatus.active]
      rw [hrunning] at hfits
      have hfits' : Fits (some .running) true (db₁.logTypes runId ++ ["cancel_requested"]) :=
        congrArg (· ++ ["cancel_requested"]) hfits
      refine hbut.append happends (fun k => ?_) (fun k => ?_) hfits'
      · rw [hstatuses₂, ← hrunning, ← hstatus, hstatuses]
        split_ifs with hk
        · rw [hk]
        · rfl
      · rw [hcancels₂, hcancels]
        split_ifs <;> rfl
    · rw [hqueued] at hfits
      have hbut₂ : db₂.LoggedBut runId := by
        refine ⟨happends.numbered hbut.numbered, fun k hk => ?_⟩
        rw [happends.logTypes, if_neg hk, hstatuses₂, ← hstatuses, hcancels₂, if_neg hk]
        have hother := hbut.fits k hk
        rwa [hcancels, if_neg hk] at hother
      have htypes₂ : db₂.logTypes runId = openLog false (db₂.cancelRequested runId) := by
        rw [happends.logTypes, if_pos rfl, hcancels₂, if_pos rfl, hfits.2]
        rfl
      have hrun₂ : db₂.runs.get? runId = some run := by rw [hsame₂.runs, hruns, hrun]
      exact hbut₂.terminal hterminal hrun₂ hlane htypes₂

theorem Logged.startHermesRun (h : db.Logged) {H : Hash D} {E : Engine D} {input : QueueInput} {q : StartRequest D}
    {id : Uuid} (hstart : db.startHermesRun H E input q = .ok (id, db')) : db'.Logged := by
  simp only [Db.startHermesRun, bind_eq_ok] at hstart
  obtain ⟨-, -, actor, -, -, -, owner, -, hstart⟩ := hstart
  split at hstart
  · simp only [bind_eq_ok, pure_eq_ok, Prod.mk.injEq] at hstart
    obtain ⟨-, -, -, rfl⟩ := hstart
    exact h
  · simp only [bind_eq_ok, pure_eq_ok, Prod.mk.injEq, Prod.exists] at hstart
    obtain ⟨runId, db₁, hqueue, receipts, -, -, rfl⟩ := hstart
    exact (h.queueHermesRun hqueue).of_same rfl (fun _ => rfl) fun _ => rfl

end Db

/-! ### The service -/

namespace Agents

theorem logged_start (world : World D) : (start world).db.Logged :=
  ⟨fun _ => rfl, fun _ => ⟨rfl, rfl⟩⟩

theorem logged_commit {α ε : Type} {x : Except ε (α × Db D)} (h : db.Logged)
    (hok : ∀ (a : α) (db' : Db D), x = .ok (a, db') → db'.Logged) : (commit db x).Logged :=
  commit_induction (P := Db.Logged) h hok

variable [DecidableEq D]

theorem logged_serviceStep (H : Hash D) (E : Engine D) (h : db.Logged) (a : Action D) :
    (serviceStep H E db a).Logged := by
  cases a with
  | queue input workflowId revisionId actorSlug ownerSessionId =>
    exact logged_commit h fun _ _ hqueue => h.queueHermesRun hqueue
  | start input request => exact logged_commit h fun _ _ hstart => h.startHermesRun hstart
  | dispatchFails input runId => exact logged_commit h fun _ _ hfinish => h.finish hfinish
  | cancel input runId => exact logged_commit h fun _ _ hcancel => h.cancelHermesRun hcancel
  | expire now =>
    simp only [serviceStep]
    split
    · exact h.of_same rfl (fun _ => rfl) fun _ => rfl
    · exact h
  | issueCapability now id token workflowId revisionId actorId tools lifetimeSeconds =>
    exact logged_commit h fun _ _ hissue =>
      h.of_sameLane (Db.sameLane_issueWorkflowCapability hissue) (Db.events_issueWorkflowCapability hissue)
  | revokeCapability now token =>
    exact logged_commit h fun _ _ hrevoke =>
      h.of_sameLane (Db.sameLane_revokeWorkflowCapability hrevoke) (Db.events_revokeWorkflowCapability hrevoke)
  | tool call => exact h.of_sameLane (Db.sameLane_dispatchMcpTool H call db) (Db.events_dispatchMcpTool H call db)
  | changeWorld world => exact h.of_same rfl (fun _ => rfl) fun _ => rfl
  | deliver | claim | clientCall | complete | clientCancel | finish | crash => exact h

theorem logged_claimStep (H : Hash D) (E : Engine D) (input : ClaimInput) (runId : Uuid) (h : db.Logged) :
    (claimStep H E input runId db).1.Logged := by
  unfold claimStep
  split
  · rename_i hclaim
    exact h.claim hclaim
  · rename_i hclaim
    exact h.claim hclaim
  · exact h

theorem logged_workerStep {H : Hash D} {E : Engine D} {worker : Worker D} {a : Action D}
    {phase : Option (WorkerPhase D)} (h : db.Logged) (hsound : db.laneView.Sound)
    (hstep : workerStep H E worker db a = some (db', phase)) : db'.Logged := by
  cases a with
  | claim _ input =>
    simp only [workerStep] at hstep
    split at hstep
    · obtain rfl := congrArg Prod.fst (Option.some.inj hstep)
      exact logged_claimStep H E input worker.runId h
    · cases hstep
  | clientCall _ outcome =>
    simp only [workerStep] at hstep
    split at hstep <;> cases hstep <;> exact h
  | complete _ input =>
    simp only [workerStep] at hstep
    split at hstep
    · obtain rfl := congrArg Prod.fst (Option.some.inj hstep)
      unfold completeStep
      split
      · rename_i hcomplete
        exact h.complete hsound hcomplete
      · exact h
    · cases hstep
  | clientCancel _ ok =>
    simp only [workerStep] at hstep
    split at hstep <;> cases hstep
    exact h
  | finish _ input =>
    simp only [workerStep] at hstep
    split at hstep <;> cases hstep
    exact logged_commit h fun _ _ hfinish => h.finish hfinish
  | _ => cases hstep

/-- **Every step of the service keeps the logs fitting.** -/
theorem logged_step (H : Hash D) (E : Engine D) (s : State D) (a : Action D) (h : s.db.Logged)
    (hsound : s.db.laneView.Sound) : (step H E s a).db.Logged := by
  unfold step
  split
  · split <;> exact h
  · exact h
  · split
    · exact logged_serviceStep H E h a
    · split
      · exact h
      · split
        · exact h
        · rename_i hstep
          exact logged_workerStep h hsound hstep

/-- **The log of every run is free of gaps in every reachable state**, whatever the order of admissions, worker
steps, duplicate deliveries, client outcomes, failed dispatches, cancellations and errors. -/
theorem gapFree_of_run (H : Hash D) (E : Engine D) (world : World D) (as : List (Action D)) :
    (Transition.run (step H E) (start world) as).db.GapFree := by
  refine (Transition.run_induction (P := fun s : State D => s.db.laneView.Sound ∧ s.db.Logged) (fun s a h => ?_)
    ⟨sound_start world, logged_start world⟩ as).2.gapFree
  exact ⟨(h.1.chain (step_refines H E s a h.1)).1, logged_step H E s a h.2 h.1⟩

end Agents

end Operations

end CivicLoop
