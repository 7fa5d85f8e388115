import CivicLoop.Agents.Frames
import CivicLoop.Agents.LaneInvariant
import CivicLoop.Agents.Sample

/-!
# Start receipts

A start is identified by its idempotency key. The first start that is admitted writes a receipt with
the run, in the transaction that creates the run and its reservation. Every later start with the key
is answered from the receipt, before any admission check: the same run for the same request of an
active operator, a conflict for another request, a denial for a caller that is not an active
operator.

## Main definitions

* `Db.Caller` : the active operator behind a request.
* `Agents.createdRuns` : the runs that the starts with a key create along a run of the service.

## Main results

* `Db.startHermesRun_replay`, `Db.startHermesRun_denied` : the answer to a replay.
* `Db.startHermesRun_new` : what a first start writes.
* `Agents.start_idempotent` : the whole of it, for every reachable state.

## References

Source: `backend/agents/tasks.py`, lines 68–119; `backend/agents/models.py`, lines 586–603.
-/

namespace CivicLoop

variable {D : Type} [DecidableEq D]

/-- The request is well formed and comes from the active operator with the user `owner`. -/
def Db.Caller (db : Db D) (q : StartRequest D) (owner : ℕ) : Prop :=
  1 ≤ q.revisionId ∧ ∃ actor, db.world.actors.get? q.actorSlug = some actor ∧
    db.world.operator actor = true ∧ actor.user = some owner

/-- The receipt is the one of the request. -/
def HermesStartReceipt.Of (r : HermesStartReceipt D) (q : StartRequest D) (owner : ℕ) : Prop :=
  r.owner = owner ∧ r.actor = q.actorSlug ∧ r.workflow = q.workflowId ∧ r.revision = q.revisionId

instance (r : HermesStartReceipt D) (q : StartRequest D) (owner : ℕ) : Decidable (r.Of q owner) := by
  unfold HermesStartReceipt.Of
  infer_instance

namespace Db

/-- The start of an active operator is decided by the receipt of its key, if there is one. -/
theorem startHermesRun_of_caller {H : Hash D} {E : Engine D} {input : QueueInput}
    {q : StartRequest D} {owner : ℕ} {db : Db D} (hcaller : db.Caller q owner) :
    db.startHermesRun H E input q =
      match db.receipts.get? q.idempotencyKey with
      | some receipt => do
        ensure (receipt.Of q owner) .startConflict
        return (receipt.run, db)
      | none => do
        let (runId, db) ← db.queueHermesRun H E input q.workflowId q.revisionId q.actorSlug
          q.ownerSessionId
        let receipts ← fetch (db.receipts.insert? q.idempotencyKey
          ⟨owner, q.actorSlug, q.workflowId, q.revisionId, runId⟩) .admissionDenied
        return (runId, { db with receipts }) := by
  obtain ⟨hrevision, actor, hactor, hoperator, howner⟩ := hcaller
  unfold startHermesRun
  rw [ensure_bind (by omega), fetch_bind hactor, ensure_bind hoperator, fetch_bind howner]
  rfl

/-- A replay by an active operator. -/
theorem startHermesRun_replay {H : Hash D} {E : Engine D} {input : QueueInput}
    {q : StartRequest D} {owner : ℕ} {r : HermesStartReceipt D} {db : Db D}
    (hcaller : db.Caller q owner) (hr : db.receipts.get? q.idempotencyKey = some r) :
    db.startHermesRun H E input q =
      if r.Of q owner then .ok (r.run, db) else .error .startConflict := by
  rw [startHermesRun_of_caller hcaller, hr]
  simp only
  split_ifs with h
  · rw [ensure_bind h]
    rfl
  · rw [ensure_bind_of_not h]

/-- A start by anyone else. -/
theorem startHermesRun_denied {H : Hash D} {E : Engine D} {input : QueueInput}
    {q : StartRequest D} {db : Db D} (h : ∀ owner, ¬db.Caller q owner) :
    db.startHermesRun H E input q = .error .admissionDenied := by
  unfold startHermesRun
  by_cases hrevision : q.revisionId < 1
  · rw [ensure_bind_of_not (by simpa using hrevision)]
  rw [ensure_bind hrevision]
  cases hactor : db.world.actors.get? q.actorSlug with
  | none => rfl
  | some actor =>
    rw [fetch_bind rfl]
    by_cases hoperator : db.world.operator actor = true
    · rw [ensure_bind hoperator]
      cases howner : actor.user with
      | none => rfl
      | some owner => exact absurd ⟨by omega, actor, hactor, hoperator, howner⟩ (h owner)
    · rw [ensure_bind_of_not hoperator]

/-- What a first start writes: one run, its reservation and the receipt. -/
theorem startHermesRun_new {H : Hash D} {E : Engine D} {input : QueueInput} {q : StartRequest D}
    {id : Uuid} {db db' : Db D} (h : db.startHermesRun H E input q = .ok (id, db'))
    (hnone : db.receipts.get? q.idempotencyKey = none) :
    (∃ owner, db.Caller q owner ∧ db'.receipts.get? q.idempotencyKey =
        some ⟨owner, q.actorSlug, q.workflowId, q.revisionId, id⟩) ∧
      (∀ key, key ≠ q.idempotencyKey → db'.receipts.get? key = db.receipts.get? key) ∧
      (∃ run : AgentRun D, db.runs.insert? id run = some db'.runs) ∧
      db'.statusOf id = some .queued := by
  have hcaller : ∃ owner, db.Caller q owner := by
    by_contra hno
    rw [startHermesRun_denied (not_exists.1 hno)] at h
    cases h
  obtain ⟨owner, hcaller⟩ := hcaller
  rw [startHermesRun_of_caller hcaller, hnone] at h
  simp only [bind_eq_ok, fetch_eq_ok, pure_eq_ok, Prod.mk.injEq, Prod.exists] at h
  obtain ⟨runId, db₁, hqueue, receipts, hins, rfl, rfl⟩ := h
  have hreceipts := (keepsRequests_queueHermesRun hqueue).receipts
  have hget := Table.get?_of_insert? hins
  obtain ⟨-, -, request, reservation, run, binding, control, budget, runs, bindings, controls,
    events, audits, -, -, hlane, hstatus, -, -, hruns, -, -, -, -, -, -, rfl⟩ :=
    queueHermesRun_eq_ok hqueue
  refine ⟨⟨owner, hcaller, by rw [hget, if_pos rfl]⟩, fun key hkey => ?_, ⟨run, hruns⟩, ?_⟩
  · rw [hget, if_neg hkey, hreceipts]
  · simp [statusOf, Table.get?_of_insert? hruns, hlane, hstatus]

end Db

namespace Agents

/-- The runs that an action creates. -/
def newRuns (H : Hash D) (E : Engine D) (s : State D) (a : Action D) : List Uuid :=
  ((step H E s a).db.runs.rows.map Prod.fst).filter fun id => (s.db.runs.get? id).isNone

/-- Whether an action is a start with the key `key`. -/
def Action.startsWith (key : Uuid) : Action D → Bool
  | .start _ q => q.idempotencyKey == key
  | _ => false

omit [DecidableEq D] in
theorem Action.startsWith_iff {key : Uuid} {a : Action D} :
    a.startsWith key = true ↔ ∃ input q, a = .start input q ∧ q.idempotencyKey = key := by
  cases a <;> simp [startsWith]

/-- The runs that an action creates if it is a start with the key `key`. -/
def startedRuns (H : Hash D) (E : Engine D) (key : Uuid) (s : State D) (a : Action D) : List Uuid :=
  if a.startsWith key then newRuns H E s a else []

/-- The runs that the starts with the key `key` create along a run of the service. -/
def createdRuns (H : Hash D) (E : Engine D) (key : Uuid) : State D → List (Action D) → List Uuid :=
  Transition.outputs (step H E) (startedRuns H E key)

theorem step_start (H : Hash D) (E : Engine D) (s : State D) (input : QueueInput)
    (q : StartRequest D) :
    step H E s (.start input q) = { s with db := commit s.db (s.db.startHermesRun H E input q) } :=
  rfl

/-- A start with a key that has a receipt changes nothing. -/
theorem step_start_of_receipt {H : Hash D} {E : Engine D} {s : State D} {input : QueueInput}
    {q : StartRequest D} {r : HermesStartReceipt D}
    (hr : s.db.receipts.get? q.idempotencyKey = some r) : step H E s (.start input q) = s := by
  have hcommit : commit s.db (s.db.startHermesRun H E input q) = s.db := by
    by_cases hcaller : ∃ owner, s.db.Caller q owner
    · obtain ⟨owner, hcaller⟩ := hcaller
      rw [Db.startHermesRun_replay hcaller hr]
      split_ifs <;> rfl
    · rw [Db.startHermesRun_denied (not_exists.1 hcaller)]
      rfl
  rw [step_start, hcommit]

/-- A receipt is never changed or removed. -/
theorem step_receipt {H : Hash D} {E : Engine D} {s : State D} {a : Action D} {key : Uuid}
    {r : HermesStartReceipt D} (hr : s.db.receipts.get? key = some r) :
    (step H E s a).db.receipts.get? key = some r := by
  rcases a.start_or_tool_or_other with ⟨input, q, rfl⟩ | ⟨call, rfl⟩ | ⟨hstart, htool⟩
  · cases hq : s.db.receipts.get? q.idempotencyKey with
    | some r' => rw [step_start_of_receipt hq, hr]
    | none =>
      rw [step_start]
      refine commit_induction (P := fun db : Db D => db.receipts.get? key = some r) hr
        fun id db' h => ?_
      have hne : key ≠ q.idempotencyKey := fun e => by simp [e, hq] at hr
      rw [(Db.startHermesRun_new h hq).2.1 key hne, hr]
  · change (s.db.dispatchMcpTool H call).2.receipts.get? key = some r
    rw [(Db.sameLane_dispatchMcpTool H call s.db).receipts, hr]
  · rw [(step_keepsRequests H E s hstart htool).receipts, hr]

theorem run_receipt {H : Hash D} {E : Engine D} {s : State D} {key : Uuid}
    {r : HermesStartReceipt D} (hr : s.db.receipts.get? key = some r) (as : List (Action D)) :
    (Transition.run (step H E) s as).db.receipts.get? key = some r :=
  Transition.run_induction (P := fun s : State D => s.db.receipts.get? key = some r)
    (fun _ _ h => step_receipt h) hr as

theorem newRuns_of_eq {H : Hash D} {E : Engine D} {s : State D} {a : Action D}
    (h : step H E s a = s) : newRuns H E s a = [] := by
  rw [newRuns, h]
  refine List.filter_eq_nil_iff.2 fun id hid => ?_
  rw [Option.isNone_iff_eq_none, Table.get?_eq_none_iff]
  exact fun hn => hn hid

/-- A start that is admitted creates exactly the run of its receipt. -/
theorem newRuns_start {H : Hash D} {E : Engine D} {s : State D} {input : QueueInput}
    {q : StartRequest D} {id : Uuid} {db' : Db D}
    (h : s.db.startHermesRun H E input q = .ok (id, db'))
    (hnone : s.db.receipts.get? q.idempotencyKey = none) :
    newRuns H E s (.start input q) = [id] := by
  obtain ⟨-, -, ⟨run, hruns⟩, -⟩ := Db.startHermesRun_new h hnone
  obtain ⟨hid, hrows⟩ := Table.insert?_eq_some hruns
  rw [newRuns, step_start, h]
  simp only [commit_ok, hrows, List.map_append, List.filter_append]
  have hold : (s.db.runs.rows.map Prod.fst).filter (fun id => (s.db.runs.get? id).isNone) = [] := by
    refine List.filter_eq_nil_iff.2 fun k hk => ?_
    rw [Option.isNone_iff_eq_none, Table.get?_eq_none_iff]
    exact fun hn => hn hk
  rw [hold]
  simp [hid]

/-- Only an admitted start with the key writes its receipt. -/
theorem start_of_new_receipt {H : Hash D} {E : Engine D} {s : State D} {a : Action D} {key : Uuid}
    {r : HermesStartReceipt D} (hnone : s.db.receipts.get? key = none)
    (hr : (step H E s a).db.receipts.get? key = some r) :
    ∃ input q id db', a = .start input q ∧ q.idempotencyKey = key ∧
      s.db.startHermesRun H E input q = .ok (id, db') ∧ r.run = id := by
  rcases a.start_or_tool_or_other with ⟨input, q, rfl⟩ | ⟨call, rfl⟩ | ⟨hstart, htool⟩
  · rw [step_start] at hr
    cases hok : s.db.startHermesRun H E input q with
    | error e => simp [hok, hnone] at hr
    | ok res =>
      obtain ⟨id, db'⟩ := res
      rw [hok, commit_ok] at hr
      cases hq : s.db.receipts.get? q.idempotencyKey with
      | some r' =>
        have hstay : step H E s (.start input q) = s := step_start_of_receipt hq
        rw [step_start, hok, commit_ok] at hstay
        have hdb : db' = s.db := congrArg State.db hstay
        simp [hdb, hnone] at hr
      | none =>
        obtain ⟨⟨owner, -, hreceipt⟩, hother, -⟩ := Db.startHermesRun_new hok hq
        by_cases hkey : key = q.idempotencyKey
        · subst hkey
          refine ⟨input, q, id, db', rfl, rfl, hok, ?_⟩
          rw [Option.some.inj (hr.symm.trans hreceipt)]
        · rw [hother key hkey, hnone] at hr
          cases hr
  · change (s.db.dispatchMcpTool H call).2.receipts.get? key = some r at hr
    rw [(Db.sameLane_dispatchMcpTool H call s.db).receipts, hnone] at hr
    cases hr
  · rw [(step_keepsRequests H E s hstart htool).receipts, hnone] at hr
    cases hr

theorem step_start_of_no_receipt {H : Hash D} {E : Engine D} {s : State D} {input : QueueInput}
    {q : StartRequest D} (hnone : s.db.receipts.get? q.idempotencyKey = none)
    (hr : (step H E s (.start input q)).db.receipts.get? q.idempotencyKey = none) :
    step H E s (.start input q) = s := by
  cases hok : s.db.startHermesRun H E input q with
  | error e => rw [step_start, hok, commit_error]
  | ok res =>
    obtain ⟨⟨owner, -, hreceipt⟩, -⟩ := Db.startHermesRun_new hok hnone
    rw [step_start, hok, commit_ok, hreceipt] at hr
    cases hr

/-- An action creates a run with the key exactly if it writes the receipt of the key. -/
theorem startedRuns_eq (H : Hash D) (E : Engine D) (key : Uuid) (s : State D) (a : Action D) :
    (s.db.receipts.get? key).toList.map (·.run) ++ startedRuns H E key s a =
      ((step H E s a).db.receipts.get? key).toList.map (·.run) := by
  cases hr : s.db.receipts.get? key with
  | some r =>
    have hnone : startedRuns H E key s a = [] := by
      unfold startedRuns
      split_ifs with hstart
      · obtain ⟨input, q, rfl, rfl⟩ := Action.startsWith_iff.1 hstart
        exact newRuns_of_eq (step_start_of_receipt hr)
      · rfl
    rw [hnone, step_receipt hr, List.append_nil]
  | none =>
    cases hr' : (step H E s a).db.receipts.get? key with
    | none =>
      unfold startedRuns
      split_ifs with hstart
      · obtain ⟨input, q, rfl, rfl⟩ := Action.startsWith_iff.1 hstart
        rw [newRuns_of_eq (step_start_of_no_receipt hr hr')]
        rfl
      · rfl
    | some r =>
      obtain ⟨input, q, id, db', rfl, rfl, hok, hrun⟩ := start_of_new_receipt hr hr'
      rw [startedRuns, if_pos (Action.startsWith_iff.2 ⟨input, q, rfl, rfl⟩), newRuns_start hok hr,
        ← hrun]
      rfl

/-- The starts with a key create the run of its receipt. -/
theorem createdRuns_eq (H : Hash D) (E : Engine D) (key : Uuid) (world : World D)
    (as : List (Action D)) :
    createdRuns H E key (start world) as =
      ((Transition.run (step H E) (start world) as).db.receipts.get? key).toList.map (·.run) := by
  have hstart : [] = ((start world).db.receipts.get? key).toList.map (·.run) := rfl
  refine Transition.outputs_induction
    (P := fun (s : State D) log => log = (s.db.receipts.get? key).toList.map (·.run))
    (fun s a log h => ?_) hstart as
  rw [h, startedRuns_eq]

/-! ### The guarantee -/

/-- How the service in the state `s` answers the starts with the key `key`, now and after any further
steps. -/
structure StartsOnce (H : Hash D) (E : Engine D) (key : Uuid) (s : State D) : Prop where
  /-- The receipt stays. -/
  kept : ∀ r, s.db.receipts.get? key = some r → ∀ as,
    (Transition.run (step H E) s as).db.receipts.get? key = some r
  /-- An active operator gets the run of the receipt for the request of the receipt, and a conflict
  for any other, whatever has happened since. -/
  replay : ∀ r, s.db.receipts.get? key = some r → ∀ as input q owner, q.idempotencyKey = key →
    (Transition.run (step H E) s as).db.Caller q owner →
      (Transition.run (step H E) s as).db.startHermesRun H E input q =
        if r.Of q owner then .ok (r.run, (Transition.run (step H E) s as).db)
        else .error .startConflict
  /-- A replay changes nothing. -/
  unchanged : ∀ r, s.db.receipts.get? key = some r → ∀ as input q, q.idempotencyKey = key →
    step H E (Transition.run (step H E) s as) (.start input q) = Transition.run (step H E) s as
  /-- Nobody else starts or gets anything. -/
  denied : ∀ input q, (∀ owner, ¬s.db.Caller q owner) →
    s.db.startHermesRun H E input q = .error .admissionDenied
  /-- The first start of the key, if it is admitted, leaves a queued run that is new, its reservation
  and the receipt. -/
  admitted : s.db.receipts.get? key = none → ∀ input q id db', q.idempotencyKey = key →
    s.db.startHermesRun H E input q = .ok (id, db') →
      (∃ owner, s.db.Caller q owner ∧
        db'.receipts.get? key = some ⟨owner, q.actorSlug, q.workflowId, q.revisionId, id⟩) ∧
      s.db.runs.get? id = none ∧ db'.statusOf id = some .queued ∧
      db'.budget.statusOf id = some .reserved
  /-- A start that raises leaves no receipt, reservation or run. -/
  failed : ∀ input q e, s.db.startHermesRun H E input q = .error e → step H E s (.start input q) = s

/-- **A start happens once.** In every reachable state the starts with a key have created the run of
its receipt, and none if there is no receipt; and from there on the key keeps its receipt, is answered
from it, and is admitted only if there is none. -/
theorem start_idempotent (H : Hash D) (E : Engine D) (world : World D) (as : List (Action D))
    (key : Uuid) :
    createdRuns H E key (start world) as =
        ((Transition.run (step H E) (start world) as).db.receipts.get? key).toList.map (·.run) ∧
      StartsOnce H E key (Transition.run (step H E) (start world) as) := by
  refine ⟨createdRuns_eq H E key world as, ?_⟩
  have hsound := sound_of_run H E world as
  generalize Transition.run (step H E) (start world) as = s at hsound ⊢
  refine ⟨fun r hr as => run_receipt hr as, fun r hr as input q owner hkey hcaller => ?_,
    fun r hr as input q hkey => ?_, fun input q h => Db.startHermesRun_denied h,
    fun hnone input q id db' hkey hok => ?_, fun input q e h => ?_⟩
  · exact Db.startHermesRun_replay hcaller (hkey ▸ run_receipt hr as)
  · exact step_start_of_receipt (hkey ▸ run_receipt hr as)
  · subst hkey
    obtain ⟨hreceipt, -, ⟨run, hruns⟩, hstatus⟩ := Db.startHermesRun_new hok hnone
    have hsound' := (hsound.chain (Db.refines_startHermesRun hsound hok)).1
    exact ⟨hreceipt, (Table.insert?_eq_some hruns).1, hstatus, hsound'.reserved id (.inl hstatus)⟩
  · rw [step_start, h, commit_error]

/-- The replay of a start by its owner and actor, for its workflow and revision, is denied once the
user of the actor is not active. -/
theorem replay_by_inactive_operator_denied :
    ¬∀ (as : List (Action FreeDigest)) (input : QueueInput) (q : StartRequest FreeDigest)
      (r : HermesStartReceipt FreeDigest),
      (Transition.run Sample.step Sample.initial as).db.receipts.get? q.idempotencyKey = some r →
        r.Of q 1 →
          (Transition.run Sample.step Sample.initial as).db.startHermesRun freeHash Sample.engine
            input q = .ok (r.run, (Transition.run Sample.step Sample.initial as).db) := by
  intro h
  let as : List (Action FreeDigest) := [Sample.start 1 5, .changeWorld (Sample.worldWith false)]
  have hreceipt : (Transition.run Sample.step Sample.initial as).db.receipts.get? 1 =
      some ⟨1, Sample.maya, 1, 1, 11⟩ := by decide +kernel
  have hcaller : ∀ owner,
      ¬(Transition.run Sample.step Sample.initial as).db.Caller (Sample.request 1) owner := by
    rintro owner ⟨-, actor, hactor, hoperator, -⟩
    obtain rfl : actor = ⟨.operator, some 1⟩ := Option.some.inj (hactor.symm.trans rfl)
    exact absurd hoperator (by decide)
  have hok := h as ⟨0, 5, false⟩ (Sample.request 1) _ hreceipt ⟨rfl, rfl, rfl, rfl⟩
  rw [Db.startHermesRun_denied hcaller] at hok
  cases hok

end Agents

end CivicLoop
