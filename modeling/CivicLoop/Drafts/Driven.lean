import CivicLoop.Drafts.AtMostOnce
import CivicLoop.Drafts.Receipts

/-!
# The draft service with its adapters

The service calls an adapter, and the adapter talks to a provider. In the composed system the outcome of an adapter call
is not chosen by the environment any more: it is what the program of the request makes of the answers of the provider,
which may be anything. A process may die within an adapter call, after any number of exchanges.

Every receipt that the service stores comes from an exchange with the provider, and so does every status that it shows:
the composed system keeps track of the dispatches, and an invariant links the rows and the calls to them.

## Main definitions

* `Dispatch`, `Driven`, `drivenStep` : the composed system.
* `Call.Checked` : what a call knows of its row.
* `Execution.Backed`, `CallPhase.Backed` : what a row and a call owe to the dispatches.
* `Backed` : the invariant of the service against the dispatches.

## Main results

* `step_backed` : the invariant is kept by a step whose adapter call, if it is one, is a dispatch.

## References

Source: `backend/integrations/draft_operations.py`, lines 301–452 and 600–717.
-/

namespace CivicLoop.Drafts

variable {D : Type} [DecidableEq D]

/-! ### The composed system -/

/-- What the environment chooses for an adapter call: the credential in the lease, what the provider answers, and after
how many exchanges the process dies, if it does. -/
structure Surroundings (D : Type) where
  credential : Credential
  party : Party (HttpRequest D) (Answer D)
  dies : Option ℕ

/-- A call of an adapter for a row: its request, what it has returned or raised unless the process has died in it, and the
exchanges with the provider. -/
structure Dispatch (D : Type) where
  ref : ExecutionRef
  request : ProviderRequest D
  result : Option (Except Raise (DraftReceipt D))
  exchanges : AdapterLog D

/-- The service, and the dispatches so far. -/
structure Driven (D : Type) where
  service : State D
  dispatches : List (Dispatch D)

/-- A new installation. -/
def Driven.start (world : World D) (platform : Platform D) : Driven D := ⟨Drafts.start world platform, []⟩

/-- What the service sees of the end of a program. -/
def outcomeOf : Except Raise (DraftReceipt D) → AdapterOutcome D
  | .ok receipt => .returns (some receipt)
  | .error e => .raises e

/-- The run of the program of a call. -/
def ran (E : AdapterEnv D) (call : Call D) (op : Operation D) (p : Surroundings D) :
    Except Raise (DraftReceipt D) × AdapterLog D :=
  (requestOf call op).program E p.credential p.party []

/-- The dispatch of a call. -/
def dispatchOf (E : AdapterEnv D) (call : Call D) (op : Operation D) (p : Surroundings D) : Dispatch D where
  ref := call.ref
  request := requestOf call op
  result := if p.dies.isSome then none else some (ran E call op p).1
  exchanges := p.dies.elim (ran E call op p).2 (ran E call op p).2.take

/-- The dispatch of a step: there is one if a call is at its adapter call. -/
def dispatch (E : AdapterEnv D) (s : State D) (a : Action D) (p : Surroundings D) : Option (Dispatch D) :=
  match a with
  | .advance id _ =>
    match s.calls.get? id with
    | some call =>
      match call.phase with
      | .calling op => some (dispatchOf E call op p)
      | _ => none
    | none => none
  | _ => none

/-- The step of the service with a dispatch: the outcome of the adapter call is the one of the program, and the call of a
process that has died ends. -/
def answered (a : Action D) (d : Dispatch D) : Action D :=
  match a, d.result with
  | .advance id input, some r => .advance id { input with outcome := outcomeOf r }
  | .advance id _, none => .crash id
  | a, _ => a

/-- The transition function of the composed system. -/
def drivenStep (G : Engine D) (E : AdapterEnv D) (s : Driven D) (a : Action D × Surroundings D) : Driven D :=
  match dispatch E s.service a.1 a.2 with
  | some d => ⟨step E.H G E.zones s.service (answered a.1 d), s.dispatches ++ [d]⟩
  | none => ⟨step E.H G E.zones s.service a.1, s.dispatches⟩

/-! ### Dispatches -/

/-- The POSTs of a dispatch: at most one of a write and none of a reconciliation, and refused after an error of the
adapter. -/
structure Dispatch.Bounded (d : Dispatch D) : Prop where
  posts : d.exchanges.posts.length ≤ if d.request.isWrite then 1 else 0
  refused : ∀ category, d.result = some (.error (some category)) →
    ∀ exchange ∈ d.exchanges.posts, exchange.2.rejects = true

theorem dispatchOf_bounded (E : AdapterEnv D) (call : Call D) (op : Operation D) (p : Surroundings D) :
    (dispatchOf E call op p).Bounded := by
  have hbounded : (requestOf call op).Bounded (ran E call op p).1 (ran E call op p).2 :=
    (ProviderRequest.program_bounded E p.credential (requestOf call op)).holds p.party
  unfold dispatchOf
  cases p.dies with
  | none => exact ⟨hbounded.posts, fun category hr => hbounded.refused category (Option.some.inj hr)⟩
  | some n =>
    have hsub : (AdapterLog.posts ((ran E call op p).2.take n)).Sublist (ran E call op p).2.posts :=
      (List.take_sublist n _).filter _
    exact ⟨hsub.length_le.trans hbounded.posts, fun category hr => nomatch hr⟩

/-- The dispatch of a step is the one of a call. -/
theorem dispatch_eq_some {E : AdapterEnv D} {s : State D} {a : Action D} {p : Surroundings D} {d : Dispatch D}
    (h : dispatch E s a p = some d) : ∃ id input call op, a = .advance id input ∧ s.calls.get? id = some call ∧
      call.phase = .calling op ∧ d = dispatchOf E call op p := by
  unfold dispatch at h
  split at h
  · rename_i id input
    split at h
    · rename_i call hcall
      split at h
      · rename_i op hphase
        exact ⟨id, input, call, op, rfl, hcall, hphase, (Option.some.inj h).symm⟩
      · cases h
    · cases h
  · cases h

/-- A step without a dispatch is not one of an adapter call. -/
theorem dispatch_eq_none {E : AdapterEnv D} {s : State D} {a : Action D} {p : Surroundings D}
    (h : dispatch E s a p = none) {id : ℕ} {input : CallInput D} (ha : a = .advance id input) {call : Call D}
    (hcall : s.calls.get? id = some call) (op : Operation D) : call.phase ≠ .calling op := by
  intro hphase
  subst ha
  simp only [dispatch, hcall, hphase] at h
  cases h

/-! ### What a call knows of its row -/

/-- An update names no draft but its event. -/
def Execution.Named (row : Execution D) : Prop :=
  row.action = .update → isEmpty row.providerId ∨ row.providerId = row.eventId

/-- Behind the claim a call runs the code of the provider of its operation on a row with the digest of its request, and
a row that may be written has no draft yet, unless it is an update. -/
structure Call.Checked (E : AdapterEnv D) (call : Call D) (op : Operation D) : Prop where
  path : call.path = pathOf call.ref.1 op.intent.operation.provider
  digested : op.row.Digested E.H E.zones op.intent.operation.provider call.ref.1
  fresh : call.reconcile = false → isEmpty op.row.providerId ∨ call.path = .eventbrite ∧ op.row.action = .update
  named : call.ref.1 = .draft → op.row.Named

theorem Call.Checked.at {E : AdapterEnv D} {call : Call D} {op : Operation D} (h : call.Checked E op)
    (phase : CallPhase D) : ({ call with phase } : Call D).Checked E op := ⟨h.path, h.digested, h.fresh, h.named⟩

/-- **Every receipt of a dispatch is acceptable.** -/
theorem dispatchOf_acceptable {E : AdapterEnv D} {call : Call D} {op : Operation D} (h : call.Checked E op)
    {p : Surroundings D} {receipt : DraftReceipt D} (hr : (dispatchOf E call op p).result = some (.ok receipt)) :
    Acceptable E call.path call.ref.1 op.row receipt (dispatchOf E call op p).exchanges := by
  have hnamed : call.path = .eventbrite → op.row.Named := fun hpath => h.named (by
    cases hmodel : call.ref.1 with
    | draft => rfl
    | template =>
      have hiterable := h.path
      rw [hpath, hmodel] at hiterable
      cases hiterable)
  have hprogram := acceptable_of_program E p.credential h.path h.digested h.fresh hnamed
  cases hdies : p.dies with
  | none =>
    simp only [dispatchOf, hdies] at hr ⊢
    exact hprogram.holds p.party receipt (Option.some.inj hr)
  | some n =>
    simp only [dispatchOf, hdies] at hr
    cases hr

/-! ### What rows and calls owe to the dispatches -/

/-- The provider whose code is run for a row. -/
def RowPath (s : State D) (ref : ExecutionRef) (row : Execution D) (path : DraftProvider) : Prop :=
  match ref.1 with
  | .template => path = .iterable
  | .draft => ∃ operation, s.agents.db.operations.get? row.intent = some operation ∧ path = operation.provider

/-- The dispatch has given the receipt of the row, with a draft that its last exchanges show. -/
def Dispatch.Shows (E : AdapterEnv D) (s : State D) (ref : ExecutionRef) (row : Execution D) (d : Dispatch D) : Prop :=
  d.ref = ref ∧ ∃ receipt path, d.result = some (.ok receipt) ∧ row.receipt = some receipt.asDict ∧
    given receipt.providerId = some row.providerId ∧ RowPath s ref row path ∧
    Shown E path ref.1 row receipt d.exchanges

/-- The dispatch is a write of the row, and has raised an error of its adapter. -/
def Dispatch.Fails (ref : ExecutionRef) (d : Dispatch D) : Prop :=
  d.ref = ref ∧ d.request.isWrite = true ∧ ∃ category, d.result = some (.error (some category))

/-- The dispatch has given a receipt to the call. -/
def Dispatch.Answers (E : AdapterEnv D) (call : Call D) (op : Operation D) (receipt : DraftReceipt D) (d : Dispatch D) :
    Prop :=
  d.ref = call.ref ∧ d.result = some (.ok receipt) ∧ Acceptable E call.path call.ref.1 op.row receipt d.exchanges

/-- What a row owes to the dispatches. -/
structure Execution.Backed (E : AdapterEnv D) (s : State D) (ds : List (Dispatch D)) (ref : ExecutionRef)
    (row : Execution D) : Prop where
  unclaimed : row.status = .pending ∨ row.status = .approved → isEmpty row.providerId
  named : ref.1 = .draft → row.Named
  succeeded : row.status = .succeeded → ∃ d ∈ ds, d.Shows E s ref row
  failed : row.status = .failed → ∃ d ∈ ds, d.Fails ref

/-- What a call owes to the dispatches: the receipt that it stores, and the definite failure that it handles. -/
def CallPhase.Backed (E : AdapterEnv D) (ds : List (Dispatch D)) (call : Call D) (op : Operation D) :
    CallPhase D → Prop
  | .storing _ receipt => ∃ r, receipt = some r ∧ ∃ d ∈ ds, d.Answers E call op r
  | .saving _ row => ∃ r now, row = receivedRow op.row r now ∧ ∃ d ∈ ds, d.Answers E call op r
  | .handling _ failure => failure.status = .failed → ∃ d ∈ ds, d.Fails call.ref
  | _ => True

/-- The invariant: what the rows and the calls of the service owe to the dispatches. -/
structure Backed (E : AdapterEnv D) (s : State D) (ds : List (Dispatch D)) : Prop where
  sound : Sound s
  path : ∀ id call, s.calls.get? id = some call → call.OnPath s
  rows : ∀ ref row, s.executions.get? ref = some row → row.Backed E s ds ref
  checked : ∀ id call op, s.calls.get? id = some call → call.phase.op? = some op → call.Checked E op
  calls : ∀ id call op, s.calls.get? id = some call → call.phase.op? = some op → call.phase.Backed E ds call op

theorem backed_start (E : AdapterEnv D) (world : World D) (platform : Platform D) :
    Backed E (start world platform) [] where
  sound := sound_start world platform
  path _ _ h := by cases h
  rows ref row h := by
    rw [start, Executions.get?_empty] at h
    cases h
  checked _ _ _ h := by cases h
  calls _ _ _ h := by cases h

theorem CallPhase.backed_of_dispatching {E : AdapterEnv D} {ds : List (Dispatch D)} {call : Call D} {op : Operation D}
    {phase : CallPhase D} (h : phase.dispatching = true) : phase.Backed E ds call op := by
  cases phase <;> first | trivial | cases h

/-- More dispatches back what fewer do. -/
theorem CallPhase.Backed.mono {E : AdapterEnv D} {ds ds' : List (Dispatch D)} {call : Call D} {op : Operation D}
    {phase : CallPhase D} (h : phase.Backed E ds call op) (hds : ds ⊆ ds') : phase.Backed E ds' call op := by
  cases phase with
  | storing _ receipt =>
    obtain ⟨r, hr, d, hd, hanswers⟩ := h
    exact ⟨r, hr, d, hds hd, hanswers⟩
  | saving _ row =>
    obtain ⟨r, now, hrow, d, hd, hanswers⟩ := h
    exact ⟨r, now, hrow, d, hds hd, hanswers⟩
  | handling _ failure =>
    intro hfailed
    obtain ⟨d, hd, hfails⟩ := h hfailed
    exact ⟨d, hds hd, hfails⟩
  | _ => trivial

section Steps

variable {G : Engine D} {E : AdapterEnv D} {s : State D} {ds ds' : List (Dispatch D)}

/-! ### Rows -/

/-- A step keeps what backs a row. -/
theorem Execution.Backed.step {ref : ExecutionRef} {row : Execution D} (h : row.Backed E s ds ref) (a : Action D)
    (hds : ds ⊆ ds') : row.Backed E (Drafts.step E.H G E.zones s a) ds' ref := by
  refine ⟨h.unclaimed, h.named, fun hstatus => ?_, fun hstatus => ?_⟩
  · obtain ⟨d, hd, href, receipt, path, hresult, hreceipt, hid, hpath, hshown⟩ := h.succeeded hstatus
    refine ⟨d, hds hd, href, receipt, path, hresult, hreceipt, hid, ?_, hshown⟩
    unfold RowPath at hpath ⊢
    split at hpath
    · exact hpath
    · obtain ⟨operation, hoperation, hprovider⟩ := hpath
      exact ⟨operation, step_operations a hoperation, hprovider⟩
  · obtain ⟨d, hd, hfails⟩ := h.failed hstatus
    exact ⟨d, hds hd, hfails⟩

omit [DecidableEq D] in
/-- What holds of all rows, after an update by a row of which it holds. -/
theorem rows_set {e : Executions D} {P : ExecutionRef → Execution D → Prop}
    (he : ∀ ref row, e.get? ref = some row → P ref row) {ref : ExecutionRef} {row : Execution D} (hrow : P ref row) :
    ∀ ref' row', (e.set ref row).get? ref' = some row' → P ref' row' := by
  intro ref' row' h
  rw [Executions.get?_set] at h
  split_ifs at h with href
  · obtain ⟨-, -, rfl⟩ := Option.map_eq_some_iff.1 h
    exact href ▸ hrow
  · exact he ref' row' h

theorem backed_pending (E : AdapterEnv D) (s : State D) (ds : List (Dispatch D)) (ref : ExecutionRef)
    (review : ReviewFields D) : review.pending.Backed E s ds ref :=
  ⟨fun _ => rfl, fun _ _ => .inl rfl, nofun, nofun⟩

theorem backed_approvedRow {ref : ExecutionRef} {row : Execution D} (h : row.Backed E s ds ref)
    (hstatus : row.status = .pending) (user : ℕ) (sessionId : Uuid) (now : Time) :
    (approvedRow row user sessionId now).Backed E s ds ref :=
  ⟨fun _ => h.unclaimed (.inl hstatus), h.named, nofun, nofun⟩

omit [DecidableEq D] in
/-- The row that a claim writes names no draft but the event of an update. -/
theorem named_claimedRow {row : Execution D} (hempty : isEmpty row.providerId) (path : DraftProvider) (now : Time) :
    (claimedRow path row now).Named := by
  intro haction
  by_cases hupdate : path = .eventbrite ∧ row.action = .update
  · exact .inr (if_pos hupdate)
  · exact .inl ((if_neg hupdate).trans hempty)

theorem backed_claimedRow {ref : ExecutionRef} {row : Execution D} (h : row.Backed E s ds ref)
    (hstatus : row.status = .approved) (path : DraftProvider) (now : Time) :
    (claimedRow path row now).Backed E s ds ref := by
  refine ⟨fun hclaimed => ?_, fun _ => named_claimedRow (h.unclaimed (.inr hstatus)) path now, nofun, nofun⟩
  rcases hclaimed with hclaimed | hclaimed <;> cases hclaimed

/-- A call behind its first step runs the code of the provider of its row. -/
theorem Call.OnPath.rowPath {call : Call D} (h : call.OnPath s) (hphase : call.phase ≠ .opening) {row : Execution D}
    (hrow : s.executions.get? call.ref = some row) : RowPath s call.ref row call.path := by
  unfold Call.OnPath at h
  unfold RowPath
  cases hmodel : call.ref.1 with
  | template =>
    rw [hmodel] at h
    exact h.2
  | draft =>
    rw [hmodel] at h
    obtain ⟨row', operation, hrow', hoperation, hpath⟩ := h.resolve_left hphase
    obtain rfl := Option.some.inj (hrow.symm.trans hrow')
    exact ⟨operation, hoperation, hpath⟩

/-- The row that a receipt of a dispatch writes. -/
theorem backed_receivedRow {call : Call D} {op : Operation D} (hchecked : call.Checked E op) {r : DraftReceipt D}
    {d : Dispatch D} (hd : d ∈ ds) (hanswers : d.Answers E call op r)
    (hpath : RowPath s call.ref op.row call.path) (now : Time) : (receivedRow op.row r now).Backed E s ds call.ref := by
  obtain ⟨href, hresult, hacceptable⟩ := hanswers
  refine ⟨fun hstatus => ?_, fun hdraft haction => ?_, fun hstatus => ?_, fun hstatus => ?_⟩
  · simp only [receivedRow] at hstatus
    split_ifs at hstatus <;> rcases hstatus with hstatus | hstatus <;> cases hstatus
  · cases hid : given r.providerId with
    | none =>
      have hsame : (receivedRow op.row r now).providerId = op.row.providerId := by
        rw [receivedRow, hid, Option.getD_none]
      rw [hsame]
      exact hchecked.named hdraft haction
    | some id =>
      have hsame : (receivedRow op.row r now).providerId = id := by rw [receivedRow, hid, Option.getD_some]
      rw [hsame]
      obtain hiterable | hcreate | hevent := hacceptable.event
      · -- A campaign is never updated.
        have hdigested := hchecked.digested
        have hprovider := hchecked.path
        rw [hiterable, hdraft] at hprovider
        rw [hdraft, ← (show DraftProvider.iterable = op.intent.operation.provider from hprovider)] at hdigested
        cases hdigested.1.symm.trans haction
      · cases hcreate.symm.trans haction
      · exact .inr (hevent id hid)
  · have hconfirmed : r.outcome = "CONFIRMED" := by
      simp only [receivedRow] at hstatus
      split_ifs at hstatus with h
      exact h
    obtain ⟨id, status, category, rfl⟩ | hshown := hacceptable.form
    · exact absurd hconfirmed (show "UNKNOWN" ≠ "CONFIRMED" by decide)
    · have hcomplete := hshown
      obtain ⟨before, after, -, hby⟩ := hcomplete
      obtain ⟨id, status, readback, hid, -, hr⟩ := hby.complete
      have hgiven : given r.providerId = some id := by
        rw [hr]
        exact if_neg hid
      refine ⟨d, hd, href, r, call.path, hresult, rfl, ?_, hpath, hshown.of_review rfl⟩
      rw [receivedRow, hgiven, Option.getD_some]
  · simp only [receivedRow] at hstatus
    split_ifs at hstatus

/-- The row that a handler writes. -/
theorem backed_failedRow {ref : ExecutionRef} {row : Execution D} (h : row.Backed E s ds ref) {failure : Failure}
    (hstatus : failure.status = .failed ∨ failure.status = .unknown)
    (hfails : failure.status = .failed → ∃ d ∈ ds, d.Fails ref) (now : Time) :
    (failedRow row failure now).Backed E s ds ref := by
  refine ⟨fun hclaimed => ?_, h.named, fun hsucceeded => ?_, hfails⟩
  · simp only [failedRow] at hclaimed
    rcases hstatus with hstatus | hstatus <;> rw [hstatus] at hclaimed <;>
      rcases hclaimed with hclaimed | hclaimed <;> cases hclaimed
  · simp only [failedRow] at hsucceeded
    rcases hstatus with hstatus | hstatus <;> rw [hstatus] at hsucceeded <;> cases hsucceeded

/-! ### Calls -/

/-- The next phase of a call behind its claim, and where it comes from. -/
inductive PhaseStep (s : State D) (call : Call D) (input : CallInput D) : CallPhase D → Prop
  | dispatching (phase : CallPhase D) (h : phase.dispatching = true) : PhaseStep s call input phase
  | returns (op : Operation D) (receipt : Option (DraftReceipt D)) (hcall : call.phase = .calling op)
      (houtcome : input.outcome = .returns receipt) : PhaseStep s call input (.storing op receipt)
  | raises (op : Operation D) (category : Option String) (hcall : call.phase = .calling op)
      (houtcome : input.outcome = .raises category) (hhandled : ¬(call.path = .eventbrite ∧ call.reconcile = true)) :
      PhaseStep s call input (.handling op (failureOf call.path category))
  | stores (op : Operation D) (receipt : Option (DraftReceipt D)) (row : Execution D)
      (hcall : call.phase = .storing op receipt)
      (hstore : storeReceipt input.now call.path op receipt s.executions = .ok row) :
      PhaseStep s call input (.saving op row)
  | unconfirmed (op : Operation D) : PhaseStep s call input (.handling op .unconfirmed)

omit [DecidableEq D] in
theorem raise_eq_some {call next : Call D} {op : Operation D} {failure : Failure}
    (h : call.raise op failure = some next) :
    next = { call with phase := .handling op failure } ∧ ¬(call.path = .eventbrite ∧ call.reconcile = true) := by
  unfold Call.raise at h
  split_ifs at h with hpath
  exact ⟨(Option.some.inj h).symm, hpath⟩

omit [DecidableEq D] in
theorem orHandle_eq_some {α : Type} {call next : Call D} {op : Operation D} {x : Except DraftError α}
    {f : α → Option (Call D)} (h : orHandle call op x f = some next) :
    (∃ a, x = .ok a ∧ f a = some next) ∨ next.phase = .handling op .unconfirmed := by
  cases x with
  | ok a => exact .inl ⟨a, rfl, h⟩
  | error e =>
    obtain ⟨rfl, -⟩ := raise_eq_some h
    exact .inr rfl

/-- **The next phase of a call behind its claim.** -/
theorem callStep_phase {H : Hash D} {zones : String → Bool} {call next : Call D} {input : CallInput D}
    (hnext : (callStep H zones s call input).2 = some next) {op : Operation D} (hop : next.phase.op? = some op) :
    PhaseStep s call input next.phase := by
  -- A phase in front of the claim has no row.
  have hearly : next.phase.op? = none → PhaseStep s call input next.phase := fun hnone => by
    rw [hop] at hnone
    cases hnone
  have hhandle : ∀ op', next.phase = .handling op' .unconfirmed → PhaseStep s call input next.phase := fun op' h =>
    h ▸ .unconfirmed op'
  cases hphase : call.phase with
  | opening =>
    simp only [callStep, hphase] at hnext
    obtain ⟨path, -, hnext⟩ := orEnd_eq_some hnext
    obtain rfl := Option.some.inj hnext
    exact hearly rfl
  | gating =>
    simp only [callStep, hphase] at hnext
    obtain ⟨-, -, hnext⟩ := orEnd_eq_some hnext
    obtain rfl := Option.some.inj hnext
    refine hearly ?_
    show CallPhase.op? (if _ then _ else _) = none
    split_ifs <;> rfl
  | referencing =>
    simp only [callStep, hphase] at hnext
    obtain ⟨-, -, hnext⟩ := orEnd_eq_some hnext
    obtain rfl := Option.some.inj hnext
    exact hearly rfl
  | claiming =>
    simp only [callStep, hphase, claimStep] at hnext
    split_ifs at hnext
    · obtain ⟨op', -, hnext⟩ := orEnd_eq_some hnext
      obtain rfl := Option.some.inj hnext
      exact .dispatching _ rfl
    · split at hnext
      · rename_i op' _ _
        obtain rfl := Option.some.inj hnext
        exact .dispatching _ (dispatching_claimedPhase call.path op')
      · cases hnext
  | connecting op' =>
    simp only [callStep, hphase] at hnext
    obtain ⟨-, -, hnext⟩ | h := orHandle_eq_some hnext
    · obtain rfl := Option.some.inj hnext
      exact .dispatching _ rfl
    · exact hhandle op' h
  | leasing op' =>
    simp only [callStep, hphase] at hnext
    split_ifs at hnext
    · obtain rfl := Option.some.inj hnext
      exact .dispatching _ rfl
    · obtain rfl := Option.some.inj hnext
      exact .dispatching _ rfl
    · obtain ⟨rfl, -⟩ := raise_eq_some hnext
      exact hhandle op' rfl
  | rechecking op' =>
    simp only [callStep, hphase] at hnext
    obtain ⟨-, -, hnext⟩ | h := orHandle_eq_some hnext
    · obtain rfl := Option.some.inj hnext
      exact .dispatching _ rfl
    · exact hhandle op' h
  | validating op' =>
    simp only [callStep, hphase] at hnext
    obtain ⟨-, -, hnext⟩ | h := orHandle_eq_some hnext
    · obtain rfl := Option.some.inj hnext
      exact .dispatching _ rfl
    · exact hhandle op' h
  | calling op' =>
    simp only [callStep, hphase] at hnext
    cases houtcome : input.outcome with
    | returns receipt =>
      rw [houtcome] at hnext
      obtain rfl := Option.some.inj hnext
      exact .returns op' receipt hphase houtcome
    | raises category =>
      rw [houtcome] at hnext
      obtain ⟨rfl, hhandled⟩ := raise_eq_some hnext
      exact .raises op' category hphase houtcome hhandled
  | storing op' receipt =>
    simp only [callStep, hphase] at hnext
    obtain ⟨row, hstore, hnext⟩ | h := orHandle_eq_some hnext
    · obtain rfl := Option.some.inj hnext
      exact .stores op' receipt row hphase hstore
    · exact hhandle op' h
  | saving op' row =>
    simp only [callStep, hphase, saveStep] at hnext
    split_ifs at hnext
    obtain ⟨rfl, -⟩ := raise_eq_some hnext
    exact hhandle op' rfl
  | handling op' failure =>
    simp only [callStep, hphase, handleStep] at hnext
    split at hnext
    · split_ifs at hnext
    · cases hnext

/-- A row that is read again has passed its checks. -/
theorem validate_of_reopen {H : Hash D} {zones : String → Bool} {input : TransactionInput} {path : DraftProvider}
    {user : RequestUser} {ref : ExecutionRef} {l : Ledger D} {op : Operation D}
    (h : reopen input H zones path user ref l = .ok op) :
    validateExecution H zones l.db l.executions input.now false op = .ok () := by
  simp only [reopen, bind_eq_ok] at h
  obtain ⟨op', -, ⟨⟩, hvalid, h⟩ := h
  cases path with
  | eventbrite =>
    simp only [bind_eq_ok, ensure_eq_ok, pure_eq_ok] at h
    obtain ⟨⟨⟩, -, ⟨⟩, -, rfl⟩ := h
    exact hvalid
  | iterable =>
    simp only [bind_eq_ok, ensure_eq_ok, pure_eq_ok] at h
    obtain ⟨⟨⟩, -, ⟨⟩, -, ⟨⟩, -, rfl⟩ := h
    exact hvalid

/-- A call on its path runs the code of the provider of the operation that it loads. -/
theorem Call.OnPath.provider {call : Call D} (h : call.OnPath s) (hphase : call.phase ≠ .opening) {op : Operation D}
    (hload : loadOperation s.agents.db s.executions call.ref = .ok op) :
    call.path = pathOf call.ref.1 op.intent.operation.provider := by
  obtain ⟨-, hrow, hintent, -⟩ := loadOperation_eq_ok hload
  obtain ⟨-, hoperation, -⟩ := loadIntent_eq_ok hintent
  have hpath := h.rowPath hphase hrow
  unfold RowPath at hpath
  cases hmodel : call.ref.1 with
  | template =>
    rw [hmodel] at hpath
    exact hpath
  | draft =>
    rw [hmodel] at hpath
    obtain ⟨operation, hoperation', hpath⟩ := hpath
    obtain rfl := Option.some.inj (hoperation.symm.trans hoperation')
    exact hpath

/-- After a step of a call, it knows its row. -/
theorem CallStep.checked {call next : Call D} {input : CallInput D} {e : Executions D} {call' : Option (Call D)}
    (h : CallStep E.H E.zones s call input e call') (hnext : call' = some next) (hpath : next.OnPath s)
    (hrows : ∀ ref row, s.executions.get? ref = some row → row.Backed E s ds ref)
    (hcall : ∀ op, call.phase.op? = some op → call.Checked E op) {op : Operation D}
    (hop : next.phase.op? = some op) : next.Checked E op := by
  have hopening : ∀ {phase : CallPhase D} {op' : Operation D}, phase.op? = some op' → phase ≠ .opening := by
    rintro _ op' hphase rfl
    cases hphase
  cases h with
  | ends | saves | handles => cases hnext
  | prepares path phase _ hphase =>
    obtain rfl := Option.some.inj hnext
    rw [hphase] at hop
    cases hop
  | claims claimed e phase hclaiming hexecute hclaim hphase _ =>
    obtain rfl := Option.some.inj hnext
    obtain rfl := Option.some.inj (hphase.symm.trans hop)
    obtain ⟨old, hload, hvalid, -, happroved, -, rfl, -⟩ := claim_eq_ok hclaim
    obtain ⟨href, hrow, -⟩ := loadOperation_eq_ok hload
    have hempty := (hrows _ _ hrow).unclaimed (.inr happroved)
    have hdigested := digested_of_validateExecution hvalid
    rw [href] at hdigested
    have hprovider : call.path = pathOf call.ref.1 old.intent.operation.provider :=
      hpath.provider (hopening hphase) hload
    refine ⟨hprovider, hdigested, fun _ => ?_, fun _ => named_claimedRow hempty _ _⟩
    by_cases hupdate : call.path = .eventbrite ∧ old.row.action = .update
    · exact .inr hupdate
    · exact .inl ((if_neg hupdate).trans hempty)
  | reopens reopened hreconcile hreopen =>
    obtain rfl := Option.some.inj hnext
    obtain rfl := Option.some.inj (show some reopened = some op from hop)
    obtain ⟨hload, -⟩ := reopen_eq_ok hreopen
    obtain ⟨href, hrow, -⟩ := loadOperation_eq_ok hload
    have hdigested := digested_of_validateExecution (validate_of_reopen hreopen)
    rw [href] at hdigested
    refine ⟨hpath.provider nofun hload, hdigested, fun hexecute => ?_, (hrows _ _ hrow).named⟩
    exact nomatch hreconcile.symm.trans hexecute
  | advances op' phase hphase _ hop' _ _ =>
    obtain rfl := Option.some.inj hnext
    obtain rfl := Option.some.inj (hop'.symm.trans hop)
    exact (hcall _ hphase).at phase
  | returns op' receipt hphase =>
    obtain rfl := Option.some.inj hnext
    obtain rfl := Option.some.inj (show some op' = some op from hop)
    exact (hcall _ (by rw [hphase]; rfl)).at _
  | fails op' failure hphase _ =>
    obtain rfl := Option.some.inj hnext
    obtain rfl := Option.some.inj (show some op' = some op from hop)
    exact (hcall _ hphase).at _
  | stores op' receipt row hphase _ =>
    obtain rfl := Option.some.inj hnext
    obtain rfl := Option.some.inj (show some op' = some op from hop)
    exact (hcall _ (by rw [hphase]; rfl)).at _

/-! ### The invariant is kept -/

/-- The adapter call of a step, if it is one, is a dispatch. -/
def Truthful (E : AdapterEnv D) (s : State D) (ds : List (Dispatch D)) (a : Action D) : Prop :=
  ∀ id input call op, a = .advance id input → s.calls.get? id = some call → call.phase = .calling op →
    ∃ d ∈ ds, ∃ r, input.outcome = outcomeOf r ∧ d.ref = call.ref ∧ d.request = requestOf call op ∧ d.result = some r ∧
      ∀ receipt, r = .ok receipt → Acceptable E call.path call.ref.1 op.row receipt d.exchanges

/-- After a step of a call, it owes nothing that the dispatches do not give. -/
theorem Backed.phase (h : Backed E s ds) (hds : ds ⊆ ds') {id : ℕ} {input : CallInput D} {call next : Call D}
    (hanswered : Truthful E s ds' (.advance id input)) (hcall : s.calls.get? id = some call)
    (hnext : (callStep E.H E.zones s call input).2 = some next) {op : Operation D}
    (hop : next.phase.op? = some op) : next.phase.Backed E ds' next op := by
  have hsame : next.ref = call.ref ∧ next.path = call.path ∨ next.phase.dispatching = true := by
    by_cases hopening : call.phase = .opening
    · simp only [callStep, hopening] at hnext
      obtain ⟨path, -, hnext⟩ := orEnd_eq_some hnext
      obtain rfl := Option.some.inj hnext
      cases hop
    · obtain ⟨href, hpath, -⟩ := callStep_path hopening hnext
      exact .inl ⟨href, hpath⟩
  have hstep := callStep_phase hnext hop
  generalize hphase : next.phase = phase at hstep hop hsame
  cases hstep with
  | dispatching _ hdispatching => exact CallPhase.backed_of_dispatching hdispatching
  | returns op' receipt hcalling houtcome =>
    obtain ⟨href, hpath⟩ := hsame.resolve_right Bool.false_ne_true
    obtain rfl : op' = op := Option.some.inj hop
    obtain ⟨d, hd, r, hr, hdref, -, hresult, hacceptable⟩ := hanswered id input call op' rfl hcall hcalling
    cases r with
    | error e =>
      rw [houtcome] at hr
      cases hr
    | ok receipt' =>
      rw [houtcome] at hr
      refine ⟨receipt', AdapterOutcome.returns.inj hr, d, hd, hdref.trans href.symm, hresult, ?_⟩
      rw [href, hpath]
      exact hacceptable receipt' rfl
  | raises op' category hcalling houtcome hhandled =>
    obtain ⟨href, hpath⟩ := hsame.resolve_right Bool.false_ne_true
    intro hfailed
    obtain ⟨d, hd, r, hr, hdref, hrequest, hresult, -⟩ := hanswered id input call op' rfl hcall hcalling
    -- Only a category of Eventbrite is definite, and a reconciliation there has no handler.
    have hdefinite : call.path = .eventbrite ∧ ∃ c, category = some c := by
      unfold failureOf at hfailed
      split at hfailed
      · rename_i c hpath
        exact ⟨hpath, c, rfl⟩
      · cases hfailed
    obtain ⟨heventbrite, c, rfl⟩ := hdefinite
    have hexecute : call.reconcile = false := Bool.eq_false_iff.2 fun hreconcile => hhandled ⟨heventbrite, hreconcile⟩
    refine ⟨d, hd, hdref.trans href.symm, ?_, c, ?_⟩
    · rw [hrequest, isWrite_requestOf, hexecute]
      rfl
    · cases r with
      | ok receipt =>
        rw [houtcome] at hr
        cases hr
      | error e =>
        rw [houtcome] at hr
        rw [hresult, ← AdapterOutcome.raises.inj hr]
  | stores op' receipt row hstoring hstore =>
    obtain ⟨href, hpath⟩ := hsame.resolve_right Bool.false_ne_true
    obtain rfl : op' = op := Option.some.inj hop
    obtain ⟨receipt', -, hreceipt, -, hrow, -⟩ := storeReceipt_eq_ok hstore
    have hbacked := h.calls id call op' hcall (by rw [hstoring]; rfl)
    rw [hstoring] at hbacked
    obtain ⟨r, hr, d, hd, hdref, hresult, hacceptable⟩ := hbacked
    obtain rfl : receipt' = r := Option.some.inj (hreceipt.symm.trans hr)
    refine ⟨receipt', input.now, hrow, d, hds hd, hdref.trans href.symm, hresult, ?_⟩
    rw [href, hpath]
    exact hacceptable
  | unconfirmed op' =>
    intro hfailed
    cases hfailed

/-- A step of a call keeps what backs the rows. -/
theorem Backed.callRows (h : Backed E s ds) {id : ℕ} {call : Call D} (hcall : s.calls.get? id = some call)
    {input : CallInput D} {e : Executions D} {call' : Option (Call D)}
    (hstep : CallStep E.H E.zones s call input e call') :
    ∀ ref row, e.get? ref = some row → row.Backed E s ds ref := by
  cases hstep with
  | claims op _ phase _ _ hclaim _ _ =>
    obtain ⟨old, hload, -, -, hstatus, -, -, rfl⟩ := claim_eq_ok hclaim
    obtain ⟨-, hrow, -⟩ := loadOperation_eq_ok hload
    exact rows_set h.rows (backed_claimedRow (h.rows _ _ hrow) hstatus _ _)
  | saves op row hphase =>
    have hop : call.phase.op? = some op := by rw [hphase]; rfl
    obtain ⟨href, ⟨stored, hstored, hagrees⟩, -, -⟩ := h.sound.holds id call op hcall hop
    have hbacked := h.calls id call op hcall hop
    rw [hphase] at hbacked
    obtain ⟨r, now, rfl, d, hd, hanswers⟩ := hbacked
    rw [href]
    refine rows_set h.rows (backed_receivedRow (h.checked id call op hcall hop) hd hanswers ?_ now)
    have hpath := (h.path id call hcall).rowPath (by rw [hphase]; exact nofun) hstored
    unfold RowPath at hpath ⊢
    rwa [show op.row.intent = stored.intent from congrArg ReviewFields.intent hagrees.review]
  | handles op failure row hphase hrow =>
    have hop : call.phase.op? = some op := by rw [hphase]; rfl
    obtain ⟨href, -, -, hwrites⟩ := h.sound.holds id call op hcall hop
    have hbacked := h.calls id call op hcall hop
    rw [hphase] at hbacked hwrites
    rw [href] at hrow ⊢
    exact rows_set h.rows (backed_failedRow (h.rows _ _ hrow) hwrites hbacked _)
  | ends | prepares | reopens | advances | returns | fails | stores => exact h.rows

/-- A step keeps what backs the rows. -/
theorem Backed.stepRows (h : Backed E s ds) (a : Action D) : ∀ ref row,
    (step E.H G E.zones s a).executions.get? ref = some row → row.Backed E s ds ref := by
  have hsubmits : ∀ {e}, Submits s.ledger.executions e → ∀ ref row, e.get? ref = some row → row.Backed E s ds ref := by
    rintro e (rfl | ⟨ref, review, he⟩) ref' row hrow
    · exact h.rows ref' row hrow
    · rw [Executions.get?_of_insert? he] at hrow
      split_ifs at hrow with href
      · obtain rfl := Option.some.inj hrow
        exact backed_pending E s ds ref' review
      · exact h.rows ref' row hrow
  cases a with
  | agents | changePlatform | crash => exact h.rows
  | call id user sessionId ref reconcile =>
    simp only [step]
    split <;> exact h.rows
  | submitDraft input user request =>
    simp only [step]
    exact commit_induction (P := fun e => ∀ ref row, e.get? ref = some row → row.Backed E s ds ref) h.rows
      fun _ _ hsubmit => hsubmits (submitDraft_submits hsubmit)
  | submitTemplate input user intentId runId sender region =>
    simp only [step]
    exact commit_induction (P := fun e => ∀ ref row, e.get? ref = some row → row.Backed E s ds ref) h.rows
      fun _ _ hsubmit => hsubmits (submitTemplate_submits hsubmit)
  | approve input user sessionId ref reviewDigest revisionId =>
    simp only [step]
    split
    · rename_i e happrove
      obtain ⟨op, hload, -, -, hstatus, -, -, rfl⟩ := approve_eq_ok happrove
      have hrow := h.rows _ _ (loadOperation_eq_ok hload).2.1
      exact rows_set h.rows (backed_approvedRow hrow hstatus _ _ _)
    · exact h.rows
  | advance id input =>
    simp only [step]
    split
    · rename_i call hcall
      exact h.callRows hcall callStep_spec
    · exact h.rows

/-- **The invariant is kept** by a step whose adapter call, if it is one, is a dispatch. -/
theorem step_backed (h : Backed E s ds) (hds : ds ⊆ ds') {a : Action D} (hanswered : Truthful E s ds' a) :
    Backed E (step E.H G E.zones s a) ds' := by
  have honPath : ∀ id call, (step E.H G E.zones s a).calls.get? id = some call →
      call.OnPath (step E.H G E.zones s a) := by
    intro id call hcall
    rcases step_calls E.H G E.zones hcall with ⟨hold, -⟩ | ⟨user, sessionId, ref, reconcile, -, rfl⟩ |
      ⟨input, old, rfl, hold, hnext⟩
    · exact (h.path id call hold).step h.sound a
    · exact newCall_onPath user sessionId ref reconcile
    · exact (callStep_onPath (h.path id old hold) hnext).step h.sound _
  refine ⟨step_sound E.H G E.zones h.sound a, honPath, fun ref row hrow => ?_, fun id call op hcall hop => ?_,
    fun id call op hcall hop => ?_⟩
  · exact (h.stepRows a ref row hrow).step a hds
  · rcases step_calls E.H G E.zones hcall with ⟨hold, -⟩ | ⟨user, sessionId, ref, reconcile, -, rfl⟩ |
      ⟨input, old, rfl, hold, hnext⟩
    · exact h.checked id call op hold hop
    · rw [op?_newCall] at hop
      cases hop
    · exact callStep_spec.checked hnext (callStep_onPath (h.path id old hold) hnext) h.rows
        (fun op => h.checked id old op hold) hop
  · rcases step_calls E.H G E.zones hcall with ⟨hold, -⟩ | ⟨user, sessionId, ref, reconcile, -, rfl⟩ |
      ⟨input, old, rfl, hold, hnext⟩
    · exact (h.calls id call op hold hop).mono hds
    · rw [op?_newCall] at hop
      cases hop
    · exact h.phase hds hanswered hold hnext hop

end Steps

end CivicLoop.Drafts
