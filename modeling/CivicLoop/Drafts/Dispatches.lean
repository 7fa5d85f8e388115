import CivicLoop.Drafts.Driven

/-!
# What the dispatches of a run show

In every run of the draft service with its adapters, whatever the providers answer and wherever processes die:

* the check of a stored receipt never refuses what an adapter has returned;
* at most one POST is sent for a row;
* a row that has failed was not written: every POST for it was refused;
* a row that has succeeded was read back: the last exchanges of one of its dispatches show its draft at the provider.

## Main definitions

* `postsTo` : the POSTs for a row.
* `DrivenInv` : the invariant of the composed system.
* `StoresReceipts`, `PostsOnce`, `FailsUnwritten`, `SucceedsShown` : the four guarantees.

## Main results

* `step_drivenInv` : the invariant is kept.
* `storesReceipts_of_run`, `postsOnce_of_run`, `failsUnwritten_of_run`, `succeedsShown_of_run` : the guarantees hold in
  every run.
-/

namespace CivicLoop.Drafts

variable {D : Type} [DecidableEq D]

/-! ### The guarantees -/

/-- The POSTs for a row. -/
def postsTo (ref : ExecutionRef) (ds : List (Dispatch D)) : AdapterLog D :=
  (ds.filter fun d => d.ref == ref).flatMap fun d => d.exchanges.posts

/-- The check of a receipt never refuses one. -/
def StoresReceipts (s : Driven D) : Prop :=
  ∀ id call op receipt now, s.service.calls.get? id = some call → call.phase = .storing op receipt →
    storeReceipt now call.path op receipt s.service.executions ≠ .error (.valueError (invalidReceipt call.path))

/-- At most one POST is sent for a row. -/
def PostsOnce (s : Driven D) : Prop := ∀ ref, (postsTo ref s.dispatches).length ≤ 1

/-- A row that has failed was dispatched, and every POST for it was refused. -/
def FailsUnwritten (s : Driven D) : Prop :=
  ∀ ref row, s.service.executions.get? ref = some row → row.status = .failed →
    (∃ d ∈ s.dispatches, d.Fails ref) ∧ ∀ exchange ∈ postsTo ref s.dispatches, exchange.2.rejects = true

/-- A row that has succeeded has the receipt of a dispatch, and the last exchanges of the dispatch show its draft. -/
def SucceedsShown (E : AdapterEnv D) (s : Driven D) : Prop :=
  ∀ ref row, s.service.executions.get? ref = some row → row.status = .succeeded →
    ∃ d ∈ s.dispatches, d.Shows E s.service ref row

/-! ### The invariant -/

/-- The dispatch is a write of the row. -/
def Dispatch.writes (ref : ExecutionRef) (d : Dispatch D) : Bool := d.ref == ref && d.request.isWrite

/-- The rows and the calls are backed, the dispatches are bounded, and there are as many writes among them as the service
has called for, which are at most one for a row. -/
structure DrivenInv (E : AdapterEnv D) (s : Driven D) : Prop where
  backed : Backed E s.service s.dispatches
  bounded : ∀ d ∈ s.dispatches, d.Bounded
  once : ∃ log, Once s.service log ∧ ∀ ref, s.dispatches.countP (·.writes ref) = writesTo ref log

theorem drivenInv_start (E : AdapterEnv D) (world : World D) (platform : Platform D) :
    DrivenInv E (Driven.start world platform) :=
  ⟨backed_start E world platform, fun _ hd => absurd hd List.not_mem_nil, [], once_start world platform, fun _ => rfl⟩

section Steps

variable {G : Engine D} {E : AdapterEnv D} {s : Driven D} {p : Surroundings D}

/-- The event of an adapter call writes a row if its dispatch does. -/
theorem writesTo_calling {H : Hash D} {zones : String → Bool} {s : State D} {id : ℕ} {input : CallInput D}
    {call : Call D} {op : Operation D} (hcall : s.calls.get? id = some call) (hphase : call.phase = .calling op)
    (ref : ExecutionRef) :
    writesTo ref (events H zones s (.advance id input)) = [dispatchOf E call op p].countP (·.writes ref) := by
  have hevents : events H zones s (.advance id input) =
      [⟨s, input.now, .called call.ref call.user.pk call.reconcile (requestOf call op)⟩] := by
    simp only [events, hcall, callEvent, hphase, Option.map_some, Option.toList_some]
  rw [hevents]
  rfl

omit [DecidableEq D] in
/-- A call that ends is gone, wherever it was. -/
theorem erase_setCall (calls : Table ℕ (Call D)) (id : ℕ) (next : Option (Call D)) : (setCall id next calls).erase id = calls.erase id := by
  cases next with
  | none => exact Table.erase_erase calls id
  | some call' => exact Table.erase_set calls id call'

/-- A process that dies in its adapter call leaves the state that it leaves when it dies after it. -/
theorem step_crash {H : Hash D} {zones : String → Bool} {s : State D} {id : ℕ} {call : Call D} {op : Operation D}
    (hcall : s.calls.get? id = some call) (hphase : call.phase = .calling op) (input : CallInput D) :
    step H G zones (step H G zones s (.advance id input)) (.crash id) = step H G zones s (.crash id) := by
  have hexecutions : (callStep H zones s call input).1 = s.executions := by simp only [callStep, hphase]
  simp only [step, hcall, hexecutions, erase_setCall]

/-- **The invariant is kept.** -/
theorem step_drivenInv (h : DrivenInv E s) (a : Action D × Surroundings D) : DrivenInv E (drivenStep G E s a) := by
  obtain ⟨a, p⟩ := a
  obtain ⟨log, honce, hcount⟩ := h.once
  unfold drivenStep
  cases hdispatch : dispatch E s.service a p with
  | none =>
    have hquiet := fun id input => @dispatch_eq_none D _ E s.service a p hdispatch id input
    refine ⟨step_backed h.backed (List.Subset.refl _) fun id input call op ha hcall hphase => ?_, h.bounded,
      log ++ events E.H E.zones s.service a, step_once honce a, fun ref => ?_⟩
    · exact absurd hphase (hquiet id input ha hcall op)
    · have hnone : writesTo ref (events E.H E.zones s.service a) = 0 := Nat.eq_zero_of_not_pos fun hwrites => by
        obtain ⟨id, input, call, op, ha, hcall, hphase, -⟩ := events_writes hwrites
        exact hquiet id input ha hcall op hphase
      rw [writesTo_append, hnone, Nat.add_zero]
      exact hcount ref
  | some d =>
    obtain ⟨id, input, call, op, rfl, hcall, hphase, rfl⟩ := dispatch_eq_some hdispatch
    have hbounded : ∀ d ∈ s.dispatches ++ [dispatchOf E call op p], d.Bounded := by
      intro d hd
      rcases List.mem_append.1 hd with hd | hd
      · exact h.bounded d hd
      · rw [List.mem_singleton.1 hd]
        exact dispatchOf_bounded E call op p
    have hchecked : call.Checked E op := h.backed.checked id call op hcall (by rw [hphase]; rfl)
    have hsubset : s.dispatches ⊆ s.dispatches ++ [dispatchOf E call op p] := List.subset_append_left _ _
    have hwrites : ∀ input' ref, (s.dispatches ++ [dispatchOf E call op p]).countP (·.writes ref) =
        writesTo ref (log ++ events E.H E.zones s.service (.advance id input')) := by
      intro input' ref
      rw [List.countP_append, writesTo_append, hcount ref, writesTo_calling (E := E) (p := p) hcall hphase]
    cases hresult : (dispatchOf E call op p).result with
    | some r =>
      have hanswered : answered (.advance id input) (dispatchOf E call op p) =
          .advance id { input with outcome := outcomeOf r } := by
        simp only [answered, hresult]
      simp only [hanswered]
      have hstep : Once (step E.H G E.zones s.service (.advance id { input with outcome := outcomeOf r }))
          (log ++ events E.H E.zones s.service (.advance id { input with outcome := outcomeOf r })) := step_once honce _
      have hbacked : Backed E (step E.H G E.zones s.service (.advance id { input with outcome := outcomeOf r }))
          (s.dispatches ++ [dispatchOf E call op p]) := by
        refine step_backed h.backed hsubset fun id' input' call' op' ha hcall' hphase' => ?_
        obtain ⟨rfl, rfl⟩ := Action.advance.inj ha
        obtain rfl := Option.some.inj (hcall.symm.trans hcall')
        obtain rfl := CallPhase.calling.inj (hphase.symm.trans hphase')
        refine ⟨_, List.mem_append_right _ (List.mem_singleton_self _), r, rfl, rfl, rfl, hresult, fun receipt hr => ?_⟩
        subst hr
        exact dispatchOf_acceptable hchecked hresult
      exact ⟨hbacked, hbounded, _, hstep, hwrites _⟩
    | none =>
      have hanswered : answered (.advance id input) (dispatchOf E call op p) = .crash id := by
        simp only [answered, hresult]
      simp only [hanswered]
      have hstep : Once (step E.H G E.zones s.service (.advance id input))
          (log ++ events E.H E.zones s.service (.advance id input)) := step_once honce _
      have hcrash : Once (step E.H G E.zones (step E.H G E.zones s.service (.advance id input)) (.crash id))
          (log ++ events E.H E.zones s.service (.advance id input) ++ []) := step_once hstep (.crash id)
      rw [step_crash hcall hphase, List.append_nil] at hcrash
      have hbacked : Backed E (step E.H G E.zones s.service (.crash id)) (s.dispatches ++ [dispatchOf E call op p]) := by
        refine step_backed h.backed hsubset fun id' input' call' op' ha => ?_
        cases ha
      exact ⟨hbacked, hbounded, _, hcrash, hwrites input⟩

theorem drivenInv_of_run (G : Engine D) (E : AdapterEnv D) (world : World D) (platform : Platform D)
    (as : List (Action D × Surroundings D)) :
    DrivenInv E (Transition.run (drivenStep G E) (Driven.start world platform) as) :=
  Transition.run_induction (P := DrivenInv E) (fun _ a h => step_drivenInv h a) (drivenInv_start E world platform) as

/-! ### What follows from the invariant -/

theorem checkSave_error {model : ExecutionModel} {old row : Execution D} {e : DraftError}
    (h : old.checkSave model row = .error e) : ∃ message, e = .validationError message := by
  have hensure : ∀ {p : Prop} [Decidable p] {message : String} {f : Unit → Except DraftError Unit},
      (ensure p (.validationError message) >>= f) = .error e → e = .validationError message ∨ f () = .error e := by
    intro p _ message f hf
    by_cases hp : p
    · rw [ensure_bind hp] at hf
      exact .inr hf
    · rw [ensure_bind_of_not hp] at hf
      exact .inl (Except.error.inj hf).symm
  rcases hensure h with rfl | h
  · exact ⟨_, rfl⟩
  · rcases hensure (f := pure) (by rw [← h]; exact bind_pure _) with rfl | h
    · exact ⟨_, rfl⟩
    · cases h

/-- A receipt that passes its check is not refused. -/
theorem storeReceipt_ne_invalid {now : Time} {path : DraftProvider} {op : Operation D} {r : DraftReceipt D}
    {e : Executions D} (h : receiptOk path op.ref.1 op.row r = true) :
    storeReceipt now path op (some r) e ≠ .error (.valueError (invalidReceipt path)) := by
  intro hstore
  unfold storeReceipt at hstore
  simp only [fetch_bind rfl, ensure_bind h] at hstore
  cases hold : e.get? op.ref with
  | none =>
    rw [hold] at hstore
    cases hstore
  | some old =>
    rw [fetch_bind hold] at hstore
    cases hcheck : old.checkSave op.ref.1 (receivedRow op.row r now) with
    | ok u =>
      rw [hcheck] at hstore
      cases hstore
    | error e' =>
      obtain ⟨message, rfl⟩ := checkSave_error hcheck
      rw [hcheck] at hstore
      cases hstore

theorem DrivenInv.storesReceipts (h : DrivenInv E s) : StoresReceipts s := by
  intro id call op receipt now hcall hphase hstore
  have hop : call.phase.op? = some op := by rw [hphase]; rfl
  have hbacked := h.backed.calls id call op hcall hop
  rw [hphase] at hbacked
  obtain ⟨r, rfl, d, -, -, -, hacceptable⟩ := hbacked
  have hok := hacceptable.receiptOk
  rw [← (h.backed.sound.holds id call op hcall hop).ref] at hok
  exact storeReceipt_ne_invalid hok hstore

omit [DecidableEq D] in
/-- The POSTs for a row are at most as many as its writes. -/
theorem length_postsTo_le {ds : List (Dispatch D)} (h : ∀ d ∈ ds, d.Bounded) (ref : ExecutionRef) :
    (postsTo ref ds).length ≤ ds.countP (·.writes ref) := by
  induction ds with
  | nil => exact le_rfl
  | cons d ds ih =>
    have hrest := ih fun d' hd' => h d' (List.mem_cons_of_mem d hd')
    have hposts := (h d List.mem_cons_self).posts
    rw [List.countP_cons]
    by_cases href : d.ref = ref
    · have hcons : postsTo ref (d :: ds) = d.exchanges.posts ++ postsTo ref ds := by
        simp [postsTo, href]
      rw [hcons, List.length_append]
      simp only [Dispatch.writes, href, beq_self_eq_true, Bool.true_and]
      exact (Nat.add_le_add hposts hrest).trans (Nat.add_comm ..).le
    · have hcons : postsTo ref (d :: ds) = postsTo ref ds := by
        simp [postsTo, href]
      rw [hcons]
      omega

theorem DrivenInv.writes_le (h : DrivenInv E s) (ref : ExecutionRef) : s.dispatches.countP (·.writes ref) ≤ 1 := by
  obtain ⟨log, honce, hcount⟩ := h.once
  rw [hcount ref]
  exact honce.once ref

/-- A row with a failed dispatch was not written. -/
theorem DrivenInv.failsUnwritten (h : DrivenInv E s) : FailsUnwritten s := by
  intro ref row hrow hstatus
  obtain ⟨d, hd, hfails⟩ := (h.backed.rows ref row hrow).failed hstatus
  refine ⟨⟨d, hd, hfails⟩, fun exchange hexchange => ?_⟩
  obtain ⟨href, hwrite, category, hresult⟩ := hfails
  obtain ⟨d', hd', hposts⟩ := List.mem_flatMap.1 hexchange
  obtain ⟨hd', href'⟩ := List.mem_filter.1 hd'
  -- Only a write sends a POST, and the row has one write.
  have hwrite' : d'.request.isWrite = true := by
    by_contra hreads
    have hlength := (h.bounded d' hd').posts
    rw [if_neg hreads] at hlength
    exact absurd (List.length_pos_of_mem hposts) (by omega)
  have hsame : d' = d := eq_of_countP_le_one (h.writes_le ref) hd' hd
    (by rw [Dispatch.writes, href', hwrite']; rfl) (by rw [Dispatch.writes, href, hwrite]; simp)
  subst hsame
  exact (h.bounded d' hd).refused category hresult exchange hposts

end Steps

section Runs

variable (G : Engine D) (E : AdapterEnv D) (world : World D) (platform : Platform D)
  (as : List (Action D × Surroundings D))

/-- **No receipt of an adapter is refused**, in any run. -/
theorem storesReceipts_of_run : StoresReceipts (Transition.run (drivenStep G E) (Driven.start world platform) as) :=
  (drivenInv_of_run G E world platform as).storesReceipts

/-- **At most one POST is sent for a row**, in any run. -/
theorem postsOnce_of_run : PostsOnce (Transition.run (drivenStep G E) (Driven.start world platform) as) := fun ref =>
  (length_postsTo_le (drivenInv_of_run G E world platform as).bounded ref).trans
    ((drivenInv_of_run G E world platform as).writes_le ref)

/-- **A row that has failed was not written**, in any run. -/
theorem failsUnwritten_of_run : FailsUnwritten (Transition.run (drivenStep G E) (Driven.start world platform) as) :=
  (drivenInv_of_run G E world platform as).failsUnwritten

/-- **A row that has succeeded was read back**, in any run. -/
theorem succeedsShown_of_run :
    SucceedsShown E (Transition.run (drivenStep G E) (Driven.start world platform) as) := fun ref row hrow =>
  ((drivenInv_of_run G E world platform as).backed.rows ref row hrow).succeeded

end Runs

end CivicLoop.Drafts
