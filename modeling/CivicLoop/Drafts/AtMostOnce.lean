import CivicLoop.Drafts.Invariant

/-!
# A row is written to its provider at most once

A call may write to the provider of its row only between its claim and its adapter call. The claim
takes the row from `approved` to `executing`, and no row comes back, so at most one call has ever
claimed a row, and it calls the adapter once. Everything that can fall in between, a crash, a
reconciliation, a handler, leaves the row claimed.

## Main definitions

* `Event.writes`, `writesTo` : the adapter calls that write to the provider of a row.
* `Call.MayWrite` : a call between its claim and its adapter call.
* `AtMostOnce` : the guarantee for a run.

## Main results

* `step_mayWrite` : where a call that may write comes from.
* `at_most_once` : the guarantee, for every run.
-/

namespace CivicLoop.Drafts

variable {D : Type} [DecidableEq D]

/-- The event is a create or an update for the row. -/
def Event.writes (ref : ExecutionRef) : Event D → Bool
  | .called ref' _ _ request => ref' == ref && request.isWrite
  | _ => false

/-- The number of creates and updates for the row. -/
def writesTo (ref : ExecutionRef) (log : List (Occurrence D)) : ℕ :=
  log.countP fun o => o.event.writes ref

/-- What a run puts out. -/
def log (H : Hash D) (E : Engine D) (zones : String → Bool) (s : State D) (as : List (Action D)) :
    List (Occurrence D) :=
  Transition.outputs (step H E zones) (events H zones) s as

/-- The call has claimed its row and has not called the adapter. -/
def Call.MayWrite (call : Call D) : Prop :=
  call.reconcile = false ∧ call.phase.dispatching = true

/-- The calls are on the same row, by the same user and on the same path. -/
structure Call.SameTarget (call call' : Call D) : Prop where
  ref : call.ref = call'.ref
  user : call.user = call'.user
  path : call.path = call'.path

/-- The writes of a run to the providers. -/
structure AtMostOnce (H : Hash D) (E : Engine D) (zones : String → Bool) (world : World D)
    (platform : Platform D) (as : List (Action D)) : Prop where
  once : ∀ ref, writesTo ref (log H E zones (start world platform) as) ≤ 1
  reconcile : ∀ o ∈ log H E zones (start world platform) as, ∀ ref user request,
    o.event = .called ref user true request → request.isWrite = false
  claimed : ∀ as' ref row row',
    (Transition.run (step H E zones) (start world platform) as).executions.get? ref = some row →
      row.claimedAt.isSome →
      (Transition.run (step H E zones) (start world platform) (as ++ as')).executions.get? ref =
        some row' → row'.status ≠ .pending ∧ row'.status ≠ .approved

omit [DecidableEq D] in
@[simp] theorem writesTo_append (ref : ExecutionRef) (l l' : List (Occurrence D)) :
    writesTo ref (l ++ l') = writesTo ref l + writesTo ref l' := List.countP_append

/-! ### One step -/

theorem isWrite_requestOf (call : Call D) (op : Operation D) :
    (requestOf call op).isWrite = !call.reconcile := by
  unfold requestOf providerRequest
  cases call.path <;> cases call.ref.1 <;> cases call.reconcile <;> cases op.row.action <;> rfl

/-- A row that is written in a run has a write in its log. -/
theorem exists_write_of_writesTo {ref : ExecutionRef} {l : List (Occurrence D)}
    (h : 0 < writesTo ref l) :
    ∃ w ∈ l, ∃ user reconcile request, w.event = .called ref user reconcile request ∧
      request.isWrite = true := by
  obtain ⟨w, hw, hwrites⟩ := List.countP_pos_iff.1 h
  cases hevent : w.event with
  | called ref' user reconcile request =>
    rw [hevent] at hwrites
    simp only [Event.writes, Bool.and_eq_true, beq_iff_eq] at hwrites
    exact ⟨w, hw, user, reconcile, request, by rw [hevent, hwrites.1], hwrites.2⟩
  | _ =>
    rw [hevent] at hwrites
    cases hwrites

section Steps

variable {H : Hash D} {E : Engine D} {zones : String → Bool} {s : State D}

theorem callEvent_called {call : Call D} {input : CallInput D} {ref : ExecutionRef} {user : ℕ}
    {reconcile : Bool} {request : ProviderRequest D}
    (h : callEvent H zones s call input = some (.called ref user reconcile request)) :
    ∃ op, call.phase = .calling op ∧ ref = call.ref ∧ user = call.user.pk ∧
      reconcile = call.reconcile ∧ request = requestOf call op := by
  unfold callEvent at h
  split at h
  · split_ifs at h
    split at h <;> cases h
  · rename_i op hphase
    cases h
    exact ⟨op, hphase, rfl, rfl, rfl, rfl⟩
  · cases h

/-- A step that calls an adapter is the one of a call in its phase before it. -/
theorem mem_events_called {a : Action D} {o : Occurrence D} (ho : o ∈ events H zones s a)
    {ref : ExecutionRef} {user : ℕ} {reconcile : Bool} {request : ProviderRequest D}
    (hevent : o.event = .called ref user reconcile request) :
    o.state = s ∧ ∃ id input call op, a = .advance id input ∧ s.calls.get? id = some call ∧
      call.phase = .calling op ∧ ref = call.ref ∧ user = call.user.pk ∧
      reconcile = call.reconcile ∧ request = requestOf call op := by
  cases a with
  | approve input approver sessionId ref' digest revision =>
    simp only [events] at ho
    split at ho
    · obtain rfl := List.mem_singleton.1 ho
      cases hevent
    · cases ho
  | advance id input =>
    simp only [events] at ho
    split at ho
    · rename_i call hcall
      rw [Option.mem_toList, Option.map_eq_some_iff] at ho
      obtain ⟨event, hcallEvent, rfl⟩ := ho
      obtain rfl : event = _ := hevent
      obtain ⟨op, hphase, hrest⟩ := callEvent_called hcallEvent
      exact ⟨rfl, id, input, call, op, rfl, hcall, hphase, hrest⟩
    · cases ho
  | _ => cases ho

theorem length_events_le (a : Action D) : (events H zones s a).length ≤ 1 := by
  cases a with
  | approve input user sessionId ref digest revision =>
    simp only [events]
    split <;> simp
  | advance id input =>
    simp only [events]
    split
    · exact Option.length_toList_le
    · simp
  | _ => simp [events]

/-- A step that writes is the adapter call of a call that may write. -/
theorem events_writes {a : Action D} {ref : ExecutionRef}
    (h : 0 < writesTo ref (events H zones s a)) :
    ∃ id input call op, a = .advance id input ∧ s.calls.get? id = some call ∧
      call.phase = .calling op ∧ call.ref = ref ∧ call.reconcile = false := by
  obtain ⟨o, ho, user, reconcile, request, hevent, hwrite⟩ := exists_write_of_writesTo h
  obtain ⟨-, id, input, call, op, ha, hcall, hphase, href, -, hreconcile, hrequest⟩ :=
    mem_events_called ho hevent
  rw [hrequest, isWrite_requestOf] at hwrite
  exact ⟨id, input, call, op, ha, hcall, hphase, href.symm, by simpa using hwrite⟩

/-- A call that may write after a step could do so before and did not call the adapter, or has claimed
its row in this step. -/
theorem step_mayWrite {a : Action D} {id : ℕ} {call : Call D}
    (h : (step H E zones s a).calls.get? id = some call) (hmay : call.MayWrite) :
    (∃ old, s.calls.get? id = some old ∧ old.MayWrite ∧ old.SameTarget call ∧
      old.phase.op? = call.phase.op? ∧
      ∀ input op, a = .advance id input → old.phase ≠ .calling op) ∨
    ∃ input old op e, a = .advance id input ∧ s.calls.get? id = some old ∧ old.phase = .claiming ∧
      old.reconcile = false ∧ call.phase.op? = some op ∧ old.SameTarget call ∧
      claim input.transaction H zones call.path call.user call.ref s.ledger = .ok (op, e) := by
  rcases step_calls H E zones h with ⟨hcall, hother⟩ | ⟨user, sessionId, ref, reconcile, -, rfl⟩ |
    ⟨input, old, rfl, hold, hnext⟩
  · exact .inl ⟨call, hcall, hmay, ⟨rfl, rfl, rfl⟩, rfl, fun input _ e => absurd e (hother input)⟩
  · have hdispatching := hmay.2
    simp only [newCall] at hdispatching
    split_ifs at hdispatching <;> cases hdispatching
  · obtain ⟨hexecute, hdispatching⟩ := hmay
    have hstep : CallStep H zones s old input (callStep H zones s old input).1
        (callStep H zones s old input).2 := callStep_spec
    generalize callStep H zones s old input = after at hstep hnext
    obtain ⟨e, next⟩ := after
    obtain rfl : next = some call := hnext
    cases hstep with
    | prepares path phase _ hphase =>
      have hnone : phase.dispatching = false := by cases phase <;> first | rfl | cases hphase
      rw [show phase.dispatching = true from hdispatching] at hnone
      cases hnone
    | claims op e phase hclaiming _ hclaim hop _ =>
      exact .inr ⟨input, old, op, e, rfl, hold, hclaiming, hexecute, hop, ⟨rfl, rfl, rfl⟩, hclaim⟩
    | reopens op hreconcile _ =>
      rw [show old.reconcile = false from hexecute] at hreconcile
      cases hreconcile
    | advances op phase hop hold' hop' _ hcalling =>
      exact .inl ⟨old, hold, ⟨hexecute, hold'⟩, ⟨rfl, rfl, rfl⟩, hop.trans hop'.symm,
        fun _ op' _ => hcalling op'⟩
    | returns | fails | stores => cases hdispatching

/-! ### The invariant of the writes -/

/-- No row is written twice, and a row that was or may be written is claimed, by one call. -/
structure Once (s : State D) (log : List (Occurrence D)) : Prop where
  sound : Sound s
  once : ∀ ref, writesTo ref log ≤ 1
  claimed : ∀ ref, 0 < writesTo ref log →
    ∃ row, s.executions.get? ref = some row ∧ row.claimedAt.isSome
  unspent : ∀ id call, s.calls.get? id = some call → call.MayWrite → writesTo call.ref log = 0
  alone : ∀ id id' call call', s.calls.get? id = some call → s.calls.get? id' = some call' →
    call.MayWrite → call'.MayWrite → call.ref = call'.ref → id = id'

theorem once_start (world : World D) (platform : Platform D) : Once (start world platform) [] where
  sound := sound_start world platform
  once _ := Nat.zero_le _
  claimed _ h := absurd h (lt_irrefl 0)
  unspent _ _ h := by cases h
  alone _ _ _ _ h := by cases h

omit [DecidableEq D] in
/-- The row of a call that may write is claimed. -/
theorem Sound.claimed_of_mayWrite (hs : Sound s) {id : ℕ} {call : Call D}
    (hcall : s.calls.get? id = some call) (hmay : call.MayWrite) :
    ∃ row, s.executions.get? call.ref = some row ∧ row.claimedAt.isSome := by
  obtain ⟨op, hop⟩ : ∃ op, call.phase.op? = some op := by
    have hdispatching := hmay.2
    cases hphase : call.phase <;> rw [hphase] at hdispatching <;>
      first | exact ⟨_, rfl⟩ | cases hdispatching
  obtain ⟨-, ⟨row, hrow, hagrees⟩, hclaimed, -⟩ := hs.holds id call op hcall hop
  exact ⟨row, hrow, hagrees.claimedAt ▸ hclaimed⟩

/-- A row that is approved is not claimed. -/
theorem Sound.unclaimed_of_claim (hs : Sound s) {input : TransactionInput} {path : DraftProvider}
    {user : RequestUser} {ref : ExecutionRef} {op : Operation D} {e : Executions D}
    (h : claim input H zones path user ref s.ledger = .ok (op, e)) {row : Execution D}
    (hrow : s.executions.get? ref = some row) : ¬row.claimedAt.isSome := by
  obtain ⟨old, hold, -, -, hstatus, -⟩ := claim_eq_ok h
  obtain rfl := Option.some.inj (hrow.symm.trans (loadOperation_eq_ok hold).2.1)
  exact fun hclaimed => ((hs.staged _ _ hrow).claimed.1 hclaimed).2 hstatus

/-- **The invariant of the writes is kept.** -/
theorem step_once {log : List (Occurrence D)} (h : Once s log) (a : Action D) :
    Once (step H E zones s a) (log ++ events H zones s a) := by
  have hextends := step_extends H E zones h.sound a
  -- A write of this step is the first one of its row.
  have hnew : ∀ ref, 0 < writesTo ref (events H zones s a) → writesTo ref log = 0 := by
    intro ref hwrites
    obtain ⟨id, input, call, op, -, hcall, hphase, rfl, hexecute⟩ := events_writes hwrites
    exact h.unspent id call hcall ⟨hexecute, by rw [hphase]; rfl⟩
  have hle : ∀ ref, writesTo ref (events H zones s a) ≤ 1 := fun ref =>
    List.countP_le_length.trans (length_events_le a)
  -- A call that may write after the step has written nothing, before or in the step.
  have hnone : ∀ id call, (step H E zones s a).calls.get? id = some call → call.MayWrite →
      writesTo call.ref (log ++ events H zones s a) = 0 := by
    intro id call hcall hmay
    rw [writesTo_append]
    rcases step_mayWrite hcall hmay with ⟨old, hold, holdMay, ⟨href, -, -⟩, -, hcalling⟩ |
      ⟨input, old, op, e, rfl, hold, hclaiming, -, -, -, hclaim⟩
    · have hlog := href ▸ h.unspent id old hold holdMay
      refine (Nat.add_eq_zero_iff.2 ⟨hlog, Nat.eq_zero_of_not_pos fun hwrites => ?_⟩)
      obtain ⟨id', input, call', op, ha, hcall', hphase, href', hexecute⟩ := events_writes hwrites
      have hid := h.alone id id' old call' hold hcall' holdMay ⟨hexecute, by rw [hphase]; rfl⟩
        (href.trans href'.symm)
      subst hid
      obtain rfl := Option.some.inj (hold.symm.trans hcall')
      exact hcalling input op ha hphase
    · have hlog : writesTo call.ref log = 0 := Nat.eq_zero_of_not_pos fun hwrites => by
        obtain ⟨row, hrow, hclaimed⟩ := h.claimed _ hwrites
        exact h.sound.unclaimed_of_claim hclaim hrow hclaimed
      refine (Nat.add_eq_zero_iff.2 ⟨hlog, Nat.eq_zero_of_not_pos fun hwrites => ?_⟩)
      obtain ⟨id', input', call', op', ha, hcall', hphase, -⟩ := events_writes hwrites
      obtain ⟨rfl, rfl⟩ := Action.advance.inj ha
      obtain rfl := Option.some.inj (hold.symm.trans hcall')
      rw [hclaiming] at hphase
      cases hphase
  refine ⟨step_sound H E zones h.sound a, fun ref => ?_, fun ref hwrites => ?_, hnone, ?_⟩
  · rw [writesTo_append]
    rcases Nat.eq_zero_or_pos (writesTo ref (events H zones s a)) with hzero | hpos
    · rw [hzero]
      exact h.once ref
    · rw [hnew ref hpos, Nat.zero_add]
      exact hle ref
  · obtain ⟨row, hrow, hclaimed⟩ : ∃ row, s.executions.get? ref = some row ∧
        row.claimedAt.isSome := by
      rw [writesTo_append] at hwrites
      rcases Nat.eq_zero_or_pos (writesTo ref log) with hzero | hpos
      · rw [hzero, Nat.zero_add] at hwrites
        obtain ⟨id, input, call, op, -, hcall, hphase, rfl, hexecute⟩ := events_writes hwrites
        exact h.sound.claimed_of_mayWrite hcall ⟨hexecute, by rw [hphase]; rfl⟩
      · exact h.claimed ref hpos
    obtain ⟨row', hrow', hkeeps⟩ := hextends ref row hrow
    exact ⟨row', hrow', by rw [hkeeps.claimedAt hclaimed]; exact hclaimed⟩
  · intro id id' call call' hcall hcall' hmay hmay' href
    rcases step_mayWrite hcall hmay with ⟨old, hold, holdMay, ⟨hold_ref, -, -⟩, -⟩ |
      ⟨input, old, op, e, ha, -, -, -, -, -, hclaim⟩ <;>
    rcases step_mayWrite hcall' hmay' with ⟨old', hold', holdMay', ⟨hold_ref', -, -⟩, -⟩ |
      ⟨input', old', op', e', ha', -, -, -, -, -, hclaim'⟩
    · exact h.alone id id' old old' hold hold' holdMay holdMay'
        (hold_ref.trans (href.trans hold_ref'.symm))
    · obtain ⟨row, hrow, hclaimed⟩ := h.sound.claimed_of_mayWrite hold holdMay
      rw [hold_ref, href] at hrow
      exact absurd hclaimed (h.sound.unclaimed_of_claim hclaim' hrow)
    · obtain ⟨row, hrow, hclaimed⟩ := h.sound.claimed_of_mayWrite hold' holdMay'
      rw [hold_ref', ← href] at hrow
      exact absurd hclaimed (h.sound.unclaimed_of_claim hclaim hrow)
    · rw [ha] at ha'
      exact (Action.advance.inj ha').1

end Steps

/-- What holds of every occurrence of a run, because it holds of what each step puts out. -/
theorem log_induction {H : Hash D} {E : Engine D} {zones : String → Bool}
    {P : Occurrence D → Prop} (hP : ∀ s a, ∀ o ∈ events H zones s a, P o) {s : State D}
    (as : List (Action D)) : ∀ o ∈ log H E zones s as, P o := by
  induction as generalizing s with
  | nil => simp [log, Transition.outputs]
  | cons a as ih =>
    intro o ho
    rcases List.mem_append.1 ho with ho | ho
    · exact hP s a o ho
    · exact ih o ho

/-- **Every row is written to its provider at most once**, reconciliations never write, and a claimed
row is never pending or approved again, in every run. -/
theorem at_most_once (H : Hash D) (E : Engine D) (zones : String → Bool) (world : World D)
    (platform : Platform D) (as : List (Action D)) : AtMostOnce H E zones world platform as := by
  have honce : Once (Transition.run (step H E zones) (start world platform) as)
      ([] ++ log H E zones (start world platform) as) :=
    Transition.outputs_induction (f := events H zones) (P := Once) (fun _ a _ hs => step_once hs a)
      (once_start world platform) as
  refine ⟨honce.once, ?_, fun as' ref row row' hrow hclaimed hrow' => ?_⟩
  · refine log_induction (fun s a o ho ref user request hevent => ?_) as
    obtain ⟨-, _, _, call, op, -, -, -, -, -, hreconcile, rfl⟩ := mem_events_called ho hevent
    rw [isWrite_requestOf, ← hreconcile]
    rfl
  · rw [Transition.run_append] at hrow'
    obtain ⟨row'', hrow'', hkeeps⟩ := run_extends H E zones honce.sound as' ref row hrow
    obtain rfl := Option.some.inj (hrow''.symm.trans hrow')
    have hsound := sound_of_run H E zones world platform (as ++ as')
    rw [Transition.run_append] at hsound
    exact (hsound.staged ref _ hrow').claimed.1 (by rw [hkeeps.claimedAt hclaimed]; exact hclaimed)

end CivicLoop.Drafts
