import CivicLoop.Foundation.Gate

/-!
# The drain barrier of the run bridge

The bridge forwards the requests of one run, under the scope token of the run. A forward call is
admitted by the bridge, under the lock of the bridge, and again by the HTTP slot, under the lock of the
slot, which holds one physical request at a time. The physical request is made by a thread of its own,
which gives its place in the slot back after its connection is closed, and may outlive the call that has
started it.

Closing the admissions closes the bridge, and then the slot. A drain waits for the accepted sockets, and
then for the slot.

What the checks of a request come to, whether a thread starts, and whether a deadline is over, is
decided by the environment. A request is named by the position of its forward call.

## Main definitions

* `RunBridge` : the bridge and its slot, with the calls that are on their way.
* `bridgeStep` : one step of the system.
* `InFlight` : a physical request is made.
* `DrainBarrier` : what a drain is taken for.

## Main results

* `drainBarrier` : it is that in every run.
-/

namespace CivicLoop.Hermes

/-! ### The bridge -/

/-- Where a forward call is: before the lock of the bridge, before the lock of the slot, before it starts
the thread or gives the place of a thread that has not started back, and after that. -/
inductive CallerPhase
  | called
  | checked
  | starting
  | discarding
  | waiting
  | returned
deriving DecidableEq

/-- The thread of a physical request: it makes the request up to the closing of its connection, and then
gives its place back. -/
inductive WorkerPhase
  | absent
  | running
  | closed
  | done
deriving DecidableEq

/-- A forward call, and the thread it starts. -/
structure Forward where
  caller : CallerPhase
  worker : WorkerPhase

/-- The other calls. -/
inductive CallKind
  | closeAdmissions
  | drain
  | close
deriving DecidableEq

/-- Where such a call is. -/
inductive ClosingPhase
  | marking
  | sealing
  | joining
  | draining
  | emptying
  | finished
  | returned (drained : Bool)

structure ClosingCall where
  kind : CallKind
  phase : ClosingPhase

/-- `RunBridge`, with its `_BoundedHTTP`. -/
structure RunBridge where
  closed : Bool
  accepted : List ℕ
  ioClosed : Bool
  flights : List ℕ
  forwards : List Forward
  calls : List ClosingCall

def RunBridge.initial : RunBridge := ⟨false, [], false, [], [], []⟩

namespace RunBridge

variable (b : RunBridge)

def setForward (k : ℕ) (f : Forward) : RunBridge := { b with forwards := b.forwards.set k f }

def setCall (k : ℕ) (c : ClosingCall) : RunBridge := { b with calls := b.calls.set k c }

/-- `self._flights.discard(io)`. -/
def discard (k : ℕ) : RunBridge := { b with flights := b.flights.filter (· ≠ k) }

/-- `_accept_socket`. -/
def acceptSocket (socket : ℕ) (late : Bool) : RunBridge :=
  if b.closed || late || 16 ≤ b.accepted.length then b else { b with accepted := socket :: b.accepted }

/-- `_release_socket`. -/
def releaseSocket (socket : ℕ) : RunBridge := { b with accepted := b.accepted.filter (· ≠ socket) }

/-- The next step of a forward call. When it is called, `ok` says whether the request is one the bridge
forwards; before the locks, whether the deadline is not over; before the thread, whether it starts. -/
def advanceCaller (k : ℕ) (f : Forward) (ok : Bool) : RunBridge :=
  match f.caller with
  | .called =>
    if ok && !b.closed then b.setForward k { f with caller := .checked }
    else b.setForward k { f with caller := .returned }
  | .checked =>
    if b.ioClosed || b.flights ≠ [] || !ok then b.setForward k { f with caller := .returned }
    else { b.setForward k { f with caller := .starting } with flights := k :: b.flights }
  | .starting =>
    if ok then b.setForward k ⟨.waiting, .running⟩ else b.setForward k { f with caller := .discarding }
  | .discarding => (b.setForward k { f with caller := .returned }).discard k
  | .waiting => b.setForward k { f with caller := .returned }
  | .returned => b

/-- The next step of the thread of a physical request. -/
def advanceWorker (k : ℕ) (f : Forward) : RunBridge :=
  match f.worker with
  | .absent => b
  | .running => b.setForward k { f with worker := .closed }
  | .closed => (b.setForward k { f with worker := .done }).discard k
  | .done => b

/-- The next step of `close_admissions`, `drain` or `close`; `late` says whether its time is over, and
`alive` whether the server has a thread that does not end. -/
def advanceCall (k : ℕ) (c : ClosingCall) (late alive : Bool) : RunBridge :=
  match c.phase with
  | .marking => { b.setCall k { c with phase := .sealing } with closed := true }
  | .sealing =>
    { b.setCall k { c with phase := if c.kind = .close then .joining else .finished } with ioClosed := true }
  | .joining => b.setCall k { c with phase := if alive then .returned false else .draining }
  | .draining =>
    if b.accepted = [] then b.setCall k { c with phase := .emptying }
    else if late then b.setCall k { c with phase := .returned false }
    else b
  | .emptying =>
    if b.flights = [] then b.setCall k { c with phase := .returned true }
    else if late then b.setCall k { c with phase := .returned false }
    else b
  | .finished => b
  | .returned _ => b

end RunBridge

/-! ### The system -/

/-- A step of the system. -/
inductive BridgeAction
  | accept (socket : ℕ) (late : Bool)
  | release (socket : ℕ)
  | forward
  | caller (k : ℕ) (ok : Bool)
  | worker (k : ℕ)
  | call (kind : CallKind)
  | advance (k : ℕ) (late alive : Bool)

/-- One step. -/
def bridgeStep (b : RunBridge) : BridgeAction → RunBridge
  | .accept socket late => b.acceptSocket socket late
  | .release socket => b.releaseSocket socket
  | .forward => { b with forwards := b.forwards ++ [⟨.called, .absent⟩] }
  | .caller k ok =>
    match b.forwards[k]? with
    | some f => b.advanceCaller k f ok
    | none => b
  | .worker k =>
    match b.forwards[k]? with
    | some f => b.advanceWorker k f
    | none => b
  | .call kind =>
    { b with calls := b.calls ++ [⟨kind, if kind = .drain then .draining else .marking⟩] }
  | .advance k late alive =>
    match b.calls[k]? with
    | some c => b.advanceCall k c late alive
    | none => b

/-- The bridge after a run of the system from the start. -/
def bridgeRun (as : List BridgeAction) : RunBridge := Transition.run bridgeStep .initial as

/-- The physical request of the forward call `k` is made. -/
def InFlight (b : RunBridge) (k : ℕ) : Prop := ∃ f, b.forwards[k]? = some f ∧ f.worker = .running

/-- **The drain barrier.** At most one physical request is made at a time. After the admissions were
closed, a drain that was called and has returned `True`, and after a `close` that has, no physical
request is made and none is started. -/
structure DrainBarrier : Prop where
  single : ∀ as k l, InFlight (bridgeRun as) k → InFlight (bridgeRun as) l → k = l
  drained : ∀ as bs cs,
    (∃ i : ℕ, (bridgeRun as).calls[i]? = some ⟨.closeAdmissions, .finished⟩) →
    (bridgeRun (as ++ .call .drain :: bs)).calls[(bridgeRun as).calls.length]? =
      some ⟨.drain, .returned true⟩ →
    ∀ k, ¬ InFlight (bridgeRun (as ++ .call .drain :: bs ++ cs)) k
  closed : ∀ as cs, (∃ i : ℕ, (bridgeRun as).calls[i]? = some ⟨.close, .returned true⟩) →
    ∀ k, ¬ InFlight (bridgeRun (as ++ cs)) k

/-! ### The slot is a gate -/

/-- The slot: closed for new requests, and the requests inside. -/
def slot : Gate RunBridge ℕ := ⟨fun b => b.ioClosed = true, fun b k => k ∈ b.flights⟩

variable {b b' : RunBridge}

theorem slot_respects_of_subset (hclosed : b'.ioClosed = b.ioClosed)
    (hflights : ∀ k ∈ b'.flights, k ∈ b.flights) : slot.Respects b b' :=
  fun h => ⟨hclosed.trans h, hflights⟩

/-- Nothing opens the slot, and nothing enters it when it is closed. -/
theorem bridgeStep_respects (b : RunBridge) (a : BridgeAction) : slot.Respects b (bridgeStep b a) := by
  have hsame : ∀ b' : RunBridge, b'.ioClosed = b.ioClosed → b'.flights = b.flights →
      slot.Respects b b' := fun b' hclosed hflights =>
    slot_respects_of_subset hclosed fun k hk => hflights ▸ hk
  have hdiscard : ∀ (b' : RunBridge) (k : ℕ), b'.ioClosed = b.ioClosed →
      b'.flights = b.flights.filter (· ≠ k) → slot.Respects b b' := fun b' k hclosed hflights =>
    slot_respects_of_subset hclosed fun l hl => List.mem_of_mem_filter (hflights ▸ hl)
  cases a with
  | accept socket late =>
    simp only [bridgeStep, RunBridge.acceptSocket]
    split_ifs <;> exact hsame _ rfl rfl
  | release socket => exact hsame _ rfl rfl
  | forward => exact hsame _ rfl rfl
  | call kind => exact hsame _ rfl rfl
  | caller k ok =>
    simp only [bridgeStep]
    cases b.forwards[k]? with
    | none => exact hsame _ rfl rfl
    | some f =>
      simp only [RunBridge.advanceCaller]
      split
      · split_ifs <;> exact hsame _ rfl rfl
      · split_ifs with hbusy
        · exact hsame _ rfl rfl
        · -- a request enters an open slot only
          intro hclosed
          simp only [Bool.or_eq_true, not_or] at hbusy
          exact absurd hclosed hbusy.1.1
      · split_ifs <;> exact hsame _ rfl rfl
      · exact hdiscard _ k rfl rfl
      · exact hsame _ rfl rfl
      · exact hsame _ rfl rfl
  | worker k =>
    simp only [bridgeStep]
    cases b.forwards[k]? with
    | none => exact hsame _ rfl rfl
    | some f =>
      simp only [RunBridge.advanceWorker]
      split
      · exact hsame _ rfl rfl
      · exact hsame _ rfl rfl
      · exact hdiscard _ k rfl rfl
      · exact hsame _ rfl rfl
  | advance k late alive =>
    simp only [bridgeStep]
    cases b.calls[k]? with
    | none => exact hsame _ rfl rfl
    | some c =>
      simp only [RunBridge.advanceCall]
      split
      · exact hsame _ rfl rfl
      · exact fun _ => ⟨rfl, fun _ hk => hk⟩
      · exact hsame _ rfl rfl
      · split_ifs <;> exact hsame _ rfl rfl
      · split_ifs <;> exact hsame _ rfl rfl
      · exact hsame _ rfl rfl
      · exact hsame _ rfl rfl

/-- A closed and empty slot. -/
def RunBridge.Drained (b : RunBridge) : Prop := b.ioClosed = true ∧ b.flights = []

theorem within_iff_drained : slot.Within (fun _ => False) b ↔ b.Drained := by
  rw [Gate.Within, RunBridge.Drained, List.eq_nil_iff_forall_not_mem]
  rfl

theorem bridgeStep_drained (a : BridgeAction) (h : b.Drained) : (bridgeStep b a).Drained :=
  within_iff_drained.1 ((within_iff_drained.2 h).step (bridgeStep_respects b a))

/-- A closed and empty slot stays so. -/
theorem drained_run (h : b.Drained) (as : List BridgeAction) :
    (Transition.run bridgeStep b as).Drained :=
  Transition.run_induction (fun _ a => bridgeStep_drained a) h as

/-! ### The requests -/

/-- What holds of a forward call, given the places in the slot. -/
structure Forward.Sound (flights : List ℕ) (k : ℕ) (f : Forward) : Prop where
  held : f.caller = .starting ∨ f.caller = .discarding ∨ f.worker = .running ∨ f.worker = .closed →
    k ∈ flights
  early : f.caller ≠ .waiting → f.caller ≠ .returned → f.worker = .absent

/-- The invariant of the requests: one place, which a request holds while it is made. -/
structure RunBridge.Inv (b : RunBridge) : Prop where
  short : b.flights.length ≤ 1
  forwards : ∀ (k : ℕ) (f : Forward), b.forwards[k]? = some f → f.Sound b.flights k

theorem inv_of_same (hb : b.Inv) (hflights : b'.flights = b.flights)
    (hforwards : b'.forwards = b.forwards) : b'.Inv where
  short := hflights ▸ hb.short
  forwards k f hf := by
    rw [hflights]
    rw [hforwards] at hf
    exact hb.forwards k f hf

/-- A forward call goes on. -/
theorem inv_setForward (hb : b.Inv) {k : ℕ} {f : Forward} (hforwards : b'.forwards = b.forwards.set k f)
    (hshort : b'.flights.length ≤ 1) (hkeep : ∀ l, l ≠ k → l ∈ b.flights → l ∈ b'.flights)
    (hf : f.Sound b'.flights k) : b'.Inv where
  short := hshort
  forwards l g hg := by
    rw [hforwards, List.getElem?_set] at hg
    split_ifs at hg with hl
    · subst hl
      exact Option.some.inj hg ▸ hf
    · have hsound := hb.forwards l g hg
      exact ⟨fun h => hkeep l (Ne.symm hl) (hsound.held h), hsound.early⟩

theorem bridgeStep_inv (b : RunBridge) (a : BridgeAction) (hb : b.Inv) : (bridgeStep b a).Inv := by
  have hfilter : ∀ k, (b.flights.filter (· ≠ k)).length ≤ 1 := fun k =>
    Nat.le_trans (List.length_filter_le _ _) hb.short
  have hkept : ∀ k l, l ≠ k → l ∈ b.flights → l ∈ b.flights.filter (· ≠ k) := fun k l hl hmem =>
    List.mem_filter.2 ⟨hmem, by simpa using hl⟩
  cases a with
  | accept socket late =>
    simp only [bridgeStep, RunBridge.acceptSocket]
    split_ifs <;> exact inv_of_same hb rfl rfl
  | release socket => exact inv_of_same hb rfl rfl
  | call kind => exact inv_of_same hb rfl rfl
  | forward =>
    refine ⟨hb.short, fun k f hf => ?_⟩
    rcases List.mem_append.1 (List.mem_of_getElem? hf) with hmem | hmem
    · by_cases hk : k < b.forwards.length
      · simp only [bridgeStep, List.getElem?_append_left hk] at hf
        exact hb.forwards k f hf
      · simp only [bridgeStep, List.getElem?_append_right (Nat.le_of_not_lt hk)] at hf
        obtain rfl := List.mem_singleton.1 (List.mem_of_getElem? hf)
        exact ⟨by simp, fun _ _ => rfl⟩
    · obtain rfl := List.mem_singleton.1 hmem
      exact ⟨by simp, fun _ _ => rfl⟩
  | caller k ok =>
    simp only [bridgeStep]
    cases hk : b.forwards[k]? with
    | none => exact hb
    | some f =>
      have hf := hb.forwards k f hk
      simp only [RunBridge.advanceCaller]
      split
      next hcaller =>
        have habsent := hf.early (by simp [hcaller]) (by simp [hcaller])
        split_ifs
        · exact inv_setForward hb rfl hb.short (fun _ _ h => h) ⟨by simp [habsent], fun _ _ => habsent⟩
        · exact inv_setForward hb rfl hb.short (fun _ _ h => h) ⟨by simp [habsent], fun _ _ => habsent⟩
      next hcaller =>
        have habsent := hf.early (by simp [hcaller]) (by simp [hcaller])
        split_ifs with hbusy
        · exact inv_setForward hb rfl hb.short (fun _ _ h => h) ⟨by simp [habsent], fun _ _ => habsent⟩
        · -- the slot is empty, and the request takes its place
          simp only [Bool.or_eq_true, decide_eq_true_eq, not_or, not_not, ne_eq] at hbusy
          refine inv_setForward hb rfl ?_ (fun l _ hl => ?_)
            ⟨fun _ => List.mem_cons_self, fun _ _ => habsent⟩
          · rw [hbusy.1.2]
            exact Nat.le_refl 1
          · exact List.mem_cons_of_mem _ hl
      next hcaller =>
        have hheld := hf.held (.inl hcaller)
        have habsent := hf.early (by simp [hcaller]) (by simp [hcaller])
        split_ifs
        · exact inv_setForward hb rfl hb.short (fun _ _ h => h) ⟨fun _ => hheld, by simp⟩
        · exact inv_setForward hb rfl hb.short (fun _ _ h => h) ⟨fun _ => hheld, fun _ _ => habsent⟩
      next hcaller =>
        have habsent := hf.early (by simp [hcaller]) (by simp [hcaller])
        exact inv_setForward hb rfl (hfilter k) (hkept k) ⟨by simp [habsent], by simp⟩
      next hcaller =>
        refine inv_setForward hb rfl hb.short (fun _ _ h => h) ⟨fun h => hf.held ?_, by simp⟩
        exact .inr (.inr (by simpa using h))
      next => exact hb
  | worker k =>
    simp only [bridgeStep]
    cases hk : b.forwards[k]? with
    | none => exact hb
    | some f =>
      have hf := hb.forwards k f hk
      -- a thread that was started belongs to a call that has started it
      have hlate : f.worker ≠ .absent → f.caller = .waiting ∨ f.caller = .returned := by
        intro hworker
        by_contra hcaller
        rw [not_or] at hcaller
        exact hworker (hf.early hcaller.1 hcaller.2)
      simp only [RunBridge.advanceWorker]
      split
      next => exact hb
      next hworker =>
        have hcaller := hlate (by simp [hworker])
        refine inv_setForward hb rfl hb.short (fun _ _ h => h)
          ⟨fun _ => hf.held (by simp [hworker]), fun h₁ h₂ => ?_⟩
        rcases hcaller with h | h
        · exact absurd h h₁
        · exact absurd h h₂
      next hworker =>
        have hcaller := hlate (by simp [hworker])
        refine inv_setForward hb rfl (hfilter k) (hkept k) ⟨fun h => ?_, fun h₁ h₂ => ?_⟩
        · rcases hcaller with hcaller | hcaller <;> simp [hcaller] at h
        · rcases hcaller with h | h
          · exact absurd h h₁
          · exact absurd h h₂
      next => exact hb
  | advance k late alive =>
    simp only [bridgeStep]
    cases b.calls[k]? with
    | none => exact hb
    | some c =>
      simp only [RunBridge.advanceCall]
      split
      · exact inv_of_same hb rfl rfl
      · exact inv_of_same hb rfl rfl
      · exact inv_of_same hb rfl rfl
      · split_ifs <;> exact inv_of_same hb rfl rfl
      · split_ifs <;> exact inv_of_same hb rfl rfl
      · exact hb
      · exact hb

theorem bridgeRun_inv (as : List BridgeAction) : (bridgeRun as).Inv := by
  have hinitial : RunBridge.initial.Inv := ⟨Nat.zero_le 1, fun k f hf => by simp [RunBridge.initial] at hf⟩
  exact Transition.run_induction bridgeStep_inv hinitial as

/-- A physical request that is made holds the slot. -/
theorem InFlight.mem (h : InFlight b k) (hb : b.Inv) : k ∈ b.flights := by
  obtain ⟨f, hf, hworker⟩ := h
  exact (hb.forwards k f hf).held (.inr (.inr (.inl hworker)))

/-- While the slot is empty nothing is in flight. -/
theorem not_inFlight_of_drained (hdrained : b.Drained) (as : List BridgeAction) (hb : b.Inv) (k : ℕ) :
    ¬ InFlight (Transition.run bridgeStep b as) k := by
  intro h
  have hmem := h.mem (Transition.run_induction bridgeStep_inv hb as)
  rw [(drained_run hdrained as).2] at hmem
  cases hmem

/-! ### The calls -/

/-- How a call goes on: one that returns `True` has returned before or has found the slot empty, and one
that is past the closing of the slot was so before, or the slot is closed. -/
structure ClosingCall.Follows (b b' : RunBridge) (c c' : ClosingCall) : Prop where
  kind : c'.kind = c.kind
  empty : c'.phase = .returned true → c.phase = .returned true ∨ c.phase = .emptying ∧ b.flights = []
  sealed : c.phase = .marking ∨ c.phase = .sealing →
    c'.phase = .sealing ∨ c'.phase = c.phase ∨ b'.ioClosed = true

theorem ClosingCall.Follows.refl (b b' : RunBridge) (c : ClosingCall) : c.Follows b b' c :=
  ⟨rfl, .inl, fun _ => .inr (.inl rfl)⟩

theorem advanceCall_follows {k : ℕ} {c : ClosingCall} (hk : b.calls[k]? = some c) (late alive : Bool)
    {i : ℕ} {c' : ClosingCall} (h : (b.advanceCall k c late alive).calls[i]? = some c') :
    ∃ c₀, b.calls[i]? = some c₀ ∧ c₀.Follows b (b.advanceCall k c late alive) c' := by
  -- the call `k` is at another place, the others are where they were
  have hset : ∀ b' : RunBridge, ∀ p : ClosingPhase, b'.calls = b.calls.set k ⟨c.kind, p⟩ →
      c.Follows b b' ⟨c.kind, p⟩ → b'.calls[i]? = some c' →
      ∃ c₀, b.calls[i]? = some c₀ ∧ c₀.Follows b b' c' := by
    intro b' p hcalls hfollows hi
    rw [hcalls, List.getElem?_set] at hi
    split_ifs at hi with hik
    · subst hik
      exact ⟨c, hk, Option.some.inj hi ▸ hfollows⟩
    · exact ⟨c', hi, .refl b b' c'⟩
  have hstay : b.calls[i]? = some c' → ∃ c₀, b.calls[i]? = some c₀ ∧ c₀.Follows b b c' := fun hi =>
    ⟨c', hi, .refl b b c'⟩
  cases hp : c.phase with
  | marking =>
    simp only [RunBridge.advanceCall, hp] at h ⊢
    exact hset _ .sealing rfl ⟨rfl, nofun, fun _ => .inl rfl⟩ h
  | sealing =>
    simp only [RunBridge.advanceCall, hp] at h ⊢
    refine hset _ _ rfl ⟨rfl, fun hr => ?_, fun _ => .inr (.inr rfl)⟩ h
    simp only at hr
    split_ifs at hr
  | joining =>
    simp only [RunBridge.advanceCall, hp] at h ⊢
    refine hset _ _ rfl ⟨rfl, fun hr => ?_, by simp [hp]⟩ h
    simp only at hr
    split_ifs at hr
    cases hr
  | draining =>
    simp only [RunBridge.advanceCall, hp] at h ⊢
    split_ifs at h ⊢
    · exact hset _ .emptying rfl ⟨rfl, nofun, by simp [hp]⟩ h
    · exact hset _ (.returned false) rfl ⟨rfl, nofun, by simp [hp]⟩ h
    · exact hstay h
  | emptying =>
    simp only [RunBridge.advanceCall, hp] at h ⊢
    split_ifs at h ⊢ with hempty
    · exact hset _ (.returned true) rfl ⟨rfl, fun _ => .inr ⟨hp, hempty⟩, by simp [hp]⟩ h
    · exact hset _ (.returned false) rfl ⟨rfl, nofun, by simp [hp]⟩ h
    · exact hstay h
  | finished =>
    simp only [RunBridge.advanceCall, hp] at h ⊢
    exact hstay h
  | returned drained =>
    simp only [RunBridge.advanceCall, hp] at h ⊢
    exact hstay h

/-- Where a call was before a step, unless it is a new one. -/
theorem call_step (b : RunBridge) (a : BridgeAction) {i : ℕ} {c' : ClosingCall}
    (h : (bridgeStep b a).calls[i]? = some c') :
    (b.calls[i]? = none ∧ c'.phase = if c'.kind = .drain then .draining else .marking) ∨
      ∃ c, b.calls[i]? = some c ∧ c.Follows b (bridgeStep b a) c' := by
  have hold : (bridgeStep b a).calls = b.calls →
      ∃ c, b.calls[i]? = some c ∧ c.Follows b (bridgeStep b a) c' := fun hcalls =>
    ⟨c', hcalls ▸ h, .refl _ _ c'⟩
  cases a with
  | accept socket late =>
    refine .inr (hold ?_)
    simp only [bridgeStep, RunBridge.acceptSocket]
    split_ifs <;> rfl
  | release socket => exact .inr (hold rfl)
  | forward => exact .inr (hold rfl)
  | call kind =>
    by_cases hi : i < b.calls.length
    · simp only [bridgeStep, List.getElem?_append_left hi] at h
      exact .inr ⟨c', h, .refl _ _ c'⟩
    · simp only [bridgeStep, List.getElem?_append_right (Nat.le_of_not_lt hi)] at h
      obtain rfl := List.mem_singleton.1 (List.mem_of_getElem? h)
      exact .inl ⟨List.getElem?_eq_none (Nat.le_of_not_lt hi), rfl⟩
  | caller k ok =>
    refine .inr (hold ?_)
    simp only [bridgeStep]
    cases b.forwards[k]? with
    | none => rfl
    | some f =>
      simp only [RunBridge.advanceCaller]
      split <;> (try split_ifs) <;> rfl
  | worker k =>
    refine .inr (hold ?_)
    simp only [bridgeStep]
    cases b.forwards[k]? with
    | none => rfl
    | some f =>
      simp only [RunBridge.advanceWorker]
      split <;> rfl
  | advance k late alive =>
    cases hk : b.calls[k]? with
    | none => exact .inr (hold (by simp only [bridgeStep, hk]))
    | some c =>
      simp only [bridgeStep, hk] at h ⊢
      exact .inr (advanceCall_follows hk late alive h)

/-- What holds of a call: past the closing of the slot the slot is closed, and a `close` that has
returned `True` has left it empty. -/
structure ClosingCall.Sound (b : RunBridge) (c : ClosingCall) : Prop where
  sealed : c.kind ≠ .drain → c.phase ≠ .marking → c.phase ≠ .sealing → b.ioClosed = true
  drained : c.kind = .close → c.phase = .returned true → b.Drained

theorem bridgeStep_calls (b : RunBridge) (a : BridgeAction)
    (hb : ∀ (i : ℕ) (c : ClosingCall), b.calls[i]? = some c → c.Sound b) :
    ∀ (i : ℕ) (c : ClosingCall), (bridgeStep b a).calls[i]? = some c → c.Sound (bridgeStep b a) := by
  intro i c' hi
  rcases call_step b a hi with ⟨-, hnew⟩ | ⟨c, hc, hfollows⟩
  · refine ⟨fun hkind hm _ => ?_, fun hkind hr => ?_⟩
    · rw [if_neg hkind] at hnew
      exact absurd hnew hm
    · rw [hkind, if_neg (by decide)] at hnew
      rw [hnew] at hr
      cases hr
  · have hsound := hb i c hc
    refine ⟨fun hkind hm hs => ?_, fun hkind hr => ?_⟩
    · by_cases hearly : c.phase = .marking ∨ c.phase = .sealing
      · rcases hfollows.sealed hearly with h | h | h
        · exact absurd h hs
        · rcases hearly with hearly | hearly
          · exact absurd (h.trans hearly) hm
          · exact absurd (h.trans hearly) hs
        · exact h
      · rw [not_or] at hearly
        have hclosed := hsound.sealed (hfollows.kind ▸ hkind) hearly.1 hearly.2
        exact (bridgeStep_respects b a hclosed).1
    · rcases hfollows.empty hr with h | ⟨hp, hempty⟩
      · exact bridgeStep_drained a (hsound.drained (hfollows.kind ▸ hkind) h)
      · have hclosed := hsound.sealed (by rw [← hfollows.kind, hkind]; decide) (by simp [hp]) (by simp [hp])
        exact bridgeStep_drained a ⟨hclosed, hempty⟩

theorem bridgeRun_calls (as : List BridgeAction) :
    ∀ (i : ℕ) (c : ClosingCall), (bridgeRun as).calls[i]? = some c → c.Sound (bridgeRun as) := by
  refine Transition.run_induction (P := fun b => ∀ (i : ℕ) (c : ClosingCall),
    b.calls[i]? = some c → c.Sound b) bridgeStep_calls ?_ as
  intro i c hi
  simp [RunBridge.initial] at hi

/-- A call that is made when the slot is closed and returns `True` has found it empty. -/
theorem drained_of_call {k : ℕ} (hclosed : b.ioClosed = true) (hk : b.calls[k]? = none)
    (bs : List BridgeAction) {c : ClosingCall}
    (hc : (Transition.run bridgeStep b bs).calls[k]? = some c) (hr : c.phase = .returned true) :
    (Transition.run bridgeStep b bs).Drained := by
  have hrun : ∀ b : RunBridge, b.ioClosed = true ∧
      (∀ c : ClosingCall, b.calls[k]? = some c → c.phase = .returned true → b.Drained) →
      ∀ bs, (Transition.run bridgeStep b bs).ioClosed = true ∧
        ∀ c : ClosingCall, (Transition.run bridgeStep b bs).calls[k]? = some c →
          c.phase = .returned true → (Transition.run bridgeStep b bs).Drained := by
    intro b hb bs
    refine Transition.run_induction (P := fun b : RunBridge => b.ioClosed = true ∧ ∀ c : ClosingCall,
      b.calls[k]? = some c → c.phase = .returned true → b.Drained) (fun b a hb => ?_) hb bs
    refine ⟨(bridgeStep_respects b a hb.1).1, fun c' hc' hr' => ?_⟩
    rcases call_step b a hc' with ⟨-, hnew⟩ | ⟨c, hc, hfollows⟩
    · rw [hr'] at hnew
      split_ifs at hnew
    · rcases hfollows.empty hr' with h | ⟨-, hempty⟩
      · exact bridgeStep_drained a (hb.2 c hc h)
      · exact bridgeStep_drained a ⟨hb.1, hempty⟩
  exact (hrun b ⟨hclosed, fun c hc => by rw [hk] at hc; cases hc⟩ bs).2 c hc hr

/-- **A drain is a barrier.** -/
theorem drainBarrier : DrainBarrier where
  single as k l hk hl := by
    have hb := bridgeRun_inv as
    have hk := hk.mem hb
    have hl := hl.mem hb
    have hshort := hb.short
    cases hflights : (bridgeRun as).flights with
    | nil =>
      rw [hflights] at hk
      cases hk
    | cons x xs =>
      rw [hflights] at hk hl hshort
      obtain rfl := List.eq_nil_of_length_eq_zero (Nat.le_zero.1 (Nat.le_of_succ_le_succ hshort))
      rw [List.mem_singleton.1 hk, List.mem_singleton.1 hl]
  drained as bs cs hclosed hreturned k := by
    obtain ⟨i, hi⟩ := hclosed
    have hsealed := (bridgeRun_calls as i _ hi).sealed (by simp) (by simp) (by simp)
    have hdrained := drained_of_call hsealed (List.getElem?_eq_none (Nat.le_refl _))
      (.call .drain :: bs) (by rwa [bridgeRun, Transition.run_append] at hreturned) rfl
    rw [bridgeRun, Transition.run_append]
    refine not_inFlight_of_drained ?_ cs ?_ k
    · rwa [Transition.run_append]
    · exact bridgeRun_inv (as ++ .call .drain :: bs)
  closed as cs hclosed k := by
    obtain ⟨i, hi⟩ := hclosed
    rw [bridgeRun, Transition.run_append]
    exact not_inFlight_of_drained ((bridgeRun_calls as i _ hi).drained rfl rfl) cs (bridgeRun_inv as) k

end CivicLoop.Hermes
