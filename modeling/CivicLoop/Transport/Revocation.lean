import CivicLoop.Foundation.Gate
import CivicLoop.Transport.Server

/-!
# The revocation barrier

The records of the I/O of one scope are the inside of a gate, which the mark of `revoke_scope` closes:
no record enters a marked scope. What the first section of `revoke_scope` found is all that is inside,
and a set event has left. So a revocation that returns without raising leaves the gate empty, and it
stays empty.

A worker has its record as long as it runs, since the only slot is its own until then. So no worker of
the scope is left, and a worker that ends removes its own record.

## Main definitions

* `Io.Moves` : what a step does to the I/O and to the calls.
* `Io.Inv` : who holds the slot, and whose the records are.
* `scopeGate`, `Settled` : the gate of a scope, and what a revocation has found out about it.

## Main results

* `revocation_barrier` : the barrier, over every run.
-/

namespace CivicLoop.Transport

open Gateway

variable {D : Type} [DecidableEq D]

/-! ### Phases -/

/-- The phases that hold the slot. -/
def Phase.holds : Phase → Bool
  | .registering _ => true
  | .starting _ => true
  | _ => false

/-- The phases before a worker. -/
def Phase.early : Phase → Bool
  | .waiting => true
  | .acquiring _ => true
  | .registering _ => true
  | .starting _ => true
  | _ => false

/-- No worker has been started for the number `id`. -/
def Idle (calls : Table ℕ Call) (id : ℕ) : Prop :=
  ∀ call, calls.get? id = some call → call.phase.early = true

theorem get?_advance (calls : Table ℕ Call) (id : ℕ) (phase : Phase) (id' : ℕ) :
    (advance calls id phase).get? id' =
      if id' = id then (calls.get? id).map fun call => { call with phase } else calls.get? id' :=
  Table.get?_modify _ _ _ _

/-- A call after one of them goes on. -/
theorem of_get?_advance {calls : Table ℕ Call} {id id' : ℕ} {phase : Phase} {call' : Call}
    (h : (advance calls id phase).get? id' = some call') :
    (id' = id ∧ call'.phase = phase) ∨ (id' ≠ id ∧ calls.get? id' = some call') := by
  rw [get?_advance] at h
  split_ifs at h with hid
  · obtain ⟨call, -, rfl⟩ := Option.map_eq_some_iff.1 h
    exact .inl ⟨hid, rfl⟩
  · exact .inr ⟨hid, h⟩

theorem idle_of_advance {calls : Table ℕ Call} {id id' : ℕ} {phase : Phase} {call : Call}
    (hcall : calls.get? id = some call) (h : Idle (advance calls id phase) id')
    (hphase : phase.early = true → call.phase.early = true) : Idle calls id' := by
  intro call' hcall'
  by_cases hid : id' = id
  · subst hid
    rw [hcall] at hcall'
    obtain rfl := Option.some.inj hcall'
    refine hphase (h { call with phase } ?_)
    rw [get?_advance, if_pos rfl, hcall, Option.map_some]
  · exact h call' (by rw [get?_advance, if_neg hid, hcall'])

/-! ### Moves -/

section Moves

variable (digest : String → D)

/-- What a step does to the I/O and to the calls. -/
inductive Io.Moves (io : Io D) (calls : Table ℕ Call) : Io D → Table ℕ Call → Prop
  | quiet (calls' : Table ℕ Call)
      (hholds : ∀ id call, call.phase.holds = true →
        (calls'.get? id = some call ↔ calls.get? id = some call))
      (hidle : ∀ id, Idle calls' id → Idle calls id) : Io.Moves io calls io calls'
  | acquires (id : ℕ) (call : Call) (u : Upstream) (hcall : calls.get? id = some call)
      (hphase : call.phase = .acquiring u) (hslot : io.slot = none) :
      Io.Moves io calls { io with slot := some id } (advance calls id (.registering u))
  | refuses (id : ℕ) (call : Call) (u : Upstream) (e : TransportError)
      (hcall : calls.get? id = some call) (hphase : call.phase = .registering u) :
      Io.Moves io calls { io with slot := none } (advance calls id (.leaving (.error e)))
  | records (id : ℕ) (call : Call) (u : Upstream) (hcall : calls.get? id = some call)
      (hphase : call.phase = .registering u)
      (hopen : digest call.request.token ∉ io.revokedScopes) :
      Io.Moves io calls { io with scopeIo := io.scopeIo.put (digest call.request.token) id }
        (advance calls id (.starting u))
  | starts (id : ℕ) (call : Call) (u : Upstream) (hcall : calls.get? id = some call)
      (hphase : call.phase = .starting u) :
      Io.Moves io calls { io with workers := io.workers.put id call.request.token }
        (advance calls id (.awaiting u))
  | fails (id : ℕ) (call : Call) (u : Upstream) (e : TransportError)
      (hcall : calls.get? id = some call) (hphase : call.phase = .starting u) :
      Io.Moves io calls (io.close id (digest call.request.token) none)
        (advance calls id (.leaving (.error e)))
  | finishes (id : ℕ) (token : String) (response : Option Response)
      (hworker : io.workers.get? id = some token) :
      Io.Moves io calls
        { io.close id (digest token) response with workers := io.workers.erase id } calls
  | marks (d : D) : Io.Moves io calls { io with revokedScopes := d :: io.revokedScopes } calls

variable {digest} {io : Io D} {calls : Table ℕ Call}

theorem Io.Moves.stays : Io.Moves digest io calls io calls := .quiet calls (fun _ _ _ => Iff.rfl) fun _ => id

/-- A call goes on from a phase without the slot to another. -/
theorem Io.Moves.goes {id : ℕ} {call : Call} {phase : Phase} (hcall : calls.get? id = some call)
    (hold : call.phase.holds = false) (hnew : phase.holds = false)
    (hphase : phase.early = true → call.phase.early = true) :
    Io.Moves digest io calls io (advance calls id phase) := by
  refine .quiet _ (fun id' call' hholds => ?_) fun id' h => idle_of_advance hcall h hphase
  constructor
  · intro h
    rcases of_get?_advance h with ⟨-, hsame⟩ | ⟨-, h⟩
    · rw [hsame, hnew] at hholds
      cases hholds
    · exact h
  · intro h
    rw [get?_advance, if_neg, h]
    rintro rfl
    rw [hcall] at h
    rw [← Option.some.inj h, hold] at hholds
    cases hholds

/-- A call begins in a phase without the slot. -/
theorem Io.Moves.begins {id : ℕ} {call : Call} {calls' : Table ℕ Call}
    (h : calls.insert? id call = some calls') (hnew : call.phase.holds = false) :
    Io.Moves digest io calls io calls' := by
  have hget := Table.get?_of_insert? h
  have hnone := (Table.insert?_eq_some h).1
  refine .quiet _ (fun id' call' hholds => ?_) fun id' hidle call' hcall' => ?_
  · rw [hget]
    split_ifs with hid
    · rw [hid, hnone]
      constructor
      · intro hsame
        rw [← Option.some.inj hsame, hnew] at hholds
        cases hholds
      · rintro ⟨⟩
    · rfl
  · refine hidle call' ?_
    rw [hget, if_neg, hcall']
    rintro rfl
    rw [hnone] at hcall'
    cases hcall'

theorem begin_moves (s : ServerState D) (id : ℕ) (call : Call) (hnew : call.phase.holds = false) :
    Io.Moves digest s.toIo s.calls (s.begin id call).toIo (s.begin id call).calls := by
  unfold ServerState.begin
  split
  · rename_i calls h
    exact .begins h hnew
  · exact .stays

variable {P : Primitives} {cfg : ServerConfig}

theorem receive_moves (s : ServerState D) (id : ℕ) (q : Request) (now : Time) (lease : LeaseReply) :
    Io.Moves digest s.toIo s.calls (receive digest cfg s id q now lease).toIo
      (receive digest cfg s id q now lease).calls := by
  unfold receive
  split_ifs
  · exact .stays
  · split
    · rename_i r _
      exact begin_moves { s with registry := r } id _ rfl
    · rename_i e r _
      exact begin_moves { s with registry := r } id _ rfl

theorem enter_moves {s : ServerState D} {id : ℕ} {call : Call} (hcall : s.calls.get? id = some call)
    (v : Readings) : Io.Moves digest s.toIo s.calls (enter digest P cfg s id v call).toIo
      (enter digest P cfg s id v call).calls := by
  unfold enter
  split
  · rename_i hphase
    split_ifs
    · exact .stays
    · split
      · exact .goes hcall (by rw [hphase]; rfl) rfl fun _ => by rw [hphase]; rfl
      · exact .goes hcall (by rw [hphase]; rfl) rfl fun _ => by rw [hphase]; rfl
  · exact .stays

theorem acquire_moves {s : ServerState D} {id : ℕ} {call : Call}
    (hcall : s.calls.get? id = some call) :
    Io.Moves digest s.toIo s.calls (acquire s id call).toIo (acquire s id call).calls := by
  unfold acquire
  split
  · rename_i u hphase
    split_ifs with hslot
    · exact .acquires id call u hcall hphase hslot
    · exact .goes hcall (by rw [hphase]; rfl) rfl fun _ => by rw [hphase]; rfl
  · exact .stays

theorem record_moves {s : ServerState D} {id : ℕ} {call : Call}
    (hcall : s.calls.get? id = some call) :
    Io.Moves digest s.toIo s.calls (record digest s id call).toIo (record digest s id call).calls := by
  unfold record
  split
  · rename_i u hphase
    split_ifs with hopen
    · exact .refuses id call u _ hcall hphase
    · exact .records id call u hcall hphase hopen
  · exact .stays

theorem spawn_moves {s : ServerState D} {id : ℕ} {call : Call}
    (hcall : s.calls.get? id = some call) (starts : Bool) :
    Io.Moves digest s.toIo s.calls (spawn digest s id starts call).toIo
      (spawn digest s id starts call).calls := by
  unfold spawn
  split
  · rename_i u hphase
    split_ifs
    · exact .starts id call u hcall hphase
    · exact .fails id call u _ hcall hphase
  · exact .stays

theorem finish_moves (s : ServerState D) (id : ℕ) (response : Option Response) :
    Io.Moves digest s.toIo s.calls (finish digest s id response).toIo
      (finish digest s id response).calls := by
  unfold finish
  split
  · rename_i token hworker
    exact .finishes id token response hworker
  · exact .stays

theorem collect_moves {s : ServerState D} {id : ℕ} {call : Call}
    (hcall : s.calls.get? id = some call) (inTime : Bool) :
    Io.Moves digest s.toIo s.calls (collect cfg s id inTime call).toIo
      (collect cfg s id inTime call).calls := by
  unfold collect
  split
  · rename_i u hphase
    exact .goes hcall (by rw [hphase]; rfl) rfl nofun
  · exact .stays

theorem leave_moves {s : ServerState D} {id : ℕ} {call : Call}
    (hcall : s.calls.get? id = some call) :
    Io.Moves digest s.toIo s.calls (leave s id call).toIo (leave s id call).calls := by
  unfold leave
  split
  · rename_i result hphase
    exact .goes hcall (by rw [hphase]; rfl) rfl nofun
  · exact .stays

theorem mark_moves (s : ServerState D) (id : ℕ) (call : Revocation) :
    Io.Moves digest s.toIo s.calls (mark digest cfg s id call).toIo (mark digest cfg s id call).calls := by
  unfold mark
  split
  · dsimp only
    split_ifs
    · exact .stays
    · exact .stays
    · exact .marks (digest call.token)
  · exact .stays

/-- **What a step does to the I/O and to the calls.** -/
theorem serve_moves (s : ServerState D) (a : ServerAction) :
    Io.Moves digest s.toIo s.calls (serve digest P cfg s a).toIo (serve digest P cfg s a).calls := by
  have hcall : ∀ (id : ℕ) (f : Call → ServerState D),
      (∀ call, s.calls.get? id = some call → Io.Moves digest s.toIo s.calls (f call).toIo (f call).calls) →
      Io.Moves digest s.toIo s.calls (s.onCall id f).toIo (s.onCall id f).calls := by
    intro id f hf
    unfold ServerState.onCall
    split
    · rename_i call h
      exact hf call h
    · exact .stays
  have hrevoke : ∀ (id : ℕ) (f : Revocation → ServerState D),
      (∀ call, Io.Moves digest s.toIo s.calls (f call).toIo (f call).calls) →
      Io.Moves digest s.toIo s.calls (s.onRevoke id f).toIo (s.onRevoke id f).calls := by
    intro id f hf
    unfold ServerState.onRevoke
    split
    · exact hf _
    · exact .stays
  cases a with
  | request id q now lease => exact receive_moves s id q now lease
  | enter id v => exact hcall id _ fun call h => enter_moves h v
  | acquire id => exact hcall id _ fun call h => acquire_moves h
  | record id => exact hcall id _ fun call h => record_moves h
  | spawn id starts => exact hcall id _ fun call h => spawn_moves h starts
  | finish id response => exact finish_moves s id response
  | collect id inTime => exact hcall id _ fun call h => collect_moves h inTime
  | leave id => exact hcall id _ fun call h => leave_moves h
  | revoke id token =>
    change Io.Moves digest s.toIo s.calls (receiveRevoke digest s id token).toIo
      (receiveRevoke digest s id token).calls
    unfold receiveRevoke ServerState.beginRevoke
    split <;> split <;> exact .stays
  | mark id => exact hrevoke id _ fun call => mark_moves s id call
  | revokeRegistry id =>
    refine hrevoke id _ fun call => ?_
    unfold revokeRegistry
    split
    · split_ifs
      · exact .stays
      · split <;> exact .stays
    · exact .stays
  | check id =>
    refine hrevoke id _ fun call => ?_
    unfold check
    split
    · split_ifs <;> exact .stays
    · exact .stays
  | registry now a =>
    change Io.Moves digest s.toIo s.calls (callRegistry digest cfg s now a).toIo
      (callRegistry digest cfg s now a).calls
    unfold callRegistry
    split_ifs <;> exact .stays

end Moves

/-! ### The invariant -/

section Invariant

/-- The slot belongs to one request or its worker, and so does the only record. -/
structure Io.Inv (digest : String → D) (io : Io D) (calls : Table ℕ Call) : Prop where
  idle : ∀ id, Idle calls id → io.done.get? id = none ∧ io.workers.get? id = none
  holding : ∀ id call, calls.get? id = some call → call.phase.holds = true → io.slot = some id
  starting : ∀ id call u, calls.get? id = some call → call.phase = .starting u →
    io.scopeIo.get? (digest call.request.token) = some id
  worker : ∀ id token, io.workers.get? id = some token →
    io.slot = some id ∧ io.scopeIo.get? (digest token) = some id ∧ io.done.get? id = none
  record : ∀ d id, io.scopeIo.get? d = some id → io.slot = some id ∧
    ((∃ token, io.workers.get? id = some token ∧ digest token = d) ∨
      ∃ call u, calls.get? id = some call ∧ call.phase = .starting u ∧ digest call.request.token = d)

variable {digest : String → D} {io : Io D} {calls : Table ℕ Call}

theorem idle_of_early {id : ℕ} {call : Call} (hcall : calls.get? id = some call)
    (h : call.phase.early = true) : Idle calls id := by
  intro call' hcall'
  rw [hcall] at hcall'
  rwa [← Option.some.inj hcall']

namespace Io.Inv

theorem init : Io.Inv digest (ServerState.init (D := D)).toIo (ServerState.init (D := D)).calls where
  idle _ _ := ⟨rfl, rfl⟩
  holding _ _ h := nomatch h
  starting _ _ _ h := nomatch h
  worker _ _ h := nomatch h
  record _ _ h := nomatch h

/-- The I/O whose record there is has not ended. -/
theorem done_of_record (h : Io.Inv digest io calls) {d : D} {id : ℕ}
    (hrecord : io.scopeIo.get? d = some id) : io.done.get? id = none := by
  obtain ⟨-, ⟨token, hworker, -⟩ | ⟨call, u, hcall, hphase, -⟩⟩ := h.record d id hrecord
  · exact (h.worker id token hworker).2.2
  · exact (h.idle id (idle_of_early hcall (by rw [hphase]; rfl))).1

/-- While the slot is free there is no worker and no record. -/
theorem empty_of_free (h : Io.Inv digest io calls) (hslot : io.slot = none) :
    (∀ id, io.workers.get? id = none) ∧ ∀ d, io.scopeIo.get? d = none := by
  constructor
  · intro id
    cases hworker : io.workers.get? id with
    | none => rfl
    | some token => exact absurd (h.worker id token hworker).1 (by simp [hslot])
  · intro d
    cases hrecord : io.scopeIo.get? d with
    | none => rfl
    | some id => exact absurd (h.record d id hrecord).1 (by simp [hslot])

theorem early_of_holds {phase : Phase} (h : phase.holds = true) : phase.early = true := by
  cases phase <;> first | rfl | cases h

/-- While a request holds the slot there is no worker. -/
theorem no_worker (h : Io.Inv digest io calls) {id : ℕ} {call : Call}
    (hcall : calls.get? id = some call) (hholds : call.phase.holds = true) (id' : ℕ) :
    io.workers.get? id' = none := by
  have hidle := (h.idle id (idle_of_early hcall (early_of_holds hholds))).2
  cases hworker : io.workers.get? id' with
  | none => rfl
  | some token =>
    have hsame := (h.worker id' token hworker).1
    rw [h.holding id call hcall hholds] at hsame
    rw [← Option.some.inj hsame, hidle] at hworker
    cases hworker

/-- The holder of the slot goes on to a phase without it. -/
theorem no_holder (h : Io.Inv digest io calls) {id : ℕ} {call : Call} {phase : Phase}
    (hcall : calls.get? id = some call) (hholds : call.phase.holds = true)
    (hnew : phase.holds = false) (id' : ℕ) (call' : Call)
    (hcall' : (advance calls id phase).get? id' = some call') : call'.phase.holds = false := by
  rcases of_get?_advance hcall' with ⟨-, hsame⟩ | ⟨hne, hcall'⟩
  · rw [hsame, hnew]
  · refine Bool.eq_false_iff.2 fun hph => hne ?_
    have hsame := h.holding id' call' hcall' hph
    rw [h.holding id call hcall hholds] at hsame
    exact (Option.some.inj hsame).symm

/-- While a request that has not been recorded holds the slot there is no worker and no record. -/
theorem empty_of_registering (h : Io.Inv digest io calls) {id : ℕ} {call : Call} {u : Upstream}
    (hcall : calls.get? id = some call) (hphase : call.phase = .registering u) :
    (∀ id, io.workers.get? id = none) ∧ ∀ d, io.scopeIo.get? d = none := by
  have hslot : io.slot = some id := h.holding id call hcall (by rw [hphase]; rfl)
  have hworkers := h.no_worker hcall (by rw [hphase]; rfl)
  refine ⟨hworkers, fun d => ?_⟩
  cases hrecord : io.scopeIo.get? d with
  | none => rfl
  | some id' =>
    obtain ⟨hsame, ⟨token, hworker, -⟩ | ⟨call', u', hcall', hphase', -⟩⟩ := h.record d id' hrecord
    · rw [hworkers id'] at hworker
      cases hworker
    · rw [hslot] at hsame
      rw [← Option.some.inj hsame, hcall] at hcall'
      rw [← Option.some.inj hcall', hphase] at hphase'
      cases hphase'

/-- While a request that has been recorded holds the slot there is no worker, and no other record. -/
theorem only_of_starting (h : Io.Inv digest io calls) {id : ℕ} {call : Call} {u : Upstream}
    (hcall : calls.get? id = some call) (hphase : call.phase = .starting u) :
    (∀ id, io.workers.get? id = none) ∧
      ∀ d id', io.scopeIo.get? d = some id' → id' = id ∧ d = digest call.request.token := by
  have hslot : io.slot = some id := h.holding id call hcall (by rw [hphase]; rfl)
  have hworkers := h.no_worker hcall (by rw [hphase]; rfl)
  refine ⟨hworkers, fun d id' hrecord => ?_⟩
  obtain ⟨hsame, ⟨token, hworker, -⟩ | ⟨call', u', hcall', -, hd⟩⟩ := h.record d id' hrecord
  · rw [hworkers id'] at hworker
    cases hworker
  · rw [hslot] at hsame
    obtain rfl := Option.some.inj hsame
    rw [hcall] at hcall'
    obtain rfl := Option.some.inj hcall'
    exact ⟨rfl, hd.symm⟩

/-- While a worker runs there is no other, and no other record. -/
theorem only_of_worker (h : Io.Inv digest io calls) {id : ℕ} {token : String}
    (hworker : io.workers.get? id = some token) :
    (∀ id' token', io.workers.get? id' = some token' → id' = id) ∧
      ∀ d id', io.scopeIo.get? d = some id' → id' = id ∧ d = digest token := by
  obtain ⟨hslot, -, -⟩ := h.worker id token hworker
  refine ⟨fun id' token' hworker' => ?_, fun d id' hrecord => ?_⟩
  · have hsame := (h.worker id' token' hworker').1
    rw [hslot] at hsame
    exact (Option.some.inj hsame).symm
  · obtain ⟨hsame, hwhose⟩ := h.record d id' hrecord
    rw [hslot] at hsame
    obtain rfl := Option.some.inj hsame
    rcases hwhose with ⟨token', hworker', hd⟩ | ⟨call, u, hcall, hphase, -⟩
    · rw [hworker] at hworker'
      obtain rfl := Option.some.inj hworker'
      exact ⟨rfl, hd.symm⟩
    · have hidle := (h.idle id (idle_of_early hcall (by rw [hphase]; rfl))).2
      rw [hworker] at hidle
      cases hidle

/-- Without a worker and without a record. -/
theorem of_empty (hidle : ∀ id, Idle calls id → io.done.get? id = none)
    (hworkers : ∀ id, io.workers.get? id = none) (hrecords : ∀ d, io.scopeIo.get? d = none)
    (hholding : ∀ id call, calls.get? id = some call → call.phase.holds = true →
      io.slot = some id ∧ ∃ u, call.phase = .registering u) : Io.Inv digest io calls where
  idle id h := ⟨hidle id h, hworkers id⟩
  holding id call hcall hholds := (hholding id call hcall hholds).1
  starting id call u hcall hphase := by
    obtain ⟨-, u', hphase'⟩ := hholding id call hcall (by rw [hphase]; rfl)
    rw [hphase] at hphase'
    cases hphase'
  worker id token hworker := by
    rw [hworkers id] at hworker
    cases hworker
  record d id hrecord := by
    rw [hrecords d] at hrecord
    cases hrecord

end Io.Inv

/-- **Every move keeps the invariant.** -/
theorem Io.Moves.inv {io' : Io D} {calls' : Table ℕ Call} (hmoves : Io.Moves digest io calls io' calls')
    (h : Io.Inv digest io calls) : Io.Inv digest io' calls' := by
  cases hmoves with
  | quiet _ hholds hidle =>
    refine ⟨fun id hid => h.idle id (hidle id hid), fun id call hcall hph => ?_,
      fun id call u hcall hph => ?_, h.worker, fun d id hrecord => ?_⟩
    · exact h.holding id call ((hholds id call hph).1 hcall) hph
    · exact h.starting id call u ((hholds id call (by rw [hph]; rfl)).1 hcall) hph
    · refine (h.record d id hrecord).imp_right fun hwhose => hwhose.imp_right ?_
      rintro ⟨call, u, hcall, hph, hd⟩
      exact ⟨call, u, (hholds id call (by rw [hph]; rfl)).2 hcall, hph, hd⟩
  | acquires id call u hcall hphase hslot =>
    obtain ⟨hworkers, hrecords⟩ := h.empty_of_free hslot
    refine .of_empty (fun id' hid' => ?_) hworkers hrecords fun id' call' hcall' hph => ?_
    · exact (h.idle id' (idle_of_advance hcall hid' fun _ => by rw [hphase]; rfl)).1
    · rcases of_get?_advance hcall' with ⟨rfl, hsame⟩ | ⟨-, hcall'⟩
      · exact ⟨rfl, u, hsame⟩
      · exact absurd (h.holding id' call' hcall' hph) (by simp [hslot])
  | refuses id call u e hcall hphase =>
    obtain ⟨hworkers, hrecords⟩ := h.empty_of_registering hcall hphase
    have hslot : io.slot = some id := h.holding id call hcall (by rw [hphase]; rfl)
    have hnone := h.no_holder hcall (by rw [hphase]; rfl) (show (.leaving (.error e) : Phase).holds = false from rfl)
    refine .of_empty (fun id' hid' => ?_) hworkers hrecords fun id' call' hcall' hph => ?_
    · exact (h.idle id' (idle_of_advance hcall hid' (by intro hearly; cases hearly))).1
    · rw [hnone id' call' hcall'] at hph
      cases hph
  | records id call u hcall hphase hopen =>
    obtain ⟨hworkers, hrecords⟩ := h.empty_of_registering hcall hphase
    have hslot : io.slot = some id := h.holding id call hcall (by rw [hphase]; rfl)
    have hself : (advance calls id (.starting u)).get? id = some { call with phase := .starting u } := by
      rw [get?_advance, if_pos rfl, hcall, Option.map_some]
    have honly : ∀ id' call', (advance calls id (.starting u)).get? id' = some call' →
        call'.phase.holds = true → id' = id := by
      intro id' call' hcall' hph
      rcases of_get?_advance hcall' with ⟨hid, -⟩ | ⟨-, hcall'⟩
      · exact hid
      · have hsame := h.holding id' call' hcall' hph
        rw [hslot] at hsame
        exact (Option.some.inj hsame).symm
    refine ⟨fun id' hid' => ?_, fun id' call' hcall' hph => ?_, fun id' call' u' hcall' hph => ?_,
      fun id' token hworker => ?_, fun d id' hrecord => ?_⟩
    · exact h.idle id' (idle_of_advance hcall hid' fun _ => by rw [hphase]; rfl)
    · rw [honly id' call' hcall' hph]
      exact hslot
    · obtain rfl := honly id' call' hcall' (by rw [hph]; rfl)
      rw [hself] at hcall'
      rw [← Option.some.inj hcall']
      exact Table.get?_put_self ..
    · rw [hworkers id'] at hworker
      cases hworker
    · rw [Table.get?_put] at hrecord
      split_ifs at hrecord with hd
      · obtain rfl := Option.some.inj hrecord
        exact ⟨hslot, .inr ⟨_, u, hself, rfl, hd.symm⟩⟩
      · rw [hrecords d] at hrecord
        cases hrecord
  | starts id call u hcall hphase =>
    obtain ⟨hworkers, honly⟩ := h.only_of_starting hcall hphase
    have hslot : io.slot = some id := h.holding id call hcall (by rw [hphase]; rfl)
    have hrecord := h.starting id call u hcall hphase
    have hnone := h.no_holder hcall (by rw [hphase]; rfl) (show (.awaiting u : Phase).holds = false from rfl)
    refine ⟨fun id' hid' => ?_, fun id' call' hcall' hph => ?_, fun id' call' u' hcall' hph => ?_,
      fun id' token hworker => ?_, fun d id' hrecord' => ?_⟩
    · have hne : id' ≠ id := by
        rintro rfl
        have := hid' { call with phase := .awaiting u } (by rw [get?_advance, if_pos rfl, hcall]; rfl)
        cases this
      obtain ⟨hdone, hworker⟩ := h.idle id' (idle_of_advance hcall hid' (by intro hearly; cases hearly))
      exact ⟨hdone, by rw [Table.get?_put_of_ne _ _ hne, hworker]⟩
    · rw [hnone id' call' hcall'] at hph
      cases hph
    · exact absurd (hnone id' call' hcall') (by rw [hph]; simp [Phase.holds])
    · rw [Table.get?_put] at hworker
      split_ifs at hworker with hid
      · obtain rfl := Option.some.inj hworker
        subst hid
        exact ⟨hslot, hrecord, h.done_of_record hrecord⟩
      · rw [hworkers id'] at hworker
        cases hworker
    · obtain ⟨rfl, rfl⟩ := honly d id' hrecord'
      exact ⟨hslot, .inl ⟨_, Table.get?_put_self .., rfl⟩⟩
  | fails id call u e hcall hphase =>
    obtain ⟨hworkers, honly⟩ := h.only_of_starting hcall hphase
    have hslot : io.slot = some id := h.holding id call hcall (by rw [hphase]; rfl)
    have hnone := h.no_holder hcall (by rw [hphase]; rfl) (show (.leaving (.error e) : Phase).holds = false from rfl)
    refine .of_empty (fun id' hid' => ?_) hworkers (fun d => ?_) fun id' call' hcall' hph => ?_
    · have hne : id' ≠ id := by
        rintro rfl
        have := hid' { call with phase := .leaving (.error e) }
          (by rw [get?_advance, if_pos rfl, hcall]; rfl)
        cases this
      exact (Table.get?_put_of_ne _ _ hne).trans (h.idle id' (idle_of_advance hcall hid' (by intro hearly; cases hearly))).1
    · change (io.scopeIo.erase (digest call.request.token)).get? d = none
      rw [Table.get?_erase]
      split_ifs with hd
      · rfl
      · cases hrecord : io.scopeIo.get? d with
        | none => rfl
        | some id' => exact absurd (honly d id' hrecord).2 hd
    · rw [hnone id' call' hcall'] at hph
      cases hph
  | finishes id token response hworker =>
    obtain ⟨hsole, honly⟩ := h.only_of_worker hworker
    have hholding : ∀ id' call', calls.get? id' = some call' → call'.phase.holds = false := by
      intro id' call' hcall'
      refine Bool.eq_false_iff.2 fun hph => ?_
      rw [h.no_worker hcall' hph id] at hworker
      cases hworker
    refine .of_empty (fun id' hid' => ?_) (fun id' => ?_) (fun d => ?_) fun id' call' hcall' hph => ?_
    · have hne : id' ≠ id := by
        rintro rfl
        rw [(h.idle id' hid').2] at hworker
        cases hworker
      exact (Table.get?_put_of_ne _ _ hne).trans (h.idle id' hid').1
    · change (io.workers.erase id).get? id' = none
      rw [Table.get?_erase]
      split_ifs with hid
      · rfl
      · cases hworker' : io.workers.get? id' with
        | none => rfl
        | some token' => exact absurd (hsole id' token' hworker') hid
    · change (io.scopeIo.erase (digest token)).get? d = none
      rw [Table.get?_erase]
      split_ifs with hd
      · rfl
      · cases hrecord : io.scopeIo.get? d with
        | none => rfl
        | some id' => exact absurd (honly d id' hrecord).2 hd
    · rw [hholding id' call' hcall'] at hph
      cases hph
  | marks d => exact ⟨h.idle, h.holding, h.starting, h.worker, h.record⟩

end Invariant

/-! ### The gate of a scope -/

section Gate

/-- The records of a scope are inside, and its mark closes the gate. -/
def scopeGate (d : D) : Gate (ServerState D) ℕ where
  closed s := d ∈ s.revokedScopes
  inside s id := s.scopeIo.get? d = some id

/-- What a revocation has found out: the I/O of the scope is the one it saw, or there is none. -/
def Settled (digest : String → D) (s : ServerState D) (call : Revocation) : Prop :=
  match call.phase with
  | .revoking active => (scopeGate (digest call.token)).Within (active = some ·) s
  | .checking active => (scopeGate (digest call.token)).Within (active = some ·) s
  | .ended (.ok ()) => (scopeGate (digest call.token)).Within (fun _ => False) s
  | _ => True

variable {digest : String → D} {P : Primitives} {cfg : ServerConfig} {s : ServerState D}

/-- The I/O part of a step lets no record into a marked scope. -/
theorem Io.Moves.gate {io io' : Io D} {calls calls' : Table ℕ Call}
    (h : Io.Moves digest io calls io' calls') {d : D} (hclosed : d ∈ io.revokedScopes) :
    d ∈ io'.revokedScopes ∧ ∀ id, io'.scopeIo.get? d = some id → io.scopeIo.get? d = some id := by
  have herase : ∀ {d' : D} {id : ℕ}, (io.scopeIo.erase d').get? d = some id →
      io.scopeIo.get? d = some id := by
    intro d' id hrecord
    rw [Table.get?_erase] at hrecord
    split_ifs at hrecord
    exact hrecord
  cases h with
  | quiet => exact ⟨hclosed, fun _ => id⟩
  | acquires => exact ⟨hclosed, fun _ => id⟩
  | refuses => exact ⟨hclosed, fun _ => id⟩
  | records id call u hcall hphase hopen =>
    refine ⟨hclosed, fun id' hrecord => ?_⟩
    rwa [Table.get?_put_of_ne] at hrecord
    rintro rfl
    exact hopen hclosed
  | starts => exact ⟨hclosed, fun _ => id⟩
  | fails => exact ⟨hclosed, fun id => herase⟩
  | finishes => exact ⟨hclosed, fun id => herase⟩
  | marks d' => exact ⟨List.mem_cons_of_mem _ hclosed, fun _ => id⟩

theorem serve_respects (d : D) (a : ServerAction) :
    (scopeGate d).Respects s (serve digest P cfg s a) :=
  fun hclosed => (serve_moves s a).gate hclosed

/-- A step keeps what a revocation has found out. -/
theorem Settled.serve {call : Revocation} (h : Settled digest s call) (a : ServerAction) :
    Settled digest (serve digest P cfg s a) call := by
  unfold Settled at h ⊢
  split at h
  · exact h.step (serve_respects _ a)
  · exact h.step (serve_respects _ a)
  · exact h.step (serve_respects _ a)
  · trivial

/-- A revocation after one of them goes on. -/
theorem of_get?_gotoRevoke {id id' : ℕ} {phase : RevokePhase} {call call' : Revocation}
    (hcall : s.revocations.get? id = some call)
    (h : (s.gotoRevoke id phase).revocations.get? id' = some call') :
    call' = { call with phase } ∨ s.revocations.get? id' = some call' := by
  have hget : (s.gotoRevoke id phase).revocations.get? id' = if id' = id then
      (s.revocations.get? id).map fun call => { call with phase } else s.revocations.get? id' :=
    Table.get?_modify _ _ _ _
  rw [hget] at h
  split_ifs at h
  · rw [hcall, Option.map_some] at h
    exact .inl (Option.some.inj h).symm
  · exact .inr h

/-- The first section closes the gate of the scope and sees what is inside. -/
theorem mark_settled {id id' : ℕ} {call call' : Revocation} (hcall : s.revocations.get? id = some call)
    (h : (mark digest cfg s id call).revocations.get? id' = some call') :
    s.revocations.get? id' = some call' ∨ Settled digest (mark digest cfg s id call) call' := by
  unfold mark at h ⊢
  split at h
  · dsimp only at h ⊢
    split_ifs at h ⊢ with hmarked
    · rcases of_get?_gotoRevoke hcall h with rfl | h
      · exact .inr ⟨hmarked, fun _ h => h⟩
      · exact .inl h
    · rcases of_get?_gotoRevoke hcall h with rfl | h
      · exact .inr trivial
      · exact .inl h
    · have hcall' : { s with revokedScopes := digest call.token :: s.revokedScopes }.revocations.get? id =
          some call := hcall
      rcases of_get?_gotoRevoke hcall' h with rfl | h
      · exact .inr ⟨List.mem_cons_self, fun _ h => h⟩
      · exact .inl h
  · exact .inl h

theorem revokeRegistry_settled {id id' : ℕ} {call call' : Revocation}
    (hcall : s.revocations.get? id = some call) (hsettled : Settled digest s call)
    (h : (revokeRegistry digest cfg s id call).revocations.get? id' = some call') :
    s.revocations.get? id' = some call' ∨ Settled digest (revokeRegistry digest cfg s id call) call' := by
  unfold revokeRegistry at h ⊢
  split at h
  · rename_i active hphase
    split_ifs at h ⊢
    · exact .inl h
    · split at h
      · rename_i r _
        have hcall' : { s with registry := r }.revocations.get? id = some call := hcall
        rcases of_get?_gotoRevoke hcall' h with rfl | h
        · rw [Settled, hphase] at hsettled
          exact .inr hsettled
        · exact .inl h
      · rename_i e r _
        have hcall' : { s with registry := r }.revocations.get? id = some call := hcall
        rcases of_get?_gotoRevoke hcall' h with rfl | h
        · exact .inr trivial
        · exact .inl h
  · exact .inl h

/-- The I/O that the revocation saw has ended, so nothing is inside. -/
theorem check_settled {id id' : ℕ} {call call' : Revocation} (hinv : Io.Inv digest s.toIo s.calls)
    (hcall : s.revocations.get? id = some call) (hsettled : Settled digest s call)
    (h : (check s id call).revocations.get? id' = some call') :
    s.revocations.get? id' = some call' ∨ Settled digest (check s id call) call' := by
  unfold check at h ⊢
  split at h
  · rename_i active hphase
    rw [Settled, hphase] at hsettled
    split_ifs at h ⊢ with hdone
    · rcases of_get?_gotoRevoke hcall h with rfl | h
      · refine .inr (hsettled.mono fun io hrecord hsame => ?_)
        have hnone := hinv.done_of_record (show s.scopeIo.get? (digest call.token) = some io from hrecord)
        rw [show active = some io from hsame] at hdone
        simp [hnone] at hdone
      · exact .inl h
    · rcases of_get?_gotoRevoke hcall h with rfl | h
      · exact .inr trivial
      · exact .inl h
  · exact .inl h

end Gate

/-! ### Runs -/

/-- The invariant of the server. -/
structure ServerState.Inv (digest : String → D) (s : ServerState D) : Prop where
  io : Io.Inv digest s.toIo s.calls
  settled : ∀ id call, s.revocations.get? id = some call → Settled digest s call

section Runs

variable {digest : String → D} {P : Primitives} {cfg : ServerConfig} {s : ServerState D}

/-- A revocation was there before the step, or the step has settled it. -/
theorem serve_settled (h : s.Inv digest) (a : ServerAction) {id : ℕ} {call : Revocation}
    (hcall : (serve digest P cfg s a).revocations.get? id = some call) :
    s.revocations.get? id = some call ∨ Settled digest (serve digest P cfg s a) call := by
  have hsame : (serve digest P cfg s a).revocations = s.revocations →
      s.revocations.get? id = some call := fun hsame => hsame ▸ hcall
  have honCall : ∀ (id : ℕ) (f : Call → ServerState D), (∀ call, (f call).revocations = s.revocations) →
      (s.onCall id f).revocations = s.revocations := by
    intro id f hf
    unfold ServerState.onCall
    split
    · exact hf _
    · rfl
  cases a with
  | request id' q now lease =>
    refine .inl (hsame ?_)
    change (receive digest cfg s id' q now lease).revocations = s.revocations
    unfold receive ServerState.begin
    split_ifs
    · rfl
    · split <;> split <;> rfl
  | enter id' v =>
    refine .inl (hsame (honCall id' _ fun call => ?_))
    unfold enter
    split
    · split_ifs
      · rfl
      · split <;> rfl
    · rfl
  | acquire id' =>
    refine .inl (hsame (honCall id' _ fun call => ?_))
    unfold acquire
    split
    · split_ifs <;> rfl
    · rfl
  | record id' =>
    refine .inl (hsame (honCall id' _ fun call => ?_))
    unfold record
    split
    · split_ifs <;> rfl
    · rfl
  | spawn id' starts =>
    refine .inl (hsame (honCall id' _ fun call => ?_))
    unfold spawn
    split
    · split_ifs <;> rfl
    · rfl
  | finish id' response =>
    refine .inl (hsame ?_)
    change (finish digest s id' response).revocations = s.revocations
    unfold finish
    split <;> rfl
  | collect id' inTime =>
    refine .inl (hsame (honCall id' _ fun call => ?_))
    unfold collect
    split <;> rfl
  | leave id' =>
    refine .inl (hsame (honCall id' _ fun call => ?_))
    unfold leave
    split <;> rfl
  | registry now a =>
    refine .inl (hsame ?_)
    change (callRegistry digest cfg s now a).revocations = s.revocations
    unfold callRegistry
    split_ifs <;> rfl
  | revoke id' token =>
    have hbegin : ∀ new : Revocation, (new.phase = .marking ∨ ∃ e, new.phase = .ended (.error e)) →
        (s.beginRevoke id' new).revocations.get? id = some call →
        s.revocations.get? id = some call ∨ Settled digest (s.beginRevoke id' new) call := by
      intro new hnew hget
      unfold ServerState.beginRevoke at hget ⊢
      split at hget
      · rename_i revocations hinsert
        rw [Table.get?_of_insert? hinsert] at hget
        split_ifs at hget
        · obtain rfl := Option.some.inj hget
          right
          unfold Settled
          rcases hnew with hnew | ⟨e, hnew⟩ <;> rw [hnew] <;> trivial
        · exact .inl hget
      · exact .inl hget
    change (receiveRevoke digest s id' token).revocations.get? id = some call at hcall
    change s.revocations.get? id = some call ∨ Settled digest (receiveRevoke digest s id' token) call
    unfold receiveRevoke at hcall ⊢
    split at hcall
    · exact hbegin _ (.inl rfl) hcall
    · rename_i e _
      exact hbegin _ (.inr ⟨e, rfl⟩) hcall
  | mark id' =>
    change (s.onRevoke id' (mark digest cfg s id')).revocations.get? id = some call at hcall
    change _ ∨ Settled digest (s.onRevoke id' (mark digest cfg s id')) call
    unfold ServerState.onRevoke at hcall ⊢
    split at hcall
    · rename_i old hold
      exact mark_settled hold hcall
    · exact .inl hcall
  | revokeRegistry id' =>
    change (s.onRevoke id' (revokeRegistry digest cfg s id')).revocations.get? id = some call at hcall
    change _ ∨ Settled digest (s.onRevoke id' (revokeRegistry digest cfg s id')) call
    unfold ServerState.onRevoke at hcall ⊢
    split at hcall
    · rename_i old hold
      exact revokeRegistry_settled hold (h.settled id' old hold) hcall
    · exact .inl hcall
  | check id' =>
    change (s.onRevoke id' (check s id')).revocations.get? id = some call at hcall
    change _ ∨ Settled digest (s.onRevoke id' (check s id')) call
    unfold ServerState.onRevoke at hcall ⊢
    split at hcall
    · rename_i old hold
      exact check_settled h.io hold (h.settled id' old hold) hcall
    · exact .inl hcall

theorem ServerState.Inv.serve (h : s.Inv digest) (a : ServerAction) :
    (serve digest P cfg s a).Inv digest where
  io := (serve_moves s a).inv h.io
  settled id call hcall := by
    rcases serve_settled h a hcall with hold | hsettled
    · exact (h.settled id call hold).serve a
    · exact hsettled

/-- The invariant, of every run. -/
theorem serverInv_of_run (digest : String → D) (P : Primitives) (cfg : ServerConfig)
    (as : List ServerAction) : (Transition.run (serve digest P cfg) .init as).Inv digest :=
  Transition.run_induction (P := ServerState.Inv digest) (fun _ a h => h.serve a)
    ⟨.init, fun _ _ h => nomatch h⟩ as

end Runs

/-- What holds of every run of the server. -/
structure RevocationBarrier (digest : String → D) (P : Primitives) (cfg : ServerConfig) : Prop where
  /-- Once a revocation has returned, no worker carries the authority of its token any more. -/
  quiet : ∀ as id token,
    (Transition.run (serve digest P cfg) .init as).revocations.get? id =
      some ⟨token, .ended (.ok ())⟩ →
    ∀ bs id' token',
      (Transition.run (serve digest P cfg) .init (as ++ bs)).workers.get? id' = some token' →
        digest token' ≠ digest token
  /-- A worker that ends removes its own record, and no other. -/
  own : ∀ as id token response,
    (Transition.run (serve digest P cfg) .init as).workers.get? id = some token →
    (Transition.run (serve digest P cfg) .init as).scopeIo.get? (digest token) = some id ∧
      ∀ d id', id' ≠ id → (Transition.run (serve digest P cfg) .init as).scopeIo.get? d = some id' →
        (serve digest P cfg (Transition.run (serve digest P cfg) .init as)
          (.finish id response)).scopeIo.get? d = some id'

/-- **Revocation is a barrier.** -/
theorem revocation_barrier (digest : String → D) (P : Primitives) (cfg : ServerConfig) :
    RevocationBarrier digest P cfg where
  quiet as id token hended bs id' token' hworker hsame := by
    have hquiet := (serverInv_of_run digest P cfg as).settled id _ hended
    have hempty : (scopeGate (digest token)).Within (fun _ => False)
        (Transition.run (serve digest P cfg) (Transition.run (serve digest P cfg) .init as) bs) :=
      Gate.Within.run (P := fun _ => True) (fun _ _ h => h)
        (fun _ a _ => serve_respects (digest token) a) trivial hquiet bs
    rw [← Transition.run_append] at hempty
    obtain ⟨-, hrecord, -⟩ := (serverInv_of_run digest P cfg (as ++ bs)).io.worker id' token' hworker
    exact hempty.2 id' (hsame ▸ hrecord)
  own as id token response hworker := by
    have hinv := (serverInv_of_run digest P cfg as).io
    refine ⟨(hinv.worker id token hworker).2.1, fun d id' hne hrecord => ?_⟩
    exact absurd ((hinv.only_of_worker hworker).2 d id' hrecord).1 hne

end CivicLoop.Transport
