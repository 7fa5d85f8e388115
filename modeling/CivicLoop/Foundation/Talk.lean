import Mathlib

/-!
# Programs that talk to another party

A program sends requests to a party outside and reads its answers, which may be anything and may depend on all that was
exchanged before. It may raise an error; the exchanges up to it stay. What holds of every run against every party is
found with the rules below, one for each way to build a program.

## Main definitions

* `Talk` : programs; `Talk.ask`, `Talk.raise`, `Talk.attempt`.
* `Talk.Holds` : what holds at the end, whatever the answers are.
* `Talk.Adds` : what holds of the exchanges that a program adds.

## Main results

* `Talk.holds_bind` : the rule of a sequence.
* `Talk.adds_pure`, `Talk.adds_raise`, `Talk.adds_lift`, `Talk.adds_ask`, `Talk.adds_bind`, `Talk.adds_attempt_bind` :
  the rules for the exchanges that a program adds.
-/

namespace CivicLoop

/-- The requests so far, with their answers. -/
abbrev Exchanges (Req Ans : Type) := List (Req × Ans)

/-- The other party: what it answers after some exchanges. -/
abbrev Party (Req Ans : Type) := Exchanges Req Ans → Req → Ans

/-- A program: against a party and after some exchanges, its result and all exchanges. -/
def Talk (Req Ans ε α : Type) := Party Req Ans → Exchanges Req Ans → Except ε α × Exchanges Req Ans

namespace Talk

variable {Req Ans ε α β : Type}

/-- A request. -/
def ask (request : Req) : Talk Req Ans ε Ans := fun party log =>
  (.ok (party log request), log ++ [(request, party log request)])

/-- An error. -/
def raise (e : ε) : Talk Req Ans ε α := fun _ log => (.error e, log)

/-- A program with its error as a value. -/
def attempt (x : Talk Req Ans ε α) : Talk Req Ans ε (Except ε α) := fun party log =>
  (.ok (x party log).1, (x party log).2)

instance : Monad (Talk Req Ans ε) where
  pure a := fun _ log => (.ok a, log)
  bind x f := fun party log =>
    match x party log with
    | (.ok a, log) => f a party log
    | (.error e, log) => (.error e, log)

instance : MonadLift (Except ε) (Talk Req Ans ε) where
  monadLift x := fun _ log => (x, log)

/-! ### What holds at the end -/

/-- After the exchanges `log`, a program ends with `Q`, whatever the answers are. -/
def Holds (x : Talk Req Ans ε α) (log : Exchanges Req Ans) (Q : Except ε α → Exchanges Req Ans → Prop) : Prop :=
  ∀ party, Q (x party log).1 (x party log).2

variable {log : Exchanges Req Ans} {Q Q' : Except ε α → Exchanges Req Ans → Prop}

theorem Holds.mono {x : Talk Req Ans ε α} (h : x.Holds log Q) (hQ : ∀ r log', Q r log' → Q' r log') :
    x.Holds log Q' := fun party => hQ _ _ (h party)

/-- A program that goes on after another one. -/
theorem holds_bind {x : Talk Req Ans ε α} {f : α → Talk Req Ans ε β} {R : Except ε β → Exchanges Req Ans → Prop}
    (h : x.Holds log Q) (hok : ∀ a log', Q (.ok a) log' → (f a).Holds log' R)
    (herror : ∀ e log', Q (.error e) log' → R (.error e) log') : (x >>= f).Holds log R := by
  intro party
  have hx := h party
  simp only [bind]
  generalize x party log = r at hx
  obtain ⟨a | a, log'⟩ := r
  · exact herror a log' hx
  · exact hok a log' hx party

/-! ### What a program adds -/

/-- Whatever was exchanged before, a program ends with `Q` on the exchanges that it adds. -/
def Adds (x : Talk Req Ans ε α) (Q : Except ε α → Exchanges Req Ans → Prop) : Prop :=
  ∀ log, x.Holds log fun r log' => ∃ new, log' = log ++ new ∧ Q r new

variable {R : Except ε β → Exchanges Req Ans → Prop}

theorem Adds.mono {x : Talk Req Ans ε α} (h : x.Adds Q) (hQ : ∀ r new, Q r new → Q' r new) : x.Adds Q' := by
  intro log
  refine (h log).mono fun r log' hr => ?_
  obtain ⟨new, rfl, hnew⟩ := hr
  exact ⟨new, rfl, hQ r new hnew⟩

/-- What a program adds to no exchanges are all exchanges. -/
theorem Adds.holds {x : Talk Req Ans ε α} (h : x.Adds Q) : x.Holds [] Q := by
  refine (h []).mono fun r log' hr => ?_
  obtain ⟨new, rfl, hnew⟩ := hr
  exact hnew

theorem adds_pure {a : α} (h : Q (.ok a) []) : (pure a : Talk Req Ans ε α).Adds Q := fun log _ =>
  ⟨[], (List.append_nil log).symm, h⟩

theorem adds_raise {e : ε} (h : Q (.error e) []) : (raise e : Talk Req Ans ε α).Adds Q := fun log _ =>
  ⟨[], (List.append_nil log).symm, h⟩

theorem adds_lift {x : Except ε α} (h : Q x []) : (liftM x : Talk Req Ans ε α).Adds Q := fun log _ =>
  ⟨[], (List.append_nil log).symm, h⟩

theorem adds_ask {request : Req} {Q : Except ε Ans → Exchanges Req Ans → Prop}
    (h : ∀ answer, Q (.ok answer) [(request, answer)]) : (ask request : Talk Req Ans ε Ans).Adds Q := fun log party =>
  ⟨_, rfl, h (party log request)⟩

theorem adds_bind {x : Talk Req Ans ε α} {f : α → Talk Req Ans ε β} (h : x.Adds Q)
    (hok : ∀ a new, Q (.ok a) new → (f a).Adds fun r new' => R r (new ++ new'))
    (herror : ∀ e new, Q (.error e) new → R (.error e) new) : (x >>= f).Adds R := by
  intro log
  refine holds_bind (h log) (fun a log' ha => ?_) fun e log' he => ?_
  · obtain ⟨new, rfl, hnew⟩ := ha
    refine (hok a new hnew _).mono fun r log'' hr => ?_
    obtain ⟨new', rfl, hR⟩ := hr
    exact ⟨new ++ new', List.append_assoc _ _ _, hR⟩
  · obtain ⟨new, rfl, hnew⟩ := he
    exact ⟨new, rfl, herror e new hnew⟩

theorem adds_raise_bind {e : ε} {f : α → Talk Req Ans ε β} (h : R (.error e) []) :
    ((raise e : Talk Req Ans ε α) >>= f).Adds R := fun log _ =>
  ⟨[], (List.append_nil log).symm, h⟩

theorem adds_lift_bind {x : Except ε α} {f : α → Talk Req Ans ε β} (hok : ∀ a, x = .ok a → (f a).Adds R)
    (herror : ∀ e, x = .error e → R (.error e) []) : ((liftM x : Talk Req Ans ε α) >>= f).Adds R := by
  cases x with
  | ok a => exact hok a rfl
  | error e => exact fun log _ => ⟨[], (List.append_nil log).symm, herror e rfl⟩

theorem adds_bind_lift {x : Talk Req Ans ε α} {g : α → Except ε β} (h : x.Adds Q)
    (hR : ∀ r new, Q r new → R (r >>= g) new) : (x >>= fun a => (liftM (g a) : Talk Req Ans ε β)).Adds R := by
  refine adds_bind h (fun a new ha => adds_lift ?_) fun e new he => hR (.error e) new he
  rw [List.append_nil]
  exact hR (.ok a) new ha

/-- A program that goes on after another one, whether it has raised an error or not. -/
theorem adds_attempt_bind {x : Talk Req Ans ε α} {f : Except ε α → Talk Req Ans ε β} (h : x.Adds Q)
    (hf : ∀ r new, Q r new → (f r).Adds fun r' new' => R r' (new ++ new')) : (x.attempt >>= f).Adds R := by
  intro log party
  obtain ⟨new, hlog, hnew⟩ := h log party
  obtain ⟨new', hlog', hR⟩ := hf _ new hnew (x party log).2 party
  refine ⟨new ++ new', ?_, hR⟩
  rw [← List.append_assoc, ← hlog]
  exact hlog'

end Talk

end CivicLoop
