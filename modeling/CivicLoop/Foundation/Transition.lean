import Mathlib

/-!
# Runs of a transition function

A service is modelled by a state type `σ`, a type `α` of actions and a transition function
`step : σ → α → σ`. Everything the environment decides (a clock reading, an outcome of an external
call, the caller that moves next) is part of the action, so that a run is a list of actions and
"for every interleaving" is "for every list of actions".

## Main definitions

* `Transition.run` : the state after a list of actions.
* `Transition.Reachable` : the states that some run reaches from an initial state.
* `Transition.AllSteps` : a condition on the action and the state before it, at every step of a run.

## Main results

* `Transition.run_induction`, `Transition.Reachable.induction` : an invariant of every step is an
  invariant of every run.
* `Transition.run_rel`, `Transition.Reachable.rel` : a reflexive and transitive relation between
  the two sides of every step relates the two ends of every run.
* `Transition.run_refines` : if every step is matched by a chain of abstract steps, every run is.
* `Transition.outputs_induction` : the invariant rule for a state and what the run has put out.
* `Transition.AllSteps.run_induction` : the invariant rule for the runs that meet a condition.
* `Transition.allSteps_iff_states` : a condition on the steps that is sharp for a property of the states.
-/

namespace CivicLoop.Transition

variable {σ α : Type*} (step : σ → α → σ)

/-- The state after the actions `as`, taken in order from `s`. -/
def run (s : σ) (as : List α) : σ := as.foldl step s

@[simp] theorem run_nil (s : σ) : run step s [] = s := rfl

@[simp] theorem run_cons (s : σ) (a : α) (as : List α) :
    run step s (a :: as) = run step (step s a) as := rfl

theorem run_append (s : σ) (as bs : List α) :
    run step s (as ++ bs) = run step (run step s as) bs := List.foldl_append

theorem run_concat (s : σ) (as : List α) (a : α) :
    run step s (as ++ [a]) = step (run step s as) a := by
  simp [run_append]

/-- The states reached from a state that satisfies `init`. -/
def Reachable (init : σ → Prop) (s : σ) : Prop :=
  ∃ s₀ as, init s₀ ∧ run step s₀ as = s

variable {step} {init : σ → Prop} {s : σ}

theorem Reachable.start (h : init s) : Reachable step init s := ⟨s, [], h, rfl⟩

theorem Reachable.run (h : Reachable step init s) (as : List α) :
    Reachable step init (run step s as) := by
  obtain ⟨s₀, bs, hs₀, rfl⟩ := h
  exact ⟨s₀, bs ++ as, hs₀, run_append step s₀ bs as⟩

theorem Reachable.next (h : Reachable step init s) (a : α) : Reachable step init (step s a) :=
  h.run [a]

/-- **The invariant rule.** What every step preserves, every run preserves. -/
theorem run_induction {P : σ → Prop} (hstep : ∀ s a, P s → P (step s a)) (hs : P s)
    (as : List α) : P (run step s as) := by
  induction as generalizing s with
  | nil => exact hs
  | cons a as ih => exact ih (hstep s a hs)

theorem Reachable.induction {P : σ → Prop} (h : Reachable step init s)
    (hinit : ∀ s, init s → P s) (hstep : ∀ s a, P s → P (step s a)) : P s := by
  obtain ⟨s₀, as, hs₀, rfl⟩ := h
  exact run_induction hstep (hinit s₀ hs₀) as

/-- **The stability rule.** If every step from a state with the invariant `P` relates the two sides
by a reflexive and transitive relation `R`, then every run from such a state does. -/
theorem run_rel {P : σ → Prop} {R : σ → σ → Prop} (hP : ∀ s a, P s → P (step s a))
    (hrefl : ∀ s, R s s) (htrans : ∀ s t u, R s t → R t u → R s u)
    (hR : ∀ s a, P s → R s (step s a)) (hs : P s) (as : List α) : R s (run step s as) := by
  induction as generalizing s with
  | nil => exact hrefl s
  | cons a as ih => exact htrans _ _ _ (hR s a hs) (ih (hP s a hs))

theorem Reachable.rel {P : σ → Prop} {R : σ → σ → Prop} (h : Reachable step init s)
    (hinit : ∀ s, init s → P s) (hP : ∀ s a, P s → P (step s a))
    (hrefl : ∀ s, R s s) (htrans : ∀ s t u, R s t → R t u → R s u)
    (hR : ∀ s a, P s → R s (step s a)) (as : List α) : R s (Transition.run step s as) :=
  run_rel hP hrefl htrans hR (h.induction hinit hP) as

/-- What every abstract step preserves, every chain of abstract steps preserves. -/
theorem chain_induction {τ : Type*} {T : τ → τ → Prop} {P : τ → Prop}
    (hT : ∀ t t', P t → T t t' → P t') {t t' : τ} (h : Relation.ReflTransGen T t t') (ht : P t) :
    P t' := by
  induction h with
  | refl => exact ht
  | tail _ h ih => exact hT _ _ ih h

/-- **The refinement rule.** If every step from a state whose abstraction has the invariant `P` is
matched by a chain of abstract steps, and abstract steps keep `P`, then every run is matched by a
chain of abstract steps. -/
theorem run_refines {τ : Type*} (abs : σ → τ) {T : τ → τ → Prop} {P : τ → Prop}
    (hT : ∀ t t', P t → T t t' → P t')
    (hstep : ∀ s a, P (abs s) → Relation.ReflTransGen T (abs s) (abs (step s a)))
    (hs : P (abs s)) (as : List α) :
    Relation.ReflTransGen T (abs s) (abs (Transition.run step s as)) := by
  induction as generalizing s with
  | nil => exact .refl
  | cons a as ih =>
    have hchain := hstep s a hs
    exact hchain.trans (ih (chain_induction hT hchain hs))

variable (step)

/-- What the actions of a run put out, in order, where `f` is what one action puts out in the state in
which it is taken. -/
def outputs {β : Type*} (f : σ → α → List β) : σ → List α → List β
  | _, [] => []
  | s, a :: as => f s a ++ outputs f (step s a) as

/-- The condition `C` holds of every action of a run, in the state in which it is taken. -/
def AllSteps (C : σ → α → Prop) : σ → List α → Prop
  | _, [] => True
  | s, a :: as => C s a ∧ AllSteps C (step s a) as

variable {step} {C : σ → α → Prop}

theorem outputs_append {β : Type*} (f : σ → α → List β) (s : σ) (as bs : List α) :
    outputs step f s (as ++ bs) = outputs step f s as ++ outputs step f (run step s as) bs := by
  induction as generalizing s with
  | nil => rfl
  | cons a as ih => simp [outputs, ih]

/-- What a run has put out was put out by one of its actions. -/
theorem mem_outputs {β : Type*} {f : σ → α → List β} {s : σ} {as : List α} {b : β}
    (h : b ∈ outputs step f s as) :
    ∃ as₁ a as₂, as = as₁ ++ a :: as₂ ∧ b ∈ f (run step s as₁) a := by
  induction as generalizing s with
  | nil => cases h
  | cons a as ih =>
    rcases List.mem_append.1 h with h | h
    · exact ⟨[], a, as, rfl, h⟩
    · obtain ⟨as₁, a', as₂, rfl, hb⟩ := ih h
      exact ⟨a :: as₁, a', as₂, rfl, hb⟩

@[simp] theorem allSteps_nil (s : σ) : AllSteps step C s [] := trivial

@[simp] theorem allSteps_cons (s : σ) (a : α) (as : List α) :
    AllSteps step C s (a :: as) ↔ C s a ∧ AllSteps step C (step s a) as := Iff.rfl

theorem allSteps_append (s : σ) (as bs : List α) :
    AllSteps step C s (as ++ bs) ↔
      AllSteps step C s as ∧ AllSteps step C (run step s as) bs := by
  induction as generalizing s with
  | nil => simp
  | cons a as ih => simp [ih, and_assoc]

/-- A condition that can be decided in every state can be decided of a run. -/
instance decidableAllSteps [∀ s a, Decidable (C s a)] : ∀ (s : σ) (as : List α), Decidable (AllSteps step C s as)
  | _, [] => isTrue trivial
  | s, a :: as =>
    have := decidableAllSteps (step s a) as
    inferInstanceAs (Decidable (C s a ∧ AllSteps step C (step s a) as))

/-- The condition holds of the last action of a run. -/
theorem AllSteps.last {as : List α} {a : α} (h : AllSteps step C s (as ++ [a])) :
    C (run step s as) a := ((allSteps_append s as [a]).1 h).2.1

/-- The invariant rule for a state and what was put out so far, for the runs all of whose steps meet
the condition `C`. -/
theorem AllSteps.outputs_induction {β : Type*} {f : σ → α → List β} {P : σ → List β → Prop}
    {as : List α} (h : AllSteps step C s as)
    (hstep : ∀ s a log, C s a → P s log → P (step s a) (log ++ f s a)) {log : List β}
    (hs : P s log) : P (run step s as) (log ++ outputs step f s as) := by
  induction as generalizing s log with
  | nil => simpa [outputs] using hs
  | cons a as ih =>
    rw [run_cons, outputs, ← List.append_assoc]
    exact ih h.2 (hstep s a log h.1 hs)

/-- The invariant rule for a state and what was put out so far. -/
theorem outputs_induction {β : Type*} {f : σ → α → List β} {P : σ → List β → Prop}
    (hstep : ∀ s a log, P s log → P (step s a) (log ++ f s a)) {log : List β} (hs : P s log)
    (as : List α) : P (run step s as) (log ++ outputs step f s as) := by
  have hall : AllSteps step (fun _ _ => True) s as := by
    clear hs
    induction as generalizing s with
    | nil => trivial
    | cons a as ih => exact ⟨trivial, ih⟩
  exact hall.outputs_induction (fun s a log _ => hstep s a log) hs

/-- The invariant rule for the runs all of whose steps meet the condition `C`. -/
theorem AllSteps.run_induction {P : σ → Prop} {as : List α} (h : AllSteps step C s as)
    (hstep : ∀ s a, C s a → P s → P (step s a)) (hs : P s) : P (run step s as) := by
  induction as generalizing s with
  | nil => exact hs
  | cons a as ih => exact ih h.2 (hstep s a h.1 hs)

/-- Two conditions that agree in the states with the invariant `P` hold of the same runs. -/
theorem allSteps_congr {P : σ → Prop} {C' : σ → α → Prop} (hP : ∀ s a, P s → P (step s a))
    (hC : ∀ s a, P s → (C s a ↔ C' s a)) (hs : P s) (as : List α) :
    AllSteps step C s as ↔ AllSteps step C' s as := by
  induction as generalizing s with
  | nil => exact Iff.rfl
  | cons a as ih => exact and_congr (hC s a hs) (ih (hP s a hs))

/-- **The rule for a sharp condition.** If steps that meet `C` keep an invariant `P` that implies `Q`, and a step
from `P` that does not meet `C` leaves `Q`, then all steps of a run meet `C` if and only if `Q` holds in every
state that the run reaches. -/
theorem allSteps_iff_states {P Q : σ → Prop} (hPQ : ∀ s, P s → Q s)
    (hgood : ∀ s a, P s → C s a → P (step s a)) (hbad : ∀ s a, P s → ¬ C s a → ¬ Q (step s a)) (hs : P s)
    (as : List α) : AllSteps step C s as ↔ ∀ bs, bs <+: as → Q (run step s bs) := by
  induction as generalizing s with
  | nil =>
    refine iff_of_true trivial fun bs hbs => ?_
    obtain rfl := List.prefix_nil.1 hbs
    exact hPQ s hs
  | cons a as ih =>
    constructor
    · rintro ⟨hC, hrest⟩ bs hbs
      cases bs with
      | nil => exact hPQ s hs
      | cons b bs =>
        obtain ⟨rfl, hrestPrefix⟩ := List.cons_prefix_cons.1 hbs
        exact (ih (hgood s b hs hC)).1 hrest bs hrestPrefix
    · intro h
      by_cases hC : C s a
      · exact ⟨hC, (ih (hgood s a hs hC)).2 fun bs hbs => h (a :: bs) (List.cons_prefix_cons.2 ⟨rfl, hbs⟩)⟩
      · have hprefix : [a] <+: a :: as := List.cons_prefix_cons.2 ⟨rfl, List.nil_prefix⟩
        exact absurd (h [a] hprefix) (hbad s a hs hC)

end CivicLoop.Transition
