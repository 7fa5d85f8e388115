import CivicLoop.Foundation.Transition

/-!
# Gates

A service that is shut down closes a gate: what is inside may finish, and nothing enters any more. So
what is inside a closed gate only shrinks, and once it is empty it stays empty.

## Main definitions

* `Gate` : when it is closed, and what is inside.
* `Gate.Respects` : a step does not reopen the gate and lets nothing in through a closed one.
* `Gate.Within` : the gate is closed on some of the given things at most.

## Main results

* `Gate.Within.run` : what a closed gate holds in, it holds in over every run.
-/

namespace CivicLoop

/-- A gate: whether it is closed, and what is inside. -/
structure Gate (σ ι : Type*) where
  closed : σ → Prop
  inside : σ → ι → Prop

namespace Gate

variable {σ ι α : Type*}

/-- A closed gate stays closed, and nothing enters it. -/
def Respects (g : Gate σ ι) (s s' : σ) : Prop :=
  g.closed s → g.closed s' ∧ ∀ i, g.inside s' i → g.inside s i

/-- The gate is closed, and at most the things of `A` are inside. -/
def Within (g : Gate σ ι) (A : ι → Prop) (s : σ) : Prop :=
  g.closed s ∧ ∀ i, g.inside s i → A i

variable {g : Gate σ ι} {A B : ι → Prop} {s s' : σ}

theorem Within.step (h : g.Within A s) (hstep : g.Respects s s') : g.Within A s' :=
  ⟨(hstep h.1).1, fun i hi => h.2 i ((hstep h.1).2 i hi)⟩

theorem Within.mono (h : g.Within A s) (hAB : ∀ i, g.inside s i → A i → B i) : g.Within B s :=
  ⟨h.1, fun i hi => hAB i hi (h.2 i hi)⟩

/-- **What a closed gate holds in, it holds in over every run.** -/
theorem Within.run {step : σ → α → σ} {P : σ → Prop} (hP : ∀ s a, P s → P (step s a))
    (hrespects : ∀ s a, P s → g.Respects s (step s a)) (hs : P s) (h : g.Within A s) (as : List α) :
    g.Within A (Transition.run step s as) :=
  (Transition.run_induction (P := fun s => P s ∧ g.Within A s)
    (fun s a hs => ⟨hP s a hs.1, hs.2.step (hrespects s a hs.1)⟩) ⟨hs, h⟩ as).2

end Gate

end CivicLoop
