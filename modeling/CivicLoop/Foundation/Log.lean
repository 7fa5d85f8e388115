import Mathlib

/-!
# Logs

What a system does is written into a log, in the order in which it happens. A guard says which entry
may follow which log, and a log is guarded if every entry of it met the guard when it was written.

## Main definitions

* `Guarded` : every entry meets the guard, with what stands before it.

## Main results

* `guarded_concat` : one more entry.
* `Guarded.of_mem` : what stands before an entry.
-/

namespace CivicLoop

variable {ε : Type*} {P : List ε → ε → Prop} {log : List ε} {e : ε}

/-- Every entry meets the guard, with what stands before it. -/
def Guarded (P : List ε → ε → Prop) (log : List ε) : Prop :=
  ∀ before e after, log = before ++ e :: after → P before e

theorem guarded_nil : Guarded P [] := by
  intro before e after h
  simp at h

/-- One more entry. -/
theorem guarded_concat : Guarded P (log ++ [e]) ↔ Guarded P log ∧ P log e := by
  constructor
  · intro h
    refine ⟨fun before e' after heq => h before e' (after ++ [e]) ?_, h log e [] rfl⟩
    rw [heq, List.append_assoc, List.cons_append]
  · rintro ⟨h, he⟩ before e' after heq
    rcases List.eq_nil_or_concat after with rfl | ⟨after', e'', rfl⟩
    · obtain ⟨rfl, hlast⟩ := List.append_inj' heq rfl
      obtain rfl := List.singleton_inj.1 hlast
      exact he
    · rw [List.concat_eq_append, ← List.cons_append, ← List.append_assoc] at heq
      exact h before e' after' (List.append_inj' heq rfl).1

/-- What stands before an entry. -/
theorem Guarded.of_mem (h : Guarded P log) (he : e ∈ log) :
    ∃ before after, log = before ++ e :: after ∧ P before e := by
  obtain ⟨before, after, heq⟩ := List.append_of_mem he
  exact ⟨before, after, heq, h before e after heq⟩

end CivicLoop
