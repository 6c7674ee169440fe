/-
Histories of events.

A history is a list, the oldest event first.  `Each rule history` says that
every event obeys a rule that may look at the events before it, so it holds of
a history iff it holds of the history without its last event and of this
event: rules are carried through a run one event at a time.
-/
import Mathlib.Data.List.Basic
import Mathlib.Data.List.Induction

namespace Trace

variable {α : Type*} {rule : List α → α → Prop}

/-- Every event obeys the rule, given the events before it. -/
def Each (rule : List α → α → Prop) (history : List α) : Prop :=
  ∀ before event after, history = before ++ event :: after → rule before event

theorem each_nil : Each rule [] := by
  intro before event after h
  exact absurd h (by simp)

theorem each_concat {history : List α} {event : α} :
    Each rule (history ++ [event]) ↔ Each rule history ∧ rule history event := by
  constructor
  · intro h
    refine ⟨?_, h history event [] rfl⟩
    intro before other after hsplit
    exact h before other (after ++ [event]) (by rw [hsplit, List.append_assoc, List.cons_append])
  · rintro ⟨h, hevent⟩ before other after hsplit
    rcases List.eq_nil_or_concat' after with rfl | ⟨after, last, rfl⟩
    · obtain ⟨hbefore, hother⟩ := List.append_inj' hsplit rfl
      rw [List.cons.injEq] at hother
      rw [← hbefore, ← hother.1]
      exact hevent
    · rw [← List.cons_append, ← List.append_assoc] at hsplit
      obtain ⟨hbefore, -⟩ := List.append_inj' hsplit rfl
      exact h before other after hbefore

/-- A rule that only asks for something that stays true once it has happened. -/
theorem Each.append {history added : List α} (h : Each rule history)
    (hadded : ∀ before event after, added = before ++ event :: after →
      rule (history ++ before) event) : Each rule (history ++ added) := by
  induction added using List.reverseRecOn with
  | nil => rwa [List.append_nil]
  | append_singleton added event ih =>
    rw [← List.append_assoc, each_concat]
    refine ⟨ih ?_, hadded added event [] rfl⟩
    intro before other after hsplit
    exact hadded before other (after ++ [event])
      (by rw [hsplit, List.append_assoc, List.cons_append])

end Trace
