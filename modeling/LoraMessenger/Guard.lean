/-
Guards in the `Except` monad.

A checked constructor or a decoder is a chain of conditions, each of which
returns an error.  The lemmas below read such a chain backwards: from a
successful result to the conditions that were passed.
-/
import Mathlib.Logic.Basic

namespace Guard

variable {ε α : Type*} {c : Prop} [Decidable c]

theorem ite_error_eq_ok {error : ε} {next : Except ε α} {value : α} :
    (if c then .error error else next) = .ok value ↔ ¬c ∧ next = .ok value := by
  by_cases h : c
  · simp [h]
  · simp [h]

theorem ite_error_eq_error {error failed : ε} {next : Except ε α} :
    (if c then .error error else next) = .error failed ↔ c ∧ error = failed ∨ ¬c ∧
      next = .error failed := by
  by_cases h : c
  · simp [h]
  · simp [h]

theorem ite_ok_eq_ok {error : ε} {result value : α} :
    (if c then .ok result else .error error : Except ε α) = .ok value ↔ c ∧ result = value := by
  by_cases h : c
  · simp [h]
  · simp [h]

theorem dite_ok_eq_ok {build : c → α} {error : ε} {value : α} :
    (if h : c then (.ok (build h) : Except ε α) else .error error) = .ok value ↔
      ∃ h, build h = value := by
  by_cases h : c
  · simp [h]
  · simp [h]

theorem bind_eq_ok {ε α β : Type} {first : Except ε α} {next : α → Except ε β} {value : β} :
    first >>= next = .ok value ↔ ∃ result, first = .ok result ∧ next result = .ok value := by
  cases first with
  | error error => simp [bind, Except.bind]
  | ok result => simp [bind, Except.bind]

end Guard
