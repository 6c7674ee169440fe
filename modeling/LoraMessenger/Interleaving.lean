/-
Components that hear each other.

Each component of a family takes steps of its own, in any interleaving with the
others, and shares nothing with them but what has been said.  What one component
may hear depends on what all of them have said, and this only grows.

* `run` — the states of all components after a list of steps;
* `run_apply` — each of them is where its own steps lead;
* `Rely` — a local invariant that rests on what has been said;
* `Rely.run` — such an invariant holds of every component, whatever the interleaving.
-/
import LoraMessenger.Trace
import Mathlib.Logic.Function.Basic

namespace Interleaving

variable {ι σ ε μ : Type*}

section Run

variable [DecidableEq ι] (next : ι → σ → ε → σ)

/-- One component takes a step. -/
def step (states : ι → σ) (event : ι × ε) : ι → σ :=
  Function.update states event.1 (next event.1 (states event.1) event.2)

def run (start : ι → σ) (events : List (ι × ε)) : ι → σ := events.foldl (step next) start

theorem run_concat (start : ι → σ) (events : List (ι × ε)) (event : ι × ε) :
    run next start (events ++ [event]) = step next (run next start events) event := by
  simp [run, List.foldl_append]

/-- The events of one component. -/
def eventsOf (i : ι) (events : List (ι × ε)) : List ε :=
  (events.filter fun event => event.1 = i).map Prod.snd

/-- A component does what its own events make it do. -/
theorem run_apply (start : ι → σ) (events : List (ι × ε)) (i : ι) :
    run next start events i = (eventsOf i events).foldl (next i) (start i) := by
  induction events using List.reverseRecOn with
  | nil => rfl
  | append_singleton events event ih =>
    rw [run_concat, step, eventsOf, List.filter_append, List.map_append, List.foldl_append]
    by_cases hsame : event.1 = i
    · subst hsame
      rw [Function.update_self, ih]
      simp [eventsOf]
    · rw [Function.update_of_ne (Ne.symm hsame), ih]
      simp [eventsOf, hsame]

end Run

/-- What some component has said. -/
def Said (tells : σ → μ → Prop) (states : ι → σ) (word : μ) : Prop := ∃ i, tells (states i) word

/-- An invariant of each component that rests on what is `known` and is kept by steps that
bring the component only what is known. -/
structure Rely (next : ι → σ → ε → σ) (tells : σ → μ → Prop)
    (brings : ι → (μ → Prop) → σ → ε → Prop) (inv : ι → (μ → Prop) → σ → Prop) : Prop where
  mono : ∀ {i known known' s}, (∀ word, known word → known' word) → inv i known s → inv i known' s
  grows : ∀ {i known s} event word, inv i known s → tells s word → tells (next i s event) word
  step : ∀ {i known s event}, inv i known s → brings i known s event → inv i known (next i s event)

namespace Rely

variable [DecidableEq ι] {next : ι → σ → ε → σ} {tells : σ → μ → Prop}
  {brings : ι → (μ → Prop) → σ → ε → Prop} {inv : ι → (μ → Prop) → σ → Prop}

/-- What has been said stays said. -/
theorem said_step (h : Rely next tells brings inv) {states : ι → σ} {known : μ → Prop}
    (hinv : ∀ i, inv i known (states i)) (event : ι × ε) {word : μ}
    (hsaid : Said tells states word) :
    Said tells (Interleaving.step next states event) word := by
  obtain ⟨i, htells⟩ := hsaid
  refine ⟨i, ?_⟩
  by_cases hsame : i = event.1
  · subst hsame
    rw [Interleaving.step, Function.update_self]
    exact h.grows event.2 word (hinv event.1) htells
  · rw [Interleaving.step, Function.update_of_ne hsame]
    exact htells

/-- **Rely and guarantee.**  If every event brings its component only what has been said by the
time it is over, every component keeps its invariant. -/
theorem run (h : Rely next tells brings inv) {start : ι → σ}
    (hstart : ∀ i, inv i (Said tells start) (start i)) (events : List (ι × ε))
    (hbrings : Trace.Each (fun before event =>
      brings event.1 (Said tells (Interleaving.run next start (before ++ [event])))
        (Interleaving.run next start before event.1) event.2) events) (i : ι) :
    inv i (Said tells (Interleaving.run next start events))
      (Interleaving.run next start events i) := by
  induction events using List.reverseRecOn generalizing i with
  | nil => exact hstart i
  | append_singleton events event ih =>
    obtain ⟨hbefore, hevent⟩ := Trace.each_concat.mp hbrings
    rw [run_concat] at hevent ⊢
    have hinv := ih hbefore
    -- first every component learns what the step has said, then one of them takes it
    have hmore : ∀ j, inv j (Said tells (Interleaving.step next (Interleaving.run next start events)
        event)) (Interleaving.run next start events j) := by
      intro j
      exact h.mono (fun word hsaid => h.said_step hinv event hsaid) (hinv j)
    by_cases hsame : i = event.1
    · subst hsame
      have hkept := h.step (hmore event.1) hevent
      rw [Interleaving.step, Function.update_self]
      rw [Interleaving.step] at hkept
      exact hkept
    · have hother := hmore i
      rw [Interleaving.step, Function.update_of_ne hsame]
      rw [Interleaving.step] at hother
      exact hother

end Rely

end Interleaving
