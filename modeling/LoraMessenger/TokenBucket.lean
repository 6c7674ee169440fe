/-
Token buckets.

A bucket holds tokens, at most `capacity` of them, and remembers the time up to
which it was filled.  Filling it at a later time adds at most `grow` of the time
that has passed; spending takes tokens out, at most `slack` after the last
filling and no sooner than the last spending allows.

* `spent_le` — what is spent in any window of time is bounded by the capacity
  and what the bucket gains in a window that is longer by the slack;
* `isChain_after` — successive spendings keep the distance `after` asks for.
-/
import Mathlib.Data.List.Basic
import Mathlib.Data.List.Chain
import Mathlib.Algebra.BigOperators.Group.List.Basic
import Mathlib.Algebra.Ring.Nat
import Mathlib.Data.List.Induction

namespace TokenBucket

structure Rules where
  capacity : ℕ
  grow : ℕ → ℕ
  slack : ℕ
  after : ℕ → ℕ
  grow_add : ∀ first second, grow first + grow second ≤ grow (first + second)

structure Level where
  tokens : ℕ
  mark : ℕ
  next : ℕ

structure Spending where
  time : ℕ
  cost : ℕ
deriving DecidableEq

/-- What was spent from the time `first` to the time `last`. -/
def spent (first last : ℕ) (spendings : List Spending) : ℕ :=
  ((spendings.filter fun spending => first ≤ spending.time ∧ spending.time ≤ last).map
    Spending.cost).sum

/-- The levels of a bucket that is filled and spent from, with all spendings so far. -/
inductive Reaches (rules : Rules) : Level → List Spending → Prop where
  | start (mark : ℕ) : Reaches rules ⟨rules.capacity, mark, 0⟩ []
  | fill {level : Level} {spendings : List Spending} (h : Reaches rules level spendings)
      {time tokens : ℕ} (htime : level.mark ≤ time) (hcapacity : tokens ≤ rules.capacity)
      (htokens : tokens ≤ level.tokens + rules.grow (time - level.mark)) :
      Reaches rules ⟨tokens, time, level.next⟩ spendings
  | spend {level : Level} {spendings : List Spending} (h : Reaches rules level spendings)
      {time cost : ℕ} (htime : level.mark ≤ time) (hslack : time ≤ level.mark + rules.slack)
      (hnext : level.next ≤ time) (hcost : cost ≤ level.tokens) :
      Reaches rules ⟨level.tokens - cost, level.mark, rules.after time⟩
        (spendings ++ [⟨time, cost⟩])

variable {rules : Rules} {level : Level} {spendings : List Spending} {first last : ℕ}

theorem grow_mono {short long : ℕ} (h : short ≤ long) : rules.grow short ≤ rules.grow long := by
  have hadd := rules.grow_add short (long - short)
  rw [Nat.add_sub_cancel' h] at hadd
  omega

@[simp] theorem spent_nil : spent first last [] = 0 := rfl

theorem spent_concat (spendings : List Spending) (spending : Spending) :
    spent first last (spendings ++ [spending]) = spent first last spendings +
      if first ≤ spending.time ∧ spending.time ≤ last then spending.cost else 0 := by
  rw [spent, List.filter_append, List.map_append, List.sum_append, ← spent]
  by_cases hwindow : first ≤ spending.time ∧ spending.time ≤ last
  · simp [hwindow]
  · simp [hwindow]

namespace Reaches

theorem tokens_le (h : Reaches rules level spendings) : level.tokens ≤ rules.capacity := by
  induction h with
  | start => exact le_refl _
  | fill _ _ hcapacity _ _ => exact hcapacity
  | spend _ _ _ _ _ ih => exact le_trans (Nat.sub_le _ _) ih

/-- The invariant behind `spent_le`: once something was spent in the window, what
is left of the bound covers the tokens and all that the rest of the window adds. -/
theorem spent_covered (h : Reaches rules level spendings) (hwindow : first ≤ last) :
    spent first last spendings = 0 ∨
      spent first last spendings ≤ rules.capacity + rules.grow (last - first + rules.slack) ∧
      (level.mark ≤ last → spent first last spendings + level.tokens +
        rules.grow (last - level.mark) ≤
          rules.capacity + rules.grow (last - first + rules.slack)) := by
  induction h with
  | start mark => exact .inl rfl
  | @fill level spendings h time tokens htime hcapacity htokens ih =>
    refine ih.imp_right ?_
    rintro ⟨hbound, hcovered⟩
    refine ⟨hbound, ?_⟩
    intro hlast
    change time ≤ last at hlast
    have hsplit := rules.grow_add (time - level.mark) (last - time)
    rw [show time - level.mark + (last - time) = last - level.mark by omega] at hsplit
    have := hcovered (le_trans htime hlast)
    show spent first last spendings + tokens + rules.grow (last - time) ≤ _
    omega
  | @spend level spendings h time cost htime hslack hnext hcost ih =>
    rw [spent_concat]
    by_cases hinside : first ≤ time ∧ time ≤ last
    · -- The mark lies at most the slack before `time`, so before `last`.
      rw [if_pos hinside]
      have hmark : level.mark ≤ last := le_trans htime hinside.2
      have hcovered : spent first last spendings + level.tokens +
          rules.grow (last - level.mark) ≤
          rules.capacity + rules.grow (last - first + rules.slack) := by
        rcases ih with hnone | ⟨-, hcovered⟩
        · have htokens := h.tokens_le
          have hgrow : rules.grow (last - level.mark) ≤ rules.grow (last - first + rules.slack) :=
            grow_mono (by omega)
          omega
        · exact hcovered hmark
      right
      constructor
      · show spent first last spendings + cost ≤ _
        omega
      · intro _
        show spent first last spendings + cost + (level.tokens - cost) +
          rules.grow (last - level.mark) ≤ _
        omega
    · rw [if_neg hinside, Nat.add_zero]
      refine ih.imp_right ?_
      rintro ⟨hbound, hcovered⟩
      refine ⟨hbound, ?_⟩
      intro hmark
      have := hcovered hmark
      show spent first last spendings + (level.tokens - cost) + rules.grow (last - level.mark) ≤ _
      omega

theorem spent_le (h : Reaches rules level spendings) (hwindow : first ≤ last) :
    spent first last spendings ≤ rules.capacity + rules.grow (last - first + rules.slack) := by
  obtain hnone | ⟨hbound, -⟩ := h.spent_covered hwindow
  · omega
  · exact hbound

theorem next_eq (h : Reaches rules level spendings) :
    level.next = (spendings.getLast?.map fun spending => rules.after spending.time).getD 0 := by
  induction h with
  | start mark => rfl
  | fill _ _ _ _ ih => exact ih
  | spend _ _ _ _ _ _ => simp

theorem isChain_after (h : Reaches rules level spendings) :
    spendings.IsChain fun earlier later => rules.after earlier.time ≤ later.time := by
  induction h with
  | start mark => exact .nil
  | fill _ _ _ _ ih => exact ih
  | @spend level spendings h time cost _ _ hnext _ ih =>
    refine List.isChain_append.mpr ⟨ih, .singleton _, ?_⟩
    intro earlier hearlier later hlater
    obtain rfl : _ = later := Option.some.inj hlater
    have hlast := h.next_eq
    rw [Option.mem_def.mp hearlier] at hlast
    exact le_trans hlast.ge hnext

end Reaches

end TokenBucket
