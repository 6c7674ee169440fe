/-
Programs that make calls and get answers.

A program has a memory and a partner that answers each of its calls.  The answers come from a
script; when it is used up, every call gets the same answer.  All that was said is kept, so
what a program may say, and when, is a property of the last state of a run.

* `ask` — one call, and `insist`, which repeats it as long as the answer asks for it;
* `wp` — the weakest precondition, one rule for each construct;
* `Maintains` — what holds of the state between calls holds after a program;
* `Quiet` — programs that leave a view of the state alone.
-/
import LoraMessenger.Trace

namespace Dialogue

/-- A memory, what was said so far, and the answers that are still to come. -/
structure Talk (μ κ ρ : Type) where
  memory : μ
  said : List (κ × ρ) := []
  script : List ρ := []

abbrev Speaker (μ κ ρ : Type) := StateM (Talk μ κ ρ)

variable {μ κ ρ α β ν : Type}

def ask [Inhabited ρ] (call : κ) : Speaker μ κ ρ ρ := fun talk =>
  let answer := talk.script.headD default
  (answer, { talk with said := talk.said ++ [(call, answer)], script := talk.script.tail })

def memory : Speaker μ κ ρ μ := fun talk => (talk.memory, talk)

/-- What was said so far. -/
def said : Speaker μ κ ρ (List (κ × ρ)) := fun talk => (talk.said, talk)

def update (change : μ → μ) : Speaker μ κ ρ Unit :=
  fun talk => ((), { talk with memory := change talk.memory })

/-- How many answers are still to come. -/
def pending : Speaker μ κ ρ ℕ := fun talk => (talk.script.length, talk)

/-- Repeats a call at most so many times. -/
def insistFor [Inhabited ρ] (again : ρ → Bool) (call : κ) : ℕ → Speaker μ κ ρ ρ
  | 0 => ask call
  | turns + 1 => do
    let answer ← ask call
    if again answer then insistFor again call turns else pure answer

/-- Repeats a call until its answer is another one. -/
def insist [Inhabited ρ] (again : ρ → Bool) (call : κ) : Speaker μ κ ρ ρ := do
  let turns ← pending
  insistFor again call turns

/-- The second program runs only if the first one succeeds. -/
def andThen (first second : Speaker μ κ ρ Bool) : Speaker μ κ ρ Bool := do
  if ← first then second else pure false

/-! ### Weakest preconditions -/

section Wp

variable {post post' : α → Talk μ κ ρ → Prop} {talk : Talk μ κ ρ}

def wp (program : Speaker μ κ ρ α) (post : α → Talk μ κ ρ → Prop) (talk : Talk μ κ ρ) : Prop :=
  post (program talk).1 (program talk).2

theorem wp_mono {program : Speaker μ κ ρ α} (h : wp program post talk)
    (hpost : ∀ value talk', post value talk' → post' value talk') : wp program post' talk :=
  hpost _ _ h

theorem wp_and {program : Speaker μ κ ρ α} (h : wp program post talk)
    (h' : wp program post' talk) :
    wp program (fun value talk' => post value talk' ∧ post' value talk') talk := ⟨h, h'⟩

@[simp] theorem wp_pure (value : α) : wp (pure value) post talk ↔ post value talk := Iff.rfl

@[simp] theorem wp_bind (program : Speaker μ κ ρ β) (next : β → Speaker μ κ ρ α) :
    wp (program >>= next) post talk ↔
      wp program (fun value talk' => wp (next value) post talk') talk := Iff.rfl

@[simp] theorem wp_memory {post : μ → Talk μ κ ρ → Prop} :
    wp memory post talk ↔ post talk.memory talk := Iff.rfl

@[simp] theorem wp_said {post : List (κ × ρ) → Talk μ κ ρ → Prop} :
    wp said post talk ↔ post talk.said talk := Iff.rfl

@[simp] theorem wp_update {post : Unit → Talk μ κ ρ → Prop} (change : μ → μ) :
    wp (update change) post talk ↔ post () { talk with memory := change talk.memory } := Iff.rfl

/-- A call may get any answer. -/
theorem wp_ask [Inhabited ρ] {post : ρ → Talk μ κ ρ → Prop} {call : κ}
    (h : ∀ answer script,
      post answer { talk with said := talk.said ++ [(call, answer)], script := script }) :
    wp (ask call) post talk := h _ _

theorem wp_insistFor [Inhabited ρ] {again : ρ → Bool} (hdefault : again default = false) {call : κ}
    {post : ρ → Talk μ κ ρ → Prop} {turns : ℕ} (hturns : talk.script.length ≤ turns)
    (h : ∀ refused answer script, (∀ other ∈ refused, again other = true) → again answer = false →
      post answer { talk with
        said := talk.said ++ (refused ++ [answer]).map fun answer => (call, answer)
        script := script }) :
    wp (insistFor again call turns) post talk := by
  induction turns generalizing talk with
  | zero =>
    -- the script is used up
    have hscript : talk.script = [] := List.length_eq_zero_iff.mp (Nat.le_zero.mp hturns)
    have hlast := h [] default talk.script.tail (by simp) hdefault
    rw [insistFor, wp, ask, hscript]
    rw [hscript] at hlast
    exact hlast
  | succ turns ih =>
    rw [insistFor, wp_bind]
    generalize hanswer : talk.script.headD default = first
    let asked : Talk μ κ ρ :=
      { talk with said := talk.said ++ [(call, first)], script := talk.script.tail }
    have hasked : ask call talk = (first, asked) := by rw [ask, hanswer]
    have hlength : asked.script.length ≤ turns := by
      simp only [asked, List.length_tail]
      omega
    unfold wp at ih ⊢
    rw [hasked]
    dsimp only
    by_cases hagain : again first = true
    · rw [if_pos hagain]
      refine ih hlength ?_
      intro refused answer script hrefused hlast
      have hnext := h (first :: refused) answer script
        (List.forall_mem_cons.mpr ⟨hagain, hrefused⟩) hlast
      simp only [asked, List.append_assoc]
      exact hnext
    · rw [if_neg hagain]
      exact h [] first _ (by simp) (by simpa using hagain)

/-- A call that is repeated ends with another answer; all the others asked for a repetition. -/
theorem wp_insist [Inhabited ρ] {again : ρ → Bool} (hdefault : again default = false) {call : κ}
    {post : ρ → Talk μ κ ρ → Prop}
    (h : ∀ refused answer script, (∀ other ∈ refused, again other = true) → again answer = false →
      post answer { talk with
        said := talk.said ++ (refused ++ [answer]).map fun answer => (call, answer)
        script := script }) :
    wp (insist again call) post talk :=
  wp_insistFor hdefault (Nat.le_refl _) h

@[simp] theorem wp_andThen {post : Bool → Talk μ κ ρ → Prop}
    (first second : Speaker μ κ ρ Bool) :
    wp (andThen first second) post talk ↔
      wp first (fun ok talk' => if ok then wp second post talk' else post false talk') talk := by
  rw [andThen, wp_bind]
  unfold wp
  cases (first talk).1 with
  | true => rfl
  | false => rfl

end Wp

/-! ### What holds between calls -/

/-- A property of the state that holds again after the program. -/
def Maintains (inv : Talk μ κ ρ → Prop) (program : Speaker μ κ ρ α) : Prop :=
  ∀ talk, inv talk → wp program (fun _ talk' => inv talk') talk

namespace Maintains

variable {inv : Talk μ κ ρ → Prop}

theorem pure (value : α) : Maintains inv (pure value) := fun _ h => h

theorem bind {program : Speaker μ κ ρ β} {next : β → Speaker μ κ ρ α}
    (h : Maintains inv program) (hnext : ∀ value, Maintains inv (next value)) :
    Maintains inv (program >>= next) :=
  fun talk htalk => hnext _ _ (h talk htalk)

theorem memory : Maintains inv memory := fun _ h => h

theorem said : Maintains inv said := fun _ h => h

theorem update {change : μ → μ}
    (h : ∀ talk, inv talk → inv { talk with memory := change talk.memory }) :
    Maintains inv (update change) := h

theorem ask [Inhabited ρ] {call : κ} (h : ∀ talk answer script, inv talk →
    inv { talk with said := talk.said ++ [(call, answer)], script := script }) :
    Maintains inv (ask call) :=
  fun talk htalk => h talk _ _ htalk

theorem insist [Inhabited ρ] {again : ρ → Bool} {call : κ}
    (h : ∀ talk answer script, inv talk →
      inv { talk with said := talk.said ++ [(call, answer)], script := script }) :
    Maintains inv (insist again call) := by
  refine bind (fun _ htalk => htalk) fun turns => ?_
  induction turns with
  | zero => exact ask h
  | succ turns ih =>
    refine bind (ask h) fun answer => ?_
    split
    · exact ih
    · exact pure answer

theorem andThen {first second : Speaker μ κ ρ Bool} (h : Maintains inv first)
    (h' : Maintains inv second) : Maintains inv (andThen first second) := by
  refine bind h fun ok => ?_
  cases ok with
  | true => exact h'
  | false => exact pure false

end Maintains

/-- A view of the state that is the same after the program. -/
def Quiet (view : Talk μ κ ρ → ν) (program : Speaker μ κ ρ α) : Prop :=
  ∀ talk, wp program (fun _ talk' => view talk' = view talk) talk

namespace Quiet

variable {view : Talk μ κ ρ → ν}

theorem pure (value : α) : Quiet view (pure value) := fun _ => rfl

theorem bind {program : Speaker μ κ ρ β} {next : β → Speaker μ κ ρ α} (h : Quiet view program)
    (hnext : ∀ value, Quiet view (next value)) : Quiet view (program >>= next) :=
  fun talk => (hnext _ _).trans (h talk)

theorem memory : Quiet view memory := fun _ => rfl

theorem said : Quiet view said := fun _ => rfl

theorem update {change : μ → μ}
    (h : ∀ talk, view { talk with memory := change talk.memory } = view talk) :
    Quiet view (update change) := h

theorem ask [Inhabited ρ] {call : κ} (h : ∀ talk answer script,
    view { talk with said := talk.said ++ [(call, answer)], script := script } = view talk) :
    Quiet view (ask call) :=
  fun talk => h talk _ _

theorem andThen {first second : Speaker μ κ ρ Bool} (h : Quiet view first)
    (h' : Quiet view second) : Quiet view (andThen first second) := by
  refine bind h fun ok => ?_
  cases ok with
  | true => exact h'
  | false => exact pure false

end Quiet

end Dialogue
