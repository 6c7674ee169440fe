/-
Programs over a memory that is lost and a durable state that is kept.

A `Prog` reads and updates its memory, which always succeeds, and reads and
writes the durable state, which may fail or end the process.  What goes wrong
is decided by a list of faults, one for each access; when the list is used up,
every access succeeds.  A write that fails or is cut short may have had its
effect, none of it, or something in between.

`wp` is the weakest precondition of a program, with one postcondition for a
program that returns and one for the durable state a crash leaves behind.  The
rules `wp_bind`, `wp_write`, … reduce a statement about a program to one about
its accesses.
-/
import Mathlib.Logic.Basic

namespace Crash

/-- How far a write got. -/
inductive Progress where
  | untouched
  | partly
  | complete
deriving DecidableEq

/-- What happens to one access of the durable state. -/
inductive Fault where
  | none
  | failed (progress : Progress)
  | crash (progress : Progress)
deriving DecidableEq

structure Machine (μ δ : Type) where
  memory : μ
  durable : δ
  faults : List Fault

inductive Outcome (μ δ α : Type) where
  | done (value : α) (machine : Machine μ δ)
  | crashed (durable : δ)

/-- The durable state a run leaves behind. -/
def Outcome.left {μ δ α : Type} : Outcome μ δ α → δ
  | .done _ machine => machine.durable
  | .crashed durable => durable

def Prog (μ δ α : Type) : Type := Machine μ δ → Outcome μ δ α

/-- What the program learns about its write. -/
inductive Written where
  | done
  | failed (progress : Progress)
deriving DecidableEq

namespace Prog

variable {μ ν δ α β : Type}

instance : Monad (Prog μ δ) where
  pure value := fun machine => .done value machine
  bind program next := fun machine =>
    match program machine with
    | .done value machine => next value machine
    | .crashed durable => .crashed durable

/-- Reads the memory. -/
def memory : Prog μ δ μ := fun machine => .done machine.memory machine

def update (change : μ → μ) : Prog μ δ Unit :=
  fun machine => .done () { machine with memory := change machine.memory }

/-- Reads the durable state; `none` stands for a failure. -/
def read : Prog μ δ (Option δ) := fun machine =>
  match machine.faults with
  | [] => .done (some machine.durable) machine
  | .none :: rest => .done (some machine.durable) { machine with faults := rest }
  | .failed _ :: rest => .done none { machine with faults := rest }
  | .crash _ :: _ => .crashed machine.durable

/-- Changes the durable state, as far as the access gets. -/
def write (effect : Progress → δ → δ) : Prog μ δ Written := fun machine =>
  match machine.faults with
  | [] => .done .done { machine with durable := effect .complete machine.durable }
  | .none :: rest =>
    .done .done { machine with durable := effect .complete machine.durable, faults := rest }
  | .failed progress :: rest =>
    .done (.failed progress)
      { machine with durable := effect progress machine.durable, faults := rest }
  | .crash progress :: _ => .crashed (effect progress machine.durable)

/-- Runs a program on a part of the memory. -/
def zoom (part : ν → μ) (replace : μ → ν → ν) (program : Prog μ δ α) : Prog ν δ α := fun machine =>
  match program { machine with memory := part machine.memory } with
  | .done value inner => .done value { inner with memory := replace inner.memory machine.memory }
  | .crashed durable => .crashed durable

/-- Runs a program on a part of the memory and a part of the durable state. -/
def within {η : Type} (part : ν → μ) (replace : μ → ν → ν) (kept : η → δ) (store : δ → η → η)
    (program : Prog μ δ α) : Prog ν η α := fun machine =>
  match program ⟨part machine.memory, kept machine.durable, machine.faults⟩ with
  | .done value inner => .done value
      ⟨replace inner.memory machine.memory, store inner.durable machine.durable, inner.faults⟩
  | .crashed durable => .crashed (store durable machine.durable)

/-- Notes something in the durable state that is not part of the program: it
always succeeds. -/
def note (change : δ → δ) : Prog μ δ Unit :=
  fun machine => .done () { machine with durable := change machine.durable }

end Prog

/-! ### Weakest preconditions -/

section Wp

variable {μ ν δ α β : Type} {post post' : α → Machine μ δ → Prop} {crash crash' : δ → Prop}
  {m : Machine μ δ}

/-- If the program returns, then with `post`; if it crashes, then with `crash`. -/
def wp (program : Prog μ δ α) (post : α → Machine μ δ → Prop) (crash : δ → Prop)
    (machine : Machine μ δ) : Prop :=
  match program machine with
  | .done value machine => post value machine
  | .crashed durable => crash durable

theorem wp_mono {program : Prog μ δ α} (h : wp program post crash m)
    (hpost : ∀ value m', post value m' → post' value m') (hcrash : ∀ d, crash d → crash' d) :
    wp program post' crash' m := by
  unfold wp at h ⊢
  rcases hrun : program m with ⟨value, m'⟩ | d <;> rw [hrun] at h
  · exact hpost value m' h
  · exact hcrash d h

theorem wp_and {program : Prog μ δ α} (h : wp program post crash m)
    (h' : wp program post' crash' m) :
    wp program (fun value m => post value m ∧ post' value m) (fun d => crash d ∧ crash' d) m := by
  unfold wp at h h' ⊢
  rcases hrun : program m with ⟨value, m'⟩ | d <;> rw [hrun] at h h'
  · exact ⟨h, h'⟩
  · exact ⟨h, h'⟩

/-- A program that cannot crash returns. -/
theorem wp_false {program : Prog μ δ α} (h : wp program post (fun _ => False) m) :
    ∃ value m', program m = .done value m' ∧ post value m' := by
  unfold wp at h
  rcases hrun : program m with ⟨value, m'⟩ | d <;> rw [hrun] at h
  · exact ⟨value, m', rfl, h⟩
  · exact h.elim

theorem wp_true {program : Prog μ δ α} (h : ∀ value m', post value m') :
    wp program post (fun _ => True) m := by
  unfold wp
  split
  · exact h _ _
  · trivial

@[simp] theorem wp_pure (value : α) : wp (pure value) post crash m ↔ post value m := Iff.rfl

@[simp] theorem wp_bind (program : Prog μ δ β) (next : β → Prog μ δ α) :
    wp (program >>= next) post crash m ↔
      wp program (fun value m' => wp (next value) post crash m') crash m := by
  simp only [wp, bind]
  rcases program m with ⟨value, m'⟩ | d
  · rfl
  · rfl

/-- Two programs that go on alike from wherever the first part returns. -/
theorem bind_eq_of_wp {program : Prog μ δ β} {next next' : β → Prog μ δ α}
    (h : wp program (fun value m' => next value m' = next' value m') (fun _ => True) m) :
    (program >>= next) m = (program >>= next') m := by
  unfold wp at h
  simp only [bind]
  rcases hrun : program m with ⟨value, m'⟩ | d
  · rw [hrun] at h
    exact h
  · rfl

@[simp] theorem wp_memory {post : μ → Machine μ δ → Prop} :
    wp Prog.memory post crash m ↔ post m.memory m := Iff.rfl

@[simp] theorem wp_update {post : Unit → Machine μ δ → Prop} (change : μ → μ) :
    wp (Prog.update change) post crash m ↔
      post () { m with memory := change m.memory } := Iff.rfl

/-- A read returns the durable state and leaves it as it is, or it fails; it
fails only if there are faults. -/
theorem wp_read {post : Option δ → Machine μ δ → Prop}
    (hdone : ∀ rest, (m.faults = [] → rest = []) →
      post (some m.durable) { m with faults := rest })
    (hfailed : ∀ rest, m.faults ≠ [] → post none { m with faults := rest })
    (hcrash : m.faults ≠ [] → crash m.durable) : wp Prog.read post crash m := by
  rcases m with ⟨memory, durable, _ | ⟨_ | _ | _, rest⟩⟩
  · exact hdone [] (fun _ => rfl)
  · exact hdone rest (by simp)
  · exact hfailed rest (by simp)
  · exact hcrash (by simp)

theorem wp_write {post : Written → Machine μ δ → Prop} (effect : Progress → δ → δ)
    (hdone : ∀ rest, (m.faults = [] → rest = []) →
      post .done { m with durable := effect .complete m.durable, faults := rest })
    (hfailed : ∀ progress rest, m.faults ≠ [] →
      post (.failed progress) { m with durable := effect progress m.durable, faults := rest })
    (hcrash : ∀ progress, m.faults ≠ [] → crash (effect progress m.durable)) :
    wp (Prog.write effect) post crash m := by
  rcases m with ⟨memory, durable, _ | ⟨_ | progress | progress, rest⟩⟩
  · exact hdone [] (fun _ => rfl)
  · exact hdone rest (by simp)
  · exact hfailed progress rest (by simp)
  · exact hcrash progress (by simp)

/-- Without faults a read succeeds. -/
theorem wp_read_calm {memory : μ} {durable : δ} {post : Option δ → Machine μ δ → Prop} :
    wp Prog.read post crash ⟨memory, durable, []⟩ ↔ post (some durable) ⟨memory, durable, []⟩ :=
  Iff.rfl

@[simp] theorem wp_zoom {part : ν → μ} {replace : μ → ν → ν} {program : Prog μ δ α}
    {post : α → Machine ν δ → Prop} {m : Machine ν δ} :
    wp (Prog.zoom part replace program) post crash m ↔
      wp program
        (fun value inner => post value { inner with memory := replace inner.memory m.memory })
        crash { m with memory := part m.memory } := by
  simp only [wp, Prog.zoom]
  rcases program { m with memory := part m.memory } with ⟨value, inner⟩ | d
  · rfl
  · rfl

@[simp] theorem wp_within {η : Type} {part : ν → μ} {replace : μ → ν → ν} {kept : η → δ}
    {store : δ → η → η} {program : Prog μ δ α} {post : α → Machine ν η → Prop} {crash : η → Prop}
    {m : Machine ν η} :
    wp (Prog.within part replace kept store program) post crash m ↔
      wp program
        (fun value inner => post value
          ⟨replace inner.memory m.memory, store inner.durable m.durable, inner.faults⟩)
        (fun durable => crash (store durable m.durable))
          ⟨part m.memory, kept m.durable, m.faults⟩ := by
  simp only [wp, Prog.within]
  rcases program ⟨part m.memory, kept m.durable, m.faults⟩ with ⟨value, inner⟩ | d
  · rfl
  · rfl

@[simp] theorem wp_note {post : Unit → Machine μ δ → Prop} (change : δ → δ) :
    wp (Prog.note change) post crash m ↔
      post () { m with durable := change m.durable } := Iff.rfl

end Wp

/-! ### What a program leaves alone -/

/-- A view of the memory is the same whenever the program returns. -/
def Keeps {μ δ α ν : Type} (view : μ → ν) (program : Prog μ δ α) : Prop :=
  ∀ m, wp program (fun _ m' => view m'.memory = view m.memory) (fun _ => True) m

namespace Keeps

variable {μ δ α β ν : Type} {view : μ → ν}

theorem pure (value : α) : Keeps view (pure value : Prog μ δ α) := fun _ => rfl

theorem bind {program : Prog μ δ β} {next : β → Prog μ δ α} (h : Keeps view program)
    (hnext : ∀ value, Keeps view (next value)) : Keeps view (program >>= next) := by
  intro m
  rw [wp_bind]
  refine wp_mono (h m) (fun value m' hsame => ?_) (fun _ _ => trivial)
  exact wp_mono (hnext value m') (fun _ _ hlater => hlater.trans hsame) (fun _ _ => trivial)

/-- A part of what is left alone is left alone. -/
theorem map {ν' : Type} (part : ν → ν') {program : Prog μ δ α} (h : Keeps view program) :
    Keeps (fun memory => part (view memory)) program :=
  fun m => wp_mono (h m) (fun _ _ hsame => congrArg part hsame) (fun _ h => h)

theorem memory : Keeps view (Prog.memory : Prog μ δ μ) := fun _ => rfl

theorem update {change : μ → μ} (h : ∀ memory, view (change memory) = view memory) :
    Keeps view (Prog.update change : Prog μ δ Unit) := fun m => h m.memory

theorem read : Keeps view (Prog.read : Prog μ δ (Option δ)) :=
  fun _ => wp_read (fun _ _ => rfl) (fun _ _ => rfl) (fun _ => trivial)

theorem write (effect : Progress → δ → δ) : Keeps view (Prog.write effect : Prog μ δ Written) :=
  fun _ => wp_write effect (fun _ _ => rfl) (fun _ _ _ => rfl) (fun _ _ => trivial)

end Keeps

/-- A property of the memory holds again whenever the program returns. -/
def Maintains {μ δ α : Type} (inv : μ → Prop) (program : Prog μ δ α) : Prop :=
  ∀ m, inv m.memory → wp program (fun _ m' => inv m'.memory) (fun _ => True) m

namespace Maintains

variable {μ δ α β : Type} {inv : μ → Prop}

theorem pure (value : α) : Maintains inv (pure value : Prog μ δ α) := fun _ h => h

theorem bind {program : Prog μ δ β} {next : β → Prog μ δ α} (h : Maintains inv program)
    (hnext : ∀ value, Maintains inv (next value)) : Maintains inv (program >>= next) := by
  intro m hm
  rw [wp_bind]
  exact wp_mono (h m hm) (fun value m' hm' => hnext value m' hm') (fun _ _ => trivial)

theorem memory : Maintains inv (Prog.memory : Prog μ δ μ) := fun _ h => h

theorem update {change : μ → μ} (h : ∀ memory, inv memory → inv (change memory)) :
    Maintains inv (Prog.update change : Prog μ δ Unit) := fun m hm => h m.memory hm

/-- What depends on a view alone holds as long as the view is kept. -/
theorem of_keeps {ν : Type} {view : μ → ν} {program : Prog μ δ α} (h : Keeps view program)
    (hinv : ∀ {memory memory'}, view memory' = view memory → inv memory → inv memory') :
    Maintains inv program :=
  fun m hm => wp_mono (h m) (fun _ _ hsame => hinv hsame hm) (fun _ h => h)

end Maintains

/-- A program that answers whether it may have changed a view of the memory. -/
def Reports {μ δ ν : Type} (view : μ → ν) (program : Prog μ δ Bool) : Prop :=
  ∀ m, wp program (fun changed m' => changed = true ∨ view m'.memory = view m.memory)
    (fun _ => True) m

namespace Reports

variable {μ δ β ν : Type} {view : μ → ν} {first second : Prog μ δ Bool}

theorem of_keeps (h : Keeps view first) : Reports view first :=
  fun m => wp_mono (h m) (fun _ _ hsame => .inr hsame) (fun _ h => h)

theorem true : Reports view (pure Bool.true : Prog μ δ Bool) := fun _ => .inl rfl

/-- What comes first changes nothing. -/
theorem bind {program : Prog μ δ β} {next : β → Prog μ δ Bool} (h : Keeps view program)
    (hnext : ∀ value, Reports view (next value)) : Reports view (program >>= next) := by
  intro m
  rw [wp_bind]
  refine wp_mono (h m) (fun value m' hsame => ?_) (fun _ h => h)
  exact wp_mono (hnext value m') (fun _ _ hlater => hlater.imp_right fun h => h.trans hsame)
    (fun _ h => h)

/-- One of two programs has changed something. -/
theorem or (hfirst : Reports view first) (hsecond : Reports view second) :
    Reports view (do
      let changed ← first
      let later ← second
      Pure.pure (changed || later)) := by
  intro m
  rw [wp_bind]
  refine wp_mono (hfirst m) (fun changed m' h => ?_) (fun _ h => h)
  rw [wp_bind]
  refine wp_mono (hsecond m') (fun later m'' hlater => ?_) (fun _ h => h)
  rw [wp_pure]
  rcases h with rfl | hsame
  · exact .inl rfl
  rcases hlater with rfl | hlater
  · exact .inl (Bool.or_true changed)
  · exact .inr (hlater.trans hsame)

end Reports

/-- A view of the durable state is the same at the end, be it after a crash. -/
def Spares {μ δ α ν : Type} (view : δ → ν) (program : Prog μ δ α) : Prop :=
  ∀ m, wp program (fun _ m' => view m'.durable = view m.durable)
    (fun durable => view durable = view m.durable) m

namespace Spares

variable {μ δ α β ν : Type} {view : δ → ν}

theorem pure (value : α) : Spares view (pure value : Prog μ δ α) := fun _ => rfl

theorem bind {program : Prog μ δ β} {next : β → Prog μ δ α} (h : Spares view program)
    (hnext : ∀ value, Spares view (next value)) : Spares view (program >>= next) := by
  intro m
  rw [wp_bind]
  refine wp_mono (h m) (fun value m' hsame => ?_) (fun _ hsame => hsame)
  exact wp_mono (hnext value m') (fun _ _ hlater => hlater.trans hsame)
    (fun _ hlater => hlater.trans hsame)

theorem memory : Spares view (Prog.memory : Prog μ δ μ) := fun _ => rfl

theorem update (change : μ → μ) : Spares view (Prog.update change : Prog μ δ Unit) := fun _ => rfl

theorem note {change : δ → δ} (h : ∀ durable, view (change durable) = view durable) :
    Spares view (Prog.note change : Prog μ δ Unit) := fun m => h m.durable

/-- A program on a part of the durable state that the view does not show. -/
theorem within {μ' δ' : Type} {part : μ → μ'} {replace : μ' → μ → μ} {kept : δ → δ'}
    {store : δ' → δ → δ} {program : Prog μ' δ' α}
    (h : ∀ inner durable, view (store inner durable) = view durable) :
    Spares view (Prog.within part replace kept store program) := by
  intro m
  rw [wp_within]
  unfold wp
  split
  · exact h _ _
  · exact h _ _

end Spares

/-! ### Programs that stop at the first error -/

section Except

variable {μ δ α β ε : Type} {post : Except ε α → Machine μ δ → Prop} {crash : δ → Prop}
  {m : Machine μ δ}

@[simp] theorem wp_run_pure (value : α) :
    wp (pure value : ExceptT ε (Prog μ δ) α).run post crash m ↔ post (.ok value) m := Iff.rfl

@[simp] theorem wp_run_throw (error : ε) :
    wp (throw error : ExceptT ε (Prog μ δ) α).run post crash m ↔ post (.error error) m := Iff.rfl

@[simp] theorem wp_run_bind (program : ExceptT ε (Prog μ δ) β) (next : β → ExceptT ε (Prog μ δ) α) :
    wp (program >>= next).run post crash m ↔
      wp program.run (fun result m' =>
        match result with
        | .ok value => wp (next value).run post crash m'
        | .error error => post (.error error) m') crash m := by
  rw [ExceptT.run_bind, wp_bind]
  refine iff_of_eq (congrArg (fun post => wp program.run post crash m) ?_)
  funext result m'
  cases result with
  | ok value => rfl
  | error error => rfl

@[simp] theorem wp_run_lift (program : Prog μ δ α) :
    wp (liftM program : ExceptT ε (Prog μ δ) α).run post crash m ↔
      wp program (fun value m' => post (.ok value) m') crash m := by
  show wp (program >>= fun value => pure (.ok value)) post crash m ↔ _
  rw [wp_bind]
  rfl

end Except

end Crash
