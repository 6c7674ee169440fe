/-
System calls on one directory.

A `Volume` is a directory and what its names stand for.  Until the directory is
synced, a loss of power may bring back anything a name has stood for since; and
the contents of a file that was not synced may come back as anything.  What a
loss of power can leave is `Volume.Recovers`.

A call succeeds, fails with an error number and no effect, or is the last thing
the process does; a list of replies says which.  When the list is used up every
call succeeds.  `wp_call`, `wp_write` and `wp_retryInterrupted` reduce a
statement about a program to one about its calls.
-/
import LoraMessenger.Crash
import Mathlib.Data.List.Basic

namespace Posix

open Crash

def eNoEnt : ℕ := 2
def eIntr : ℕ := 4
def eIo : ℕ := 5
def eExist : ℕ := 17
def eInval : ℕ := 22

/-! ### Directories -/

structure File where
  contents : List UInt8
  synced : Bool
deriving DecidableEq

/-- What a name can stand for: a regular file, or something else. -/
inductive Node where
  | regular (file : File)
  | special
deriving DecidableEq

/-- A file that was synced keeps its contents. -/
inductive Node.Recovers : Node → Node → Prop
  | synced {contents : List UInt8} :
    Node.Recovers (.regular ⟨contents, true⟩) (.regular ⟨contents, true⟩)
  | torn {contents left : List UInt8} :
    Node.Recovers (.regular ⟨contents, false⟩) (.regular ⟨left, true⟩)
  | special : Node.Recovers .special .special

/-- What a name stands for, and what it has stood for since the last sync of the
directory. -/
structure Entry where
  current : Option Node
  earlier : List (Option Node)
deriving DecidableEq

namespace Entry

def replace (entry : Entry) (node : Option Node) : Entry := ⟨node, entry.current :: entry.earlier⟩

/-- The name stands for something it has stood for since the last sync. -/
inductive Recovers (entry : Entry) : Entry → Prop
  | absent (h : none ∈ entry.current :: entry.earlier) : Recovers entry ⟨none, []⟩
  | present {node node' : Node} (h : some node ∈ entry.current :: entry.earlier)
    (hnode : node.Recovers node') : Recovers entry ⟨some node', []⟩

theorem Recovers.earlier {entry entry' : Entry} (h : entry.Recovers entry') :
    entry'.earlier = [] := by
  cases h with
  | absent => rfl
  | present => rfl

/-- Among synced files nothing new can come up. -/
theorem Recovers.mem {entry entry' : Entry} (h : entry.Recovers entry')
    (hsynced : ∀ file, some (.regular file) ∈ entry.current :: entry.earlier → file.synced) :
    entry'.current ∈ entry.current :: entry.earlier := by
  cases h with
  | absent h => exact h
  | present h hnode =>
    cases hnode with
    | synced => exact h
    | torn => cases hsynced _ h
    | special => exact h

end Entry

/-- A directory that was just made is not safe from a loss of power until it is synced. -/
inductive Directory where
  | missing
  | created
  | settled
deriving DecidableEq

structure Volume (ν : Type) where
  directory : Directory
  entries : ν → Entry

namespace Volume

variable {ν : Type} [DecidableEq ν]

/-- What a name stands for. -/
def find (volume : Volume ν) (name : ν) : Option Node :=
  if volume.directory = .missing then none else (volume.entries name).current

def set (volume : Volume ν) (name : ν) (node : Option Node) : Volume ν :=
  { volume with
    entries := fun other =>
      if other = name then (volume.entries name).replace node else volume.entries other }

/-- Changes the file a name stands for; the name itself stays. -/
def modify (volume : Volume ν) (name : ν) (change : File → File) : Volume ν :=
  { volume with
    entries := fun other =>
      if other = name then
        match volume.entries name with
        | ⟨some (.regular file), earlier⟩ => ⟨some (.regular (change file)), earlier⟩
        | entry => entry
      else volume.entries other }

/-- What a loss of power can leave. -/
inductive Recovers (volume : Volume ν) : Volume ν → Prop
  | lost (h : volume.directory ≠ .settled) : Recovers volume ⟨.missing, fun _ => ⟨none, []⟩⟩
  | kept {entries : ν → Entry} (h : volume.directory ≠ .missing)
    (hentries : ∀ name, (volume.entries name).Recovers (entries name)) :
    Recovers volume ⟨.settled, entries⟩

variable {volume : Volume ν} {name other : ν}

omit [DecidableEq ν] in
theorem find_eq (h : volume.directory ≠ .missing) (name : ν) :
    volume.find name = (volume.entries name).current := if_neg h

omit [DecidableEq ν] in
theorem find_missing (h : volume.directory = .missing) (name : ν) : volume.find name = none :=
  if_pos h

@[simp] theorem set_directory (node : Option Node) :
    (volume.set name node).directory = volume.directory := rfl

@[simp] theorem set_entries_same (node : Option Node) :
    (volume.set name node).entries name = (volume.entries name).replace node := by
  simp [set]

theorem set_entries_other (h : other ≠ name) (node : Option Node) :
    (volume.set name node).entries other = volume.entries other := by
  simp [set, h]

@[simp] theorem modify_directory (change : File → File) :
    (volume.modify name change).directory = volume.directory := rfl

theorem modify_entries_same {file : File} {earlier : List (Option Node)}
    (h : volume.entries name = ⟨some (.regular file), earlier⟩) (change : File → File) :
    (volume.modify name change).entries name = ⟨some (.regular (change file)), earlier⟩ := by
  simp [modify, h]

theorem modify_entries_other (h : other ≠ name) (change : File → File) :
    (volume.modify name change).entries other = volume.entries other := by
  simp [modify, h]

end Volume

/-! ### Calls -/

inductive Reply where
  | done
  | short (count : ℕ)
  | failed (errno : ℕ)
  | crash
deriving DecidableEq

/-- The replies that are still to come, and the variables of the program. -/
structure Process (μ : Type) where
  replies : List Reply
  locals : μ

variable {μ ν α : Type} [DecidableEq ν]

abbrev Calls (μ ν : Type) := Prog (Process μ) (Volume ν)

/-- A call that the volume may refuse by itself. -/
def call (effect : Volume ν → Except ℕ (Volume ν)) : Calls μ ν (Except ℕ Unit) := fun machine =>
  let succeed (rest : List Reply) : Outcome (Process μ) (Volume ν) (Except ℕ Unit) :=
    match effect machine.durable with
    | .error errno =>
      .done (.error errno) { machine with memory := { machine.memory with replies := rest } }
    | .ok volume =>
      .done (.ok ())
        { machine with memory := { machine.memory with replies := rest }, durable := volume }
  match machine.memory.replies with
  | [] => succeed []
  | .done :: rest => succeed rest
  | .short _ :: rest => succeed rest
  | .failed errno :: rest =>
    .done (.error errno) { machine with memory := { machine.memory with replies := rest } }
  | .crash :: _ => .crashed machine.durable

/-- Appends to a file; the answer is the number of bytes that were taken. -/
def write (name : ν) (data : List UInt8) : Calls μ ν (Except ℕ ℕ) := fun machine =>
  let take (count : ℕ) (rest : List Reply) : Outcome (Process μ) (Volume ν) (Except ℕ ℕ) :=
    .done (.ok count)
      { machine with
        memory := { machine.memory with replies := rest }
        durable := machine.durable.modify name fun file =>
          ⟨file.contents ++ data.take count, false⟩ }
  match machine.memory.replies with
  | [] => take data.length []
  | .done :: rest => take data.length rest
  | .short count :: rest => take (min count data.length) rest
  | .failed errno :: rest =>
    .done (.error errno) { machine with memory := { machine.memory with replies := rest } }
  | .crash :: _ => .crashed machine.durable

def makeDirectories : Calls μ ν (Except ℕ Unit) :=
  call fun volume =>
    .ok (if volume.directory = .missing then
      ⟨.created, fun _ => ⟨none, []⟩⟩ else volume)

def openDirectory : Calls μ ν (Except ℕ Unit) :=
  call fun volume => if volume.directory = .missing then .error eNoEnt else .ok volume

def unlink (name : ν) : Calls μ ν (Except ℕ Unit) :=
  call fun volume =>
    match volume.find name with
    | none => .error eNoEnt
    | some _ => .ok (volume.set name none)

/-- `open` with `O_CREAT | O_EXCL`. -/
def create (name : ν) : Calls μ ν (Except ℕ Unit) :=
  call fun volume =>
    match volume.find name with
    | none => .ok (volume.set name (some (.regular ⟨[], false⟩)))
    | some _ => .error eExist

/-- A call that changes no names and no contents, as `fchmod` and `close` are. -/
def inert : Calls μ ν (Except ℕ Unit) := call .ok

/-- `fsync` of a file. -/
def sync (name : ν) : Calls μ ν (Except ℕ Unit) :=
  call fun volume => .ok (volume.modify name fun file => { file with synced := true })

/-- `fsync` of the directory: its names are safe, and so is the directory itself. -/
def syncDirectory : Calls μ ν (Except ℕ Unit) :=
  call fun volume =>
    .ok
      { directory := if volume.directory = .missing then .missing else .settled
        entries := fun name => { volume.entries name with earlier := [] } }

def rename (source target : ν) : Calls μ ν (Except ℕ Unit) :=
  call fun volume =>
    match volume.find source with
    | none => .error eNoEnt
    | some node => .ok ((volume.set target (some node)).set source none)

/-- Makes a call again while it is interrupted, `turns` times at most. -/
def retrying (program : Calls μ ν (Except ℕ Unit)) : (turns : ℕ) → Calls μ ν (Except ℕ Unit)
  | 0 => program
  | turns + 1 => do
    match ← program with
    | .ok () => pure (.ok ())
    | .error errno =>
      if errno = eIntr then retrying program turns else pure (.error errno)

/-- An interruption takes a reply, so there are no more of them than replies. -/
def retryInterrupted (program : Calls μ ν (Except ℕ Unit)) : Calls μ ν (Except ℕ Unit) := do
  let process ← Prog.memory
  retrying program process.replies.length

/-! ### Rules -/

section Rules

variable {m : Machine (Process μ) (Volume ν)} {crash : Volume ν → Prop}

omit [DecidableEq ν] in
theorem wp_call {effect : Volume ν → Except ℕ (Volume ν)}
    {post : Except ℕ Unit → Machine (Process μ) (Volume ν) → Prop}
    (hdone : ∀ volume rest, effect m.durable = .ok volume →
      post (.ok ()) { m with memory := { m.memory with replies := rest }, durable := volume })
    (hfailed : ∀ errno rest,
      post (.error errno) { m with memory := { m.memory with replies := rest } })
    (hcrash : crash m.durable) : wp (call effect) post crash m := by
  unfold wp call
  rcases hreplies : m.memory.replies with _ | ⟨_ | _ | errno | _, rest⟩
  · cases heffect : effect m.durable with
    | error errno => exact hfailed errno []
    | ok volume => exact hdone volume [] heffect
  · cases heffect : effect m.durable with
    | error errno => exact hfailed errno rest
    | ok volume => exact hdone volume rest heffect
  · cases heffect : effect m.durable with
    | error errno => exact hfailed errno rest
    | ok volume => exact hdone volume rest heffect
  · exact hfailed errno rest
  · exact hcrash

theorem wp_write {name : ν} {data : List UInt8}
    {post : Except ℕ ℕ → Machine (Process μ) (Volume ν) → Prop}
    (hdone : ∀ count rest, count ≤ data.length → post (.ok count)
      { m with
        memory := { m.memory with replies := rest }
        durable := m.durable.modify name fun file => ⟨file.contents ++ data.take count, false⟩ })
    (hfailed : ∀ errno rest,
      post (.error errno) { m with memory := { m.memory with replies := rest } })
    (hcrash : crash m.durable) : wp (write name data) post crash m := by
  unfold wp write
  rcases hreplies : m.memory.replies with _ | ⟨_ | count | errno | _, rest⟩
  · exact hdone data.length [] (Nat.le_refl _)
  · exact hdone data.length rest (Nat.le_refl _)
  · exact hdone _ rest (Nat.min_le_right _ _)
  · exact hfailed errno rest
  · exact hcrash

omit [DecidableEq ν] in
/-- An interrupted call has no effect, so one statement about the call does for
all of them. -/
theorem wp_retryInterrupted {program : Calls μ ν (Except ℕ Unit)}
    {inv : Machine (Process μ) (Volume ν) → Prop}
    {post : Except ℕ Unit → Machine (Process μ) (Volume ν) → Prop} (hm : inv m)
    (hprogram : ∀ m, inv m → wp program
      (fun result m' => post result m' ∧ (result = .error eIntr → inv m')) crash m) :
    wp (retryInterrupted program) post crash m := by
  have hretrying (turns : ℕ) : ∀ m, inv m → wp (retrying program turns) post crash m := by
    induction turns with
    | zero =>
      intro m hm
      exact wp_mono (hprogram m hm) (fun _ _ h => h.1) fun _ h => h
    | succ turns ih =>
      intro m hm
      rw [retrying, wp_bind]
      refine wp_mono (hprogram m hm) ?_ fun _ h => h
      rintro (errno | ⟨⟩) m' ⟨hpost, hagain⟩
      · by_cases hinterrupted : errno = eIntr
        · simp only [if_pos hinterrupted]
          exact ih m' (hagain (by rw [hinterrupted]))
        · simp only [if_neg hinterrupted]
          exact hpost
      · exact hpost
  rw [retryInterrupted, wp_bind]
  exact hretrying _ m hm

end Rules

end Posix
