/-
Transactions on tables.

A table is a list of rows; `Rules` are its constraints, and an insertion that
breaks one is refused.  A statement takes a database to another one or is
refused; a transaction is a list of statements that are tried on a copy, and
the copy replaces the database when it is committed.  A list of replies says
which statements fail for other reasons and when the process ends; when it is
used up nothing fails.

* `insertAll_eq` — rows that respect the rules all get in;
* `orderBy_eq` — an ordered selection finds the order if there is one;
* `wp_transact` — a transaction is all or nothing;
* `Atomic` — so is an operation that reads and then commits once at most;
* `Keeps`, `Calmly` — what holds of operations that commit more than once,
  whatever fails, and when nothing does.
-/
import LoraMessenger.BigEndian
import LoraMessenger.Crash
import Mathlib.Data.List.Sort

namespace Sql

open Crash

/-! ### Tables -/

variable {ρ κ ω ε α : Type}

/-- The constraints of a table: on a row, and between two rows. -/
structure Rules (ρ : Type) where
  check : ρ → Bool
  distinct : ρ → ρ → Bool

/-- All rows respect the rules. -/
def Rules.holds (rules : Rules ρ) (rows : List ρ) : Bool :=
  rows.all rules.check && rows.Pairwise fun other row => rules.distinct other row

theorem Rules.holds_iff {rules : Rules ρ} {rows : List ρ} : rules.holds rows ↔
    (∀ row ∈ rows, rules.check row) ∧ rows.Pairwise fun other row => rules.distinct other row := by
  rw [Rules.holds, Bool.and_eq_true, List.all_eq_true, decide_eq_true_eq]

@[simp] theorem Rules.holds_nil (rules : Rules ρ) : rules.holds [] = true := by
  simp [Rules.holds]

theorem Rules.holds_sublist {rules : Rules ρ} {rows kept : List ρ} (h : rules.holds rows)
    (hkept : kept.Sublist rows) : rules.holds kept := by
  obtain ⟨hcheck, hdistinct⟩ := Rules.holds_iff.mp h
  exact Rules.holds_iff.mpr
    ⟨fun row hrow => hcheck row (hkept.subset hrow), hdistinct.sublist hkept⟩

/-- The order of the rows does not matter to the rules. -/
theorem Rules.holds_perm {rules : Rules ρ} {rows ordered : List ρ}
    (hsymm : ∀ a b, rules.distinct a b → rules.distinct b a) (hperm : rows.Perm ordered)
    (h : rules.holds ordered) : rules.holds rows := by
  obtain ⟨hcheck, hdistinct⟩ := Rules.holds_iff.mp h
  exact Rules.holds_iff.mpr ⟨fun row hrow => hcheck row (hperm.mem_iff.mp hrow),
    (hperm.pairwise_iff fun {a b} => hsymm a b).mpr hdistinct⟩

def insert (rules : Rules ρ) (row : ρ) (rows : List ρ) : Option (List ρ) :=
  if rules.check row && rows.all (fun other => rules.distinct other row) then some (rows ++ [row])
  else none

def insertAll (rules : Rules ρ) : (added rows : List ρ) → Option (List ρ)
  | [], rows => some rows
  | row :: added, rows =>
    match insert rules row rows with
    | none => none
    | some rows => insertAll rules added rows

theorem insert_eq {rules : Rules ρ} {row : ρ} {rows : List ρ} (h : rules.holds (rows ++ [row])) :
    insert rules row rows = some (rows ++ [row]) := by
  obtain ⟨hcheck, hdistinct⟩ := Rules.holds_iff.mp h
  have hnew : ∀ other ∈ rows, rules.distinct other row := fun other hother =>
    (List.pairwise_append.mp hdistinct).2.2 other hother row (List.mem_singleton_self row)
  rw [insert, if_pos]
  simpa [hcheck row (by simp)] using hnew

/-- Rows that respect the rules all get in. -/
theorem insertAll_eq {rules : Rules ρ} {added rows : List ρ} (h : rules.holds (rows ++ added)) :
    insertAll rules added rows = some (rows ++ added) := by
  induction added generalizing rows with
  | nil => simp [insertAll]
  | cons row added ih =>
    rw [List.append_cons] at h
    have hrow := insert_eq (Rules.holds_sublist h (List.sublist_append_left _ added))
    simp only [insertAll, hrow, ih h, List.append_assoc, List.cons_append, List.nil_append]

/-! ### Selections -/

/-- How blobs are ordered: byte by byte, and a proper beginning comes first. -/
def blobLe : List UInt8 → List UInt8 → Bool
  | [], _ => true
  | _ :: _, [] => false
  | left :: lefts, right :: rights => left < right || (left = right && blobLe lefts rights)

/-- Blobs of one length are ordered as the numbers they stand for. -/
theorem blobLe_iff {left right : List UInt8} (hlength : left.length = right.length) :
    blobLe left right ↔ BigEndian.ofBytes left ≤ BigEndian.ofBytes right := by
  induction left generalizing right with
  | nil =>
    rw [List.length_nil, eq_comm, List.length_eq_zero_iff] at hlength
    simp [hlength, blobLe]
  | cons first left ih =>
    rcases right with _ | ⟨second, right⟩
    · cases hlength
    rw [List.length_cons, List.length_cons, Nat.add_right_cancel_iff] at hlength
    have hleft := BigEndian.ofBytes_lt left
    have hright := BigEndian.ofBytes_lt right
    rw [hlength] at hleft
    simp only [blobLe, Bool.or_eq_true, decide_eq_true_eq, Bool.and_eq_true, ih hlength,
      BigEndian.ofBytes_cons, hlength, UInt8.lt_iff_toNat_lt, ← UInt8.toNat_inj]
    generalize 256 ^ right.length = base at hleft hright ⊢
    -- The first bytes decide unless they are equal.
    rcases Nat.lt_trichotomy first.toNat second.toNat with hlt | heq | hgt
    · have hstep : (first.toNat + 1) * base ≤ second.toNat * base := Nat.mul_le_mul_right _ hlt
      rw [Nat.add_mul, Nat.one_mul] at hstep
      simp only [hlt, true_or, true_iff]
      omega
    · simp [heq]
    · have hstep : (second.toNat + 1) * base ≤ first.toNat * base := Nat.mul_le_mul_right _ hgt
      rw [Nat.add_mul, Nat.one_mul] at hstep
      simp only [show ¬first.toNat < second.toNat by omega, show first.toNat ≠
        second.toNat by omega,
        false_and, or_self, false_iff]
      omega

/-- `ORDER BY` a column. -/
def orderBy (le : ρ → ρ → Bool) (rows : List ρ) : List ρ := rows.insertionSort fun a b => le a b

/-- An ordered selection finds the order of the rows, if there is one. -/
theorem orderBy_eq {le : ρ → ρ → Bool} (rank : ρ → ℕ) {rows ordered : List ρ}
    (hperm : rows.Perm ordered) (hle : ∀ a ∈ rows, ∀ b ∈ rows, le a b ↔ rank a ≤ rank b)
    (hordered : ordered.Pairwise (rank · < rank ·)) : orderBy le rows = ordered := by
  have hsame : orderBy le rows = rows.insertionSort (fun a b => rank a ≤ rank b) := by
    have := List.map_insertionSort (r := fun a b => le a b = true)
      (s := fun a b => rank a ≤ rank b) id rows hle
    simpa [orderBy] using this
  rw [hsame]
  have hinj : ∀ a ∈ ordered, ∀ b ∈ ordered, rank a ≤ rank b → rank b ≤ rank a → a = b := by
    intro a ha b hb hab hba
    have hnodup : (ordered.map rank).Nodup := by
      rw [List.nodup_iff_pairwise_ne, List.pairwise_map]
      exact hordered.imp Nat.ne_of_lt
    exact List.inj_on_of_nodup_map hnodup ha hb (Nat.le_antisymm hab hba)
  have hsorted : (rows.insertionSort fun a b => rank a ≤ rank b).Pairwise (rank · ≤ rank ·) :=
    List.pairwise_insertionSort _ _
  refine List.Perm.eq_of_pairwise ?_ hsorted (hordered.imp Nat.le_of_lt)
    ((List.perm_insertionSort _ _).trans hperm)
  intro a b ha hb
  rw [List.mem_insertionSort, hperm.mem_iff] at ha
  exact hinj a ha b hb

/-- Rows are ordered by numbers that are stored as blobs of one length. -/
theorem orderBy_blob {key : ρ → List UInt8} {width : ℕ} {rows ordered : List ρ}
    (hperm : rows.Perm ordered) (hlength : ∀ row ∈ rows, (key row).length = width)
    (hordered : ordered.Pairwise fun a b => BigEndian.ofBytes (key a) < BigEndian.ofBytes (key b)) :
    orderBy (fun left right => blobLe (key left) (key right)) rows = ordered :=
  orderBy_eq (fun row => BigEndian.ofBytes (key row)) hperm
    (fun a ha b hb => blobLe_iff ((hlength a ha).trans (hlength b hb).symm)) hordered

/-! ### Transactions -/

/-- What happens to a statement: a failure may come from a damaged file, and a
crash in a commit may come after it. -/
inductive Reply where
  | done
  | failed (corrupt : Bool)
  | crash (committed : Bool)
deriving DecidableEq

/-- A connection to a database; what it still has in store are replies. -/
abbrev Connection (ω : Type) := Prog (List Reply) ω

/-- Takes the next reply: `none` if the statement is executed. -/
def reply : Connection ω (Option Bool) := fun machine =>
  match machine.memory with
  | [] => .done none machine
  | .done :: rest => .done none { machine with memory := rest }
  | .failed corrupt :: rest => .done (some corrupt) { machine with memory := rest }
  | .crash _ :: _ => .crashed machine.durable

/-- The database as it is. -/
def database : Connection ω ω := fun machine => .done machine.durable machine

/-- A commit is all or nothing, and a failed one is nothing. -/
def commit (working : ω) : Connection ω (Option Bool) := fun machine =>
  match machine.memory with
  | [] => .done none { machine with durable := working }
  | .done :: rest => .done none { machine with memory := rest, durable := working }
  | .failed corrupt :: rest => .done (some corrupt) { machine with memory := rest }
  | .crash committed :: _ => .crashed (if committed then working else machine.durable)

/-- What a statement does, and what is reported when it cannot be executed. -/
structure Statement (ω ε : Type) where
  effect : ω → Except ε ω
  failure : Bool → ε

/-- What the statements amount to if none of them fails. -/
def applyAll : List (Statement ω ε) → ω → Except ε ω
  | [], working => .ok working
  | statement :: rest, working =>
    match statement.effect working with
    | .error error => .error error
    | .ok working => applyAll rest working

def execute : List (Statement ω ε) → ω → Connection ω (Except ε ω)
  | [], working => pure (.ok working)
  | statement :: rest, working => do
    match ← reply with
    | some corrupt => pure (.error (statement.failure corrupt))
    | none =>
      match statement.effect working with
      | .error error => pure (.error error)
      | .ok working => execute rest working

/-- Begins a transaction, executes the statements and commits; on any error the
transaction is rolled back. -/
def transact (failure : Bool → ε) (statements : List (Statement ω ε)) :
    Connection ω (Except ε Unit) := do
  match ← reply with
  | some corrupt => pure (.error (failure corrupt))
  | none =>
    let working ← database
    match ← execute statements working with
    | .error error => pure (.error error)
    | .ok working =>
      match ← commit working with
      | some corrupt => pure (.error (failure corrupt))
      | none => pure (.ok ())

/-- Works on a copy of the database, which is thrown away. -/
def onCopy (program : ExceptT ε (Connection ω) α) : ExceptT ε (Connection ω) α :=
  ExceptT.mk fun machine =>
    match program.run machine with
    | .done result machine' => .done result { machine' with durable := machine.durable }
    | .crashed _ => .crashed machine.durable

/-- Reads the database. -/
def query (failure : Bool → ε) (select : ω → Except ε α) : Connection ω (Except ε α) := do
  match ← reply with
  | some corrupt => pure (.error (failure corrupt))
  | none =>
    let durable ← database
    pure (select durable)

/-! ### Rules -/

section Wp

variable {m : Machine (List Reply) ω} {crash : ω → Prop}

theorem applyAll_cons {statement : Statement ω ε} {rest : List (Statement ω ε)} {working next : ω}
    (h : statement.effect working = .ok next) :
    applyAll (statement :: rest) working = applyAll rest next := by
  rw [applyAll, h]

theorem applyAll_append (first second : List (Statement ω ε)) (working : ω) :
    applyAll (first ++ second) working =
      match applyAll first working with
      | .error error => .error error
      | .ok working => applyAll second working := by
  induction first generalizing working with
  | nil => rfl
  | cons statement first ih =>
    simp only [List.cons_append, applyAll]
    cases statement.effect working with
    | error error => rfl
    | ok working => exact ih working

theorem wp_reply {post : Option Bool → Machine (List Reply) ω → Prop}
    (hdone : ∀ rest, (m.memory = [] → rest = []) → post none { m with memory := rest })
    (hfailed : ∀ corrupt rest, m.memory ≠ [] → post (some corrupt) { m with memory := rest })
    (hcrash : m.memory ≠ [] → crash m.durable) : wp reply post crash m := by
  rcases m with ⟨_ | ⟨_ | corrupt | committed, rest⟩, durable, faults⟩
  · exact hdone [] fun _ => rfl
  · exact hdone rest (by simp)
  · exact hfailed corrupt rest (by simp)
  · exact hcrash (by simp)

theorem wp_commit {working : ω} {post : Option Bool → Machine (List Reply) ω → Prop}
    (hdone : ∀ rest, (m.memory = [] → rest = []) →
      post none { m with memory := rest, durable := working })
    (hfailed : ∀ corrupt rest, m.memory ≠ [] → post (some corrupt) { m with memory := rest })
    (hcrash : m.memory ≠ [] → crash m.durable ∧ crash working) :
    wp (commit working) post crash m := by
  rcases m with ⟨_ | ⟨_ | corrupt | committed, rest⟩, durable, faults⟩
  · exact hdone [] fun _ => rfl
  · exact hdone rest (by simp)
  · exact hfailed corrupt rest (by simp)
  · obtain ⟨hbefore, hafter⟩ := hcrash (by simp)
    cases committed
    · exact hbefore
    · exact hafter

/-- Statements leave the database alone; they end as they should or fail. -/
theorem wp_execute {statements : List (Statement ω ε)} {working : ω}
    {post : Except ε ω → Machine (List Reply) ω → Prop}
    (hdone : ∀ rest, (m.memory = [] → rest = []) →
      post (applyAll statements working) { m with memory := rest })
    (hfailed : ∀ error rest, m.memory ≠ [] → post (.error error) { m with memory := rest })
    (hcrash : m.memory ≠ [] → crash m.durable) : wp (execute statements working) post crash m := by
  induction statements generalizing working m with
  | nil => exact hdone m.memory id
  | cons statement statements ih =>
    rw [execute, wp_bind]
    refine wp_reply ?_ (fun corrupt rest hreplies => hfailed _ rest hreplies) hcrash
    intro rest hrest
    cases heffect : statement.effect working with
    | error error =>
      have := hdone rest hrest
      rw [applyAll, heffect] at this
      exact this
    | ok next =>
      refine ih ?_ ?_ ?_
      · intro rest' hrest'
        have := hdone rest' fun hnone => hrest' (hrest hnone)
        rw [applyAll, heffect] at this
        exact this
      · exact fun error rest' hreplies => hfailed error rest' fun hnone => hreplies (hrest hnone)
      · exact fun hreplies => hcrash fun hnone => hreplies (hrest hnone)

/-- A transaction is all or nothing. -/
theorem wp_transact {failure : Bool → ε} {statements : List (Statement ω ε)}
    {post : Except ε Unit → Machine (List Reply) ω → Prop}
    (hdone : ∀ working rest, applyAll statements m.durable = .ok working →
      (m.memory = [] → rest = []) → post (.ok ()) { m with memory := rest, durable := working })
    (hfailed : ∀ error rest, m.memory ≠ [] ∨ applyAll statements m.durable = .error error →
      (m.memory = [] → rest = []) → post (.error error) { m with memory := rest })
    (hcrash : m.memory ≠ [] → crash m.durable)
    (hcommitted : ∀ working, m.memory ≠ [] → applyAll statements m.durable = .ok working →
      crash working) :
    wp (transact failure statements) post crash m := by
  rw [transact, wp_bind]
  have hreplied {error : ε} (rest : List Reply) (hreplies : m.memory ≠ []) :
      post (.error error) { m with memory := rest } :=
    hfailed error rest (.inl hreplies) fun hnone => absurd hnone hreplies
  -- `BEGIN`, the statements, and `COMMIT`: each takes a reply.
  refine wp_reply ?_ (fun corrupt rest hreplies => hreplied rest hreplies) hcrash
  intro rest hrest
  have hkeep {rest' : List Reply} (hreplies : rest' ≠ []) (hrest' : rest = [] → rest' = []) :
      m.memory ≠ [] := fun hnone => hreplies (hrest' (hrest hnone))
  simp only [wp_bind]
  show wp (execute statements m.durable) _ _ _
  refine wp_execute ?_ ?_ ?_
  · intro rest' hrest'
    cases happly : applyAll statements m.durable with
    | error error => exact hfailed error rest' (.inr happly) fun hnone => hrest' (hrest hnone)
    | ok working =>
      simp only [wp_bind]
      refine wp_commit ?_ ?_ ?_
      · exact fun rest'' hrest'' =>
          hdone working rest'' happly fun hnone => hrest'' (hrest' (hrest hnone))
      · exact fun corrupt rest'' hreplies => hreplied rest'' (hkeep hreplies hrest')
      · exact fun hreplies =>
          ⟨hcrash (hkeep hreplies hrest'), hcommitted working (hkeep hreplies hrest') happly⟩
  · exact fun error rest' hreplies => hreplied rest' (hkeep hreplies id)
  · exact fun hreplies => hcrash (hkeep hreplies id)

theorem wp_query {failure : Bool → ε} {select : ω → Except ε α}
    {post : Except ε α → Machine (List Reply) ω → Prop}
    (hdone : ∀ rest, (m.memory = [] → rest = []) →
      post (select m.durable) { m with memory := rest })
    (hfailed : ∀ error rest, m.memory ≠ [] → post (.error error) { m with memory := rest })
    (hcrash : m.memory ≠ [] → crash m.durable) : wp (query failure select) post crash m := by
  rw [query, wp_bind]
  exact wp_reply hdone (fun corrupt rest hreplies => hfailed _ rest hreplies) hcrash

end Wp

/-! ### Operations -/

section Atomic

variable {β : Type} {m : Machine (List Reply) ω}

/-- The operation does what `meaning` says or nothing, and it does what `meaning`
says when nothing fails. -/
def Atomic (program : ExceptT ε (Connection ω) α) (meaning : ω → Except ε (α × ω)) : Prop :=
  ∀ m : Machine (List Reply) ω,
    wp program.run
      (fun result m' => (m.memory = [] → m'.memory = []) ∧ m'.faults = m.faults ∧
        match result with
        | .ok value => meaning m.durable = .ok (value, m'.durable)
        | .error error => m'.durable = m.durable ∧
          (m.memory ≠ [] ∨ meaning m.durable = .error error))
      (fun left => m.memory ≠ [] ∧
        (left = m.durable ∨ ∃ value, meaning m.durable = .ok (value, left)))
      m

/-- The operation reads `select` and changes nothing. -/
def Reads (program : ExceptT ε (Connection ω) α) (select : ω → Except ε α) : Prop :=
  Atomic program fun durable => (select durable).map (·, durable)

theorem map_eq_ok {result : Except ε ω} {value : α} {left : ω}
    (h : result.map (value, ·) = .ok (value, left)) : result = .ok left := by
  rcases result with error | other
  · cases h
  · cases h
    rfl

theorem atomic_pure (value : α) :
    Atomic (pure value : ExceptT ε (Connection ω) α) fun durable => .ok (value, durable) :=
  fun _ => ⟨id, rfl, rfl⟩

theorem reads_pure (value : α) :
    Reads (pure value : ExceptT ε (Connection ω) α) fun _ => .ok value :=
  atomic_pure value

theorem reads_throw (error : ε) :
    Reads (throw error : ExceptT ε (Connection ω) α) fun _ => .error error :=
  fun _ => ⟨id, rfl, rfl, .inr rfl⟩

theorem reads_query (failure : Bool → ε) (select : ω → Except ε α) :
    Reads (ExceptT.mk (query failure select)) select := by
  intro m
  refine wp_query ?_ ?_ ?_
  · intro rest hrest
    refine ⟨hrest, rfl, ?_⟩
    cases hselect : select m.durable with
    | error error => exact ⟨rfl, .inr (congrArg (Except.map _) hselect)⟩
    | ok value => exact congrArg (Except.map _) hselect
  · exact fun error rest hreplies => ⟨fun hnone => absurd hnone hreplies, rfl, rfl, .inl hreplies⟩
  · exact fun hreplies => ⟨hreplies, .inl rfl⟩

theorem atomic_transact (failure : Bool → ε) (statements : List (Statement ω ε)) :
    Atomic (ExceptT.mk (transact failure statements)) fun durable =>
      (applyAll statements durable).map ((), ·) := by
  intro m
  refine wp_transact ?_ ?_ ?_ ?_
  · exact fun working rest happly hrest => ⟨hrest, rfl, congrArg (Except.map _) happly⟩
  · exact fun error rest hreason hrest =>
      ⟨hrest, rfl, rfl, hreason.imp_right (congrArg (Except.map _))⟩
  · exact fun hreplies => ⟨hreplies, .inl rfl⟩
  · exact fun working hreplies happly =>
      ⟨hreplies, .inr ⟨(), congrArg (Except.map _) happly⟩⟩

/-- What a reading operation does: it leaves the database alone, and it returns
what is to be read or fails. -/
theorem Reads.wp {program : ExceptT ε (Connection ω) α} {select : ω → Except ε α}
    (h : Reads program select) (m : Machine (List Reply) ω) :
    Crash.wp program.run
      (fun result m' => (m.memory = [] → m'.memory = []) ∧ m'.faults = m.faults ∧
        m'.durable = m.durable ∧
        (result = select m.durable ∨ m.memory ≠ [] ∧ ∃ error, result = .error error))
      (fun left => m.memory ≠ [] ∧ left = m.durable) m := by
  have hmap {result : Except ε (α × ω)}
      (hresult : (select m.durable).map (·, m.durable) = result) :
      (∀ error, result = .error error → select m.durable = .error error) ∧
      (∀ value left, result = .ok (value, left) → select m.durable = .ok value ∧
        left = m.durable) := by
    cases hselect : select m.durable with
    | error error =>
      rw [hselect] at hresult
      cases hresult
      simp [Except.map]
    | ok value =>
      rw [hselect] at hresult
      cases hresult
      simp [Except.map, eq_comm]
  refine wp_mono (h m) ?_ ?_
  · rintro result m' ⟨hmemory, hfaults, hresult⟩
    rcases result with error | value
    · obtain ⟨hdurable, hreplies | herror⟩ := hresult
      · exact ⟨hmemory, hfaults, hdurable, .inr ⟨hreplies, error, rfl⟩⟩
      · exact ⟨hmemory, hfaults, hdurable, .inl ((hmap herror).1 error rfl).symm⟩
    · obtain ⟨hselect, hdurable⟩ := (hmap hresult).2 value m'.durable rfl
      exact ⟨hmemory, hfaults, hdurable, .inl hselect.symm⟩
  · rintro left ⟨hreplies, hleft | ⟨value, hvalue⟩⟩
    · exact ⟨hreplies, hleft⟩
    · exact ⟨hreplies, ((hmap hvalue).2 value left rfl).2⟩

/-- Reading first does not make an operation less atomic. -/
theorem Atomic.bind {program : ExceptT ε (Connection ω) β} {select : ω → Except ε β}
    {next : β → ExceptT ε (Connection ω) α} {meaning : β → ω → Except ε (α × ω)}
    (hfirst : Reads program select) (hnext : ∀ value, Atomic (next value) (meaning value)) :
    Atomic (program >>= next) fun durable => select durable >>= (meaning · durable) := by
  intro m
  rw [wp_run_bind]
  refine wp_mono (hfirst.wp m) ?_ fun left ⟨hreplies, hleft⟩ => ⟨hreplies, .inl hleft⟩
  rintro result m' ⟨hmemory, hfaults, hdurable, hresult⟩
  have hreplies {rest : List Reply} (h : rest ≠ []) (hrest : m.memory = [] → rest = []) :
      m.memory ≠ [] := fun hnone => h (hrest hnone)
  rcases result with error | value
  · refine ⟨hmemory, hfaults, hdurable, ?_⟩
    rcases hresult with hselect | ⟨hreplies, -⟩
    · right
      show select m.durable >>= (meaning · m.durable) = .error error
      rw [← hselect]
      rfl
    · exact .inl hreplies
  · have hthen : select m.durable >>= (meaning · m.durable) = meaning value m'.durable := by
      rcases hresult with hselect | ⟨-, error, herror⟩
      · rw [← hselect, hdurable]
        rfl
      · cases herror
    refine wp_mono (hnext value m') ?_ ?_
    · rintro result' m'' ⟨hmemory', hfaults', hresult'⟩
      refine ⟨fun hnone => hmemory' (hmemory hnone), hfaults'.trans hfaults, ?_⟩
      rcases result' with error | value'
      · exact ⟨hresult'.1.trans hdurable,
          hresult'.2.imp (hreplies · hmemory) fun herror => hthen.trans herror⟩
      · exact hthen.trans hresult'
    · rintro left ⟨hleft, hdone⟩
      refine ⟨hreplies hleft hmemory, hdone.imp (·.trans hdurable) ?_⟩
      exact fun ⟨value', hvalue⟩ => ⟨value', hthen.trans hvalue⟩

theorem Atomic.congr {program : ExceptT ε (Connection ω) α}
    {meaning meaning' : ω → Except ε (α × ω)}
    (h : Atomic program meaning) (hsame : ∀ durable, meaning durable = meaning' durable) :
    Atomic program meaning' := funext hsame ▸ h

theorem Reads.bind {program : ExceptT ε (Connection ω) β} {select : ω → Except ε β}
    {next : β → ExceptT ε (Connection ω) α} {select' : β → ω → Except ε α}
    (hfirst : Reads program select) (hnext : ∀ value, Reads (next value) (select' value)) :
    Reads (program >>= next) fun durable => select durable >>= (select' · durable) := by
  refine (Atomic.bind hfirst hnext).congr fun durable => ?_
  dsimp only
  cases select durable with
  | error error => rfl
  | ok value => rfl

/-- What does not depend on the database may come first. -/
theorem Reads.seq {program : ExceptT ε (Connection ω) β} {next : ExceptT ε (Connection ω) α}
    {value : β} {select : ω → Except ε α} (hfirst : Reads program fun _ => .ok value)
    (hnext : Reads next select) : Reads (program >>= fun _ => next) select :=
  Reads.bind hfirst fun _ => hnext

/-- The result of an operation may be changed. -/
theorem Atomic.map {program : ExceptT ε (Connection ω) β} {meaning : ω → Except ε (β × ω)}
    (h : Atomic program meaning) (change : β → α) :
    Atomic (program >>= fun value => pure (change value)) fun durable =>
      (meaning durable).map fun (value, left) => (change value, left) := by
  intro m
  rw [wp_run_bind]
  refine wp_mono (h m) ?_ ?_
  · rintro result m' ⟨hmemory, hfaults, hresult⟩
    rcases result with error | value
    · exact ⟨hmemory, hfaults, hresult.1, hresult.2.imp_right (congrArg (Except.map _))⟩
    · exact ⟨hmemory, hfaults, congrArg (Except.map _) hresult⟩
  · rintro left ⟨hreplies, hleft⟩
    exact ⟨hreplies, hleft.imp_right fun ⟨value, hvalue⟩ =>
      ⟨change value, congrArg (Except.map _) hvalue⟩⟩

/-- All an operation can do. -/
theorem Atomic.cases {program : ExceptT ε (Connection ω) α} {meaning : ω → Except ε (α × ω)}
    (h : Atomic program meaning) (m : Machine (List Reply) ω) :
    (∃ value m', program.run m = .done (.ok value) m' ∧
      meaning m.durable = .ok (value, m'.durable)) ∨
    (∃ error m', program.run m = .done (.error error) m' ∧ m'.durable = m.durable) ∨
    ∃ left, program.run m = .crashed left ∧
      (left = m.durable ∨ ∃ value, meaning m.durable = .ok (value, left)) := by
  have hrun := h m
  unfold Crash.wp at hrun
  generalize program.run m = outcome at hrun ⊢
  rcases outcome with ⟨error | value, m'⟩ | left
  · exact .inr (.inl ⟨error, m', rfl, hrun.2.2.1⟩)
  · exact .inl ⟨value, m', rfl, hrun.2.2⟩
  · exact .inr (.inr ⟨left, rfl, hrun.2⟩)

/-- Without replies that fail an operation does what it means. -/
theorem Atomic.calm {program : ExceptT ε (Connection ω) α} {meaning : ω → Except ε (α × ω)}
    (h : Atomic program meaning) (durable : ω) :
    program.run ⟨[], durable, []⟩ =
      match meaning durable with
      | .ok (value, left) => .done (.ok value) ⟨[], left, []⟩
      | .error error => .done (.error error) ⟨[], durable, []⟩ := by
  have hrun := h ⟨[], durable, []⟩
  unfold Crash.wp at hrun
  generalize hresult : program.run ⟨[], durable, []⟩ = outcome at hrun
  rcases outcome with ⟨error | value, memory, left, faults⟩ | left
  · obtain ⟨hmemory, hfaults, hdurable, hreason⟩ := hrun
    obtain rfl : memory = [] := hmemory rfl
    obtain rfl : faults = [] := hfaults
    obtain rfl : left = durable := hdurable
    have herror : meaning left = .error error := hreason.resolve_left (by simp)
    rw [herror]
  · obtain ⟨hmemory, hfaults, hvalue⟩ := hrun
    obtain rfl : memory = [] := hmemory rfl
    obtain rfl : faults = [] := hfaults
    have hvalue : meaning durable = .ok (value, left) := hvalue
    rw [hvalue]
  · exact absurd rfl hrun.1

end Atomic

/-! ### Operations with several transactions -/

section Keeps

variable {β : Type} {before always : ω → Prop} {after : α → ω → Prop}

/-- From a database with `before` the operation ends with `after`, or it fails or
crashes and leaves one with `always`. -/
def Keeps (before : ω → Prop) (program : ExceptT ε (Connection ω) α) (after : α → ω → Prop)
    (always : ω → Prop) : Prop :=
  ∀ m : Machine (List Reply) ω, before m.durable →
    wp program.run
      (fun result m' =>
        match result with
        | .ok value => after value m'.durable
        | .error _ => always m'.durable)
      always m

theorem Keeps.bind {program : ExceptT ε (Connection ω) β} {middle : β → ω → Prop}
    {next : β → ExceptT ε (Connection ω) α} (hfirst : Keeps before program middle always)
    (hnext : ∀ value, Keeps (middle value) (next value) after always) :
    Keeps before (program >>= next) after always := by
  intro m hbefore
  rw [wp_run_bind]
  refine wp_mono (hfirst m hbefore) ?_ fun _ => id
  intro result m' hresult
  rcases result with error | value
  · exact hresult
  · exact hnext value m' hresult

theorem Keeps.mono {before' : ω → Prop} {after' : α → ω → Prop}
    {program : ExceptT ε (Connection ω) α} (h : Keeps before program after always)
    (hbefore : ∀ durable, before' durable → before durable)
    (hafter : ∀ value durable, after value durable → after' value durable) :
    Keeps before' program after' always := by
  intro m hm
  refine wp_mono (h m (hbefore _ hm)) ?_ fun _ => id
  intro result m' hresult
  rcases result with error | value
  · exact hresult
  · exact hafter value _ hresult

theorem Keeps.weaken {always' : ω → Prop} {program : ExceptT ε (Connection ω) α}
    (h : Keeps before program after always)
    (halways : ∀ durable, always durable → always' durable) :
    Keeps before program after always' := by
  intro m hm
  refine wp_mono (h m hm) ?_ halways
  intro result m' hresult
  rcases result with error | value
  · exact halways _ hresult
  · exact hresult

theorem Keeps.each {program : ExceptT ε (Connection ω) α}
    (h : ∀ durable, before durable → Keeps (· = durable) program after always) :
    Keeps before program after always := fun m hm => h m.durable hm m rfl

/-- What is known of a result may be used. -/
theorem Keeps.known {program : ExceptT ε (Connection ω) α} {fact : Prop}
    (h : fact → Keeps before program after always) :
    Keeps (fun durable => before durable ∧ fact) program after always :=
  fun m hm => h hm.2 m hm.1

theorem keeps_pure (value : α) (h : ∀ durable, before durable → after value durable) :
    Keeps before (pure value : ExceptT ε (Connection ω) α) after always := fun _ hm => h _ hm

theorem Atomic.keeps {program : ExceptT ε (Connection ω) α} {meaning : ω → Except ε (α × ω)}
    (h : Atomic program meaning) (halways : ∀ durable, before durable → always durable)
    (hdone : ∀ durable value left, before durable → meaning durable = .ok (value, left) →
      after value left ∧ always left) : Keeps before program after always := by
  intro m hm
  refine wp_mono (h m) ?_ ?_
  · rintro result m' ⟨-, -, hresult⟩
    rcases result with error | value
    · show always m'.durable
      rw [hresult.1]
      exact halways _ hm
    · exact (hdone _ value _ hm hresult).1
  · rintro left ⟨-, rfl | ⟨value, hvalue⟩⟩
    · exact halways _ hm
    · exact (hdone _ value _ hm hvalue).2

theorem Reads.keeps {program : ExceptT ε (Connection ω) α} {select : ω → Except ε α}
    (h : Reads program select) (halways : ∀ durable, before durable → always durable)
    (hafter : ∀ durable value, before durable → select durable = .ok value → after value durable) :
    Keeps before program after always := by
  intro m hm
  refine wp_mono (h.wp m) ?_ ?_
  · rintro result m' ⟨-, -, hsame, hresult⟩
    rcases result with error | value
    · show always m'.durable
      rw [hsame]
      exact halways _ hm
    · show after value m'.durable
      rw [hsame]
      rcases hresult with hselect | ⟨-, error, herror⟩
      · exact hafter _ value hm hselect.symm
      · cases herror
  · rintro left ⟨-, rfl⟩
    exact halways _ hm

/-- Reading keeps everything. -/
theorem Reads.keeps_before {program : ExceptT ε (Connection ω) α} {select : ω → Except ε α}
    (h : Reads program select) (halways : ∀ durable, before durable → always durable) :
    Keeps before program (fun _ => before) always :=
  h.keeps halways fun _ _ hbefore _ => hbefore

theorem Reads.keeps_always {program : ExceptT ε (Connection ω) α} {select : ω → Except ε α}
    (h : Reads program select) : Keeps always program (fun _ => always) always :=
  h.keeps_before fun _ => id

theorem wp_onCopy {program : ExceptT ε (Connection ω) α} {crash : ω → Prop}
    {post : Except ε α → Machine (List Reply) ω → Prop} {m : Machine (List Reply) ω} :
    wp (onCopy program).run post crash m ↔
      wp program.run (fun result m' => post result { m' with durable := m.durable })
        (fun _ => crash m.durable) m := by
  simp only [wp, onCopy, ExceptT.run, ExceptT.mk]
  rcases program m with ⟨result, m'⟩ | left
  · rfl
  · rfl

/-- The database itself is left alone. -/
theorem Keeps.onCopy {program : ExceptT ε (Connection ω) α}
    (h : Keeps before program after always) {durable : ω} (hdurable : before durable) :
    Keeps (· = durable) (Sql.onCopy program)
      (fun value left => left = durable ∧ ∃ copy, after value copy) (· = durable) := by
  rintro m rfl
  rw [wp_onCopy]
  refine wp_mono (h m hdurable) ?_ fun _ _ => rfl
  intro result m' hresult
  rcases result with error | value
  · rfl
  · exact ⟨rfl, _, hresult⟩

/-- Whatever becomes of the operation, `always` holds of what it leaves. -/
theorem Keeps.left {program : ExceptT ε (Connection ω) α}
    (h : Keeps before program after always)
    (hafter : ∀ value durable, after value durable → always durable)
    {m : Machine (List Reply) ω} (hm : before m.durable) : always (program.run m).left := by
  have hrun := h m hm
  unfold Crash.wp at hrun
  generalize program.run m = outcome at hrun ⊢
  rcases outcome with ⟨error | value, m'⟩ | left
  · exact hrun
  · exact hafter value _ hrun
  · exact hrun

/-- If nothing fails the operation returns `value` and leaves `left`. -/
def Calmly (program : ExceptT ε (Connection ω) α) (durable : ω) (value : α) (left : ω) : Prop :=
  program.run ⟨[], durable, []⟩ = .done (.ok value) ⟨[], left, []⟩

theorem Calmly.bind {program : ExceptT ε (Connection ω) β} {next : β → ExceptT ε (Connection ω) α}
    {durable middle left : ω} {first : β} {value : α} (hfirst : Calmly program durable first middle)
    (hnext : Calmly (next first) middle value left) :
    Calmly (program >>= next) durable value left := by
  rw [Calmly] at hfirst hnext ⊢
  rw [ExceptT.run_bind]
  simp only [Bind.bind, hfirst]
  exact hnext

/-- An operation that succeeds if nothing fails can only end otherwise if something
does. -/
theorem Keeps.wp_calmly {program : ExceptT ε (Connection ω) α}
    (h : Keeps before program after always) {durable left : ω} {value : α}
    (hcalm : Calmly program durable value left) (hdurable : before durable)
    (replies : List Reply) :
    wp program.run
      (fun result m' => (∃ value, result = .ok value ∧ after value m'.durable) ∨
        replies ≠ [] ∧ (∃ error, result = .error error) ∧ always m'.durable)
      always ⟨replies, durable, []⟩ := by
  by_cases hreplies : replies = []
  · have hrun := h ⟨[], durable, []⟩ hdurable
    rw [wp, hcalm] at hrun
    rw [hreplies, wp, hcalm]
    exact .inl ⟨value, rfl, hrun⟩
  · refine wp_mono (h ⟨replies, durable, []⟩ hdurable) ?_ fun _ => id
    intro result m' hresult
    rcases result with error | value
    · exact .inr ⟨hreplies, ⟨error, rfl⟩, hresult⟩
    · exact .inl ⟨value, rfl, hresult⟩

theorem Calmly.onCopy {program : ExceptT ε (Connection ω) α} {durable left : ω} {value : α}
    (h : Calmly program durable value left) :
    Calmly (Sql.onCopy program) durable value durable := by
  simp only [Calmly, Sql.onCopy, ExceptT.run, ExceptT.mk] at h ⊢
  rw [h]

theorem Atomic.calmly {program : ExceptT ε (Connection ω) α} {meaning : ω → Except ε (α × ω)}
    (h : Atomic program meaning) {durable left : ω} {value : α}
    (hmeaning : meaning durable = .ok (value, left)) : Calmly program durable value left := by
  rw [Calmly, h.calm, hmeaning]

theorem Reads.calmly {program : ExceptT ε (Connection ω) α} {select : ω → Except ε α}
    (h : Reads program select) {durable : ω} {value : α} (hselect : select durable = .ok value) :
    Calmly program durable value durable :=
  Atomic.calmly h (congrArg (Except.map _) hselect)

end Keeps

end Sql
