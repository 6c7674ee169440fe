/-
The history store as the session sees it.

The session is modelled with a file that holds a whole history and is replaced as a
whole.  The tables, the transactions and the migrations are what is behind this file:
whatever happens in an operation on the database, the operation on the file does the
same under some faults, and without a fault if nothing goes wrong in the database.  Of
an error the session asks only whether there was one.

* `Depicts`, `Opened` — the file that a database is, before and after it has been opened;
* `Simulates` — the operation on the file does what the one on the database does;
* `saveSnapshot_simulates`, `loadSnapshot_simulates` — saving and loading.
-/
import LoraMessenger.HistoryMigration
import LoraMessenger.Storage

namespace Lora.HistoryStore

open Crash Sql

/-! ### Databases and files -/

/-- A history that rows can hold. -/
structure Storable (history : StoredHistory) : Prop extends Ordered history.snapshot where
  ledger : ∃ window : MessageDedupeWindow, window.records = history.snapshot.seenMessages ∧
    window.lastSeenOrder = history.snapshot.lastSeenOrder

structure HoldsCurrent (history : StoredHistory) (db : Database) : Prop where
  present : db.present
  represents : Represents db history
  storable : Storable history

/-- A history from before the ledger. -/
structure OldHistory (history : StoredHistory) (identity : Identity) (entries : List TimelineEntry)
    (lastAssignedOrder : ℕ) : Prop where
  valid : ValidTimeline identity entries lastAssignedOrder
  eq : history = ⟨identity.installId.uuid, false, unseeded entries lastAssignedOrder⟩

def HoldsFirst (history : StoredHistory) (db : Database) : Prop :=
  ∃ identity entries lastAssignedOrder, OldHistory history identity entries lastAssignedOrder ∧
    HoldsV1 db identity entries lastAssignedOrder

def HoldsSecond (history : StoredHistory) (db : Database) : Prop :=
  ∃ identity entries lastAssignedOrder, OldHistory history identity entries lastAssignedOrder ∧
    HoldsV2 db identity entries lastAssignedOrder

/-- The database holds the history, in one of the three schemas. -/
def Holds (history : StoredHistory) (db : Database) : Prop :=
  HoldsFirst history db ∨ HoldsSecond history db ∨ HoldsCurrent history db

/-- There is no identity for which the database could be opened. -/
def Unreadable (db : Database) : Prop :=
  ∀ identity, Keeps (· = db) (validateBoundDatabase identity) (fun _ _ => False) (· = db)

/-- The file that the session sees. -/
inductive Depicts (db : Database) : HistoryFile → Prop
  | missing (habsent : db.present = false) : Depicts db .missing
  | damaged (hpresent : db.present) (hunreadable : Unreadable db) : Depicts db .damaged
  | blank (hblank : db = blankDatabase) : Depicts db .blank
  | stored {history : StoredHistory} (hholds : Holds history db) : Depicts db (.stored history)

/-- The file of a database that has been opened. -/
inductive Opened (db : Database) : HistoryFile → Prop
  | blank (hblank : db = blankDatabase) : Opened db .blank
  | stored {history : StoredHistory} (hholds : HoldsCurrent history db) :
      Opened db (.stored history)

theorem Opened.depicts {db : Database} {file : HistoryFile} (h : Opened db file) :
    Depicts db file := by
  cases h with
  | blank hblank => exact .blank hblank
  | stored hholds => exact .stored (.inr (.inr hholds))

/-! ### Simulation -/

section Simulates

variable {μ α β : Type}

/-- Both succeed with the same value, or both fail. -/
def Settled (before after : Database → HistoryFile → Prop) (db : Database) (file : HistoryFile)
    (result expected : Except HistoryError α) : Prop :=
  match result, expected with
  | .ok value, .ok value' => value = value' ∧ after db file
  | .error _, .error _ => before db file
  | _, _ => False

/-- However the program ends, the model ends in the same way after some accesses, which
all succeed if nothing goes wrong in the program. -/
def SimulatesFrom (before : Database → HistoryFile → Prop) (program : StoreM α)
    (model : Prog μ Disk β) (answer : β → Except HistoryError α)
    (after : Database → HistoryFile → Prop) (replies : List Reply) (db : Database) (memory : μ)
    (disk : Disk) : Prop :=
  wp program.run
    (fun result m => ∃ faults value file,
      (∀ later, model ⟨memory, disk, faults ++ later⟩ =
        .done value ⟨memory, { disk with history := file }, later⟩) ∧
      (replies = [] → ∀ fault ∈ faults, fault = .none) ∧
      Settled before after m.durable file result (answer value))
    (fun left => ∃ faults file, before left file ∧
      ∀ later, model ⟨memory, disk, faults ++ later⟩ = .crashed { disk with history := file })
    ⟨replies, db, []⟩

def Simulates (before : Database → HistoryFile → Prop) (program : StoreM α)
    (model : Prog μ Disk β) (answer : β → Except HistoryError α)
    (after : Database → HistoryFile → Prop) : Prop :=
  ∀ replies db memory disk, before db disk.history →
    SimulatesFrom before program model answer after replies db memory disk

variable {before after : Database → HistoryFile → Prop} {program : StoreM α} {model : Prog μ Disk β}
  {answer : β → Except HistoryError α} {replies : List Reply} {db : Database} {memory : μ}
  {disk : Disk}

/-- Both refuse before they touch anything. -/
theorem SimulatesFrom.refused (error : HistoryError) {value : β} (h : before db disk.history)
    (hprogram : program.run ⟨replies, db, []⟩ = .done (.error error) ⟨replies, db, []⟩)
    (hmodel : ∀ faults, model ⟨memory, disk, faults⟩ = .done value ⟨memory, disk, faults⟩)
    (hanswer : ∃ error, answer value = .error error) :
    SimulatesFrom before program model answer after replies db memory disk := by
  obtain ⟨error', hanswer⟩ := hanswer
  rw [SimulatesFrom, wp, hprogram]
  refine ⟨[], value, disk.history, hmodel, by simp, ?_⟩
  rw [hanswer]
  exact h

/-- Reads the file, and answers whether that was possible. -/
def readFor (refused value : β) : Prog μ Disk β := do
  match ← Prog.read with
  | none => pure refused
  | some _ => pure value

/-- The program succeeds unless something goes wrong in it, and the model reads the
file. -/
theorem SimulatesFrom.of_calm {program : StoreM Unit} {answer : β → Except HistoryError Unit}
    (refused value : β) {left : Database} (h : before db disk.history)
    (hkeeps : Keeps (before · disk.history) program (fun _ db => after db disk.history)
      (before · disk.history))
    (hcalm : Calmly program db () left)
    (hmodel : ∀ faults,
      model ⟨memory, disk, faults⟩ = readFor refused value ⟨memory, disk, faults⟩)
    (hrefused : ∃ error, answer refused = .error error) (hanswer : answer value = .ok ()) :
    SimulatesFrom before program model answer after replies db memory disk := by
  obtain ⟨error, hrefused⟩ := hrefused
  refine wp_mono (hkeeps.wp_calmly hcalm h replies) ?_ fun left hleft =>
    ⟨[.crash .untouched], disk.history, hleft, fun later => hmodel _⟩
  rintro result m (⟨_, rfl, hafter⟩ | ⟨hreplies, ⟨_, rfl⟩, hbefore⟩)
  · refine ⟨[.none], value, disk.history, fun later => hmodel _, by simp, ?_⟩
    rw [hanswer]
    exact ⟨rfl, hafter⟩
  · refine ⟨[.failed .untouched], refused, disk.history, fun later => hmodel _,
      fun hnone => absurd hnone hreplies, ?_⟩
    rw [hrefused]
    exact hbefore

/-- The program never succeeds, and the model refuses what it reads. -/
theorem SimulatesFrom.of_refusal (refused value : β)
    (hkeeps : Keeps (· = db) program (fun _ _ => False) (before · disk.history))
    (hmodel : ∀ faults,
      model ⟨memory, disk, faults⟩ = readFor refused value ⟨memory, disk, faults⟩)
    (hanswer : ∃ error, answer value = .error error) :
    SimulatesFrom before program model answer after replies db memory disk := by
  obtain ⟨error, hanswer⟩ := hanswer
  refine wp_mono (hkeeps ⟨replies, db, []⟩ rfl) ?_ fun left hleft =>
    ⟨[.crash .untouched], disk.history, hleft, fun later => hmodel _⟩
  intro result m hresult
  cases result with
  | ok _ => exact hresult.elim
  | error _ =>
    refine ⟨[.none], value, disk.history, fun later => hmodel _, by simp, ?_⟩
    rw [hanswer]
    exact hresult

end Simulates

/-- The answer of an operation that returns an error code. -/
def ofCode (error : HistoryError) : Except HistoryError Unit :=
  if error = .none then .ok () else .error error

/-- The answer of an operation that returns whether it succeeded. -/
def ofSuccess (success : Bool) : Except HistoryError Unit :=
  if success then .ok () else .error .openFailed

/-! ### Saving -/

section Opened

variable {db : Database} {file : HistoryFile} {snapshot candidate : HistorySnapshot}
  {identity : Identity}

theorem Storable.ofValid {window : MessageDedupeWindow}
    (hvalid : SnapshotValid window snapshot identity) (hsized : Sized snapshot) (installId : Uuid)
    (dedupeInitialized : Bool) : Storable ⟨installId, dedupeInitialized, snapshot⟩ :=
  ⟨ordered_of_valid hvalid hsized, window, hvalid.records, hvalid.last⟩

theorem HoldsCurrent.preflight {history : StoredHistory} (h : HoldsCurrent history db) :
    preflight db = .ok () := by
  obtain ⟨window, hrecords, hlast⟩ := h.storable.ledger
  exact h.represents.preflight h.storable.toOrdered hrecords hlast

theorem Opened.preflight (h : Opened db file) : preflight db = .ok () := by
  cases h with
  | blank hblank =>
    rw [hblank]
    decide
  | stored hholds => exact hholds.preflight

theorem Opened.present (h : Opened db file) : db.present := by
  cases h with
  | blank hblank =>
    rw [hblank]
    rfl
  | stored hholds => exact hholds.present

theorem identityMatches_metadataOf (history : StoredHistory) (identity : Identity) :
    identityMatches (metadataOf history) identity = history.identityMatches identity := by
  rw [identityMatches, StoredHistory.identityMatches, metadataOf, decide_eq_decide]
  exact ⟨Uuid.ext_bytes, congrArg Uuid.bytes⟩

theorem rowMatches_seenMessageRow {record expected : SeenMessageRecord}
    (horder : record.seenOrder ≤ kMaximumOrder) :
    rowMatches (seenMessageRow record) expected = true ↔ record = expected := by
  have hid : (seenMessageRow record).messageId = record.messageId.uuid.bytes := rfl
  have hstored : (seenMessageRow record).seenOrder = encodeUint64 record.seenOrder := rfl
  have hpost : (seenMessageRow record).encodedPost = record.encodedPost := rfl
  rw [rowMatches, hid, hstored, hpost, decodeUint64_encode horder]
  simp only [Uuid.length_bytes, Bool.and_eq_true, decide_eq_true_eq, Option.some.injEq]
  constructor
  · rintro ⟨⟨⟨-, hseen⟩, hid⟩, hpost⟩
    rcases record with ⟨messageId, seenOrder, encodedPost⟩
    rcases expected with ⟨messageId', seenOrder', encodedPost'⟩
    obtain rfl : messageId = messageId' := uuid_bytes_inj hid
    obtain rfl : seenOrder = seenOrder' := hseen
    obtain rfl : encodedPost = encodedPost' := hpost
    rfl
  · rintro rfl
    exact ⟨⟨⟨⟨trivial, rfl⟩, rfl⟩, rfl⟩, rfl⟩

/-- The rows of a ledger match just this ledger. -/
theorem ledgerMatchesSnapshot_rows {records expected : List SeenMessageRecord}
    (horders : ∀ record ∈ records, record.seenOrder ≤ kMaximumOrder) :
    ledgerMatchesSnapshot (records.map seenMessageRow) expected = true ↔ records = expected := by
  induction records generalizing expected with
  | nil => cases expected with
    | nil => simp [ledgerMatchesSnapshot]
    | cons other expected => simp [ledgerMatchesSnapshot]
  | cons record records ih =>
    rw [List.forall_mem_cons] at horders
    cases expected with
    | nil => simp [ledgerMatchesSnapshot]
    | cons other expected =>
      rw [List.map_cons, ledgerMatchesSnapshot, Bool.and_eq_true,
        rowMatches_seenMessageRow horders.1, ih horders.2, List.cons.injEq]

/-- The checks against the rows are those against the file. -/
theorem Opened.checkStored (h : Opened db file) (snapshot : HistorySnapshot)
    (identity : Identity) :
    checkStored snapshot identity db = ofCode (file.admits snapshot identity) := by
  cases h with
  | blank hblank =>
    rw [hblank]
    rfl
  | @stored history hholds =>
    have hordered := hholds.storable.toOrdered
    have hledger : ledgerMatchesSnapshot db.orderedSeenMessages snapshot.seenMessages =
        history.ledgerMatches snapshot := by
      rw [hholds.represents.orderedSeenMessages hordered, StoredHistory.ledgerMatches,
        Bool.eq_iff_iff, decide_eq_true_iff]
      exact ledgerMatchesSnapshot_rows fun record hrecord =>
        Nat.le_trans (hordered.seenMessages.bounded record hrecord) hordered.seen
    rw [HistoryStore.checkStored, hholds.represents.loadMetadata hordered.toSized]
    dsimp only
    rw [identityMatches_metadataOf, hledger, HistoryFile.admits, StoredHistory.admits,
      apply_ite ofCode, apply_ite ofCode, apply_ite ofCode]
    rfl

theorem Opened.written (h : Opened db file) (hchecks : SaveChecks (fun _ => false) candidate
    identity db) : Opened (written db candidate identity)
      (.stored ⟨identity.installId.uuid, true, candidate⟩) := by
  obtain ⟨window, hvalid⟩ := hchecks.valid
  exact .stored ⟨h.present, represents_written hchecks.current candidate identity,
    .ofValid hvalid hchecks.sized _ _⟩

theorem ofCode_of_ne {error : HistoryError} (h : error ≠ .none) : ofCode error = .error error :=
  if_neg h

theorem error_of_reconcile {error : HistoryError}
    (h : reconcileSnapshotDedupe snapshot = .error error) : error = .invalidSnapshot := by
  rw [reconcileSnapshotDedupe] at h
  split at h
  · cases h
    rfl
  split at h
  · cases h
    rfl
  · cases h

/-- A save of the rows is one of the file; the two make the same checks. -/
theorem saveSnapshot_simulates {μ : Type} (hsized : Sized snapshot) (identity : Identity) :
    Simulates Opened (saveSnapshot (fun _ => false) snapshot identity)
      (Lora.saveSnapshot snapshot identity : Prog μ Disk HistoryError) ofCode Opened := by
  intro replies db memory disk h
  cases hreconcile : reconcileSnapshotDedupe snapshot with
  | error error =>
    have hne : error ≠ .none := by
      rw [error_of_reconcile hreconcile]
      decide
    refine .refused error h ?_ (fun faults => ?_) ⟨error, ofCode_of_ne hne⟩
    · rw [saveSnapshot, hreconcile]
      rfl
    · rw [Lora.saveSnapshot, hreconcile]
      rfl
  | ok candidate =>
  by_cases hvalid : validateSnapshot candidate identity = .none
  swap
  · refine .refused (validateSnapshot candidate identity) h ?_ (fun faults => ?_)
      ⟨_, ofCode_of_ne hvalid⟩
    · rw [saveSnapshot, hreconcile]
      show (if _ then _ else _ : StoreM Unit).run _ = _
      rw [if_pos hvalid]
      rfl
    · rw [Lora.saveSnapshot, hreconcile]
      dsimp only
      rw [if_pos hvalid]
      rfl
  -- Now the rows decide, and the file in the same way.
  have hchecked (hadmits : disk.history.admits candidate identity = .none) :
      SaveChecks (fun _ => false) candidate identity db :=
    ⟨validateSnapshot_eq_none.mp hvalid, sized_of_reconcile hsized hreconcile, h.preflight,
      by rw [h.checkStored, hadmits]; rfl, rfl⟩
  have hsaved {left : Database}
      (hleft : (saved (fun _ => false) snapshot identity db).map ((), ·) = .ok ((), left)) :
      disk.history.admits candidate identity = .none ∧
        Opened left (.stored ⟨identity.installId.uuid, true, candidate⟩) := by
    obtain ⟨other, hother, hchecks, rfl⟩ := (saved_eq_ok hsized).mp (map_eq_ok hleft)
    rw [hreconcile, Except.ok.injEq] at hother
    subst hother
    refine ⟨?_, h.written hchecks⟩
    by_contra hadmits
    have hstored := hchecks.stored
    rw [h.checkStored, ofCode_of_ne hadmits] at hstored
    cases hstored
  refine wp_mono (atomic_saveSnapshot _ snapshot identity ⟨replies, db, []⟩) ?_ ?_
  · rintro result m ⟨-, -, hresult⟩
    cases result with
    | ok _ =>
      obtain ⟨hadmits, hopened⟩ := hsaved hresult
      refine ⟨[.none, .none], .none, _, fun later => ?_, by simp, rfl, hopened⟩
      simp [Lora.saveSnapshot, hreconcile, hvalid, bind, Prog.read, hadmits, Prog.write,
        replaceHistory, pure]
    | error error =>
      obtain ⟨hdurable, hreason⟩ := hresult
      by_cases hadmits : disk.history.admits candidate identity = .none
      · refine ⟨[.failed .untouched], .readFailed, disk.history, fun later => ?_, ?_, ?_⟩
        · simp [Lora.saveSnapshot, hreconcile, hvalid, bind, Prog.read, pure]
        · -- Nothing has failed, so the save is done.
          rintro rfl
          have hdone := (saved_eq_ok hsized).mpr ⟨candidate, hreconcile, hchecked hadmits, rfl⟩
          have herror : (saved (fun _ => false) snapshot identity db).map ((), ·) = _ :=
            hreason.resolve_left (by simp)
          rw [hdone] at herror
          cases herror
        · show Opened m.durable disk.history
          rw [hdurable]
          exact h
      · refine ⟨[.none], disk.history.admits candidate identity, disk.history, fun later => ?_,
          by simp, ?_⟩
        · simp [Lora.saveSnapshot, hreconcile, hvalid, bind, Prog.read, hadmits, pure]
        · rw [ofCode_of_ne hadmits]
          show Opened m.durable disk.history
          rw [hdurable]
          exact h
  · rintro left ⟨-, rfl | ⟨⟨⟩, hleft⟩⟩
    · refine ⟨[.crash .untouched], disk.history, h, fun later => ?_⟩
      simp [Lora.saveSnapshot, hreconcile, hvalid, bind, Prog.read]
    · obtain ⟨hadmits, hopened⟩ := hsaved hleft
      refine ⟨[.none, .crash .complete], _, hopened, fun later => ?_⟩
      simp [Lora.saveSnapshot, hreconcile, hvalid, bind, Prog.read, hadmits, Prog.write,
        replaceHistory]

/-! ### Loading -/

theorem HoldsCurrent.stored {history : StoredHistory} (h : HoldsCurrent history db)
    (identity : Identity) : stored identity db =
      if !history.identityMatches identity then .error .identityMismatch
      else history.readSnapshot identity >>= fun snapshot =>
        .ok (snapshot, history.dedupeInitialized) := by
  have hordered := h.storable.toOrdered
  rw [HistoryStore.stored, h.preflight, h.represents.loadMetadata hordered.toSized]
  show (if !identityMatches (metadataOf history) identity then _
    else readSnapshot db (metadataOf history) identity >>= _) = _
  rw [identityMatches_metadataOf, h.represents.readSnapshot hordered]
  rfl

theorem HoldsCurrent.bound {history : StoredHistory} (h : HoldsCurrent history db)
    (identity : Identity) : bound identity db =
      if !history.identityMatches identity then .error .identityMismatch
      else history.readSnapshot identity >>= fun _ => .ok () := by
  have hordered := h.storable.toOrdered
  rw [HistoryStore.bound, h.represents.loadMetadata hordered.toSized]
  show (if !identityMatches (metadataOf history) identity then _
    else readSnapshot db (metadataOf history) identity >>= _) = _
  rw [identityMatches_metadataOf, h.represents.readSnapshot hordered]

/-- A load of a file whose ledger is still to be seeded ends with a save. -/
theorem run_loadSnapshot {μ : Type} {memory : μ} {disk : Disk} {faults : List Fault}
    {history : StoredHistory} (hfile : disk.history = .stored history)
    (hidentity : history.identityMatches identity)
    (hread : history.readSnapshot identity = .ok snapshot)
    (hinitialized : history.dedupeInitialized = false)
    (hreconcile : reconcileSnapshotDedupe snapshot = .ok candidate) :
    Lora.loadSnapshot identity ⟨memory, disk, .none :: faults⟩ = (do
      let saved ← Lora.saveSnapshot candidate identity
      if saved ≠ .none then pure (.error saved)
      else pure (.ok candidate) : Prog μ Disk (Except HistoryError HistorySnapshot))
      ⟨memory, disk, faults⟩ := by
  simp [Lora.loadSnapshot, bind, Prog.read, hfile, hidentity, hread, hinitialized, hreconcile]

/-- A load of the rows is one of the file; if the ledger has to be seeded, so are both. -/
theorem loadSnapshot_simulates {μ : Type} (identity : Identity) :
    Simulates Opened (loadSnapshot (fun _ => false) identity)
      (Lora.loadSnapshot identity : Prog μ Disk (Except HistoryError HistorySnapshot)) id
      Opened := by
  intro replies db memory disk h
  rw [SimulatesFrom, loadSnapshot, wp_run_bind]
  refine wp_mono ((reads_readStored identity).wp ⟨replies, db, []⟩) ?_ ?_
  swap
  · rintro left ⟨-, rfl⟩
    exact ⟨[.crash .untouched], disk.history, h, fun later => rfl⟩
  rintro result ⟨replies', db', faults'⟩ ⟨hmemory, hfaults, hdurable, hresult⟩
  obtain rfl : faults' = [] := hfaults
  obtain rfl : db' = db := hdurable
  rcases hresult with hresult | ⟨hreplies, error, rfl⟩
  swap
  · exact ⟨[.failed .untouched], .error .readFailed, disk.history, fun later => rfl,
      fun hnone => absurd hnone hreplies, h⟩
  -- The rows were read; what they amount to depends on the file alone.
  generalize hfile : disk.history = file at h
  have hsame : { disk with history := file } = disk := by rw [← hfile]
  cases h with
  | blank hblank =>
    obtain rfl : result = .ok ({}, true) := by
      rw [hresult, hblank]
      rfl
    refine ⟨[.none], .ok {}, .blank, fun later => ?_, by simp, rfl, .blank hblank⟩
    simp [Lora.loadSnapshot, bind, Prog.read, hfile, pure, hsame]
  | @stored history hholds =>
    have hresult : result = _ := hresult.trans (hholds.stored identity)
    by_cases hidentity : history.identityMatches identity
    swap
    · obtain rfl : result = .error .identityMismatch := by
        rw [hresult, Bool.eq_false_of_not_eq_true hidentity]
        rfl
      refine ⟨[.none], .error .identityMismatch, .stored history, fun later => ?_, by simp,
        .stored hholds⟩
      simp [Lora.loadSnapshot, bind, Prog.read, hfile, pure, hsame, hidentity]
    rw [hidentity] at hresult
    cases hread : history.readSnapshot identity with
    | error error =>
      obtain rfl : result = .error error := by
        rw [hresult, hread]
        rfl
      refine ⟨[.none], .error error, .stored history, fun later => ?_, by simp, .stored hholds⟩
      simp [Lora.loadSnapshot, bind, Prog.read, hfile, pure, hsame, hidentity, hread]
    | ok snapshot =>
      obtain rfl : result = .ok (snapshot, history.dedupeInitialized) := by
        rw [hresult, hread]
        rfl
      obtain ⟨hsnapshot, hvalid⟩ := StoredHistory.readSnapshot_eq_ok hread
      cases hinitialized : history.dedupeInitialized with
      | true =>
        refine ⟨[.none], .ok snapshot, .stored history, fun later => ?_, by simp, rfl,
          .stored hholds⟩
        simp [Lora.loadSnapshot, bind, Prog.read, hfile, pure, hsame, hidentity, hread,
          hinitialized]
      | false =>
        rw [hinitialized, if_neg (by decide)] at hvalid
        obtain ⟨-, migrated, hreconcile, -⟩ := hvalid
        have hsized : Sized migrated :=
          sized_of_reconcile (hsnapshot ▸ hholds.storable.toSized) hreconcile
        have hrun (faults : List Fault) :
            Lora.loadSnapshot identity ⟨memory, disk, .none :: faults⟩ = _ :=
          run_loadSnapshot hfile hidentity hread hinitialized hreconcile
        -- The ledger is seeded by a save, with whatever replies are left.
        have hsave := saveSnapshot_simulates (μ := μ) hsized identity replies' db' memory disk
          (hfile ▸ .stored hholds)
        show wp (liftExcept (reconcileSnapshotDedupe snapshot) >>= _ : StoreM _).run _ _ _
        rw [hreconcile]
        show wp (saveSnapshot (fun _ => false) migrated identity >>= _ : StoreM _).run _ _ _
        rw [wp_run_bind]
        refine wp_mono hsave ?_ ?_
        · rintro result m ⟨faults, value, file, hdone, hcalm, hsettled⟩
          have hcalm' (hreplies : replies = []) :
              ∀ fault ∈ Fault.none :: faults, fault = .none := by
            rw [List.forall_mem_cons]
            exact ⟨rfl, hcalm (hmemory hreplies)⟩
          by_cases hvalue : value = .none
          · rw [hvalue, ofCode, if_pos rfl] at hsettled
            cases result with
            | error error => cases hsettled
            | ok _ =>
              refine ⟨.none :: faults, .ok migrated, file, fun later => ?_, hcalm', rfl,
                hsettled.2⟩
              rw [List.cons_append, hrun]
              simp [bind, hdone, hvalue, pure]
          · rw [ofCode_of_ne hvalue] at hsettled
            cases result with
            | ok _ => cases hsettled
            | error error =>
              refine ⟨.none :: faults, .error value, file, fun later => ?_, hcalm', hsettled⟩
              rw [List.cons_append, hrun]
              simp [bind, hdone, hvalue, pure]
        · rintro left ⟨faults, file, hleft, hcrashed⟩
          refine ⟨.none :: faults, file, hleft, fun later => ?_⟩
          rw [List.cons_append, hrun]
          simp only [bind, hcrashed]

end Opened

end Lora.HistoryStore
