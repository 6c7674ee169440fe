/-
Saving and loading over whole runs.

A save may fail at any statement and the process may end at any time.  Whatever
happens, the next load finds what the last save that was done has stored, and
the stored orders never turn back.

* `history_round_trip` — the round trip, and sequences of saves;
* `full_ledger_forgets` — a full ledger makes room for the entries it does not
  list.
-/
import LoraMessenger.HistorySave

namespace Lora.HistoryStore

open Crash Sql

/-- A save, with the replies of the database. -/
structure Save where
  failpoints : Failpoints
  snapshot : HistorySnapshot
  identity : Identity
  replies : List Reply
  sized : Sized snapshot

namespace Save

def run (save : Save) (db : Database) : Outcome (List Reply) Database (Except HistoryError Unit) :=
  (saveSnapshot save.failpoints save.snapshot save.identity).run ⟨save.replies, db, []⟩

/-- The database after the save. -/
def left (save : Save) (db : Database) : Database := (save.run db).left

def Succeeds (save : Save) (db : Database) : Prop := ∃ machine, save.run db = .done (.ok ()) machine

def Fails (save : Save) (db : Database) : Prop :=
  ∃ error machine, save.run db = .done (.error error) machine

end Save

/-- The database after a number of saves. -/
def saveAll (saves : List Save) (db : Database) : Database :=
  saves.foldl (fun db save => save.left db) db

/-- A load in which nothing fails. -/
def reload (identity : Identity) (db : Database) :
    Outcome (List Reply) Database (Except HistoryError HistorySnapshot) :=
  (loadSnapshot (fun _ => false) identity).run ⟨[], db, []⟩

/-- The save was done. -/
structure Done (save : Save) (db left : Database) : Prop where
  checks : SaveChecks save.failpoints (completedLedger save.snapshot) save.identity db
  left : left = written db (completedLedger save.snapshot) save.identity

theorem done_of_saved {save : Save} {db left : Database}
    (h : saved save.failpoints save.snapshot save.identity db = .ok left) : Done save db left := by
  obtain ⟨candidate, hreconcile, hchecks, hleft⟩ := (saved_eq_ok save.sized).mp h
  obtain ⟨window, hvalid⟩ := hchecks.valid
  have hdistinct : (save.snapshot.entries.map TimelineEntry.messageId).Nodup := by
    rw [← (reconcile_eq_ok hreconcile).1]
    exact hvalid.stamped.distinct
  obtain rfl := reconcileSnapshotDedupe_eq hreconcile hdistinct
  exact ⟨hchecks, hleft⟩

/-- A save in which nothing fails. -/
theorem run_of_saved {save : Save} {db left : Database} (hreplies : save.replies = [])
    (h : saved save.failpoints save.snapshot save.identity db = .ok left) :
    save.run db = .done (.ok ()) ⟨[], left, []⟩ := by
  rw [Save.run, hreplies, (atomic_saveSnapshot _ _ _).calm, h]
  rfl

/-- All a save can do. -/
theorem Save.cases (save : Save) (db : Database) :
    (save.Succeeds db ∧ Done save db (save.left db)) ∨ (save.Fails db ∧ save.left db = db) ∨
    (save.run db = .crashed (save.left db) ∧
      (save.left db = db ∨ Done save db (save.left db))) := by
  have hdone {left : Database}
      (hsaved : (saved save.failpoints save.snapshot save.identity db).map ((), ·) =
        .ok ((), left)) :
      Done save db left := by
    cases hresult : saved save.failpoints save.snapshot save.identity db with
    | error error =>
      rw [hresult] at hsaved
      cases hsaved
    | ok left' =>
      rw [hresult] at hsaved
      cases hsaved
      exact done_of_saved hresult
  rcases (atomic_saveSnapshot save.failpoints save.snapshot save.identity).cases
    ⟨save.replies, db, []⟩ with
    ⟨⟨⟩, machine, hrun, hsaved⟩ | ⟨error, machine, hrun, hsame⟩ | ⟨durable, hrun, hcrash⟩
  · have hleft : save.left db = machine.durable := congrArg Outcome.left hrun
    rw [hleft]
    exact .inl ⟨⟨machine, hrun⟩, hdone hsaved⟩
  · have hleft : save.left db = machine.durable := congrArg Outcome.left hrun
    exact .inr (.inl ⟨⟨error, machine, hrun⟩, hleft.trans hsame⟩)
  · have hleft : save.left db = durable := congrArg Outcome.left hrun
    rw [hleft]
    exact .inr (.inr ⟨hrun, hcrash.imp_right fun ⟨_, hsaved⟩ => hdone hsaved⟩)

theorem reload_of_done {save : Save} {db left : Database} (h : Done save db left) :
    reload save.identity left = .done (.ok (completedLedger save.snapshot)) ⟨[], left, []⟩ := by
  obtain ⟨window, hvalid⟩ := h.checks.valid
  have hrepresents := represents_written h.checks.current (completedLedger save.snapshot)
    save.identity
  rw [← h.left] at hrepresents
  have hloaded : loaded (fun _ => false) save.identity left = _ :=
    loaded_represents hrepresents hvalid h.checks.sized
  rw [reload, (atomic_loadSnapshot _ _).calm, hloaded]

theorem advances_of_done {save : Save} {db left : Database} (h : Done save db left) :
    Advances db left := by
  rw [h.left]
  exact advances_written h.checks

theorem advances_left (save : Save) (db : Database) : Advances db (save.left db) := by
  rcases save.cases db with ⟨-, hdone⟩ | ⟨-, hsame⟩ | ⟨-, hsame | hdone⟩
  · exact advances_of_done hdone
  · rw [hsame]
    exact Advances.refl db
  · rw [hsame]
    exact Advances.refl db
  · exact advances_of_done hdone

theorem advances_saveAll (saves : List Save) (db : Database) : Advances db (saveAll saves db) := by
  induction saves generalizing db with
  | nil => exact Advances.refl db
  | cons save saves ih => exact (advances_left save db).trans (ih (save.left db))

/-- Saves with the same last order have stored the same ledger. -/
theorem ledger_of_done {save later : Save} {db left db' left' : Database} (h : Done save db left)
    (hbetween : Advances left db') (h' : Done later db' left')
    (heq : (completedLedger save.snapshot).lastSeenOrder =
      (completedLedger later.snapshot).lastSeenOrder) :
    (completedLedger save.snapshot).seenMessages =
      (completedLedger later.snapshot).seenMessages := by
  have hadvances := hbetween.trans (advances_of_done h')
  obtain ⟨metadata, hmetadata, -, -, hledger⟩ :=
    hadvances _ (h.left ▸ loadMetadata_written h.checks)
  rw [h'.left, loadMetadata_written h'.checks] at hmetadata
  cases hmetadata
  have hrows := hledger heq
  rw [h.left, h'.left, orderedSeenMessages_written h.checks, orderedSeenMessages_written h'.checks]
    at hrows
  have hread {save : Save} {db left : Database} (h : Done save db left) :
      ((completedLedger save.snapshot).seenMessages.map seenMessageRow).mapM readSeenMessage =
        some (completedLedger save.snapshot).seenMessages := by
    obtain ⟨window, hvalid⟩ := h.checks.valid
    have hordered := ordered_of_valid hvalid h.checks.sized
    exact mapM_map_eq_some fun record hrecord => readSeenMessage_row
      (Nat.le_trans (hordered.seenMessages.bounded record hrecord) hordered.seen)
  have hsame := hread h
  rw [hrows, hread h'] at hsame
  exact (Option.some.inj hsame).symm

theorem completedLedger_of_room {snapshot : HistorySnapshot}
    (h : snapshot.seenMessages.length +
      (unlisted snapshot.seenMessages snapshot.entries).length ≤ kDefaultSeenMessageCapacity) :
    (completedLedger snapshot).seenMessages = snapshot.seenMessages ++
      recordsFrom snapshot.lastSeenOrder (unlisted snapshot.seenMessages snapshot.entries) := by
  rw [completedLedger, keptRecords, Nat.sub_eq_zero_of_le h, Stamped.dropOldest]

/-- What is saved is loaded again, with its ledger completed; a save that fails
leaves what was there, and so does a crash unless it came after the commit.  In
a sequence of saves the stored orders never turn back, and saves with the same
last seen order have the same ledger. -/
theorem history_round_trip (save : Save) (db : Database) :
    (save.Succeeds db → reload save.identity (save.left db) =
      .done (.ok (completedLedger save.snapshot)) ⟨[], save.left db, []⟩) ∧
    (save.snapshot.seenMessages.length +
        (unlisted save.snapshot.seenMessages save.snapshot.entries).length ≤
          kDefaultSeenMessageCapacity →
      (completedLedger save.snapshot).seenMessages = save.snapshot.seenMessages ++
        recordsFrom save.snapshot.lastSeenOrder
          (unlisted save.snapshot.seenMessages save.snapshot.entries)) ∧
    (save.Fails db → save.left db = db) ∧
    (∀ durable, save.run db = .crashed durable → durable = db ∨ reload save.identity durable =
      .done (.ok (completedLedger save.snapshot)) ⟨[], durable, []⟩) ∧
    (∀ saves, Advances db (saveAll saves db)) ∧
    (∀ (saves : List Save) (later : Save), save.Succeeds db →
      later.Succeeds (saveAll saves (save.left db)) →
      (completedLedger save.snapshot).lastSeenOrder =
        (completedLedger later.snapshot).lastSeenOrder →
      (completedLedger save.snapshot).seenMessages =
        (completedLedger later.snapshot).seenMessages) := by
  have hdone {save : Save} {db : Database} (h : save.Succeeds db) :
      Done save db (save.left db) := by
    obtain ⟨machine, hrun⟩ := h
    rcases save.cases db with ⟨-, hdone⟩ | ⟨⟨error, machine', hrun'⟩, -⟩ | ⟨hrun', -⟩
    · exact hdone
    · rw [hrun] at hrun'
      cases hrun'
    · rw [hrun] at hrun'
      cases hrun'
  refine ⟨fun h => reload_of_done (hdone h), completedLedger_of_room, ?_, ?_,
    fun saves => advances_saveAll saves db, ?_⟩
  · rintro ⟨error, machine, hrun⟩
    rcases save.cases db with ⟨⟨machine', hrun'⟩, -⟩ | ⟨-, hsame⟩ | ⟨hrun', -⟩
    · rw [hrun] at hrun'
      cases hrun'
    · exact hsame
    · rw [hrun] at hrun'
      cases hrun'
  · intro durable hrun
    have hleft : save.left db = durable := congrArg Outcome.left hrun
    rcases save.cases db with ⟨⟨machine', hrun'⟩, -⟩ | ⟨⟨error, machine', hrun'⟩, -⟩ | ⟨-, hcrash⟩
    · rw [hrun] at hrun'
      cases hrun'
    · rw [hrun] at hrun'
      cases hrun'
    · rw [hleft] at hcrash
      exact hcrash.imp_right reload_of_done
  · intro saves later hfirst hlater
    exact ledger_of_done (hdone hfirst) (advances_saveAll saves _) (hdone hlater)

/-! ### A full ledger -/

def numberedId (number : ℕ) : MessageId where
  uuid := ⟨[0, 0, 0, 0, 0, 0, 0x40, 0, 0x80, 0, 0, 0, 0, 0] ++ BigEndian.toBytes 2 number, by simp⟩
  v4 := by
    rw [Uuid.isV4, Bool.and_eq_true, Bool.and_eq_true]
    refine ⟨⟨by simp [Uuid.isNil], ?_⟩, ?_⟩
    · show ((0x40 : UInt8) &&& 0xf0 == 0x40) = true
      decide
    · show ((0x80 : UInt8) &&& 0xc0 == 0x80) = true
      decide

def numberedEntry (number : ℕ) : TimelineEntry where
  post := { samplePost with messageId := numberedId number, replyTo_ne := by simp [samplePost] }
  receivedOrder := number + 1
  origin := .receivedOrigin

def laterEntries : List TimelineEntry := (List.range 2047).map fun number =>
    numberedEntry (number + 1)

/-- A snapshot whose ledger is full and does not list the only entry. -/
def fullSnapshot : HistorySnapshot where
  entries := [⟨samplePost, 1, .receivedOrigin⟩]
  lastAssignedOrder := 1
  seenMessages := recordsFrom 0 (numberedEntry 0 :: laterEntries)
  lastSeenOrder := 2048

def fullSave : Save where
  failpoints _ := false
  snapshot := fullSnapshot
  identity := ⟨samplePost.senderId, samplePost.senderUserId, 1⟩
  replies := []
  sized := ⟨by decide, by decide⟩

theorem numberedId_inj {left right : ℕ} (hleft : left < 65536) (hright : right < 65536)
    (h : numberedId left = numberedId right) : left = right := by
  have hbytes : [0, 0, 0, 0, 0, 0, 0x40, 0, 0x80, 0, 0, 0, 0, 0] ++ BigEndian.toBytes 2 left =
      [0, 0, 0, 0, 0, 0, 0x40, 0, 0x80, 0, 0, 0, 0, 0] ++ BigEndian.toBytes 2 right :=
    congrArg (fun id => id.uuid.bytes) h
  have hnumber := congrArg BigEndian.ofBytes (List.append_cancel_left hbytes)
  rwa [BigEndian.ofBytes_toBytes (by omega), BigEndian.ofBytes_toBytes (by omega)] at hnumber

theorem numberedId_ne_sample (number : ℕ) : numberedId number ≠ samplePost.messageId := by
  intro h
  have hfirst : (some 0 : Option UInt8) = some 1 := congrArg (fun id => id.uuid.bytes.head?) h
  cases hfirst

theorem numberedEntries_distinct :
    ((numberedEntry 0 :: laterEntries).map TimelineEntry.messageId).Nodup := by
  have hlater : laterEntries.map TimelineEntry.messageId =
      (List.range 2047).map fun number => numberedId (number + 1) := by
    rw [laterEntries, List.map_map]
    rfl
  rw [List.map_cons, hlater, List.nodup_cons]
  constructor
  · intro hmem
    obtain ⟨number, hnumber, heq⟩ := List.mem_map.mp hmem
    have hlt := List.mem_range.mp hnumber
    have := numberedId_inj (by omega) (by omega) heq
    omega
  · refine List.Nodup.map_on ?_ List.nodup_range
    intro left hleft right hright heq
    have hleft := List.mem_range.mp hleft
    have hright := List.mem_range.mp hright
    have := numberedId_inj (by omega) (by omega) heq
    omega

theorem unlisted_fullSnapshot :
    unlisted fullSnapshot.seenMessages fullSnapshot.entries = fullSnapshot.entries := by
  refine List.filter_eq_self.mpr fun entry hentry => ?_
  obtain rfl := List.mem_singleton.mp hentry
  have hids : fullSnapshot.seenMessages.map SeenMessageRecord.messageId = _ :=
    map_messageId_recordsFrom 0 _
  rw [hids, decide_eq_true_eq]
  intro hmem
  obtain ⟨other, hother, heq⟩ := List.mem_map.mp hmem
  rcases List.mem_cons.mp hother with rfl | hother
  · exact numberedId_ne_sample 0 heq
  · obtain ⟨number, -, rfl⟩ := List.mem_map.mp hother
    exact numberedId_ne_sample (number + 1) heq

theorem length_numberedEntries : (numberedEntry 0 :: laterEntries).length = 2048 := by
  rw [List.length_cons, laterEntries, List.length_map, List.length_range]

theorem fullEntries_stamped : Stamped TimelineEntry.messageId TimelineEntry.receivedOrder
    fullSnapshot.lastAssignedOrder fullSnapshot.entries where
  distinct := List.nodup_singleton _
  increasing := List.pairwise_singleton _ _
  positive := by simp [fullSnapshot]
  bounded := by simp [fullSnapshot]

theorem fullEntries_locals (identity : Identity) : LocalsValid identity fullSnapshot.entries where
  sender := by simp [fullSnapshot, TimelineEntry.isLocal]
  issued := by simp [fullSnapshot, TimelineEntry.isLocal]
  growing := by simp [fullSnapshot, TimelineEntry.isLocal]

theorem fullSave_done : fullSave.Succeeds blankDatabase ∧
    Done fullSave blankDatabase (fullSave.left blankDatabase) := by
  have hlength := length_numberedEntries
  let window := windowOf (numberedEntry 0 :: laterEntries) numberedEntries_distinct hlength.le
  have hprotected : ∀ entry ∈ fullSnapshot.entries,
      entry.messageId ∈ fullSnapshot.entries.map TimelineEntry.messageId :=
    fun entry hentry => List.mem_map_of_mem hentry
  have hdistinct : (fullSnapshot.entries.map TimelineEntry.messageId).Nodup :=
    List.nodup_singleton _
  obtain ⟨completed, hrun⟩ : ∃ completed, reconcileEntries
      (fullSnapshot.entries.map TimelineEntry.messageId) window fullSnapshot.entries =
        some completed := by
    refine reconcileEntries_isSome hdistinct hprotected (by show 1 < 2048; omega) ?_ ?_
    · show (numberedEntry 0 :: laterEntries).length + 1 ≤ kMaximumOrder
      rw [hlength]
      decide
    · intro entry hentry
      exact of_decide_eq_true (List.filter_eq_self.mp unlisted_fullSnapshot entry hentry)
  let candidate : HistorySnapshot :=
    { fullSnapshot with
      lastSeenOrder := completed.lastSeenOrder
      seenMessages := completed.records }
  have hreconcile : reconcileSnapshotDedupe fullSave.snapshot = .ok candidate :=
    reconcileSnapshotDedupe_eq_ok.mpr ⟨window, completed, ⟨rfl, hlength, rfl⟩, hrun, rfl⟩
  have hvalid : SnapshotValid completed candidate fullSave.identity := by
    refine ⟨(reconcileEntries_eq hrun hdistinct hprotected).1, rfl, rfl, ?_, fullEntries_stamped,
      fullEntries_locals _, ?_, covers_reconcileEntries hrun hprotected⟩
    · show 1 ≤ 256
      omega
    · show fullSnapshot.entries.countP TimelineEntry.isQueued ≤ kMaxQueuedLocalPosts
      decide
  have hchecks : SaveChecks fullSave.failpoints candidate fullSave.identity blankDatabase :=
    ⟨⟨completed, hvalid⟩, sized_of_reconcile fullSave.sized hreconcile, by decide,
      rfl, rfl⟩
  have hsaved : saved fullSave.failpoints fullSave.snapshot fullSave.identity blankDatabase =
      .ok (written blankDatabase candidate fullSave.identity) :=
    (saved_eq_ok fullSave.sized).mpr ⟨candidate, hreconcile, hchecks, rfl⟩
  have hrun := run_of_saved rfl hsaved
  have hleft : fullSave.left blankDatabase = _ := congrArg Outcome.left hrun
  exact ⟨⟨_, hrun⟩, hleft ▸ done_of_saved hsaved⟩

/-- Making room for one record drops the oldest one. -/
theorem keptRecords_full : keptRecords kDefaultSeenMessageCapacity 1
    (fullSnapshot.entries.map TimelineEntry.messageId) fullSnapshot.seenMessages =
      recordsFrom 1 laterEntries := by
  have hlength : fullSnapshot.seenMessages.length = 2048 := by
    rw [fullSnapshot, length_recordsFrom, length_numberedEntries]
  have hone : fullSnapshot.seenMessages.length + 1 - kDefaultSeenMessageCapacity = 1 := by
    rw [hlength, kDefaultSeenMessageCapacity]
  have hgoes : (!MessageDedupeWindow.isProtected (numberedEntry 0).messageId
      (fullSnapshot.entries.map TimelineEntry.messageId)) = true := by
    rw [MessageDedupeWindow.isProtected, Bool.not_eq_true', decide_eq_false_iff_not]
    exact fun hmem => numberedId_ne_sample 0 (List.mem_singleton.mp hmem)
  have hfirst : fullSnapshot.seenMessages =
      ⟨(numberedEntry 0).messageId, 1, postBytes (numberedEntry 0).post⟩ ::
        recordsFrom 1 laterEntries := rfl
  rw [keptRecords, hone, Stamped.dropOldest, Stamped.dropOldest, hfirst]
  exact List.eraseP_cons_of_pos hgoes

/-- The oldest record is dropped. -/
theorem full_ledger_forgets : fullSave.Succeeds blankDatabase ∧ ∃ snapshot machine,
    reload fullSave.identity (fullSave.left blankDatabase) = .done (.ok snapshot) machine ∧
      ∃ record ∈ fullSnapshot.seenMessages, record ∉ snapshot.seenMessages := by
  obtain ⟨hsucceeds, hdone⟩ := fullSave_done
  refine ⟨hsucceeds, _, _, reload_of_done hdone, _, List.mem_cons_self .., ?_⟩
  have hledger : (completedLedger fullSnapshot).seenMessages =
      recordsFrom 1 laterEntries ++ recordsFrom 2048 fullSnapshot.entries := by
    rw [completedLedger, unlisted_fullSnapshot, ← keptRecords_full]
    rfl
  have hsnapshot : fullSave.snapshot = fullSnapshot := rfl
  rw [hsnapshot, hledger]
  -- Only the record that was dropped has the order 1.
  intro hmem
  rcases List.mem_append.mp hmem with hmem | hmem
  · exact Nat.lt_irrefl 1 (mem_recordsFrom hmem).1
  · exact absurd (mem_recordsFrom hmem).1 (by show ¬2048 < 1; omega)

end Lora.HistoryStore
