/-
Completing the ledger.

An entry the ledger does not list is remembered under the next order.  The
entries of the timeline are protected, so that only records of other messages
make room for it, the oldest first.

* `reconcileEntries_eq` — what the loop does to the records;
* `reconcileEntries_isSome` — it goes through if no entry conflicts;
* `covers_reconcileEntries` — the result lists every entry.
-/
import LoraMessenger.History

namespace Lora

/-- The entries the ledger does not list. -/
def unlisted (records : List SeenMessageRecord) (entries : List TimelineEntry) :
    List TimelineEntry :=
  entries.filter fun entry => entry.messageId ∉ records.map SeenMessageRecord.messageId

/-- Records for the entries, in their order, with the orders that follow. -/
def recordsFrom (lastSeenOrder : ℕ) : List TimelineEntry → List SeenMessageRecord
  | [] => []
  | entry :: rest =>
    ⟨entry.messageId, lastSeenOrder + 1, postBytes entry.post⟩ :: recordsFrom
      (lastSeenOrder + 1) rest

/-- The records that stay when `count` new ones come. -/
def keptRecords (capacity count : ℕ) (protectedMessageIds : List MessageId)
    (records : List SeenMessageRecord) : List SeenMessageRecord :=
  Stamped.dropOldest
    (fun record => !MessageDedupeWindow.isProtected record.messageId protectedMessageIds)
    (records.length + count - capacity) records

variable {protectedMessageIds : List MessageId} {window completed : MessageDedupeWindow}
  {entry : TimelineEntry} {entries rest : List TimelineEntry}

/-! ### Records of entries -/

theorem map_messageId_recordsFrom (lastSeenOrder : ℕ) (entries : List TimelineEntry) :
    (recordsFrom lastSeenOrder entries).map SeenMessageRecord.messageId =
      entries.map TimelineEntry.messageId := by
  induction entries generalizing lastSeenOrder with
  | nil => rfl
  | cons entry rest ih => rw [recordsFrom, List.map_cons, List.map_cons, ih]

theorem length_recordsFrom (lastSeenOrder : ℕ) (entries : List TimelineEntry) :
    (recordsFrom lastSeenOrder entries).length = entries.length := by
  have := congrArg List.length (map_messageId_recordsFrom lastSeenOrder entries)
  simpa using this

theorem mem_recordsFrom {lastSeenOrder : ℕ} {record : SeenMessageRecord}
    (h : record ∈ recordsFrom lastSeenOrder entries) :
    lastSeenOrder < record.seenOrder ∧ record.seenOrder ≤ lastSeenOrder + entries.length ∧
      isCanonicalRecord record := by
  induction entries generalizing lastSeenOrder with
  | nil => cases h
  | cons entry rest ih =>
    rw [List.length_cons]
    rcases List.mem_cons.mp h with rfl | h
    · refine ⟨Nat.lt_succ_self _, ?_,
        isCanonicalRecord_iff.mpr ⟨Nat.succ_pos _, entry.post, rfl, rfl⟩⟩
      show lastSeenOrder + 1 ≤ _
      omega
    · obtain ⟨hlt, hle, hcanonical⟩ := ih h
      exact ⟨by omega, by omega, hcanonical⟩

theorem stamped_recordsFrom (hdistinct : (entries.map TimelineEntry.messageId).Nodup) :
    Stamped SeenMessageRecord.messageId SeenMessageRecord.seenOrder entries.length
      (recordsFrom 0 entries) where
  distinct := by rwa [map_messageId_recordsFrom]
  increasing := by
    clear hdistinct
    generalize 0 = lastSeenOrder
    induction entries generalizing lastSeenOrder with
    | nil => exact List.Pairwise.nil
    | cons entry rest ih =>
      exact List.Pairwise.cons (fun record hrecord => (mem_recordsFrom hrecord).1) (ih _)
  positive record hrecord := (mem_recordsFrom hrecord).1
  bounded record hrecord := by simpa using (mem_recordsFrom hrecord).2.1

theorem getLast_recordsFrom (lastSeenOrder : ℕ) (entries : List TimelineEntry) :
    ((recordsFrom lastSeenOrder entries).getLast?.map SeenMessageRecord.seenOrder).getD
      lastSeenOrder =
      lastSeenOrder + entries.length := by
  induction entries generalizing lastSeenOrder with
  | nil => rfl
  | cons entry rest ih =>
    have hrest := ih (lastSeenOrder + 1)
    rw [recordsFrom, List.getLast?_cons, Option.map_some, Option.getD_some, List.length_cons]
    cases hlast : (recordsFrom (lastSeenOrder + 1) rest).getLast? with
    | none =>
      simp only [hlast, Option.map_none, Option.getD_none] at hrest ⊢
      omega
    | some record =>
      simp only [hlast, Option.map_some, Option.getD_some] at hrest ⊢
      omega

/-- The ledger of a timeline that has been remembered entry by entry. -/
def windowOf (entries : List TimelineEntry)
    (hdistinct : (entries.map TimelineEntry.messageId).Nodup)
    (hlength : entries.length ≤ kDefaultSeenMessageCapacity) : MessageDedupeWindow where
  capacity := kDefaultSeenMessageCapacity
  lastSeenOrder := entries.length
  records := recordsFrom 0 entries
  capacity_pos := MessageDedupeWindow.empty.capacity_pos
  length_le := (length_recordsFrom 0 entries).trans_le hlength
  canonical record hrecord := (mem_recordsFrom hrecord).2.2
  stamped := stamped_recordsFrom hdistinct
  last_eq := by simpa using getLast_recordsFrom 0 entries

/-! ### The loop -/

/-- One pass of the loop. -/
theorem reconcileEntries_cons
    (h : reconcileEntries protectedMessageIds window (entry :: rest) = some completed) :
    (window.classify entry.messageId (postBytes entry.post) = .duplicate ∧
      reconcileEntries protectedMessageIds window rest = some completed) ∨
    ∃ hnew : entry.messageId ∉ window.records.map SeenMessageRecord.messageId,
      ∃ hroom : window.hasRoom protectedMessageIds, window.lastSeenOrder ≠ kMaximumOrder ∧
        reconcileEntries protectedMessageIds
          (window.push entry.post protectedMessageIds hnew hroom) rest = some completed := by
  simp only [reconcileEntries, encodePost_eq] at h
  rcases hclass : window.classify entry.messageId (postBytes entry.post) <;>
    simp only [hclass, reduceCtorEq] at h
  · right
    rw [TimelineEntry.messageId] at hclass
    rw [MessageDedupeWindow.remember_eq hclass] at h
    by_cases hlast : window.lastSeenOrder = kMaximumOrder
    · simp [hlast] at h
    · by_cases hroom : window.hasRoom protectedMessageIds
      · simp only [hlast, hroom, if_false, dite_true] at h
        exact ⟨MessageDedupeWindow.classify_eq_new.mp hclass, hroom, hlast, h⟩
      · simp [hlast, hroom] at h
  · exact .inl ⟨rfl, h⟩

section Push

variable (hnew : entry.messageId ∉ window.records.map SeenMessageRecord.messageId)
  (hroom : window.hasRoom protectedMessageIds)

/-- Another protected entry is listed after a push if it was before. -/
theorem mem_ids_push {other : MessageId} (hother : other ≠ entry.messageId)
    (hprotected : other ∈ protectedMessageIds) :
    other ∈ (window.push entry.post protectedMessageIds hnew hroom).records.map
        SeenMessageRecord.messageId ↔ other ∈ window.records.map SeenMessageRecord.messageId := by
  constructor
  · intro hmem
    obtain ⟨record, hrecord, rfl⟩ := List.mem_map.mp hmem
    rcases List.mem_append.mp hrecord with hold | hadded
    · exact List.mem_map_of_mem (Stamped.makeRoom_sublist.subset hold)
    · obtain rfl := List.mem_singleton.mp hadded
      exact absurd rfl hother
  · intro hmem
    obtain ⟨record, hrecord, rfl⟩ := List.mem_map.mp hmem
    exact List.mem_map_of_mem (MessageDedupeWindow.mem_push hnew hroom hrecord hprotected)

theorem unlisted_push (hdistinct : entry.messageId ∉ rest.map TimelineEntry.messageId)
    (hprotected : ∀ other ∈ rest, other.messageId ∈ protectedMessageIds) :
    unlisted (window.push entry.post protectedMessageIds hnew hroom).records rest =
      unlisted window.records rest := by
  refine List.filter_congr fun other hother => ?_
  have hne : other.messageId ≠ entry.messageId := fun heq =>
    hdistinct (heq ▸ List.mem_map_of_mem hother)
  rw [decide_eq_decide]
  exact not_congr (mem_ids_push hnew hroom hne (hprotected other hother))

/-- A push drops a record now that would have been dropped in the end. -/
theorem keptRecords_push (hprotected : entry.messageId ∈ protectedMessageIds) (count : ℕ) :
    keptRecords window.capacity count protectedMessageIds
        (window.push entry.post protectedMessageIds hnew hroom).records =
      keptRecords window.capacity (count + 1) protectedMessageIds window.records ++
        [⟨entry.messageId, window.lastSeenOrder + 1, postBytes entry.post⟩] := by
  have hlength : (window.push entry.post protectedMessageIds hnew hroom).records.length =
      (window.evict protectedMessageIds).length + 1 := by
    simp [MessageDedupeWindow.push]
  rw [keptRecords, hlength]
  show Stamped.dropOldest _ _ (window.evict protectedMessageIds ++
    [⟨entry.messageId, window.lastSeenOrder + 1, postBytes entry.post⟩]) = _
  rw [Stamped.dropOldest_concat (by simpa [MessageDedupeWindow.isProtected] using hprotected)]
  refine congrArg (· ++ _) ?_
  have hle := window.length_le
  rw [keptRecords, MessageDedupeWindow.evict, Stamped.makeRoom]
  by_cases hfull : window.capacity ≤ window.records.length
  · have hlt := MessageDedupeWindow.length_evict_lt hroom
    rw [MessageDedupeWindow.evict, Stamped.makeRoom, if_pos hfull] at hlt
    have hone : window.records.length - 1 ≤ (window.records.eraseP fun record =>
      !MessageDedupeWindow.isProtected record.messageId protectedMessageIds).length :=
        List.le_length_eraseP
    have hdrop : window.records.length + (count + 1) - window.capacity = count + 1 := by omega
    rw [if_pos hfull, hdrop, Stamped.dropOldest]
    congr 1
    omega
  · rw [if_neg hfull, Nat.add_right_comm, Nat.add_assoc]

end Push

/-- What the loop does: the unlisted entries come last, under consecutive orders. -/
theorem reconcileEntries_eq
    (h : reconcileEntries protectedMessageIds window entries = some completed)
    (hdistinct : (entries.map TimelineEntry.messageId).Nodup)
    (hprotected : ∀ entry ∈ entries, entry.messageId ∈ protectedMessageIds) :
    completed.capacity = window.capacity ∧
    completed.lastSeenOrder = window.lastSeenOrder + (unlisted window.records entries).length ∧
    completed.records =
      keptRecords window.capacity (unlisted window.records entries).length protectedMessageIds
        window.records ++ recordsFrom window.lastSeenOrder (unlisted window.records entries) := by
  induction entries generalizing window with
  | nil =>
    cases h
    have hle := completed.length_le
    have hnone : completed.records.length - completed.capacity = 0 := by omega
    simp [unlisted, keptRecords, recordsFrom, hnone, Stamped.dropOldest]
  | cons entry rest ih =>
    rw [List.map_cons, List.nodup_cons] at hdistinct
    rw [List.forall_mem_cons] at hprotected
    rcases reconcileEntries_cons h with ⟨hclass, hrest⟩ | ⟨hnew, hroom, hlast, hrest⟩
    · have hlisted : unlisted window.records (entry :: rest) = unlisted window.records rest := by
        obtain ⟨record, hrecord, hid, -⟩ := MessageDedupeWindow.classify_eq_duplicate.mp hclass
        have hmem : entry.messageId ∈ window.records.map SeenMessageRecord.messageId :=
          hid ▸ List.mem_map_of_mem hrecord
        rw [unlisted, List.filter_cons_of_neg (by simpa using hmem), unlisted]
      rw [hlisted]
      exact ih hrest hdistinct.2 hprotected.2
    · have hunlisted : unlisted window.records (entry :: rest) =
          entry :: unlisted window.records rest := by
        rw [unlisted, List.filter_cons_of_pos (by simpa using hnew), unlisted]
      obtain ⟨hcapacity, horder, hrecords⟩ := ih hrest hdistinct.2 hprotected.2
      rw [unlisted_push hnew hroom hdistinct.1 hprotected.2] at horder hrecords
      rw [hunlisted, List.length_cons]
      refine ⟨hcapacity, ?_, ?_⟩
      · rw [horder]
        show window.lastSeenOrder + 1 + _ = _
        omega
      · have hpush := keptRecords_push hnew hroom hprotected.1 (unlisted window.records rest).length
        rw [hrecords, recordsFrom]
        show keptRecords window.capacity _ _ _ ++ recordsFrom (window.lastSeenOrder + 1) _ = _
        rw [hpush, List.append_assoc]
        rfl

/-- Orders stay 64-bit numbers. -/
theorem reconcileEntries_sized
    (h : reconcileEntries protectedMessageIds window entries = some completed)
    (hlast : window.lastSeenOrder ≤ kMaximumOrder) : completed.lastSeenOrder ≤ kMaximumOrder := by
  induction entries generalizing window with
  | nil =>
    cases h
    exact hlast
  | cons entry rest ih =>
    rcases reconcileEntries_cons h with ⟨-, hrest⟩ | ⟨hnew, hroom, hne, hrest⟩
    · exact ih hrest hlast
    · refine ih hrest ?_
      show window.lastSeenOrder + 1 ≤ kMaximumOrder
      omega

/-- What a protected entry was a duplicate of stays in the ledger. -/
theorem classify_reconcileEntries {messageId : MessageId} {canonicalPost : Bytes}
    (h : reconcileEntries protectedMessageIds window entries = some completed)
    (hprotected : messageId ∈ protectedMessageIds)
    (hclass : window.classify messageId canonicalPost = .duplicate) :
    completed.classify messageId canonicalPost = .duplicate := by
  induction entries generalizing window with
  | nil =>
    cases h
    exact hclass
  | cons entry rest ih =>
    rcases reconcileEntries_cons h with ⟨-, hrest⟩ | ⟨hnew, hroom, -, hrest⟩
    · exact ih hrest hclass
    · exact ih hrest (MessageDedupeWindow.classify_push hnew hroom hprotected hclass)

/-- In the end every entry is listed. -/
theorem covers_reconcileEntries
    (h : reconcileEntries protectedMessageIds window entries = some completed)
    (hprotected : ∀ entry ∈ entries, entry.messageId ∈ protectedMessageIds) :
    Covers completed entries := by
  induction entries generalizing window with
  | nil => simp [Covers]
  | cons entry rest ih =>
    rw [List.forall_mem_cons] at hprotected
    rw [covers_cons]
    rcases reconcileEntries_cons h with ⟨hclass, hrest⟩ | ⟨hnew, hroom, -, hrest⟩
    · exact ⟨classify_reconcileEntries hrest hprotected.1 hclass, ih hrest hprotected.2⟩
    · exact ⟨classify_reconcileEntries hrest hprotected.1
        (MessageDedupeWindow.classify_push_self hnew hroom), ih hrest hprotected.2⟩

/-- The loop goes through if there is room and no entry is a forgery. -/
theorem reconcileEntries_isSome (hdistinct : (entries.map TimelineEntry.messageId).Nodup)
    (hprotected : ∀ entry ∈ entries, entry.messageId ∈ protectedMessageIds)
    (hcapacity : protectedMessageIds.length < window.capacity)
    (hlast : window.lastSeenOrder + entries.length ≤ kMaximumOrder)
    (hnew : ∀ entry ∈ entries, entry.messageId ∉ window.records.map SeenMessageRecord.messageId) :
    ∃ completed, reconcileEntries protectedMessageIds window entries = some completed := by
  induction entries generalizing window with
  | nil => exact ⟨window, rfl⟩
  | cons entry rest ih =>
    rw [List.map_cons, List.nodup_cons] at hdistinct
    rw [List.forall_mem_cons] at hprotected hnew
    rw [List.length_cons] at hlast
    have hclass : window.classify entry.post.messageId (postBytes entry.post) = .new :=
      MessageDedupeWindow.classify_eq_new.mpr hnew.1
    have hroom : window.hasRoom protectedMessageIds :=
      MessageDedupeWindow.hasRoom_of_length hcapacity
    have hremember : window.remember entry.post (postBytes entry.post) protectedMessageIds = _ :=
      MessageDedupeWindow.remember_eq hclass
    rw [if_neg (by omega), dif_pos hroom] at hremember
    have hnext : ∀ other ∈ rest, other.messageId ∉
        (window.push entry.post protectedMessageIds hnew.1 hroom).records.map
          SeenMessageRecord.messageId := by
      intro other hother hmem
      have hne : other.messageId ≠ entry.messageId := fun heq =>
        hdistinct.1 (heq ▸ List.mem_map_of_mem hother)
      exact hnew.2 other hother
        ((mem_ids_push hnew.1 hroom hne (hprotected.2 other hother)).mp hmem)
    have hlast' : (window.push entry.post protectedMessageIds hnew.1 hroom).lastSeenOrder +
        rest.length ≤ kMaximumOrder := by
      show window.lastSeenOrder + 1 + rest.length ≤ kMaximumOrder
      omega
    have hcapacity' : protectedMessageIds.length <
        (window.push entry.post protectedMessageIds hnew.1 hroom).capacity := hcapacity
    obtain ⟨completed, hcompleted⟩ := ih hdistinct.2 hprotected.2 hcapacity' hlast' hnext
    refine ⟨completed, ?_⟩
    simp only [reconcileEntries, encodePost_eq, TimelineEntry.messageId, hclass, hremember]
    exact hcompleted

/-! ### Snapshots -/

/-- A snapshot with its ledger completed. -/
def completedLedger (snapshot : HistorySnapshot) : HistorySnapshot :=
  let added := unlisted snapshot.seenMessages snapshot.entries
  { snapshot with
    lastSeenOrder := snapshot.lastSeenOrder + added.length
    seenMessages :=
      keptRecords kDefaultSeenMessageCapacity added.length
        (snapshot.entries.map TimelineEntry.messageId) snapshot.seenMessages ++
      recordsFrom snapshot.lastSeenOrder added }

/-- The two parts of `reconcile_snapshot_dedupe`. -/
theorem reconcileSnapshotDedupe_eq_ok {snapshot candidate : HistorySnapshot} :
    reconcileSnapshotDedupe snapshot = .ok candidate ↔ ∃ window completed : MessageDedupeWindow,
      (window.capacity = kDefaultSeenMessageCapacity ∧
        window.lastSeenOrder = snapshot.lastSeenOrder ∧ window.records = snapshot.seenMessages) ∧
      reconcileEntries (snapshot.entries.map TimelineEntry.messageId) window snapshot.entries =
        some completed ∧
      candidate = { snapshot with lastSeenOrder := completed.lastSeenOrder,
                                  seenMessages := completed.records } := by
  simp only [← MessageDedupeWindow.restore_eq_ok]
  unfold reconcileSnapshotDedupe
  rcases hrestore : MessageDedupeWindow.restore kDefaultSeenMessageCapacity snapshot.lastSeenOrder
      snapshot.seenMessages with error | window
  · simp
  · rcases hrun : reconcileEntries (snapshot.entries.map TimelineEntry.messageId) window
      snapshot.entries with _ | completed
    · simp [hrun]
    · simp [hrun, eq_comm]

theorem reconcileSnapshotDedupe_eq {snapshot candidate : HistorySnapshot}
    (h : reconcileSnapshotDedupe snapshot = .ok candidate)
    (hdistinct : (snapshot.entries.map TimelineEntry.messageId).Nodup) :
    candidate = completedLedger snapshot := by
  obtain ⟨window, completed, ⟨hcapacity, hlast, hrecords⟩, hrun, rfl⟩ :=
    reconcileSnapshotDedupe_eq_ok.mp h
  obtain ⟨-, hlast', hrecords'⟩ := reconcileEntries_eq hrun hdistinct
    fun entry hentry => List.mem_map_of_mem hentry
  rw [hlast', hrecords', hcapacity, hlast, hrecords, completedLedger]

/-- A timeline without a ledger is given one. -/
theorem reconcileSnapshotDedupe_seed {identity : Identity} {entries : List TimelineEntry}
    {lastAssignedOrder : ℕ} (hlength : entries.length ≤ kMaxTimelineEntries)
    (hstamped : Stamped TimelineEntry.messageId TimelineEntry.receivedOrder
      lastAssignedOrder entries)
    (hlocals : LocalsValid identity entries)
    (hqueued : entries.countP TimelineEntry.isQueued ≤ kMaxQueuedLocalPosts) :
    reconcileSnapshotDedupe { entries, lastAssignedOrder } =
      .ok { entries, lastAssignedOrder, seenMessages := recordsFrom 0 entries
            lastSeenOrder := entries.length } ∧
    ∃ window, SnapshotValid window { entries, lastAssignedOrder
                                     seenMessages := recordsFrom 0 entries
                                     lastSeenOrder := entries.length } identity := by
  have hprotected : ∀ entry ∈ entries, entry.messageId ∈ entries.map TimelineEntry.messageId :=
    fun entry hentry => List.mem_map_of_mem hentry
  have hmax : kMaxTimelineEntries = 256 := rfl
  obtain ⟨completed, hrun⟩ : ∃ completed, reconcileEntries
      (entries.map TimelineEntry.messageId) MessageDedupeWindow.empty entries = some completed := by
    refine reconcileEntries_isSome hstamped.distinct hprotected ?_ ?_
      (by simp [MessageDedupeWindow.empty])
    · rw [List.length_map]
      show entries.length < 2048
      omega
    · show 0 + entries.length ≤ 2 ^ 64 - 1
      omega
  have hempty : unlisted MessageDedupeWindow.empty.records entries = entries := by
    simp [unlisted, MessageDedupeWindow.empty]
  obtain ⟨hcapacity, hlast, hrecords⟩ := reconcileEntries_eq hrun hstamped.distinct hprotected
  rw [hempty] at hlast hrecords
  have hkept : keptRecords MessageDedupeWindow.empty.capacity entries.length
      (entries.map TimelineEntry.messageId) MessageDedupeWindow.empty.records = [] := by
    have hnone : MessageDedupeWindow.empty.records.length + entries.length -
        MessageDedupeWindow.empty.capacity = 0 := by
      simp only [MessageDedupeWindow.empty, List.length_nil, kDefaultSeenMessageCapacity]
      omega
    rw [keptRecords, hnone, Stamped.dropOldest]
    rfl
  have hlast' : completed.lastSeenOrder = entries.length := by
    rw [hlast]
    exact Nat.zero_add _
  have hrecords' : completed.records = recordsFrom 0 entries := by
    rw [hrecords, hkept]
    rfl
  constructor
  · refine reconcileSnapshotDedupe_eq_ok.mpr
      ⟨MessageDedupeWindow.empty, completed, ⟨rfl, rfl, rfl⟩, hrun, ?_⟩
    rw [hlast', hrecords']
  · exact ⟨completed, hcapacity, hlast', hrecords', hlength, hstamped, hlocals, hqueued,
      covers_reconcileEntries hrun hprotected⟩

end Lora
