/-
Identity, settings and the history snapshot.

The history store does not trust the snapshots it is given, nor the rows it
reads back: `validateSnapshot` checks the timeline, the ledger and their
connection, `reconcileSnapshotDedupe` adds to the ledger what the timeline
needs, and a write is refused if it would turn an order back.

* `validateSnapshot_eq_none` — what the checks amount to, as `SnapshotValid`;
* `reconcile_of_valid` — nothing is added to a ledger that covers the entries;
* `StoredHistory.readSnapshot_eq_ok` — what is read back passes the checks;
* `StoredHistory.admits_eq_none` — the writes that are never refused.
-/
import LoraMessenger.Timeline

namespace Lora

structure Identity where
  installId : InstallId
  userId : UserId
  lastIssuedSenderSequence : UInt64
deriving DecidableEq

namespace Identity

def nextSenderSequence (identity : Identity) : Option UInt64 :=
  if identity.lastIssuedSenderSequence = 0xffffffffffffffff then none
  else some (identity.lastIssuedSenderSequence + 1)

def commitSenderSequence (identity : Identity) (sequence : UInt64) : Option Identity :=
  match identity.nextSenderSequence with
  | none => none
  | some expected =>
    if sequence ≠ expected then none
    else some { identity with lastIssuedSenderSequence := sequence }

def rename (identity : Identity) (userId : UserId) : Identity := { identity with userId := userId }

theorem nextSenderSequence_eq_some {identity : Identity} {sequence : UInt64}
    (h : identity.nextSenderSequence = some sequence) :
    sequence.toNat = identity.lastIssuedSenderSequence.toNat + 1 := by
  unfold nextSenderSequence at h
  split at h
  · cases h
  · rename_i hmax
    cases h
    have hlt := identity.lastIssuedSenderSequence.toNat_lt
    have hne : identity.lastIssuedSenderSequence.toNat ≠ 2 ^ 64 - 1 :=
      fun heq => hmax (UInt64.toNat_inj.mp heq)
    rw [UInt64.toNat_add]
    simp only [UInt64.reduceToNat]
    omega

theorem commitSenderSequence_next {identity : Identity} {sequence : UInt64}
    (h : identity.nextSenderSequence = some sequence) :
    identity.commitSenderSequence sequence =
      some { identity with lastIssuedSenderSequence := sequence } := by
  simp [commitSenderSequence, h]

end Identity

inductive StoredLocale where
  | english
  | japanese
  | simplifiedChinese
deriving DecidableEq

structure SettingsRecord where
  generation : ℕ
  installId : InstallId
  userId : UserId
  senderSequenceHighWatermark : UInt64
  locale : StoredLocale
  historyInitialized : Bool
  skipTitle : Bool
deriving DecidableEq

def identityFrom (settings : SettingsRecord) : Identity :=
  ⟨settings.installId, settings.userId, settings.senderSequenceHighWatermark⟩

structure HistorySnapshot where
  entries : List TimelineEntry := []
  lastAssignedOrder : ℕ := 0
  seenMessages : List SeenMessageRecord := []
  lastSeenOrder : ℕ := 0
deriving DecidableEq

inductive HistoryError where
  | none
  | openFailed
  | configureFailed
  | corruptDatabase
  | wrongApplication
  | unsupportedSchema
  | migrationFailed
  | identityMismatch
  | invalidData
  | invalidSnapshot
  | readFailed
  | writeFailed
deriving DecidableEq

/-! ### Checking a snapshot -/

namespace TimelineEntry

def isLocal (entry : TimelineEntry) : Bool := entry.origin ≠ .receivedOrigin

def sequence (entry : TimelineEntry) : ℕ := entry.post.senderSequence.toNat

end TimelineEntry

/-- The part of the loop of `validate_snapshot` for local entries: the last
local sequence and the number of queued posts, if the entry passes. -/
def validateLocal (identity : Identity) (previousLocalSequence : UInt64) (queuedLocalCount : ℕ)
    (entry : TimelineEntry) : Except HistoryError (UInt64 × ℕ) :=
  match entry.origin with
  | .receivedOrigin => .ok (previousLocalSequence, queuedLocalCount)
  | .localDelivery state =>
    if entry.post.senderId ≠ identity.installId ∨
        entry.post.senderSequence > identity.lastIssuedSenderSequence ∨
        entry.post.senderSequence ≤ previousLocalSequence then .error .invalidSnapshot
    else if state = .queued then
      if queuedLocalCount + 1 > kMaxQueuedLocalPosts then .error .invalidSnapshot
      else .ok (entry.post.senderSequence, queuedLocalCount + 1)
    else .ok (entry.post.senderSequence, queuedLocalCount)

/-- The loop of `validate_snapshot`; the result is the largest order. -/
def validateEntries (window : MessageDedupeWindow) (identity : Identity)
    (messageIds : List MessageId) (receivedOrders : List ℕ) (maximumOrder previousOrder : ℕ)
    (previousLocalSequence : UInt64) (queuedLocalCount : ℕ) :
    List TimelineEntry → Except HistoryError ℕ
  | [] => .ok maximumOrder
  | entry :: rest =>
    if entry.receivedOrder = 0 ∨ entry.receivedOrder ≤ previousOrder ∨
        entry.messageId ∈ messageIds ∨ entry.receivedOrder ∈ receivedOrders then
      .error .invalidSnapshot
    else
      match validateLocal identity previousLocalSequence queuedLocalCount entry with
      | .error error => .error error
      | .ok (previousLocalSequence, queuedLocalCount) =>
        match encodePost entry.post with
        | .error _ => .error .invalidSnapshot
        | .ok encoded =>
          if window.classify entry.messageId encoded ≠ .duplicate then .error .invalidSnapshot
          else validateEntries window identity (entry.messageId :: messageIds)
            (entry.receivedOrder :: receivedOrders) (max maximumOrder entry.receivedOrder)
            entry.receivedOrder previousLocalSequence queuedLocalCount rest

def validateSnapshot (snapshot : HistorySnapshot) (identity : Identity) : HistoryError :=
  if snapshot.entries.length > kMaxTimelineEntries then .invalidSnapshot
  else match MessageDedupeWindow.restore kDefaultSeenMessageCapacity snapshot.lastSeenOrder
      snapshot.seenMessages with
    | .error _ => .invalidSnapshot
    | .ok window =>
      match validateEntries window identity [] [] 0 0 0 0 snapshot.entries with
      | .error _ => .invalidSnapshot
      | .ok maximumOrder =>
        if maximumOrder ≤ snapshot.lastAssignedOrder then .none else .invalidSnapshot

/-- Every entry is a duplicate in the ledger. -/
def Covers (window : MessageDedupeWindow) (entries : List TimelineEntry) : Prop :=
  ∀ entry ∈ entries, window.classify entry.messageId (postBytes entry.post) = .duplicate

/-- Local entries are this installation's, with growing sequences. -/
structure LocalsValid (identity : Identity) (entries : List TimelineEntry) : Prop where
  sender : ∀ entry ∈ entries, entry.isLocal → entry.post.senderId = identity.installId
  issued : ∀ entry ∈ entries, entry.isLocal →
    entry.sequence ≤ identity.lastIssuedSenderSequence.toNat
  growing : (entries.filter TimelineEntry.isLocal).Pairwise (·.sequence < ·.sequence)

/-- What `validate_snapshot` checks. -/
structure SnapshotValid (window : MessageDedupeWindow) (snapshot : HistorySnapshot)
    (identity : Identity) : Prop where
  capacity : window.capacity = kDefaultSeenMessageCapacity
  last : window.lastSeenOrder = snapshot.lastSeenOrder
  records : window.records = snapshot.seenMessages
  length : snapshot.entries.length ≤ kMaxTimelineEntries
  stamped : Stamped TimelineEntry.messageId TimelineEntry.receivedOrder snapshot.lastAssignedOrder
    snapshot.entries
  locals : LocalsValid identity snapshot.entries
  queued : snapshot.entries.countP TimelineEntry.isQueued ≤ kMaxQueuedLocalPosts
  covers : Covers window snapshot.entries

theorem isLocal_of_isQueued {entry : TimelineEntry} (h : entry.isQueued) : entry.isLocal := by
  have horigin : entry.origin = .localDelivery .queued := by simpa [TimelineEntry.isQueued] using h
  simp [TimelineEntry.isLocal, horigin]

theorem validateLocal_eq_ok {identity : Identity} {previous sequence : UInt64} {count total : ℕ}
    {entry : TimelineEntry} : validateLocal identity previous count entry = .ok (sequence, total) ↔
      (total = count + if entry.isQueued then 1 else 0) ∧
      (entry.isQueued → total ≤ kMaxQueuedLocalPosts) ∧
      (if entry.isLocal then
        entry.post.senderId = identity.installId ∧
        entry.sequence ≤ identity.lastIssuedSenderSequence.toNat ∧
        previous.toNat < entry.sequence ∧ sequence = entry.post.senderSequence
      else sequence = previous) := by
  unfold validateLocal TimelineEntry.isQueued TimelineEntry.isLocal TimelineEntry.sequence
  rcases horigin : entry.origin with _ | state
  · simp [eq_comm, and_comm]
  · simp only [ne_eq, gt_iff_lt, UInt64.lt_iff_toNat_lt, UInt64.le_iff_toNat_le,
      Guard.ite_error_eq_ok, not_or, not_not, not_lt, not_le, EntryOrigin.localDelivery.injEq,
      decide_eq_true_eq, reduceCtorEq, not_false_eq_true, decide_true, if_true]
    by_cases hqueued : state = .queued
    · simp only [hqueued, if_true, Guard.ite_error_eq_ok, Except.ok.injEq, Prod.mk.injEq, not_lt]
      constructor
      · rintro ⟨⟨hsender, hissued, hgrowing⟩, hcount, rfl, rfl⟩
        exact ⟨rfl, fun _ => hcount, hsender, hissued, hgrowing, rfl⟩
      · rintro ⟨rfl, hcount, hsender, hissued, hgrowing, rfl⟩
        exact ⟨⟨hsender, hissued, hgrowing⟩, hcount trivial, rfl, rfl⟩
    · simp only [hqueued, if_false, Except.ok.injEq, Prod.mk.injEq, false_imp_iff, true_and]
      constructor
      · rintro ⟨⟨hsender, hissued, hgrowing⟩, rfl, rfl⟩
        exact ⟨rfl, hsender, hissued, hgrowing, rfl⟩
      · rintro ⟨rfl, hsender, hissued, hgrowing, rfl⟩
        exact ⟨⟨hsender, hissued, hgrowing⟩, rfl, rfl⟩

theorem sequence_pos (entry : TimelineEntry) : 0 < entry.sequence := by
  have hne := entry.post.senderSequence_ne
  rw [TimelineEntry.sequence, Nat.pos_iff_ne_zero]
  exact fun hzero => hne (UInt64.toNat_inj.mp hzero)

theorem covers_cons {window : MessageDedupeWindow} {entry : TimelineEntry}
    {rest : List TimelineEntry} : Covers window (entry :: rest) ↔
      window.classify entry.messageId (postBytes entry.post) = .duplicate ∧ Covers window rest :=
  List.forall_mem_cons

theorem localsValid_cons {identity : Identity} {entry : TimelineEntry}
    {rest : List TimelineEntry} : LocalsValid identity (entry :: rest) ↔
      (entry.isLocal → entry.post.senderId = identity.installId ∧
        entry.sequence ≤ identity.lastIssuedSenderSequence.toNat ∧
        ∀ other ∈ rest, other.isLocal → entry.sequence < other.sequence) ∧
      LocalsValid identity rest := by
  constructor
  · rintro ⟨hsender, hissued, hgrowing⟩
    rw [List.forall_mem_cons] at hsender hissued
    refine ⟨fun hentry => ⟨hsender.1 hentry, hissued.1 hentry, ?_⟩, hsender.2, hissued.2,
      hgrowing.sublist ((List.sublist_cons_self entry rest).filter _)⟩
    rw [List.filter_cons_of_pos hentry, List.pairwise_cons] at hgrowing
    exact fun other hother hlocal => hgrowing.1 other (List.mem_filter.mpr ⟨hother, hlocal⟩)
  · rintro ⟨hentry, hrest⟩
    refine ⟨List.forall_mem_cons.mpr ⟨fun h => (hentry h).1, hrest.sender⟩,
      List.forall_mem_cons.mpr ⟨fun h => (hentry h).2.1, hrest.issued⟩, ?_⟩
    by_cases hlocal : entry.isLocal
    · rw [List.filter_cons_of_pos hlocal, List.pairwise_cons]
      refine ⟨fun other hother => ?_, hrest.growing⟩
      obtain ⟨hmem, hother⟩ := List.mem_filter.mp hother
      exact (hentry hlocal).2.2 other hmem hother
    · rw [List.filter_cons_of_neg hlocal]
      exact hrest.growing

/-- What one pass of the loop asks of an entry and hands on. -/
theorem validateEntries_cons {window : MessageDedupeWindow} {identity : Identity}
    {messageIds : List MessageId} {receivedOrders : List ℕ} {maximumOrder previousOrder : ℕ}
    {previous : UInt64} {count result : ℕ} {entry : TimelineEntry} {rest : List TimelineEntry} :
    validateEntries window identity messageIds receivedOrders maximumOrder previousOrder previous
        count (entry :: rest) = .ok result ↔
      (0 < entry.receivedOrder ∧ previousOrder < entry.receivedOrder ∧
        entry.messageId ∉ messageIds ∧ entry.receivedOrder ∉ receivedOrders) ∧
      window.classify entry.messageId (postBytes entry.post) = .duplicate ∧
      ∃ sequence total, validateLocal identity previous count entry = .ok (sequence, total) ∧
        validateEntries window identity (entry.messageId :: messageIds)
          (entry.receivedOrder :: receivedOrders) (max maximumOrder entry.receivedOrder)
          entry.receivedOrder sequence total rest = .ok result := by
  rw [validateEntries, Guard.ite_error_eq_ok]
  simp only [not_or, not_le, Nat.pos_iff_ne_zero, encodePost_eq]
  refine and_congr_right fun _ => ?_
  rcases validateLocal identity previous count entry with error | ⟨sequence, total⟩
  · simp
  · simp only [Guard.ite_error_eq_ok, not_not, Except.ok.injEq, Prod.mk.injEq]
    constructor
    · rintro ⟨hclass, hrest⟩
      exact ⟨hclass, sequence, total, ⟨rfl, rfl⟩, hrest⟩
    · rintro ⟨hclass, _, _, ⟨rfl, rfl⟩, hrest⟩
      exact ⟨hclass, hrest⟩

theorem validateEntries_ok {window : MessageDedupeWindow} {identity : Identity}
    {messageIds : List MessageId} {receivedOrders : List ℕ} {maximumOrder previousOrder last : ℕ}
    {previous : UInt64} {count : ℕ} {entries : List TimelineEntry}
    (horders : ∀ order ∈ receivedOrders, order ≤ previousOrder)
    (hcount : count ≤ kMaxQueuedLocalPosts) :
    (∃ result, validateEntries window identity messageIds receivedOrders maximumOrder previousOrder
        previous count entries = .ok result ∧ result ≤ last) ↔
      (maximumOrder ≤ last ∧ (entries.map TimelineEntry.messageId).Nodup ∧
        (∀ entry ∈ entries, entry.messageId ∉ messageIds) ∧
        entries.Pairwise (·.receivedOrder < ·.receivedOrder) ∧
        ∀ entry ∈ entries, previousOrder < entry.receivedOrder ∧ entry.receivedOrder ≤ last) ∧
      (LocalsValid identity entries ∧
        ∀ entry ∈ entries, entry.isLocal → previous.toNat < entry.sequence) ∧
      count + entries.countP TimelineEntry.isQueued ≤ kMaxQueuedLocalPosts ∧
      Covers window entries := by
  -- The accumulators vary: they are what the earlier entries have left behind.
  induction entries generalizing messageIds receivedOrders maximumOrder previousOrder previous
      count with
  | nil =>
    simp only [validateEntries, Except.ok.injEq, exists_eq_left', List.map_nil, List.nodup_nil,
      List.not_mem_nil, List.Pairwise.nil, List.countP_nil, Covers]
    exact ⟨fun h => ⟨⟨h, trivial, by simp, trivial, by simp⟩,
      ⟨⟨by simp, by simp, by simp⟩, by simp⟩,
      hcount, by simp⟩, fun h => h.1.1⟩
  | cons entry rest ih =>
    -- An order above all earlier ones is not among them.
    have horders' : ∀ order ∈ entry.receivedOrder :: receivedOrders,
        previousOrder < entry.receivedOrder → order ≤ entry.receivedOrder := by
      intro order hmem hlt
      rcases List.mem_cons.mp hmem with rfl | hmem
      · exact le_refl _
      · have := horders order hmem
        omega
    rw [covers_cons, localsValid_cons]
    constructor
    · -- accepted: the checks of this entry, then those of the rest
      rintro ⟨result, hok, hle⟩
      obtain ⟨⟨hpos, hlt, hid, -⟩, hclass, sequence, total, hlocal, hok⟩ :=
        validateEntries_cons.mp hok
      obtain ⟨htotal, hqueue, hlocal⟩ := validateLocal_eq_ok.mp hlocal
      have hbound : total ≤ kMaxQueuedLocalPosts := by
        by_cases hqueued : entry.isQueued
        · exact hqueue hqueued
        · simp only [htotal, hqueued, Bool.false_eq_true, if_false]
          omega
      obtain ⟨⟨hmax, hnodup, hids, hpairwise, hbounds⟩, ⟨hlocals, hgrowing⟩, hqueued, hcovers⟩ :=
        (ih (fun order hmem => horders' order hmem hlt) hbound).mp ⟨result, hok, hle⟩
      simp only [List.map_cons, List.nodup_cons, List.forall_mem_cons, List.pairwise_cons,
        List.countP_cons]
      refine ⟨⟨by omega, ⟨?_, hnodup⟩, ⟨hid, fun other hother hmem =>
        hids other hother (List.mem_cons_of_mem _ hmem)⟩, ⟨fun other hother =>
        (hbounds other hother).1, hpairwise⟩, ⟨hlt, by omega⟩, fun other hother =>
        ⟨lt_trans hlt (hbounds other hother).1, (hbounds other hother).2⟩⟩, ⟨⟨?_, hlocals⟩, ?_, ?_⟩,
        by omega, hclass, hcovers⟩
      · intro hmem
        obtain ⟨other, hother, heq⟩ := List.mem_map.mp hmem
        exact hids other hother (heq ▸ List.mem_cons_self ..)
      · intro hentry
        rw [if_pos hentry] at hlocal
        obtain ⟨hsender, hissued, -, rfl⟩ := hlocal
        exact ⟨hsender, hissued, hgrowing⟩
      · intro hentry
        rw [if_pos hentry] at hlocal
        exact hlocal.2.2.1
      · intro other hother hother'
        have hlater := hgrowing other hother hother'
        by_cases hentry : entry.isLocal
        · rw [if_pos hentry] at hlocal
          obtain ⟨-, -, hprevious, rfl⟩ := hlocal
          exact lt_trans hprevious hlater
        · rw [if_neg hentry] at hlocal
          rwa [hlocal] at hlater
    · simp only [List.map_cons, List.nodup_cons, List.forall_mem_cons, List.pairwise_cons,
        List.countP_cons]
      rintro ⟨⟨hmax, ⟨hnew, hnodup⟩, ⟨hid, hids⟩, ⟨hlater, hpairwise⟩, ⟨hlt, hentryLast⟩, hbounds⟩,
        ⟨⟨hlocal, hlocals⟩, hprevious, hothers⟩, hqueued, hclass, hcovers⟩
      -- The search for the order is the one check that the conditions do not mention.
      have hfresh : entry.receivedOrder ∉ receivedOrders := fun hmem => by
        have := horders _ hmem
        omega
      have hnext : validateLocal identity previous count entry =
          .ok (if entry.isLocal then entry.post.senderSequence else previous,
            count + if entry.isQueued then 1 else 0) := by
        refine validateLocal_eq_ok.mpr ⟨rfl, fun _ => by omega, ?_⟩
        by_cases hentry : entry.isLocal
        · rw [if_pos hentry, if_pos hentry]
          exact ⟨(hlocal hentry).1, (hlocal hentry).2.1, hprevious hentry, rfl⟩
        · rw [if_neg hentry, if_neg hentry]
      have hbound : (count + if entry.isQueued then 1 else 0) ≤ kMaxQueuedLocalPosts := by omega
      have hrest : ∃ result, validateEntries window identity (entry.messageId :: messageIds)
          (entry.receivedOrder :: receivedOrders) (max maximumOrder entry.receivedOrder)
          entry.receivedOrder (if entry.isLocal then entry.post.senderSequence else previous)
          (count + if entry.isQueued then 1 else 0) rest = .ok result ∧ result ≤ last := by
        refine (ih (fun order hmem => horders' order hmem hlt) hbound).mpr
          ⟨⟨max_le hmax hentryLast, hnodup, ?_, hpairwise, fun other hother =>
            ⟨hlater other hother, (hbounds other hother).2⟩⟩, ⟨hlocals, ?_⟩, by omega, hcovers⟩
        · intro other hother hmem
          rcases List.mem_cons.mp hmem with heq | hmem
          · exact hnew (heq ▸ List.mem_map_of_mem hother)
          · exact hids other hother hmem
        · intro other hother hother'
          by_cases hentry : entry.isLocal
          · rw [if_pos hentry]
            exact (hlocal hentry).2.2 other hother hother'
          · rw [if_neg hentry]
            exact hothers other hother hother'
      obtain ⟨result, hok, hle⟩ := hrest
      exact ⟨result, validateEntries_cons.mpr ⟨⟨by omega, hlt, hid, hfresh⟩, hclass, _, _, hnext,
        hok⟩, hle⟩

theorem validateSnapshot_eq_none {snapshot : HistorySnapshot} {identity : Identity} :
    validateSnapshot snapshot identity = .none ↔
      ∃ window, SnapshotValid window snapshot identity := by
  unfold validateSnapshot
  by_cases hlength : snapshot.entries.length > kMaxTimelineEntries
  · simp only [if_pos hlength, reduceCtorEq, false_iff, not_exists]
    intro window h
    have := h.length
    omega
  rw [if_neg hlength]
  rcases hrestore : MessageDedupeWindow.restore kDefaultSeenMessageCapacity snapshot.lastSeenOrder
      snapshot.seenMessages with error | window
  · simp only [reduceCtorEq, false_iff, not_exists]
    intro window h
    rw [MessageDedupeWindow.restore_eq_ok.mpr ⟨h.capacity, h.last, h.records⟩] at hrestore
    cases hrestore
  obtain ⟨hcapacity, hlast, hrecords⟩ := MessageDedupeWindow.restore_eq_ok.mp hrestore
  have hentries : (∃ result, validateEntries window identity [] [] 0 0 0 0 snapshot.entries =
      .ok result ∧ result ≤ snapshot.lastAssignedOrder) ↔ _ :=
    validateEntries_ok (by simp) (Nat.zero_le _)
  constructor
  · intro h
    have hok : ∃ result, validateEntries window identity [] [] 0 0 0 0 snapshot.entries =
        .ok result ∧ result ≤ snapshot.lastAssignedOrder := by
      rcases hrun : validateEntries window identity []
        [] 0 0 0 0 snapshot.entries with error | result
      · simp [hrun] at h
      · simp only [hrun] at h
        refine ⟨result, rfl, ?_⟩
        by_contra hgt
        simp [hgt] at h
    obtain ⟨⟨-, hnodup, -, hpairwise, hbounds⟩, ⟨hlocals, -⟩, hqueued, hcovers⟩ := hentries.mp hok
    refine ⟨window, hcapacity, hlast, hrecords, by omega, ⟨hnodup, hpairwise, fun entry hentry =>
      (hbounds entry hentry).1, fun entry hentry => (hbounds entry hentry).2⟩, hlocals, by omega,
      hcovers⟩
  · rintro ⟨other, h⟩
    obtain rfl : other = window := MessageDedupeWindow.ext_data (h.capacity.trans hcapacity.symm)
      (h.last.trans hlast.symm) (h.records.trans hrecords.symm)
    have hqueued := h.queued
    obtain ⟨result, hok, hle⟩ := hentries.mpr ⟨⟨Nat.zero_le _, h.stamped.distinct, by simp,
      h.stamped.increasing, fun entry hentry => ⟨h.stamped.positive entry hentry,
      h.stamped.bounded entry hentry⟩⟩, ⟨h.locals, fun entry _ _ => sequence_pos entry⟩, by omega,
      h.covers⟩
    simp [hok, hle]

/-! ### Completing the ledger -/

/-- The loop of `reconcile_snapshot_dedupe`. -/
def reconcileEntries (protectedMessageIds : List MessageId) :
    MessageDedupeWindow → List TimelineEntry → Option MessageDedupeWindow
  | window, [] => some window
  | window, entry :: rest =>
    match encodePost entry.post with
    | .error _ => none
    | .ok encoded =>
      match window.classify entry.messageId encoded with
      | .conflict => none
      | .invalid => none
      | .duplicate => reconcileEntries protectedMessageIds window rest
      | .new =>
        match window.remember entry.post encoded protectedMessageIds with
        | .error _ => none
        | .ok window => reconcileEntries protectedMessageIds window rest

def reconcileSnapshotDedupe (snapshot : HistorySnapshot) : Except HistoryError HistorySnapshot :=
  match MessageDedupeWindow.restore kDefaultSeenMessageCapacity snapshot.lastSeenOrder
      snapshot.seenMessages with
  | .error _ => .error .invalidSnapshot
  | .ok window =>
    match reconcileEntries (snapshot.entries.map TimelineEntry.messageId) window
      snapshot.entries with
    | none => .error .invalidSnapshot
    | some window =>
      .ok { snapshot with lastSeenOrder := window.lastSeenOrder, seenMessages := window.records }

theorem reconcileEntries_of_covers {protectedMessageIds : List MessageId}
    {window : MessageDedupeWindow} {entries : List TimelineEntry} (h : Covers window entries) :
    reconcileEntries protectedMessageIds window entries = some window := by
  induction entries with
  | nil => rfl
  | cons entry rest ih =>
    obtain ⟨hentry, hrest⟩ := covers_cons.mp h
    simp only [reconcileEntries, encodePost_eq, hentry]
    exact ih hrest

/-- A snapshot that passes the checks is not changed. -/
theorem reconcile_of_valid {window : MessageDedupeWindow} {snapshot : HistorySnapshot}
    {identity : Identity} (h : SnapshotValid window snapshot identity) :
    reconcileSnapshotDedupe snapshot = .ok snapshot := by
  have hrestore := MessageDedupeWindow.restore_eq_ok.mpr ⟨h.capacity, h.last, h.records⟩
  simp only [reconcileSnapshotDedupe, hrestore, reconcileEntries_of_covers h.covers, h.last,
    h.records]

theorem lastSeenOrder_reconcileEntries {protectedMessageIds : List MessageId}
    {window completed : MessageDedupeWindow} {entries : List TimelineEntry}
    (h : reconcileEntries protectedMessageIds window entries = some completed) :
    completed.lastSeenOrder ≤ window.lastSeenOrder + entries.length := by
  induction entries generalizing window with
  | nil =>
    cases h
    exact Nat.le_add_right ..
  | cons entry rest ih =>
    rw [List.length_cons]
    simp only [reconcileEntries, encodePost_eq] at h
    rcases hclass : window.classify entry.messageId (postBytes entry.post) <;>
      simp only [hclass, reduceCtorEq] at h
    · rw [TimelineEntry.messageId] at hclass
      rw [MessageDedupeWindow.remember_eq hclass] at h
      by_cases hlast : window.lastSeenOrder = kMaximumOrder
      · simp [hlast] at h
      · by_cases hroom : window.hasRoom protectedMessageIds
        · simp only [hlast, hroom, if_false, dite_true] at h
          have hle := ih h
          simp only [MessageDedupeWindow.push] at hle
          omega
        · simp [hlast, hroom] at h
    · have := ih h
      omega

/-- Only the ledger is completed, with at most one record for each entry. -/
theorem reconcile_eq_ok {snapshot completed : HistorySnapshot}
    (h : reconcileSnapshotDedupe snapshot = .ok completed) :
    completed.entries = snapshot.entries ∧
    completed.lastAssignedOrder = snapshot.lastAssignedOrder ∧
    completed.lastSeenOrder ≤ snapshot.lastSeenOrder + snapshot.entries.length := by
  unfold reconcileSnapshotDedupe at h
  rcases hrestore : MessageDedupeWindow.restore kDefaultSeenMessageCapacity snapshot.lastSeenOrder
      snapshot.seenMessages with error | window
  · simp [hrestore] at h
  rcases hrun : reconcileEntries (snapshot.entries.map TimelineEntry.messageId) window
      snapshot.entries with _ | result
  · simp [hrestore, hrun] at h
  · simp only [hrestore, hrun, Except.ok.injEq] at h
    have hle := lastSeenOrder_reconcileEntries hrun
    rw [(MessageDedupeWindow.restore_eq_ok.mp hrestore).2.1] at hle
    rw [← h]
    exact ⟨rfl, rfl, hle⟩

/-! ### The stored history -/

/-- The contents of the database: the metadata, and the rows in their order. -/
structure StoredHistory where
  installId : Uuid
  dedupeInitialized : Bool
  snapshot : HistorySnapshot
deriving DecidableEq

namespace StoredHistory

def identityMatches (stored : StoredHistory) (identity : Identity) : Bool :=
  stored.installId = identity.installId.uuid

def ledgerMatches (stored : StoredHistory) (snapshot : HistorySnapshot) : Bool :=
  stored.snapshot.seenMessages = snapshot.seenMessages

/-- The checks `write_snapshot` makes against the metadata. -/
def admits (stored : StoredHistory) (snapshot : HistorySnapshot) (identity : Identity) :
    HistoryError :=
  if !stored.identityMatches identity then .identityMismatch
  else if snapshot.lastAssignedOrder < stored.snapshot.lastAssignedOrder ∨
      snapshot.lastSeenOrder < stored.snapshot.lastSeenOrder then .invalidSnapshot
  else if snapshot.lastSeenOrder = stored.snapshot.lastSeenOrder ∧
      !stored.ledgerMatches snapshot then .invalidSnapshot
  else .none

/-- The checks `read_snapshot` makes on the rows of the posts. -/
def readPosts (identity : Identity) (lastAssignedOrder : ℕ) (seenOrders : List ℕ)
    (previousLocalSequence : UInt64) (count : ℕ) : List TimelineEntry → Bool
  | [] => true
  | entry :: rest =>
    if count ≥ kMaxTimelineEntries ∨ entry.receivedOrder = 0 ∨ entry.receivedOrder ∈ seenOrders ∨
        entry.receivedOrder > lastAssignedOrder then false
    else match entry.origin with
      | .receivedOrigin => readPosts identity lastAssignedOrder (entry.receivedOrder :: seenOrders)
          previousLocalSequence (count + 1) rest
      | .localDelivery _ =>
        if entry.post.senderId ≠ identity.installId ∨
            entry.post.senderSequence > identity.lastIssuedSenderSequence ∨
            entry.post.senderSequence ≤ previousLocalSequence then false
        else readPosts identity lastAssignedOrder (entry.receivedOrder :: seenOrders)
          entry.post.senderSequence (count + 1) rest

/-- The checks `read_snapshot` makes on the rows of the ledger. -/
def readSeenMessages (lastSeenOrder previousSeenOrder count : ℕ) : List SeenMessageRecord → Bool
  | [] => true
  | record :: rest =>
    if count ≥ kDefaultSeenMessageCapacity ∨
        record.encodedPost.length < kMinimumEncodedPostBytes ∨
        record.encodedPost.length > kMaximumEncodedPostBytes ∨ record.seenOrder = 0 ∨
        record.seenOrder ≤ previousSeenOrder ∨ record.seenOrder > lastSeenOrder ∨
        ¬isCanonicalRecord record then false
    else readSeenMessages lastSeenOrder record.seenOrder (count + 1) rest

def readSnapshot (stored : StoredHistory) (identity : Identity) :
    Except HistoryError HistorySnapshot :=
  let snapshot := stored.snapshot
  if !readPosts identity snapshot.lastAssignedOrder [] 0 0 snapshot.entries then
    .error .invalidData
  else if !readSeenMessages snapshot.lastSeenOrder 0 0 snapshot.seenMessages then
    .error .invalidData
  else if !stored.dedupeInitialized then
    if snapshot.seenMessages ≠ [] ∨ snapshot.lastSeenOrder ≠ 0 then .error .invalidData
    else match reconcileSnapshotDedupe snapshot with
      | .error _ => .error .invalidData
      | .ok seeded =>
        if validateSnapshot seeded identity ≠ .none then .error .invalidData else .ok snapshot
  else if validateSnapshot snapshot identity ≠ .none then .error .invalidData
  else .ok snapshot

variable {stored : StoredHistory} {snapshot : HistorySnapshot} {identity : Identity}

/-- What is read is what is stored, and it passes the checks once the ledger
is there. -/
theorem readSnapshot_eq_ok (h : stored.readSnapshot identity = .ok snapshot) :
    snapshot = stored.snapshot ∧
    (if stored.dedupeInitialized then ∃ window, SnapshotValid window snapshot identity
    else (snapshot.seenMessages = [] ∧ snapshot.lastSeenOrder = 0) ∧
      ∃ seeded, reconcileSnapshotDedupe snapshot = .ok seeded ∧
        ∃ window, SnapshotValid window seeded identity) := by
  rw [readSnapshot, Guard.ite_error_eq_ok, Guard.ite_error_eq_ok] at h
  obtain ⟨-, -, h⟩ := h
  by_cases hinitialized : stored.dedupeInitialized
  · simp only [hinitialized, Bool.not_true, Bool.false_eq_true, if_false, Guard.ite_error_eq_ok,
      not_not, Except.ok.injEq] at h
    obtain ⟨hvalid, rfl⟩ := h
    rw [if_pos hinitialized]
    exact ⟨rfl, validateSnapshot_eq_none.mp hvalid⟩
  · simp only [hinitialized, Bool.not_false, if_true, Guard.ite_error_eq_ok, not_or, not_not] at h
    obtain ⟨hnothing, h⟩ := h
    rcases hseeded : reconcileSnapshotDedupe stored.snapshot with error | seeded
    · simp [hseeded] at h
    · simp only [hseeded, Guard.ite_error_eq_ok, not_not, Except.ok.injEq] at h
      obtain ⟨hvalid, rfl⟩ := h
      rw [if_neg hinitialized]
      exact ⟨rfl, hnothing, seeded, hseeded, validateSnapshot_eq_none.mp hvalid⟩

theorem readPosts_of_valid {lastAssignedOrder count : ℕ} {seenOrders : List ℕ} {previous : UInt64}
    {entries : List TimelineEntry} (hcount : count + entries.length ≤ kMaxTimelineEntries)
    (hpositive : ∀ entry ∈ entries, 0 < entry.receivedOrder)
    (hbounded : ∀ entry ∈ entries, entry.receivedOrder ≤ lastAssignedOrder)
    (hincreasing : entries.Pairwise (·.receivedOrder < ·.receivedOrder))
    (hseen : ∀ entry ∈ entries, entry.receivedOrder ∉ seenOrders)
    (hlocals : LocalsValid identity entries)
    (hprevious : ∀ entry ∈ entries, entry.isLocal → previous.toNat < entry.sequence) :
    readPosts identity lastAssignedOrder seenOrders previous count entries := by
  induction entries generalizing seenOrders previous count with
  | nil => rfl
  | cons entry rest ih =>
    rw [List.length_cons] at hcount
    rw [List.forall_mem_cons] at hpositive hbounded hseen hprevious
    rw [List.pairwise_cons] at hincreasing
    obtain ⟨hlocal, hrest⟩ := localsValid_cons.mp hlocals
    have hfresh : ∀ other ∈ rest, other.receivedOrder ∉ entry.receivedOrder :: seenOrders := by
      intro other hother hmem
      rcases List.mem_cons.mp hmem with heq | hmem
      · exact absurd (hincreasing.1 other hother) (by omega)
      · exact hseen.2 other hother hmem
    rw [readPosts, if_neg (by simp only [not_or]; exact ⟨by omega, by omega, hseen.1, by omega⟩)]
    rcases horigin : entry.origin with _ | state
    · exact ih (by omega) hpositive.2 hbounded.2 hincreasing.2 hfresh hrest hprevious.2
    · have hisLocal : entry.isLocal := by simp [TimelineEntry.isLocal, horigin]
      obtain ⟨hsender, hissued, hlater⟩ := hlocal hisLocal
      have hgrowing := hprevious.1 hisLocal
      dsimp only
      rw [if_neg]
      · exact ih (by omega) hpositive.2 hbounded.2 hincreasing.2 hfresh hrest hlater
      · simp only [not_or, not_not, gt_iff_lt, UInt64.lt_iff_toNat_lt, UInt64.le_iff_toNat_le]
        rw [TimelineEntry.sequence] at hissued hgrowing
        exact ⟨hsender, by omega, by omega⟩

theorem readSeenMessages_of_valid {lastSeenOrder previousSeenOrder count : ℕ}
    {records : List SeenMessageRecord}
    (hcount : count + records.length ≤ kDefaultSeenMessageCapacity)
    (hcanonical : ∀ record ∈ records, isCanonicalRecord record)
    (hincreasing : records.Pairwise (·.seenOrder < ·.seenOrder))
    (hbounds : ∀ record ∈ records, previousSeenOrder < record.seenOrder ∧
      record.seenOrder ≤ lastSeenOrder) :
    readSeenMessages lastSeenOrder previousSeenOrder count records := by
  induction records generalizing previousSeenOrder count with
  | nil => rfl
  | cons record rest ih =>
    rw [List.length_cons] at hcount
    rw [List.forall_mem_cons] at hcanonical hbounds
    rw [List.pairwise_cons] at hincreasing
    obtain ⟨hpositive, post, -, hbytes⟩ := isCanonicalRecord_iff.mp hcanonical.1
    have hsize := encodedSize_bounds post
    have hlength : record.encodedPost.length = encodedSize post := by
      rw [hbytes, length_postBytes]
    rw [readSeenMessages, if_neg]
    · exact ih (by omega) hcanonical.2 hincreasing.2 fun other hother =>
        ⟨hincreasing.1 other hother, (hbounds.2 other hother).2⟩
    · simp only [not_or, not_not]
      exact ⟨by omega, by omega, by omega, by omega, by omega, by omega, hcanonical.1⟩

/-- The checks of `read_snapshot` are no stricter than those of `validate_snapshot`. -/
theorem readSnapshot_of_valid {window : MessageDedupeWindow}
    (hinitialized : stored.dedupeInitialized)
    (h : SnapshotValid window stored.snapshot identity) :
    stored.readSnapshot identity = .ok stored.snapshot := by
  have hposts : readPosts identity stored.snapshot.lastAssignedOrder [] 0 0
      stored.snapshot.entries :=
    readPosts_of_valid (by simpa using h.length) h.stamped.positive h.stamped.bounded
      h.stamped.increasing (by simp) h.locals fun entry _ _ => sequence_pos entry
  have hrecords : readSeenMessages stored.snapshot.lastSeenOrder 0 0
      stored.snapshot.seenMessages := by
    rw [← h.records, ← h.last]
    refine readSeenMessages_of_valid ?_ window.canonical window.stamped.increasing ?_
    · rw [Nat.zero_add, ← h.capacity]
      exact window.length_le
    · exact fun record hrecord => ⟨window.stamped.positive record hrecord,
        window.stamped.bounded record hrecord⟩
  rw [readSnapshot, if_neg (by simp [hposts]), if_neg (by simp [hrecords]),
    if_neg (by simp [hinitialized]), if_neg]
  simpa using validateSnapshot_eq_none.mpr ⟨window, h⟩

/-- Orders that do not turn back, and a ledger that grew or stayed, are
admitted. -/
theorem admits_eq_none (hidentity : stored.installId = identity.installId.uuid)
    (hassigned : stored.snapshot.lastAssignedOrder ≤ snapshot.lastAssignedOrder)
    (hseen : stored.snapshot.lastSeenOrder < snapshot.lastSeenOrder ∨
      (stored.snapshot.lastSeenOrder = snapshot.lastSeenOrder ∧
        stored.snapshot.seenMessages = snapshot.seenMessages)) :
    stored.admits snapshot identity = .none := by
  rw [admits, if_neg (by simp [identityMatches, hidentity]), if_neg (by omega), if_neg]
  rintro ⟨heq, hdiffer⟩
  rcases hseen with hlt | ⟨-, hmatches⟩
  · omega
  · simp [ledgerMatches, hmatches] at hdiffer

end StoredHistory

end Lora
