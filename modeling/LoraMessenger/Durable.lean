/-
What may happen to the disk.

The abstract view of the session: while it is in service, memory and disk hold
the same settings, timeline and ledger, a `Committed` state, and a command
takes one such state to another by one or two changes.  A starting session
brings the disk into such a state step by step.  `DiskStep` lists every change
of the disk there is, with its cause; what holds of the disk over whole
lifetimes is proved here from the list alone.

* `Commit` — the changes of a committed state, `exists_received`, … their
  preconditions;
* `DiskStep`, `Reaches` — all changes of the disk, and sequences of them;
* `DiskStep.mem_entries` — where the entries come from;
* `Reaches.watermark_le`, `Reaches.covered`, `Reaches.ledgerBehind` — what such
  sequences preserve.
-/
import LoraMessenger.Session
import Mathlib.Logic.Relation

namespace Lora

/-- The first launch has been completed, and the settings can be loaded again. -/
def SettingsRecord.Launched (settings : SettingsRecord) : Prop :=
  settings.generation ≠ 0 ∧ settings.historyInitialized = true

/-- What a session in service holds, in memory as on disk. -/
structure Committed where
  settings : SettingsRecord
  timeline : Timeline
  ledger : MessageDedupeWindow
  timeline_capacity : timeline.capacity = kMaxTimelineEntries
  ledger_capacity : ledger.capacity = kDefaultSeenMessageCapacity
  covers : Covers ledger timeline.entries
  locals : LocalsValid (identityFrom settings) timeline.entries
  launched : settings.Launched

namespace Committed

variable (v : Committed)

def snapshot : HistorySnapshot := Session.snapshotOf v.timeline v.ledger

def disk : Disk where
  settings := .stored v.settings
  history := .stored ⟨v.settings.installId.uuid, true, v.snapshot⟩

/-- The store's checks pass. -/
theorem snapshotValid : SnapshotValid v.ledger v.snapshot (identityFrom v.settings) where
  capacity := v.ledger_capacity
  last := rfl
  records := rfl
  length := v.timeline_capacity ▸ v.timeline.length_le
  stamped := v.timeline.stamped
  locals := v.locals
  queued := le_trans v.timeline.queued_le (min_le_left _ _)
  covers := v.covers

/-- The timeline holds nothing that the ledger does not know. -/
theorem find_eq_none {v : Committed} {messageId : MessageId} {bytes : Bytes}
    (hnew : v.ledger.classify messageId bytes = .new) : v.timeline.find messageId = none := by
  rw [Timeline.find_eq_none]
  intro hmem
  obtain ⟨entry, hentry, hid⟩ := List.mem_map.mp hmem
  obtain ⟨record, hrecord, hseen, -⟩ :=
    MessageDedupeWindow.classify_eq_duplicate.mp (v.covers entry hentry)
  exact MessageDedupeWindow.classify_eq_new.mp hnew (hid ▸ hseen ▸ List.mem_map_of_mem hrecord)

end Committed

/-! ### Changes of a committed state -/

inductive Change where
  | settings
  | sequence
  | received (post : PostPayload)
  | composed (post : PostPayload)
  | delivered (messageId : MessageId) (target : LocalDeliveryState)

/-- An insertion, with the record that goes with it. -/
structure Inserts (v v' : Committed) (post : PostPayload)
    (insertion : Except TimelineInsertError Timeline.Inserted) : Prop where
  settings : v'.settings = v.settings
  new : v.ledger.classify post.messageId (postBytes post) = .new
  timeline : ∃ inserted, insertion = .ok inserted ∧ v'.timeline = inserted.timeline
  ledger : v.ledger.remember post (postBytes post)
    (v'.timeline.entries.map TimelineEntry.messageId) = .ok v'.ledger

inductive Commit : Change → Committed → Committed → Prop where
  | settings {v v' : Committed} (hinstall : v'.settings.installId = v.settings.installId)
      (hwatermark : v'.settings.senderSequenceHighWatermark =
        v.settings.senderSequenceHighWatermark)
      (htimeline : v'.timeline = v.timeline) (hledger : v'.ledger = v.ledger) :
      Commit .settings v v'
  | sequence {v v' : Committed} (hinstall : v'.settings.installId = v.settings.installId)
      (hwatermark : (identityFrom v.settings).nextSenderSequence =
        some v'.settings.senderSequenceHighWatermark)
      (htimeline : v'.timeline = v.timeline) (hledger : v'.ledger = v.ledger) :
      Commit .sequence v v'
  | received {v v' : Committed} {post : PostPayload}
      (h : Inserts v v' post (v.timeline.insertReceived post)) : Commit (.received post) v v'
  | composed {v v' : Committed} {post : PostPayload}
      (hsequence : post.senderSequence = v.settings.senderSequenceHighWatermark)
      (h : Inserts v v' post (v.timeline.insertLocal post)) : Commit (.composed post) v v'
  | delivered {v v' : Committed} {messageId : MessageId} {target : LocalDeliveryState}
      (hsettings : v'.settings = v.settings) (hledger : v'.ledger = v.ledger)
      (htimeline : v.timeline.transition messageId target = .ok v'.timeline) :
      Commit (.delivered messageId target) v v'

section Exists

variable {v : Committed} {post : PostPayload}

theorem LocalsValid.sublist {identity : Identity} {entries kept : List TimelineEntry}
    (h : LocalsValid identity entries) (hkept : kept.Sublist entries) :
    LocalsValid identity kept where
  sender entry hentry := h.sender entry (hkept.subset hentry)
  issued entry hentry := h.issued entry (hkept.subset hentry)
  growing := h.growing.sublist (hkept.filter _)

theorem LocalsValid.mono {identity identity' : Identity} {entries : List TimelineEntry}
    (h : LocalsValid identity entries) (hinstall : identity'.installId = identity.installId)
    (hissued : identity.lastIssuedSenderSequence.toNat ≤
      identity'.lastIssuedSenderSequence.toNat) : LocalsValid identity' entries where
  sender entry hentry hlocal := hinstall ▸ h.sender entry hentry hlocal
  issued entry hentry hlocal := le_trans (h.issued entry hentry hlocal) hissued
  growing := h.growing

/-- A new entry that is received, or local with a new sequence. -/
theorem LocalsValid.concat {identity : Identity} {entries : List TimelineEntry}
    {entry : TimelineEntry} (h : LocalsValid identity entries)
    (hentry : entry.isLocal → entry.post.senderId = identity.installId ∧
      entry.sequence ≤ identity.lastIssuedSenderSequence.toNat ∧
      ∀ other ∈ entries, other.isLocal → other.sequence < entry.sequence) :
    LocalsValid identity (entries ++ [entry]) where
  sender other hother hlocal := by
    rcases List.mem_append.mp hother with hold | hnew
    · exact h.sender other hold hlocal
    · obtain rfl := List.mem_singleton.mp hnew
      exact (hentry hlocal).1
  issued other hother hlocal := by
    rcases List.mem_append.mp hother with hold | hnew
    · exact h.issued other hold hlocal
    · obtain rfl := List.mem_singleton.mp hnew
      exact (hentry hlocal).2.1
  growing := by
    rw [List.filter_append, List.pairwise_append]
    refine ⟨h.growing, ?_, ?_⟩
    · by_cases hlocal : entry.isLocal <;> simp [hlocal]
    · intro other hother added hadded
      obtain ⟨hmem, hlocal⟩ := List.mem_filter.mp hadded
      obtain rfl := List.mem_singleton.mp hmem
      obtain ⟨hother, hotherLocal⟩ := List.mem_filter.mp hother
      exact (hentry hlocal).2.2 other hother hotherLocal

/-- New settings of the same installation that issue no fewer sequences. -/
def Committed.withSettings (v : Committed) (settings : SettingsRecord)
    (hinstall : settings.installId = v.settings.installId)
    (hissued : v.settings.senderSequenceHighWatermark.toNat ≤
      settings.senderSequenceHighWatermark.toNat) (hlaunched : settings.Launched) : Committed where
  settings := settings
  timeline := v.timeline
  ledger := v.ledger
  timeline_capacity := v.timeline_capacity
  ledger_capacity := v.ledger_capacity
  covers := v.covers
  locals := v.locals.mono hinstall hissued
  launched := hlaunched

/-- What remembering a new post does, unless it fails. -/
theorem remember_cases {window remembered : MessageDedupeWindow} {ids : List MessageId}
    (hnew : window.classify post.messageId (postBytes post) = .new)
    (h : window.remember post (postBytes post) ids = .ok remembered) :
    ∃ hfresh hroom, remembered = window.push post ids hfresh hroom := by
  rw [MessageDedupeWindow.remember_eq hnew] at h
  by_cases hlast : window.lastSeenOrder = kMaximumOrder
  · simp [hlast] at h
  · by_cases hroom : window.hasRoom ids
    · simp only [hlast, hroom, if_false, dite_true, Except.ok.injEq] at h
      exact ⟨_, hroom, h.symm⟩
    · simp [hlast, hroom] at h

/-- An insertion and the record that goes with it make a committed state. -/
theorem exists_inserts {origin : EntryOrigin} {protectedMessageId : Option MessageId}
    {inserted : Timeline.Inserted} {ledger : MessageDedupeWindow}
    (hinsert : v.timeline.insert post origin protectedMessageId = .ok inserted)
    (hnew : v.ledger.classify post.messageId (postBytes post) = .new)
    (hledger : v.ledger.remember post (postBytes post)
      (inserted.timeline.entries.map TimelineEntry.messageId) = .ok ledger)
    (hlocal : origin ≠ .receivedOrigin → post.senderId = v.settings.installId ∧
      post.senderSequence = v.settings.senderSequenceHighWatermark ∧
      ∀ entry ∈ v.timeline.entries, entry.isLocal →
        entry.sequence < post.senderSequence.toNat) :
    ∃ v' : Committed, v'.settings = v.settings ∧ v'.timeline = inserted.timeline ∧
      v'.ledger = ledger := by
  obtain ⟨hfind, hqueue, havailable, rfl⟩ := Timeline.insert_eq_ok.mp hinsert
  obtain ⟨hfresh, hroom, rfl⟩ := remember_cases hnew hledger
  have hkept : (v.timeline.evict protectedMessageId).Sublist v.timeline.entries :=
    Timeline.evict_sublist
  refine ⟨{ settings := v.settings
            timeline := v.timeline.push post origin protectedMessageId hfind hqueue havailable
            ledger := v.ledger.push post _ hfresh hroom
            timeline_capacity := v.timeline_capacity
            ledger_capacity := v.ledger_capacity
            covers := ?_
            locals := ?_
            launched := v.launched }, rfl, rfl, rfl⟩
  · intro entry hentry
    rcases List.mem_append.mp hentry with hold | hadded
    · exact MessageDedupeWindow.classify_push hfresh hroom (List.mem_map_of_mem hentry)
        (v.covers entry (hkept.subset hold))
    · obtain rfl := List.mem_singleton.mp hadded
      exact MessageDedupeWindow.classify_push_self hfresh hroom
  · refine (v.locals.sublist hkept).concat fun hentry => ?_
    obtain ⟨hsender, hsequence, hlater⟩ := hlocal (by simpa [TimelineEntry.isLocal] using hentry)
    refine ⟨hsender, ?_, fun other hother => hlater other (hkept.subset hother)⟩
    rw [TimelineEntry.sequence, hsequence]
    exact le_refl _

theorem exists_received {inserted : Timeline.Inserted} {ledger : MessageDedupeWindow}
    (hinsert : v.timeline.insertReceived post = .ok inserted)
    (hnew : v.ledger.classify post.messageId (postBytes post) = .new)
    (hledger : v.ledger.remember post (postBytes post)
      (inserted.timeline.entries.map TimelineEntry.messageId) = .ok ledger) :
    ∃ v' : Committed, Commit (.received post) v v' ∧ v'.settings = v.settings ∧
      v'.timeline = inserted.timeline ∧ v'.ledger = ledger := by
  obtain ⟨v', hsettings, htimeline, rfl⟩ := exists_inserts hinsert hnew hledger (by simp)
  exact ⟨v', .received ⟨hsettings, hnew, ⟨inserted, hinsert, htimeline⟩, htimeline ▸ hledger⟩,
    hsettings, htimeline, rfl⟩

theorem exists_composed {inserted : Timeline.Inserted} {ledger : MessageDedupeWindow}
    (hinsert : v.timeline.insertLocal post = .ok inserted)
    (hnew : v.ledger.classify post.messageId (postBytes post) = .new)
    (hledger : v.ledger.remember post (postBytes post)
      (inserted.timeline.entries.map TimelineEntry.messageId) = .ok ledger)
    (hsender : post.senderId = v.settings.installId)
    (hsequence : post.senderSequence = v.settings.senderSequenceHighWatermark)
    (hlater : ∀ entry ∈ v.timeline.entries, entry.isLocal →
      entry.sequence < post.senderSequence.toNat) :
    ∃ v' : Committed, Commit (.composed post) v v' ∧ v'.settings = v.settings ∧
      v'.timeline = inserted.timeline ∧ v'.ledger = ledger := by
  obtain ⟨v', hsettings, htimeline, rfl⟩ :=
    exists_inserts hinsert hnew hledger (fun _ => ⟨hsender, hsequence, hlater⟩)
  exact ⟨v', .composed hsequence ⟨hsettings, hnew, ⟨inserted, hinsert, htimeline⟩,
    htimeline ▸ hledger⟩, hsettings, htimeline, rfl⟩

/-- Changing the state of local entries keeps what the checks look at. -/
theorem LocalsValid.map {identity : Identity} {entries : List TimelineEntry}
    {change : TimelineEntry → TimelineEntry} (h : LocalsValid identity entries)
    (hpost : ∀ entry ∈ entries, (change entry).post = entry.post)
    (hlocal : ∀ entry ∈ entries, (change entry).isLocal = entry.isLocal) :
    LocalsValid identity (entries.map change) where
  sender := by
    rw [List.forall_mem_map]
    intro entry hentry
    rw [hpost entry hentry, hlocal entry hentry]
    exact h.sender entry hentry
  issued := by
    rw [List.forall_mem_map]
    intro entry hentry
    rw [TimelineEntry.sequence, hpost entry hentry, hlocal entry hentry]
    exact h.issued entry hentry
  growing := by
    have hfilter : (entries.map change).filter TimelineEntry.isLocal =
        (entries.filter TimelineEntry.isLocal).map change := by
      rw [List.filter_map]
      exact congrArg _ (List.filter_congr hlocal)
    rw [hfilter, List.pairwise_map]
    refine h.growing.imp_of_mem ?_
    intro left right hleft hright hlt
    rw [TimelineEntry.sequence, TimelineEntry.sequence, hpost left (List.mem_filter.mp hleft).1,
      hpost right (List.mem_filter.mp hright).1]
    exact hlt

theorem Covers.map {window : MessageDedupeWindow} {entries : List TimelineEntry}
    {change : TimelineEntry → TimelineEntry} (h : Covers window entries)
    (hpost : ∀ entry ∈ entries, (change entry).post = entry.post) :
    Covers window (entries.map change) := by
  unfold Covers
  rw [List.forall_mem_map]
  intro entry hentry
  rw [TimelineEntry.messageId, hpost entry hentry]
  exact h entry hentry

/-- What a transition does to the entries: nothing, or one state changes. -/
theorem transition_entries {timeline changed : Timeline} {messageId : MessageId}
    {target : LocalDeliveryState} (h : timeline.transition messageId target = .ok changed) :
    changed.capacity = timeline.capacity ∧
    changed.lastAssignedOrder = timeline.lastAssignedOrder ∧
    ∃ change : TimelineEntry → TimelineEntry, changed.entries = timeline.entries.map change ∧
      (∀ entry ∈ timeline.entries, (change entry).post = entry.post) ∧
      (∀ entry ∈ timeline.entries, (change entry).isLocal = entry.isLocal) ∧
      ∀ entry ∈ timeline.entries, change entry = entry ∨
        (entry.messageId = messageId ∧ entry.isQueued ∧
          (change entry).origin = .localDelivery target) := by
  obtain ⟨entry, hentry, hid, ⟨-, rfl⟩ | ⟨horigin, htarget, rfl⟩⟩ := Timeline.transition_eq_ok h
  · exact ⟨rfl, rfl, id, by simp, by simp, by simp, by simp⟩
  refine ⟨rfl, rfl, _, rfl, ?_, ?_, ?_⟩
  · intro other _
    split <;> rfl
  · intro other hother
    -- No other entry has this id, and the one that has it is local.
    by_cases hsame : other.messageId = messageId
    · have hfound := Timeline.find_of_mem hother
      rw [hsame, ← hid, Timeline.find_of_mem hentry] at hfound
      obtain rfl := Option.some.inj hfound
      simp [hsame, TimelineEntry.isLocal, horigin]
    · simp [hsame]
  · intro other hother
    by_cases hsame : other.messageId = messageId
    · have hfound := Timeline.find_of_mem hother
      rw [hsame, ← hid, Timeline.find_of_mem hentry] at hfound
      obtain rfl := Option.some.inj hfound
      exact .inr ⟨hsame, by simp [TimelineEntry.isQueued, horigin], by simp [hsame]⟩
    · exact .inl (by simp [hsame])

theorem exists_delivered {messageId : MessageId} {target : LocalDeliveryState} {changed : Timeline}
    (h : v.timeline.transition messageId target = .ok changed) :
    ∃ v' : Committed, Commit (.delivered messageId target) v v' ∧ v'.settings = v.settings ∧
      v'.timeline = changed ∧ v'.ledger = v.ledger := by
  obtain ⟨hcapacity, -, change, hentries, hpost, hlocal, -⟩ := transition_entries h
  refine ⟨{ settings := v.settings
            timeline := changed
            ledger := v.ledger
            timeline_capacity := hcapacity.trans v.timeline_capacity
            ledger_capacity := v.ledger_capacity
            covers := hentries ▸ v.covers.map hpost
            locals := hentries ▸ v.locals.map hpost hlocal
            launched := v.launched }, .delivered rfl rfl h, rfl, rfl, rfl⟩

end Exists

/-! ### Changes of the disk -/

/-- Why the disk changes. -/
inductive Cause where
  | start
  | commit (change : Change)
  | erase

/-- The settings of a first launch. -/
def firstSettings (installId : InstallId) (userId : UserId) : SettingsRecord where
  generation := 1
  installId := installId
  userId := userId
  senderSequenceHighWatermark := 0
  locale := .english
  historyInitialized := false
  skipTitle := false

inductive DiskStep : Cause → Disk → Disk → Prop where
  | launch (installId : InstallId) (userId : UserId) :
      DiskStep .start ⟨.missing, .missing⟩ ⟨.stored (firstSettings installId userId), .missing⟩
  | create {settings : SettingsRecord} {file : HistoryFile} (h : file = .damaged ∨ file = .blank) :
      DiskStep .start ⟨.stored settings, .missing⟩ ⟨.stored settings, file⟩
  | bind {settings : SettingsRecord} :
      DiskStep .start ⟨.stored settings, .blank⟩
        ⟨.stored settings, .stored ⟨settings.installId.uuid, true, {}⟩⟩
  | finalize {settings : SettingsRecord} {file : HistoryFile} :
      DiskStep .start ⟨.stored settings, file⟩
        ⟨.stored { settings with
          generation := settings.generation + 1
          historyInitialized := true },
          file⟩
  | seed {settings : SettingsRecord} {stored : StoredHistory} {snapshot seeded : HistorySnapshot}
      (hread : stored.readSnapshot (identityFrom settings) = .ok snapshot)
      (hpending : stored.dedupeInitialized = false)
      (hseeded : reconcileSnapshotDedupe snapshot = .ok seeded) :
      DiskStep .start ⟨.stored settings, .stored stored⟩
        ⟨.stored settings, .stored ⟨settings.installId.uuid, true, seeded⟩⟩
  | retire {settings : SettingsRecord} {installId : Uuid} {snapshot : HistorySnapshot} :
      DiskStep .start ⟨.stored settings, .stored ⟨installId, true, snapshot⟩⟩
        ⟨.stored settings, .stored ⟨installId, true,
          { snapshot with entries := snapshot.entries.map Session.retire }⟩⟩
  | commit {change : Change} {v v' : Committed} (h : Commit change v v') :
      DiskStep (.commit change) v.disk v'.disk
  | eraseSettings {settings : SettingsFile} {file : HistoryFile} :
      DiskStep .erase ⟨settings, file⟩ ⟨.missing, file⟩
  | eraseHistory {file file' : HistoryFile} (h : file' = .damaged ∨ file' = .missing) :
      DiskStep .erase ⟨.missing, file⟩ ⟨.missing, file'⟩

/-- Any number of changes for the given causes. -/
def Reaches (allowed : Cause → Prop) : Disk → Disk → Prop :=
  Relation.ReflTransGen fun d d' => ∃ cause, allowed cause ∧ DiskStep cause d d'

namespace Disk

/-- The sequence up to which the settings have given out sequences. -/
def watermark (disk : Disk) : ℕ :=
  match disk.settings with
  | .stored settings => settings.senderSequenceHighWatermark.toNat
  | _ => 0

def entries (disk : Disk) : List TimelineEntry :=
  match disk.history with
  | .stored stored => stored.snapshot.entries
  | _ => []

/-- Every local post of the history has a sequence that was given out. -/
def Covered (disk : Disk) : Prop :=
  ∀ entry ∈ disk.entries, entry.isLocal → entry.sequence ≤ disk.watermark

/-- Every record of the ledger came with an entry of the timeline, whose orders
have 64 bits. -/
def LedgerBehind (disk : Disk) : Prop :=
  ∀ stored, disk.history = .stored stored →
    stored.snapshot.lastSeenOrder ≤ stored.snapshot.lastAssignedOrder ∧
      stored.snapshot.lastAssignedOrder ≤ kMaximumOrder

end Disk

/-! ### What the changes preserve -/

/-- Where an entry comes from: it was there before, possibly as a queued post
that has changed its state, or the change has put it there. -/
inductive EntryStep (cause : Cause) (entries : List TimelineEntry)
    (entry : TimelineEntry) : Prop where
  | kept (h : entry ∈ entries)
  | settled {before : TimelineEntry} (hbefore : before ∈ entries) (hqueued : before.isQueued)
      (hpost : entry.post = before.post) {target : LocalDeliveryState}
      (horigin : entry.origin = .localDelivery target)
      (hcause : (cause = .start ∧ target = .unknown) ∨
        cause = .commit (.delivered before.messageId target))
  | received (hcause : cause = .commit (.received entry.post))
      (horigin : entry.origin = .receivedOrigin)
  | composed (hcause : cause = .commit (.composed entry.post))
      (horigin : entry.origin = .localDelivery .queued)

theorem Inserts.mem_entries {v v' : Committed} {post : PostPayload} {origin : EntryOrigin}
    {protectedMessageId : Option MessageId}
    (h : Inserts v v' post (v.timeline.insert post origin protectedMessageId))
    {entry : TimelineEntry} (hentry : entry ∈ v'.timeline.entries) :
    entry ∈ v.timeline.entries ∨ (entry.post = post ∧ entry.origin = origin) := by
  obtain ⟨inserted, hinsert, htimeline⟩ := h.timeline
  obtain ⟨_, _, _, rfl⟩ := Timeline.insert_eq_ok.mp hinsert
  rw [htimeline] at hentry
  rcases List.mem_append.mp hentry with hold | hnew
  · exact .inl (Timeline.evict_sublist.subset hold)
  · obtain rfl := List.mem_singleton.mp hnew
    exact .inr ⟨rfl, rfl⟩

/-- The post just inserted is found under its id. -/
theorem Inserts.find {v v' : Committed} {post : PostPayload} {origin : EntryOrigin}
    {protectedMessageId : Option MessageId}
    (h : Inserts v v' post (v.timeline.insert post origin protectedMessageId)) :
    ∃ entry, v'.timeline.find post.messageId = some entry ∧ entry.post = post := by
  obtain ⟨inserted, hinsert, htimeline⟩ := h.timeline
  obtain ⟨_, _, _, rfl⟩ := Timeline.insert_eq_ok.mp hinsert
  let entry : TimelineEntry := ⟨post, v.timeline.lastAssignedOrder + 1, origin⟩
  have hentry : entry ∈ v'.timeline.entries := by
    rw [htimeline]
    exact List.mem_append_right _ (List.mem_singleton_self _)
  exact ⟨entry, Timeline.find_of_mem hentry, rfl⟩

theorem Commit.mem_entries {change : Change} {v v' : Committed} (h : Commit change v v')
    {entry : TimelineEntry} (hentry : entry ∈ v'.timeline.entries) :
    EntryStep (.commit change) v.timeline.entries entry := by
  cases h with
  | settings _ _ htimeline _ => exact .kept (htimeline ▸ hentry)
  | sequence _ _ htimeline _ => exact .kept (htimeline ▸ hentry)
  | received h =>
    rcases h.mem_entries hentry with hold | ⟨rfl, horigin⟩
    · exact .kept hold
    · exact .received rfl horigin
  | composed _ h =>
    rcases h.mem_entries hentry with hold | ⟨rfl, horigin⟩
    · exact .kept hold
    · exact .composed rfl horigin
  | delivered _ _ htimeline =>
    obtain ⟨-, -, state, hentries, hpost, -, hcases⟩ := transition_entries htimeline
    rw [hentries] at hentry
    obtain ⟨before, hbefore, rfl⟩ := List.mem_map.mp hentry
    rcases hcases before hbefore with hsame | ⟨rfl, hqueued, horigin⟩
    · exact .kept (hsame.symm ▸ hbefore)
    · exact .settled hbefore hqueued (hpost before hbefore) horigin (.inr rfl)

theorem Inserts.orders {v v' : Committed} {post : PostPayload} {origin : EntryOrigin}
    {protectedMessageId : Option MessageId}
    (h : Inserts v v' post (v.timeline.insert post origin protectedMessageId)) :
    v'.timeline.lastAssignedOrder = v.timeline.lastAssignedOrder + 1 ∧
      v'.ledger.lastSeenOrder = v.ledger.lastSeenOrder + 1 ∧
      v.timeline.lastAssignedOrder ≠ kMaximumOrder := by
  obtain ⟨inserted, hinsert, htimeline⟩ := h.timeline
  obtain ⟨_, _, havailable, rfl⟩ := Timeline.insert_eq_ok.mp hinsert
  obtain ⟨_, _, hledger⟩ := remember_cases h.new h.ledger
  refine ⟨htimeline ▸ rfl, hledger ▸ rfl, fun hlast => ?_⟩
  simp [Timeline.insertionAvailability, hlast] at havailable

/-- No order turns back, and the ledger changes only under a new order. -/
theorem Commit.orders_le {change : Change} {v v' : Committed} (h : Commit change v v') :
    v.timeline.lastAssignedOrder ≤ v'.timeline.lastAssignedOrder ∧
      (v.ledger.lastSeenOrder < v'.ledger.lastSeenOrder ∨ v'.ledger = v.ledger) := by
  cases h with
  | settings _ _ htimeline hledger => exact ⟨le_of_eq (htimeline ▸ rfl), .inr hledger⟩
  | sequence _ _ htimeline hledger => exact ⟨le_of_eq (htimeline ▸ rfl), .inr hledger⟩
  | received h =>
    obtain ⟨hassigned, hseen, -⟩ := h.orders
    exact ⟨by omega, .inl (by omega)⟩
  | composed _ h =>
    obtain ⟨hassigned, hseen, -⟩ := h.orders
    exact ⟨by omega, .inl (by omega)⟩
  | delivered _ hledger htimeline =>
    exact ⟨le_of_eq (transition_entries htimeline).2.1.symm, .inr hledger⟩

namespace DiskStep

variable {cause : Cause} {d d' : Disk}

theorem watermark_le (h : DiskStep cause d d') (hcause : cause ≠ .erase) :
    d.watermark ≤ d'.watermark := by
  cases h with
  | launch => exact Nat.zero_le _
  | create => exact le_refl _
  | bind => exact le_refl _
  | finalize => exact le_refl _
  | seed => exact le_refl _
  | retire => exact le_refl _
  | eraseSettings => exact absurd rfl hcause
  | eraseHistory => exact le_refl _
  | commit h =>
    simp only [Disk.watermark, Committed.disk]
    cases h with
    | settings _ hwatermark => rw [hwatermark]
    | sequence _ hwatermark =>
      rw [Identity.nextSenderSequence_eq_some hwatermark]
      exact Nat.le_succ _
    | received h => rw [h.settings]
    | composed _ h => rw [h.settings]
    | delivered hsettings => rw [hsettings]

theorem mem_entries (h : DiskStep cause d d') {entry : TimelineEntry}
    (hentry : entry ∈ d'.entries) :
    EntryStep cause d.entries entry := by
  cases h with
  | launch => cases hentry
  | create h => rcases h with rfl | rfl <;> cases hentry
  | bind => cases hentry
  | finalize => exact .kept hentry
  | @seed settings stored snapshot seeded hread _ hseeded =>
    obtain ⟨rfl, -⟩ := StoredHistory.readSnapshot_eq_ok hread
    have hmem : entry ∈ seeded.entries := hentry
    rw [(reconcile_eq_ok hseeded).1] at hmem
    exact .kept hmem
  | retire =>
    obtain ⟨before, hbefore, rfl⟩ := List.mem_map.mp hentry
    by_cases hqueued : before.isQueued
    · exact .settled hbefore hqueued (by simp [Session.retire, hqueued])
        (by simp [Session.retire, hqueued]) (.inl ⟨rfl, rfl⟩)
    · rw [Session.retire, if_neg hqueued]
      exact .kept hbefore
  | commit h => exact h.mem_entries hentry
  | eraseSettings => exact .kept hentry
  | eraseHistory h => rcases h with rfl | rfl <;> cases hentry

theorem ledgerBehind (h : DiskStep cause d d') (hd : d.LedgerBehind) : d'.LedgerBehind := by
  intro stored hstored
  cases h with
  | launch => cases hstored
  | create h => rcases h with rfl | rfl <;> cases hstored
  | bind =>
    cases hstored
    exact ⟨le_refl _, Nat.zero_le _⟩
  | finalize => exact hd stored hstored
  | @seed settings stored snapshot seeded hread hpending hseeded =>
    cases hstored
    have hbound := (hd _ rfl).2
    change seeded.lastSeenOrder ≤ seeded.lastAssignedOrder ∧
      seeded.lastAssignedOrder ≤ kMaximumOrder
    obtain ⟨rfl, h⟩ := StoredHistory.readSnapshot_eq_ok hread
    rw [if_neg (by simp [hpending])] at h
    obtain ⟨⟨-, hzero⟩, other, hother, window, hvalid⟩ := h
    obtain rfl : other = seeded := Except.ok.inj (hother.symm.trans hseeded)
    -- The seeded ledger has at most one record for each entry.
    obtain ⟨hentries, hassigned, hseen⟩ := reconcile_eq_ok hseeded
    have hlength := hvalid.stamped.length_le
    rw [hentries] at hlength
    omega
  | @retire settings installId snapshot =>
    cases hstored
    exact hd ⟨installId, true, snapshot⟩ rfl
  | @commit change v v' h =>
    cases hstored
    have hbehind : v.ledger.lastSeenOrder ≤ v.timeline.lastAssignedOrder ∧
        v.timeline.lastAssignedOrder ≤ kMaximumOrder := hd _ rfl
    change v'.ledger.lastSeenOrder ≤ v'.timeline.lastAssignedOrder ∧
      v'.timeline.lastAssignedOrder ≤ kMaximumOrder
    cases h with
    | settings _ _ htimeline hledger => rwa [htimeline, hledger]
    | sequence _ _ htimeline hledger => rwa [htimeline, hledger]
    | received h =>
      obtain ⟨hassigned, hseen, hlast⟩ := h.orders
      omega
    | composed _ h =>
      obtain ⟨hassigned, hseen, hlast⟩ := h.orders
      omega
    | delivered _ hledger htimeline =>
      rw [hledger, (transition_entries htimeline).2.1]
      exact hbehind
  | eraseSettings => exact hd stored hstored
  | eraseHistory h => rcases h with rfl | rfl <;> cases hstored

end DiskStep

theorem Committed.covered (v : Committed) : v.disk.Covered :=
  fun entry hentry hlocal => v.locals.issued entry hentry hlocal

theorem DiskStep.covered {cause : Cause} {d d' : Disk} (h : DiskStep cause d d')
    (hcause : cause ≠ .erase) (hd : d.Covered) : d'.Covered := by
  intro entry hentry hlocal
  have hwatermark := h.watermark_le hcause
  rcases h.mem_entries hentry with
    hkept | @⟨before, hbefore, hqueued, hpost, target, -, -⟩ | ⟨hreceived, horigin⟩ |
    ⟨hcomposed, -⟩
  · exact le_trans (hd entry hkept hlocal) hwatermark
  · rw [TimelineEntry.sequence, hpost]
    exact le_trans (hd before hbefore (isLocal_of_isQueued hqueued)) hwatermark
  · simp [TimelineEntry.isLocal, horigin] at hlocal
  · subst hcomposed
    cases h with
    | @commit _ _ v' _ => exact v'.covered entry hentry hlocal

namespace Reaches

variable {allowed : Cause → Prop} {d d' : Disk}

theorem refl : Reaches allowed d d := Relation.ReflTransGen.refl

theorem trans {d'' : Disk} (h : Reaches allowed d d') (h' : Reaches allowed d' d'') :
    Reaches allowed d d'' := Relation.ReflTransGen.trans h h'

theorem step {cause : Cause} {d'' : Disk} (h : Reaches allowed d d') (hcause : allowed cause)
    (hstep : DiskStep cause d' d'') : Reaches allowed d d'' := h.tail ⟨cause, hcause, hstep⟩

theorem mono {allowed' : Cause → Prop} (h : Reaches allowed d d')
    (hallowed : ∀ cause, allowed cause → allowed' cause) : Reaches allowed' d d' := by
  induction h with
  | refl => exact refl
  | tail _ hlast ih =>
    obtain ⟨cause, hcause, hlast⟩ := hlast
    exact ih.step (hallowed cause hcause) hlast

/-- What every allowed change preserves, every sequence of them does. -/
theorem keeps {inv : Disk → Prop} (h : Reaches allowed d d')
    (hstep : ∀ cause d d', allowed cause → DiskStep cause d d' → inv d → inv d') (hd : inv d) :
    inv d' := by
  induction h with
  | refl => exact hd
  | tail _ hlast ih =>
    obtain ⟨cause, hcause, hlast⟩ := hlast
    exact hstep cause _ _ hcause hlast ih

theorem ledgerBehind (h : Reaches allowed d d') (hd : d.LedgerBehind) : d'.LedgerBehind :=
  h.keeps (fun _ _ _ _ hstep => hstep.ledgerBehind) hd

section NoErase

variable (herase : ¬allowed .erase)
include herase

theorem watermark_le (h : Reaches allowed d d') : d.watermark ≤ d'.watermark := by
  have hkeeps : ∀ cause e e', allowed cause → DiskStep cause e e' →
      d.watermark ≤ e.watermark → d.watermark ≤ e'.watermark := by
    intro cause e e' hcause hstep hle
    exact le_trans hle (hstep.watermark_le (fun heq => herase (heq ▸ hcause)))
  exact h.keeps hkeeps (le_refl _)

theorem covered (h : Reaches allowed d d') (hd : d.Covered) : d'.Covered :=
  h.keeps (fun _ _ _ hcause hstep => hstep.covered (fun heq => herase (heq ▸ hcause))) hd

end NoErase

end Reaches

end Lora
