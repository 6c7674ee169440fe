/-
What a command does.

Every command of the session, whatever happens on the way, changes the disk
only by steps of `DiskStep` that belong to the command, and if the session is
in service afterwards, memory and disk agree again.  A session that is not in
service does not touch the disk, unless it deletes it.

* `Shows` — the memory of a session holds a committed state;
* `wp_persistIdentity`, `wp_persistTimeline` — the two saves;
* `wp_compose`, `wp_acceptReceivedPost`, … — the commands.
-/
import LoraMessenger.Durable

namespace Lora

open Crash

/-- Both stores are at hand. -/
def Session.Open (session : Session) : Prop :=
  session.historyOpen = true ∧ session.settingsStore = true

/-- The memory of a session holds a committed state, and the session can save
another one until it is closed. -/
structure Shows (session : Session) (v : Committed) : Prop where
  stores : session.closed = true ∨ session.Open
  settings : session.settings = some v.settings
  identity : session.messenger.identity = some (identityFrom v.settings)
  timeline : session.messenger.timeline = v.timeline
  dedupe : session.dedupe = v.ledger

/-- The memory once a committed state is adopted. -/
def Session.adopt (session : Session) (v : Committed) : Session :=
  { session with
    settings := some v.settings
    messenger := ⟨some (identityFrom v.settings), v.timeline⟩
    dedupe := v.ledger }

theorem Shows.adopt {session : Session} {v : Committed} (h : Shows session v) (v' : Committed) :
    Shows (session.adopt v') v' :=
  ⟨h.stores, rfl, rfl, rfl, rfl⟩

theorem Shows.adopt_eq {session : Session} {v : Committed} (h : Shows session v) :
    session.adopt v = session := by
  rw [Session.adopt, ← h.settings, ← h.identity, ← h.timeline, ← h.dedupe]

theorem Shows.adopt_timeline {session : Session} {v v' : Committed} (h : Shows session v)
    (hsettings : v'.settings = v.settings) : session.adopt v' =
      { session with
        messenger := { session.messenger with timeline := v'.timeline }
        dedupe := v'.ledger } := by
  rw [Session.adopt, hsettings, ← h.settings, ← h.identity]

/-- In service, memory and disk agree. -/
def Agrees (session : Session) (disk : Disk) : Prop :=
  session.status = .ready → ∃ v, Shows session v ∧ disk = v.disk

/-- What a program leaves behind when it returns. -/
def Settled (allowed : Cause → Prop) (disk : Disk) (m : Machine Session Disk) : Prop :=
  Reaches allowed disk m.durable ∧ Agrees m.memory m.durable

variable {m : Machine Session Disk} {crash : Disk → Prop}

/-! ### The ledger of a new timeline -/

section Remember

variable {timeline : Timeline} {ids : List MessageId} {window : MessageDedupeWindow}

/-- Entries that the timeline and the ledger know are passed over. -/
theorem rememberEntries_known {known rest : List TimelineEntry} (hcovers : Covers window known)
    (hfound : ∀ entry ∈ known, (timeline.find entry.messageId).isSome) :
    Session.rememberEntries timeline ids window (known ++ rest) =
      Session.rememberEntries timeline ids window rest := by
  induction known with
  | nil => rfl
  | cons entry known ih =>
    obtain ⟨hentry, hcovers⟩ := covers_cons.mp hcovers
    obtain ⟨hfind, hfound⟩ := List.forall_mem_cons.mp hfound
    have hfind : (timeline.find entry.messageId).isNone = false := by simpa using hfind
    rw [List.cons_append, Session.rememberEntries]
    simp only [encodePost_eq, hentry, hfind, Bool.false_eq_true, if_false]
    exact ih hcovers hfound

theorem find_isSome {entry : TimelineEntry} (hentry : entry ∈ timeline.entries) :
    (timeline.find entry.messageId).isSome := by
  rw [Timeline.find_of_mem hentry]
  rfl

variable {v : Committed}

/-- A transition adds nothing to the ledger. -/
theorem rememberEntries_transition {messageId : MessageId} {target : LocalDeliveryState}
    {changed : Timeline} (h : v.timeline.transition messageId target = .ok changed) :
    Session.rememberEntries v.timeline ids v.ledger changed.entries = .ok v.ledger := by
  obtain ⟨-, -, change, hentries, hpost, -, -⟩ := transition_entries h
  have hfound : ∀ entry ∈ v.timeline.entries.map change,
      (v.timeline.find entry.messageId).isSome := by
    rw [List.forall_mem_map]
    intro entry hentry
    rw [TimelineEntry.messageId, hpost entry hentry]
    exact find_isSome hentry
  rw [hentries, ← List.append_nil (v.timeline.entries.map change),
    rememberEntries_known (v.covers.map hpost) hfound]
  rfl

/-- After an insertion, all depends on what the ledger says of the new post. -/
theorem rememberEntries_insert {post : PostPayload} {origin : EntryOrigin}
    {protectedMessageId : Option MessageId} {inserted : Timeline.Inserted}
    (h : v.timeline.insert post origin protectedMessageId = .ok inserted) :
    Session.rememberEntries v.timeline ids v.ledger inserted.timeline.entries =
      match v.ledger.classify post.messageId (postBytes post) with
      | .duplicate => .error .alreadySeen
      | .conflict => .error .inconsistent
      | .invalid => .error .inconsistent
      | .new =>
        match v.ledger.remember post (postBytes post) ids with
        | .error _ => .error .inconsistent
        | .ok remembered => .ok remembered := by
  obtain ⟨hnew, _, _, rfl⟩ := Timeline.insert_eq_ok.mp h
  have hkept : (v.timeline.evict protectedMessageId).Sublist v.timeline.entries :=
    Timeline.evict_sublist
  simp only [Timeline.push]
  rw [rememberEntries_known (fun entry hentry => v.covers entry (hkept.subset hentry))
    (fun entry hentry => find_isSome (hkept.subset hentry))]
  rcases hclass : v.ledger.classify post.messageId (postBytes post) with _ | _ | _ | _
  · rcases hremember : v.ledger.remember post (postBytes post) ids with error | remembered
    all_goals
      simp [Session.rememberEntries, TimelineEntry.messageId, encodePost_eq, hclass, hremember]
  all_goals
    simp [Session.rememberEntries, TimelineEntry.messageId, encodePost_eq, hclass, hnew]

end Remember

/-! ### The two saves -/

/-- New settings are adopted, or not with a known outcome, or the outcome is
open and the session leaves service. -/
theorem wp_adoptSettings {v : Committed} (v' : Committed) (hdisk : m.durable = v.disk)
    (hinstall : v'.settings.installId = v.settings.installId)
    (htimeline : v'.timeline = v.timeline) (hledger : v'.ledger = v.ledger)
    (hgeneration : v'.settings.generation ≠ 0) {post : Bool → Machine Session Disk → Prop}
    (hdone : ∀ rest, (m.faults = [] → rest = []) → post true
      { memory := { m.memory with settings := some v'.settings }
        durable := v'.disk
        faults := rest })
    (hkept : ∀ rest, m.faults ≠ [] → post false { m with faults := rest })
    (hlost : ∀ disk rest, m.faults ≠ [] → (disk = v.disk ∨ disk = v'.disk) → post false
      { memory := { m.memory with status := .recoveryRequired }, durable := disk, faults := rest })
    (hcrash : ∀ disk, m.faults ≠ [] → (disk = v.disk ∨ disk = v'.disk) → crash disk) :
    wp (Session.adoptSettings v'.settings) post crash m := by
  have hsaved : { m.durable with settings := .stored v'.settings } = v'.disk := by
    simp only [hdisk, Committed.disk, Committed.snapshot, hinstall, htimeline, hledger]
  unfold Session.adoptSettings
  rw [wp_bind]
  refine wp_saveSettings hgeneration ?_ ?_ ?_
  · intro rest hrest
    rw [hsaved]
    exact hdone rest hrest
  · rintro ⟨error, finalReplaced⟩ disk rest hfaults hor
    rw [hsaved] at hor
    rcases finalReplaced with _ | _
    · obtain rfl : disk = m.durable := by simpa using hor
      exact hkept rest hfaults
    · rw [hdisk] at hor
      exact hlost disk rest hfaults (by simpa using hor)
  · intro disk hfaults hor
    rw [hsaved, hdisk] at hor
    exact hcrash disk hfaults hor

/-- The settings that `persist_identity` saves. -/
def settingsWith (settings : SettingsRecord) (identity : Identity) : SettingsRecord where
  generation := settings.generation + 1
  installId := identity.installId
  userId := identity.userId
  senderSequenceHighWatermark := identity.lastIssuedSenderSequence
  locale := settings.locale
  historyInitialized := settings.historyInitialized
  skipTitle := settings.skipTitle

theorem wp_persistIdentity {v : Committed} (v' : Committed) {identity : Identity}
    (hsettings : m.memory.settings = some v.settings) (hdisk : m.durable = v.disk)
    (hsettings' : v'.settings = settingsWith v.settings identity)
    (hinstall : identity.installId = v.settings.installId)
    (htimeline : v'.timeline = v.timeline) (hledger : v'.ledger = v.ledger)
    {post : Bool → Machine Session Disk → Prop}
    (hrefused : m.memory.mayAdopt v.settings = false → post false m)
    (hdone : ∀ rest, (m.faults = [] → rest = []) → m.memory.mayAdopt v.settings → post true
      { memory := { m.memory with settings := some v'.settings }
        durable := v'.disk
        faults := rest })
    (hkept : ∀ rest, m.faults ≠ [] → post false { m with faults := rest })
    (hlost : ∀ disk rest, m.faults ≠ [] → (disk = v.disk ∨ disk = v'.disk) → post false
      { memory := { m.memory with status := .recoveryRequired }, durable := disk, faults := rest })
    (hcrash : ∀ disk, m.faults ≠ [] → (disk = v.disk ∨ disk = v'.disk) → crash disk) :
    wp (Session.persistIdentity identity) post crash m := by
  unfold Session.persistIdentity
  simp only [wp_bind, wp_memory, hsettings]
  by_cases hadopt : m.memory.mayAdopt v.settings
  · rw [if_pos hadopt]
    have hsame : v'.settings.installId = v.settings.installId := by rw [hsettings', ← hinstall]; rfl
    have hgeneration : v'.settings.generation ≠ 0 := by rw [hsettings']; exact Nat.succ_ne_zero _
    have hadopted := wp_adoptSettings v' hdisk hsame htimeline hledger hgeneration
      (fun rest hrest => hdone rest hrest hadopt) hkept hlost hcrash
    rw [hsettings'] at hadopted
    exact hadopted
  · rw [if_neg hadopt, wp_pure]
    exact hrefused (by simpa using hadopt)

/-- The session may save a timeline. -/
def Session.mayPersist (session : Session) : Prop :=
  session.status = .ready ∧ session.closed = false ∧ session.historyOpen = true

theorem persistTimeline_idle {timeline : Timeline} (h : ¬m.memory.mayPersist) :
    Session.persistTimeline timeline m = .done false m := by
  have hguard : m.memory.status ≠ .ready ∨ m.memory.closed ∨ !m.memory.historyOpen := by
    simp only [Session.mayPersist, not_and_or] at h
    rcases h with h | h | h
    · exact .inl h
    · exact .inr (.inl (by simpa using h))
    · exact .inr (.inr (by simpa using h))
  simp only [Session.persistTimeline, bind, Prog.memory]
  rcases m.memory.settings with _ | settings
  · rfl
  · dsimp only
    rw [if_pos hguard]
    rfl

section Refused

variable {v : Committed} {timeline : Timeline} (hmay : m.memory.mayPersist)
  (hshown : m.memory.settings = some v.settings ∧ m.memory.messenger.timeline = v.timeline ∧
    m.memory.dedupe = v.ledger)
include hmay hshown

theorem wp_persistTimeline_alreadySeen (h : Session.rememberEntries v.timeline
      (timeline.entries.map TimelineEntry.messageId) v.ledger timeline.entries =
        .error .alreadySeen) {post : Bool → Machine Session Disk → Prop} (hpost : post false m) :
    wp (Session.persistTimeline timeline) post crash m := by
  unfold Session.persistTimeline
  simp only [wp_bind, wp_memory, hshown.1, hshown.2.1, hshown.2.2]
  rw [if_neg (by simp [hmay.1, hmay.2.1, hmay.2.2]), h]
  exact hpost

theorem wp_persistTimeline_inconsistent (h : Session.rememberEntries v.timeline
      (timeline.entries.map TimelineEntry.messageId) v.ledger timeline.entries =
        .error .inconsistent) {post : Bool → Machine Session Disk → Prop}
    (hpost : post false { m with memory := { m.memory with status := .recoveryRequired } }) :
    wp (Session.persistTimeline timeline) post crash m := by
  unfold Session.persistTimeline
  simp only [wp_bind, wp_memory, hshown.1, hshown.2.1, hshown.2.2]
  rw [if_neg (by simp [hmay.1, hmay.2.1, hmay.2.2]), h]
  exact hpost

end Refused

/-- Saving a timeline that makes a committed state together with the ledger
that the loop computes. -/
theorem wp_persistTimeline {v : Committed} (v' : Committed) {timeline : Timeline}
    (hshown : m.memory.settings = some v.settings ∧ m.memory.messenger.timeline = v.timeline ∧
      m.memory.dedupe = v.ledger) (hdisk : m.durable = v.disk)
    (hsettings : v'.settings = v.settings) (htimeline : v'.timeline = timeline)
    (hledger : Session.rememberEntries v.timeline (timeline.entries.map TimelineEntry.messageId)
      v.ledger timeline.entries = .ok v'.ledger)
    (hassigned : v.timeline.lastAssignedOrder ≤ v'.timeline.lastAssignedOrder)
    (hseen : v.ledger.lastSeenOrder < v'.ledger.lastSeenOrder ∨ v'.ledger = v.ledger)
    {post : Bool → Machine Session Disk → Prop}
    (hrefused : ¬m.memory.mayPersist → post false m)
    (hdone : ∀ rest, (m.faults = [] → rest = []) → m.memory.mayPersist → post true
      { memory := { m.memory with dedupe := v'.ledger }, durable := v'.disk, faults := rest })
    (hlost : ∀ disk rest, m.faults ≠ [] → (disk = v.disk ∨ disk = v'.disk) → post false
      { memory := { m.memory with status := .recoveryRequired }, durable := disk, faults := rest })
    (hcrash : ∀ disk, m.faults ≠ [] → (disk = v.disk ∨ disk = v'.disk) → crash disk) :
    wp (Session.persistTimeline timeline) post crash m := by
  by_cases hmay : m.memory.mayPersist
  swap
  · rw [wp, persistTimeline_idle hmay]
    exact hrefused hmay
  obtain ⟨hmemory, hshownTimeline, hshownLedger⟩ := hshown
  unfold Session.persistTimeline
  simp only [wp_bind, wp_memory, hmemory, hshownTimeline, hshownLedger]
  rw [if_neg (by simp [hmay.1, hmay.2.1, hmay.2.2]), hledger, wp_bind]
  -- The snapshot to be saved is the one of the new committed state.
  have hsnapshot : Session.snapshotOf timeline v'.ledger = v'.snapshot := by
    rw [Committed.snapshot, htimeline]
  have hsaved : { m.durable with
      history := .stored ⟨(identityFrom v.settings).installId.uuid, true, v'.snapshot⟩ } =
      v'.disk := by
    rw [hdisk, Committed.disk, Committed.disk, hsettings]
    rfl
  have hvalid : SnapshotValid v'.ledger v'.snapshot (identityFrom v.settings) :=
    hsettings ▸ v'.snapshotValid
  have hadmits : m.durable.history.admits v'.snapshot (identityFrom v.settings) = .none := by
    rw [hdisk]
    refine StoredHistory.admits_eq_none rfl hassigned ?_
    rcases hseen with hlt | hsame
    · exact .inl hlt
    · exact .inr ⟨congrArg MessageDedupeWindow.lastSeenOrder hsame.symm,
        congrArg MessageDedupeWindow.records hsame.symm⟩
  rw [hsnapshot]
  refine wp_saveSnapshot hvalid hadmits ?_ ?_ ?_
  · intro rest hrest
    rw [hsaved]
    exact hdone rest hrest hmay
  · intro error disk rest herror hfaults hor
    rw [hsaved, hdisk] at hor
    rw [if_pos herror]
    exact hlost disk rest hfaults hor
  · intro disk hfaults hor
    rw [hsaved, hdisk] at hor
    exact hcrash disk hfaults hor

/-- Why a post cannot go into the ledger. -/
def Unrememberable (v : Committed) (post : PostPayload) (ids : List MessageId) : Prop :=
  v.ledger.classify post.messageId (postBytes post) = .conflict ∨
    (v.ledger.classify post.messageId (postBytes post) = .new ∧
      ∃ error, v.ledger.remember post (postBytes post) ids = .error error)

/-- Saving a timeline with a new entry. -/
theorem wp_persistInserted {v : Committed} {change : Change} {post : PostPayload}
    {origin : EntryOrigin} {protectedMessageId : Option MessageId} {inserted : Timeline.Inserted}
    (hshown : m.memory.settings = some v.settings ∧ m.memory.messenger.timeline = v.timeline ∧
      m.memory.dedupe = v.ledger) (hdisk : m.durable = v.disk)
    (hinsert : v.timeline.insert post origin protectedMessageId = .ok inserted)
    (hexists : ∀ ledger, v.ledger.classify post.messageId (postBytes post) = .new →
      v.ledger.remember post (postBytes post)
        (inserted.timeline.entries.map TimelineEntry.messageId) = .ok ledger →
      ∃ v' : Committed, Commit change v v' ∧ v'.settings = v.settings ∧
        v'.timeline = inserted.timeline ∧ v'.ledger = ledger)
    {returns : Bool → Machine Session Disk → Prop}
    (hrefused : ¬m.memory.mayPersist ∨
      v.ledger.classify post.messageId (postBytes post) = .duplicate → returns false m)
    (hbroken : Unrememberable v post (inserted.timeline.entries.map TimelineEntry.messageId) →
      returns false { m with memory := { m.memory with status := .recoveryRequired } })
    (hdone : ∀ v' rest, Commit change v v' → v'.settings = v.settings →
      v'.timeline = inserted.timeline → (m.faults = [] → rest = []) → returns true
        { memory := { m.memory with dedupe := v'.ledger }, durable := v'.disk, faults := rest })
    (hlost : ∀ v' disk rest, Commit change v v' → m.faults ≠ [] →
      (disk = v.disk ∨ disk = v'.disk) → returns false
        { memory := { m.memory with status := .recoveryRequired }, durable := disk,
          faults := rest })
    (hcrash : ∀ v' disk, Commit change v v' → m.faults ≠ [] →
      (disk = v.disk ∨ disk = v'.disk) → crash disk) :
    wp (Session.persistTimeline inserted.timeline) returns crash m := by
  by_cases hmay : m.memory.mayPersist
  swap
  · rw [wp, persistTimeline_idle hmay]
    exact hrefused (.inl hmay)
  have hremember : Session.rememberEntries v.timeline
      (inserted.timeline.entries.map TimelineEntry.messageId) v.ledger
        inserted.timeline.entries = _ :=
    rememberEntries_insert hinsert
  rcases hclass : v.ledger.classify post.messageId (postBytes post) with _ | _ | _ | _
  · rcases hledger : v.ledger.remember post (postBytes post)
      (inserted.timeline.entries.map TimelineEntry.messageId) with error | ledger
    · rw [hclass, hledger] at hremember
      exact wp_persistTimeline_inconsistent hmay hshown hremember
        (hbroken (.inr ⟨hclass, error, hledger⟩))
    · obtain ⟨v', hcommit, hsettings, htimeline, rfl⟩ := hexists ledger hclass hledger
      rw [hclass, hledger] at hremember
      obtain ⟨hassigned, hseen⟩ := hcommit.orders_le
      exact wp_persistTimeline v' hshown hdisk hsettings htimeline hremember hassigned hseen
        (fun hnot => absurd hmay hnot)
        (fun rest hrest _ => hdone v' rest hcommit hsettings htimeline hrest)
        (fun disk rest => hlost v' disk rest hcommit) (fun disk => hcrash v' disk hcommit)
  · rw [hclass] at hremember
    exact wp_persistTimeline_alreadySeen hmay hshown hremember (hrefused (.inr hclass))
  · rw [hclass] at hremember
    exact wp_persistTimeline_inconsistent hmay hshown hremember (hbroken (.inl hclass))
  · exact absurd hclass (MessageDedupeWindow.classify_ne_invalid)

/-! ### Commands in service -/

/-- What `compose` has established before it saves anything. -/
theorem stage_eq_ok {messenger : Messenger} {identity : Identity} {draft : PostDraft}
    {random : Option (Vector UInt8 16)} {now : Option Int64} {staged : Messenger.Staged}
    (h : messenger.stage identity draft random now = .ok staged) :
    identity.nextSenderSequence = some staged.post.senderSequence ∧
    staged.identity =
      { identity with lastIssuedSenderSequence := staged.post.senderSequence } ∧
    staged.post.senderId = identity.installId ∧
    MessageId.generate random = .ok staged.post.messageId ∧
    messenger.timeline.find staged.post.messageId = none ∧
    messenger.timeline.insertLocal staged.post = .ok staged.inserted := by
  unfold Messenger.stage at h
  rcases hbody : PostBody.create draft.body with textError | body
  · simp [hbody] at h
  simp only [hbody, Guard.ite_error_eq_ok] at h
  obtain ⟨-, -, -, -, h⟩ := h
  rcases hnext : identity.nextSenderSequence with _ | sequence
  · simp [hnext] at h
  simp only [hnext, Identity.commitSenderSequence_next hnext, Guard.ite_error_eq_ok] at h
  obtain ⟨-, h⟩ := h
  rcases hgenerate : MessageId.generate random with error | messageId
  · simp [hgenerate] at h
  simp only [hgenerate, Guard.ite_error_eq_ok] at h
  obtain ⟨hfind, h⟩ := h
  split at h
  · cases h
  rename_i post hcreate
  split at h
  · cases h
  rename_i inserted hinsert
  cases h
  have hinput := PostPayload.toInput_of_create hcreate
  obtain ⟨hid, hsender, hsequence, -⟩ := PostPayloadInput.mk.inj hinput
  have hid := MessageId.uuid_inj.mp hid
  have hsender := InstallId.uuid_inj.mp hsender
  simp only at hsequence ⊢
  rw [hsequence, hid, hsender]
  exact ⟨rfl, rfl, rfl, rfl, by simpa using hfind, hinsert⟩

theorem stage_error {messenger : Messenger} {identity : Identity} {draft : PostDraft}
    {random : Option (Vector UInt8 16)} {now : Option Int64} {result : CommandResult}
    (h : messenger.stage identity draft random now = .error result) : result.messageId = none := by
  unfold Messenger.stage at h
  repeat' split at h
  all_goals
    cases h
  all_goals
    rfl

/-- Without an order for a new entry, nothing is staged. -/
theorem stage_exhausted {messenger : Messenger}
    (hlast : messenger.timeline.lastAssignedOrder = kMaximumOrder) (identity : Identity)
    (draft : PostDraft) (random : Option (Vector UInt8 16)) (now : Option Int64) :
    ∃ result, messenger.stage identity draft random now = .error result ∧
      result.error ∈ [.invalidBody, .tooManyMentions, .duplicateMention, .replyParentUnavailable,
        .queueFull, .sequenceExhausted, .orderExhausted] := by
  have hunavailable : messenger.timeline.insertionAvailability draft.replyTo = .orderExhausted := by
    rw [Timeline.insertionAvailability, if_pos hlast]
  unfold Messenger.stage
  simp only [hunavailable, ne_eq, reduceCtorEq, not_false_eq_true, if_true, mapAvailability]
  repeat' split
  all_goals exact ⟨_, rfl, by simp⟩

section InService

variable {v v' : Committed} {allowed : Cause → Prop} {rest : List Fault}

theorem agrees_of_shows (h : Shows m.memory v) : Agrees m.memory v.disk := fun _ => ⟨v, h, rfl⟩

theorem agrees_recovery {session : Session} {disk : Disk} :
    Agrees { session with status := .recoveryRequired } disk := by
  intro h
  cases h

theorem reaches_commit {change : Change} (h : Commit change v v')
    (hallowed : allowed (.commit change)) {disk : Disk} (hdisk : disk = v.disk ∨ disk = v'.disk) :
    Reaches allowed v.disk disk := by
  rcases hdisk with rfl | rfl
  · exact .refl
  · exact Reaches.refl.step hallowed (.commit h)

variable (hshows : Shows m.memory v) (hdisk : m.durable = v.disk)
include hshows hdisk

theorem settled_same : Settled allowed v.disk { m with faults := rest } :=
  ⟨hdisk ▸ .refl, hdisk ▸ agrees_of_shows hshows⟩

theorem wp_renameUser (hallowed : allowed (.commit .settings)) (userId : Bytes) :
    wp (Session.renameUser userId) (fun _ m' => Settled allowed v.disk m') (Reaches allowed v.disk)
      m := by
  unfold Session.renameUser
  simp only [wp_bind, wp_memory, hshows.identity]
  rcases UserId.create userId with error | userId
  · exact settled_same hshows hdisk
  simp only [wp_bind]
  let renamed := v.withSettings
    (settingsWith v.settings ((identityFrom v.settings).rename userId)) rfl (le_refl _)
    ⟨Nat.succ_ne_zero _, v.launched.2⟩
  have hcommit : Commit .settings v renamed := .settings rfl rfl rfl rfl
  refine wp_persistIdentity renamed hshows.settings hdisk rfl rfl rfl rfl ?_ ?_ ?_ ?_ ?_
  · exact fun _ => settled_same hshows hdisk
  · intro rest _ _
    exact ⟨reaches_commit hcommit hallowed (.inr rfl),
      fun _ => ⟨renamed, ⟨hshows.stores, rfl, rfl, hshows.timeline, hshows.dedupe⟩, rfl⟩⟩
  · exact fun rest _ => settled_same hshows hdisk
  · intro disk rest _ hor
    exact ⟨reaches_commit hcommit hallowed hor, agrees_recovery⟩
  · intro disk _ hor
    exact reaches_commit hcommit hallowed hor

theorem wp_setPreference (hallowed : allowed (.commit .settings)) (differs : SettingsRecord → Bool)
    (change : SettingsRecord → SettingsRecord)
    (hchange : ∀ settings, (change settings).generation = settings.generation ∧
      (change settings).historyInitialized = settings.historyInitialized ∧
      identityFrom (change settings) = identityFrom settings) :
    wp (Session.setPreference differs change) (fun _ m' => Settled allowed v.disk m')
      (Reaches allowed v.disk) m := by
  unfold Session.setPreference
  simp only [wp_bind, wp_memory, hshows.settings]
  by_cases hadopt : m.memory.mayAdopt v.settings
  swap
  · rw [if_neg hadopt]
    exact settled_same hshows hdisk
  rw [if_pos hadopt]
  by_cases hdiffers : differs v.settings
  swap
  · rw [if_neg hdiffers]
    exact settled_same hshows hdisk
  rw [if_pos hdiffers]
  obtain ⟨hgeneration, hinitialized, hidentity⟩ := hchange
    { v.settings with generation := v.settings.generation + 1 }
  obtain ⟨hinstall, -, hwatermark⟩ := Identity.mk.inj hidentity
  let changed := v.withSettings
    (change { v.settings with generation := v.settings.generation + 1 }) hinstall
    (le_of_eq (congrArg UInt64.toNat hwatermark.symm))
    ⟨hgeneration ▸ Nat.succ_ne_zero _, hinitialized ▸ v.launched.2⟩
  have hcommit : Commit .settings v changed := .settings hinstall hwatermark rfl rfl
  refine wp_adoptSettings changed hdisk hinstall rfl rfl ?_ ?_ ?_ ?_ ?_
  · exact hgeneration ▸ Nat.succ_ne_zero _
  · intro rest _
    refine ⟨reaches_commit hcommit hallowed (.inr rfl),
      fun _ => ⟨changed, ⟨hshows.stores, rfl, ?_, hshows.timeline, hshows.dedupe⟩, rfl⟩⟩
    exact hshows.identity.trans (congrArg some hidentity.symm)
  · exact fun rest _ => settled_same hshows hdisk
  · intro disk rest _ hor
    exact ⟨reaches_commit hcommit hallowed hor, agrees_recovery⟩
  · intro disk _ hor
    exact reaches_commit hcommit hallowed hor

/-- A transition is refused without a trace, or saved; otherwise the session
leaves service. -/
theorem wp_transition {messageId : MessageId} {target : LocalDeliveryState}
    {returns : CommandResult → Machine Session Disk → Prop}
    (hrefused : ∀ error, v.timeline.transition messageId target = .error error →
      returns { error := mapTransitionError error } m)
    (hidle : ¬m.memory.mayPersist → returns { error := .persistenceUnavailable } m)
    (hdone : ∀ v' rest, m.memory.mayPersist → Commit (.delivered messageId target) v v' →
      (m.faults = [] → rest = []) →
      returns {} { memory := m.memory.adopt v', durable := v'.disk, faults := rest })
    (hlost : ∀ v' disk rest, Commit (.delivered messageId target) v v' → m.faults ≠ [] →
      (disk = v.disk ∨ disk = v'.disk) → returns { error := .persistenceUnavailable }
        { memory := { m.memory with status := .recoveryRequired }, durable := disk,
          faults := rest })
    (hcrash : ∀ v' disk, Commit (.delivered messageId target) v v' → m.faults ≠ [] →
      (disk = v.disk ∨ disk = v'.disk) → crash disk) :
    wp (Session.transition messageId target) returns crash m := by
  unfold Session.transition
  simp only [wp_bind, wp_memory, hshows.identity, hshows.timeline]
  rcases hchanged : v.timeline.transition messageId target with error | changed
  · exact hrefused error hchanged
  simp only [wp_bind]
  obtain ⟨v', hcommit, hsettings, rfl, hledger⟩ := exists_delivered hchanged
  refine wp_persistTimeline v' ⟨hshows.settings, hshows.timeline, hshows.dedupe⟩ hdisk hsettings rfl
    ?_ ?_ (.inr hledger) hidle ?_ ?_ ?_
  · rw [rememberEntries_transition hchanged, hledger]
  · exact le_of_eq (transition_entries hchanged).2.1.symm
  · intro rest hrest hmay
    have hreturns := hdone v' rest hmay hcommit hrest
    rw [hshows.adopt_timeline hsettings] at hreturns
    exact hreturns
  · exact fun disk rest => hlost v' disk rest hcommit
  · exact fun disk => hcrash v' disk hcommit

/-- Why a received post is not taken. -/
inductive InboundRefusal (session : Session) (v : Committed) (bytes : Bytes) :
    InboundPostStatus → Prop where
  | notReady (h : ¬session.mayPersist) : InboundRefusal session v bytes .notReady
  | invalid (h : ∀ post, bytes ≠ postBytes post) : InboundRefusal session v bytes .invalid
  | duplicate {post : PostPayload} (hbytes : bytes = postBytes post)
      (h : v.ledger.classify post.messageId bytes = .duplicate) :
      InboundRefusal session v bytes .duplicate
  | conflict {post : PostPayload} (hbytes : bytes = postBytes post)
      (h : v.ledger.classify post.messageId bytes = .conflict) :
      InboundRefusal session v bytes .conflict
  | exhausted {post : PostPayload} (hbytes : bytes = postBytes post)
      (h : v.ledger.classify post.messageId bytes = .new)
      (hlast : v.timeline.lastAssignedOrder = kMaximumOrder) :
      InboundRefusal session v bytes .orderExhausted

/-- A received post is refused without a trace, or inserted; otherwise the
session leaves service. -/
theorem wp_acceptReceivedPost {bytes : Bytes}
    {returns : InboundPostStatus → Machine Session Disk → Prop}
    (hrefused : ∀ status, InboundRefusal m.memory v bytes status → returns status m)
    (hinserted : ∀ post v' rest, bytes = postBytes post → Commit (.received post) v v' →
      (m.faults = [] → rest = []) → returns .accepted
        { memory := m.memory.adopt v', durable := v'.disk, faults := rest })
    (hbroken : ∀ post ids, bytes = postBytes post →
      v.ledger.classify post.messageId (postBytes post) = .new →
      v.timeline.lastAssignedOrder ≠ kMaximumOrder → Unrememberable v post ids →
      ids.length ≤ kMaxTimelineEntries →
      returns .storageUnavailable
        { m with memory := { m.memory with status := .recoveryRequired } })
    (hlost : ∀ post v' disk rest, bytes = postBytes post → Commit (.received post) v v' →
      m.faults ≠ [] → (disk = v.disk ∨ disk = v'.disk) → returns .storageUnavailable
        { memory := { m.memory with status := .recoveryRequired }, durable := disk,
          faults := rest })
    (hcrash : ∀ post v' disk, bytes = postBytes post → Commit (.received post) v v' →
      m.faults ≠ [] → (disk = v.disk ∨ disk = v'.disk) → crash disk) :
    wp (Session.acceptReceivedPost bytes) returns crash m := by
  unfold Session.acceptReceivedPost
  simp only [wp_bind, wp_memory]
  by_cases hmay : m.memory.mayPersist
  swap
  · rw [if_pos (by
      simp only [Session.mayPersist, not_and_or] at hmay
      rcases hmay with h | h | h
      · exact .inl h
      · exact .inr (.inl (by simpa using h))
      · exact .inr (.inr (.inr (by simpa using h))))]
    exact hrefused _ (.notReady hmay)
  rw [if_neg (by simp [hmay.1, hmay.2.1, hmay.2.2, hshows.settings])]
  -- What decodes is the encoding of its post, so it encodes to the same bytes again.
  rcases hdecode : decodePost bytes with error | post
  · refine hrefused _ (.invalid ?_)
    rintro post rfl
    rw [decodePost_postBytes] at hdecode
    cases hdecode
  obtain rfl := postBytes_of_decodePost hdecode
  simp only [encodePost_eq, ne_eq, not_true_eq_false, if_false, hshows.dedupe]
  -- Only a new id goes on to the timeline.
  rcases hclass : v.ledger.classify post.messageId (postBytes post) with _ | _ | _ | _
  · have hfind := v.find_eq_none hclass
    simp only [wp_bind, Session.acceptReceived, wp_memory, hshows.identity, hshows.timeline]
    by_cases hlast : v.timeline.lastAssignedOrder = kMaximumOrder
    · rw [Timeline.insertReceived_exhausted hlast hfind]
      exact hrefused _ (.exhausted rfl hclass hlast)
    -- A received post is never refused for want of room.
    obtain ⟨inserted, hinsert⟩ := Timeline.insertReceived_eq hlast hfind
    rw [hinsert]
    simp only [wp_bind]
    refine wp_persistInserted ⟨hshows.settings, hshows.timeline, hshows.dedupe⟩ hdisk hinsert
      (fun ledger => exists_received hinsert) ?_ ?_ ?_ ?_ ?_
    · rintro (hnot | hdup)
      · exact absurd hmay hnot
      · rw [hclass] at hdup
        cases hdup
    · intro hbad
      refine hbroken post _ rfl hclass hlast hbad ?_
      rw [List.length_map]
      exact le_trans inserted.timeline.length_le inserted.timeline.capacity_le
    · intro v' rest hcommit hsettings htimeline hrest
      have hreturns := hinserted post v' rest rfl hcommit hrest
      rw [hshows.adopt_timeline hsettings, htimeline] at hreturns
      exact hreturns
    · exact fun v' disk rest hcommit => hlost post v' disk rest rfl hcommit
    · exact fun v' disk hcommit => hcrash post v' disk rfl hcommit
  · exact hrefused _ (.duplicate rfl hclass)
  · exact hrefused _ (.conflict rfl hclass)
  · exact absurd hclass MessageDedupeWindow.classify_ne_invalid

/-- The identity is saved first and the timeline after it. -/
theorem wp_compose {draft : PostDraft} {random : Option (Vector UInt8 16)} {now : Option Int64}
    {returns : CommandResult → Machine Session Disk → Prop}
    (hrefused : ∀ result, (⟨some (identityFrom v.settings), v.timeline⟩ : Messenger).stage
      (identityFrom v.settings) draft random now = .error result → returns result m)
    (hkept : ∀ rest, m.memory.mayAdopt v.settings = false ∨ m.faults ≠ [] →
      returns { error := .persistenceUnavailable } { m with faults := rest })
    (hgap : ∀ post v₁ rest, MessageId.generate random = .ok post.messageId →
      Commit .sequence v v₁ → ¬m.memory.mayPersist ∨
        v.ledger.classify post.messageId (postBytes post) = .duplicate →
      returns { error := .persistenceUnavailable }
        { memory := m.memory.adopt v₁, durable := v₁.disk, faults := rest })
    (hbroken : ∀ post ids (v₁ : Committed) rest, MessageId.generate random = .ok post.messageId →
      Commit .sequence v v₁ → v.timeline.lastAssignedOrder ≠ kMaximumOrder →
      Unrememberable v₁ post ids → ids.length ≤ kMaxTimelineEntries →
      returns { error := .persistenceUnavailable }
        { memory := { m.memory.adopt v₁ with status := .recoveryRequired }
          durable := v₁.disk
          faults := rest })
    (hlost : ∀ post (session : Session) disk rest, MessageId.generate random = .ok post.messageId →
      m.faults ≠ [] →
      Reaches (fun cause => cause = .commit .sequence ∨ cause = .commit (.composed post))
        v.disk disk →
      returns { error := .persistenceUnavailable }
        { memory := { session with status := .recoveryRequired }, durable := disk, faults := rest })
    (hdone : ∀ post evicted v₁ v₂ rest, MessageId.generate random = .ok post.messageId →
      Commit .sequence v v₁ → Commit (.composed post) v₁ v₂ → (m.faults = [] → rest = []) →
      returns { messageId := some post.messageId, evictedMessageId := evicted }
        { memory := m.memory.adopt v₂, durable := v₂.disk, faults := rest })
    (hcrash : ∀ post disk, MessageId.generate random = .ok post.messageId → m.faults ≠ [] →
      Reaches (fun cause => cause = .commit .sequence ∨ cause = .commit (.composed post))
        v.disk disk →
      crash disk) :
    wp (Session.compose draft random now) returns crash m := by
  -- With the memory in the form of an adopted state, each save is a change of that state.
  obtain ⟨memory, durable, faults⟩ := m
  obtain ⟨session, rfl⟩ : ∃ session : Session, memory = session.adopt v :=
    ⟨memory, hshows.adopt_eq.symm⟩
  obtain rfl : durable = v.disk := hdisk
  unfold Session.compose
  simp only [wp_bind, wp_memory, Session.adopt]
  rcases hstage : (⟨some (identityFrom v.settings), v.timeline⟩ : Messenger).stage
      (identityFrom v.settings) draft random now with result | staged
  · exact hrefused result hstage
  obtain ⟨hnext, hidentity, hsender, hgenerate, hfind, hinsert⟩ := stage_eq_ok hstage
  simp only [wp_bind]
  -- The state in which only the sequence has been given out.
  have hsequence := Identity.nextSenderSequence_eq_some hnext
  let v₁ := v.withSettings (settingsWith v.settings staged.identity)
    (by rw [hidentity]; rfl) (by rw [hidentity]; exact hsequence ▸ Nat.le_succ _)
    ⟨Nat.succ_ne_zero _, v.launched.2⟩
  have hsettings₁ : v₁.settings = settingsWith v.settings staged.identity := rfl
  have hissued : v₁.settings.senderSequenceHighWatermark = staged.post.senderSequence := by
    rw [hsettings₁, hidentity]
    rfl
  have hinstall₁ : v₁.settings.installId = v.settings.installId := by
    rw [hsettings₁, hidentity]
    rfl
  have hcommit₁ : Commit .sequence v v₁ :=
    .sequence hinstall₁ (by rw [hissued]; exact hnext) rfl rfl
  have hreach₁ : ∀ disk, disk = v.disk ∨ disk = v₁.disk → Reaches (fun cause =>
      cause = .commit .sequence ∨ cause = .commit (.composed staged.post)) v.disk disk :=
    fun disk hor => reaches_commit hcommit₁ (.inl rfl) hor
  refine wp_persistIdentity v₁ rfl rfl rfl (by rw [hidentity]; rfl) rfl rfl ?_ ?_ ?_ ?_ ?_
  · exact fun hnot => hkept faults (.inl hnot)
  · intro rest hrest hadopt
    -- The new sequence is above those of all local entries, which were issued before.
    have hlater : ∀ entry ∈ v₁.timeline.entries, entry.isLocal →
        entry.sequence < staged.post.senderSequence.toNat := by
      intro entry hentry hlocal
      have hle := v.locals.issued entry hentry hlocal
      omega
    -- The staged insertion has found an order to assign.
    have hlast : v.timeline.lastAssignedOrder ≠ kMaximumOrder := by
      intro hmax
      obtain ⟨_, _, havailable, _⟩ := Timeline.insert_eq_ok.mp hinsert
      simp [Timeline.insertionAvailability, hmax] at havailable
    have hfaults : rest ≠ [] → faults ≠ [] := fun hne hnone => hne (hrest hnone)
    simp only [Session.setIdentity, wp_bind, wp_update, if_true]
    refine wp_persistInserted (v := v₁) ⟨rfl, rfl, rfl⟩ rfl hinsert
      (fun ledger hnew hledger => exists_composed hinsert hnew hledger
        (hsender.trans hinstall₁.symm) hissued.symm hlater)
      ?_ ?_ ?_ ?_ ?_
    · exact fun hreason => hgap staged.post v₁ rest hgenerate hcommit₁ hreason
    · intro hbad
      refine hbroken staged.post _ v₁ rest hgenerate hcommit₁ hlast hbad ?_
      rw [List.length_map]
      exact le_trans staged.inserted.timeline.length_le staged.inserted.timeline.capacity_le
    · intro v₂ rest' hcommit₂ hsettings htimeline hrest'
      have hreturns := hdone staged.post staged.inserted.evictedMessageId v₁ v₂ rest' hgenerate
        hcommit₁ hcommit₂ (fun hnone => hrest' (hrest hnone))
      rw [Session.adopt, hsettings, htimeline] at hreturns
      exact hreturns
    · intro v₂ disk rest' hcommit₂ hne hor
      exact hlost staged.post _ disk rest' hgenerate (hfaults hne)
        ((hreach₁ _ (.inr rfl)).trans (reaches_commit hcommit₂ (.inr rfl) hor))
    · intro v₂ disk hcommit₂ hne hor
      exact hcrash staged.post disk hgenerate (hfaults hne)
        ((hreach₁ _ (.inr rfl)).trans (reaches_commit hcommit₂ (.inr rfl) hor))
  · exact fun rest hfaults => hkept rest (.inr hfaults)
  · exact fun disk rest hfaults hor =>
      hlost staged.post _ disk rest hgenerate hfaults (hreach₁ disk hor)
  · exact fun disk hfaults hor => hcrash staged.post disk hgenerate hfaults (hreach₁ disk hor)

end InService

end Lora
