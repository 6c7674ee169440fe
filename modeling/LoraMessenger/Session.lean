/-
The persistent session.

The session owns the state of the messenger and the two stores.  A command
stages a candidate, saves it and only then adopts it in memory; the sequence
of a new post is saved before the post.  A failure whose outcome is open takes
the session out of service, since memory and disk may differ from then on.

The model follows the source function by function.  What happens on a disk
access is up to the machine the program runs on, see `Crash`.
-/
import LoraMessenger.Storage

namespace Lora

open Crash

/-- The largest 64-bit generation. -/
def kMaximumGeneration : ℕ := 2 ^ 64 - 1

inductive CommandError where
  | none
  | notInitialized
  | alreadyInitialized
  | invalidUserId
  | invalidBody
  | tooManyMentions
  | duplicateMention
  | replyParentUnavailable
  | queueFull
  | timelineFull
  | sequenceExhausted
  | orderExhausted
  | randomUnavailable
  | messageIdCollision
  | invalidPost
  | duplicatePost
  | conflictingPost
  | messageNotFound
  | notLocalPost
  | invalidTransition
  | persistenceUnavailable
deriving DecidableEq

structure CommandResult where
  error : CommandError := .none
  textError : TextError := .none
  postError : PostError := .none
  messageId : Option MessageId := none
  evictedMessageId : Option MessageId := none
deriving DecidableEq

inductive PersistentSessionStatus where
  | ready
  | recoveryRequired
  | storageBusy
  | environmentUnavailable
  | storageUnavailable
deriving DecidableEq

inductive InboundPostStatus where
  | accepted
  | duplicate
  | conflict
  | invalid
  | timelineFull
  | orderExhausted
  | notReady
  | storageUnavailable
deriving DecidableEq

/-- `MessengerState`. -/
structure Messenger where
  identity : Option Identity
  timeline : Timeline

structure Session where
  messenger : Messenger := ⟨none, Timeline.empty⟩
  dedupe : MessageDedupeWindow := MessageDedupeWindow.empty
  status : PersistentSessionStatus := .storageUnavailable
  locked : Bool := false
  settingsStore : Bool := false
  settings : Option SettingsRecord := none
  historyOpen : Bool := false
  closed : Bool := false

abbrev SessionM := Prog Session Disk

def mapInsertError : TimelineInsertError → CommandError
  | .none => .none
  | .duplicate => .duplicatePost
  | .conflict => .conflictingPost
  | .queueFull => .queueFull
  | .full => .timelineFull
  | .orderExhausted => .orderExhausted

def mapAvailability : TimelineInsertError → CommandError
  | .full => .timelineFull
  | .orderExhausted => .orderExhausted
  | _ => .none

def mapTransitionError : TransitionError → CommandError
  | .none => .none
  | .notFound => .messageNotFound
  | .notLocal => .notLocalPost
  | .invalidState => .invalidTransition

namespace Session

/-! ### Saving -/

def setStatus (status : PersistentSessionStatus) : SessionM Unit :=
  Prog.update fun session => { session with status := status }

/-- Saves a settings record and adopts it. -/
def adoptSettings (candidate : SettingsRecord) : SessionM Bool := do
  match ← saveSettings candidate with
  | .ok () =>
    Prog.update fun session => { session with settings := some candidate }
    pure true
  | .error failure =>
    if failure.finalReplaced then
      setStatus .recoveryRequired
      pure false
    else pure false

/-- The condition all changes of the settings start with. -/
def mayAdopt (session : Session) (settings : SettingsRecord) : Bool :=
  session.status = .ready && !session.closed && session.settingsStore &&
    settings.generation ≠ kMaximumGeneration

def persistIdentity (identity : Identity) : SessionM Bool := do
  let session ← Prog.memory
  match session.settings with
  | none => pure false
  | some settings =>
    if session.mayAdopt settings then
      adoptSettings
        { generation := settings.generation + 1
          installId := identity.installId
          userId := identity.userId
          senderSequenceHighWatermark := identity.lastIssuedSenderSequence
          locale := settings.locale
          historyInitialized := settings.historyInitialized
          skipTitle := settings.skipTitle }
    else pure false

/-- Why the loop of `persist_timeline` gives up: a post that the ledger knows
and the timeline does not, or something that should not happen. -/
inductive Refusal where
  | alreadySeen
  | inconsistent

/-- The loop of `persist_timeline`. -/
def rememberEntries (timeline : Timeline) (protectedMessageIds : List MessageId) :
    MessageDedupeWindow → List TimelineEntry → Except Refusal MessageDedupeWindow
  | window, [] => .ok window
  | window, entry :: rest =>
    match encodePost entry.post with
    | .error _ => .error .inconsistent
    | .ok encoded =>
      match window.classify entry.messageId encoded with
      | .duplicate =>
        if (timeline.find entry.messageId).isNone then .error .alreadySeen
        else rememberEntries timeline protectedMessageIds window rest
      | .conflict => .error .inconsistent
      | .invalid => .error .inconsistent
      | .new =>
        match window.remember entry.post encoded protectedMessageIds with
        | .error _ => .error .inconsistent
        | .ok window => rememberEntries timeline protectedMessageIds window rest

def snapshotOf (timeline : Timeline) (window : MessageDedupeWindow) : HistorySnapshot where
  entries := timeline.entries
  lastAssignedOrder := timeline.lastAssignedOrder
  seenMessages := window.records
  lastSeenOrder := window.lastSeenOrder

def persistTimeline (timeline : Timeline) : SessionM Bool := do
  let session ← Prog.memory
  match session.settings with
  | none => pure false
  | some settings =>
    if session.status ≠ .ready ∨ session.closed ∨ !session.historyOpen then pure false
    else
      match rememberEntries session.messenger.timeline
          (timeline.entries.map TimelineEntry.messageId) session.dedupe timeline.entries with
      | .error .alreadySeen => pure false
      | .error .inconsistent => do
        setStatus .recoveryRequired
        pure false
      | .ok candidate => do
        let result ← saveSnapshot (snapshotOf timeline candidate) (identityFrom settings)
        if result ≠ .none then
          setStatus .recoveryRequired
          pure false
        else
          Prog.update fun session => { session with dedupe := candidate }
          pure true

end Session

/-! ### The commands of the messenger -/

namespace Messenger

/-- What `compose` stages before it saves anything. -/
structure Staged where
  identity : Identity
  post : PostPayload
  inserted : Timeline.Inserted

/-- `compose` up to the first save. -/
def stage (messenger : Messenger) (identity : Identity) (draft : PostDraft)
    (random : Option (Vector UInt8 16)) (now : Option Int64) : Except CommandResult Staged :=
  match PostBody.create draft.body with
  | .error textError => .error { error := .invalidBody, textError := textError }
  | .ok _ =>
  if draft.mentions.length > kMaxMentions then .error { error := .tooManyMentions }
  else if ¬draft.mentions.Nodup then .error { error := .duplicateMention }
  else if draft.replyTo.any (fun parent => (messenger.timeline.find parent).isNone) then
    .error { error := .replyParentUnavailable }
  else if messenger.timeline.queuedCount ≥ messenger.timeline.queuedCapacity then
    .error { error := .queueFull }
  else
  match identity.nextSenderSequence with
  | none => .error { error := .sequenceExhausted }
  | some senderSequence =>
  match identity.commitSenderSequence senderSequence with
  | none => .error { error := .sequenceExhausted }
  | some updatedIdentity =>
  if messenger.timeline.insertionAvailability draft.replyTo ≠ .none then
    .error { error := mapAvailability (messenger.timeline.insertionAvailability draft.replyTo) }
  else
  match MessageId.generate random with
  | .error _ => .error { error := .randomUnavailable }
  | .ok messageId =>
  if (messenger.timeline.find messageId).isSome then .error { error := .messageIdCollision }
  else
  match PostPayload.create
      { messageId := messageId.uuid
        senderId := identity.installId.uuid
        senderSequence := senderSequence
        senderUserId := identity.userId.value
        body := draft.body
        mentions := draft.mentions.map InstallId.uuid
        replyTo := draft.replyTo.map MessageId.uuid
        senderTime := now } with
  | .error postError => .error { error := .invalidPost, postError := postError }
  | .ok post =>
  match messenger.timeline.insertLocal post with
  | .error insertError => .error { error := mapInsertError insertError }
  | .ok inserted => .ok ⟨updatedIdentity, post, inserted⟩

end Messenger

namespace Session

def setIdentity (identity : Identity) : SessionM Unit :=
  Prog.update fun session =>
    { session with messenger := { session.messenger with identity := some identity } }

def setTimeline (timeline : Timeline) : SessionM Unit :=
  Prog.update fun session =>
    { session with messenger := { session.messenger with timeline := timeline } }

def initializeNew (userId : Bytes) (random : Option (Vector UInt8 16)) :
    SessionM CommandResult := do
  let session ← Prog.memory
  match session.messenger.identity with
  | some _ => pure { error := .alreadyInitialized }
  | none =>
    match UserId.create userId with
    | .error textError => pure { error := .invalidUserId, textError := textError }
    | .ok userId =>
      match InstallId.generate random with
      | .error _ => pure { error := .randomUnavailable }
      | .ok installId => do
        if ← persistIdentity ⟨installId, userId, 0⟩ then
          setIdentity ⟨installId, userId, 0⟩
          pure {}
        else pure { error := .persistenceUnavailable }

def restoreIdentity (identity : Identity) : SessionM CommandResult := do
  let session ← Prog.memory
  match session.messenger.identity with
  | some _ => pure { error := .alreadyInitialized }
  | none => do
    setIdentity identity
    pure {}

def restoreState (identity : Identity) (timeline : Timeline) : SessionM CommandResult := do
  let session ← Prog.memory
  match session.messenger.identity with
  | some _ => pure { error := .alreadyInitialized }
  | none => do
    setIdentity identity
    setTimeline timeline
    pure {}

def renameUser (userId : Bytes) : SessionM CommandResult := do
  let session ← Prog.memory
  match session.messenger.identity with
  | none => pure { error := .notInitialized }
  | some identity =>
    match UserId.create userId with
    | .error textError => pure { error := .invalidUserId, textError := textError }
    | .ok userId => do
      if ← persistIdentity (identity.rename userId) then
        setIdentity (identity.rename userId)
        pure {}
      else pure { error := .persistenceUnavailable }

/-- The sequence is saved before the post.  If the post cannot be saved then,
the sequence is lost: a gap, but never a reuse. -/
def compose (draft : PostDraft) (random : Option (Vector UInt8 16)) (now : Option Int64) :
    SessionM CommandResult := do
  let session ← Prog.memory
  match session.messenger.identity with
  | none => pure { error := .notInitialized }
  | some identity =>
    match session.messenger.stage identity draft random now with
    | .error result => pure result
    | .ok staged => do
      if ← persistIdentity staged.identity then
        setIdentity staged.identity
        if ← persistTimeline staged.inserted.timeline then
          setTimeline staged.inserted.timeline
          pure { messageId := some staged.post.messageId
                 evictedMessageId := staged.inserted.evictedMessageId }
        else pure { error := .persistenceUnavailable }
      else pure { error := .persistenceUnavailable }

def acceptReceived (post : PostPayload) : SessionM CommandResult := do
  let session ← Prog.memory
  match session.messenger.identity with
  | none => pure { error := .notInitialized }
  | some _ =>
    match session.messenger.timeline.insertReceived post with
    | .error insertError => pure { error := mapInsertError insertError }
    | .ok inserted => do
      if ← persistTimeline inserted.timeline then
        setTimeline inserted.timeline
        pure { evictedMessageId := inserted.evictedMessageId }
      else pure { error := .persistenceUnavailable }

def transition (messageId : MessageId) (target : LocalDeliveryState) : SessionM CommandResult := do
  let session ← Prog.memory
  match session.messenger.identity with
  | none => pure { error := .notInitialized }
  | some _ =>
    match session.messenger.timeline.transition messageId target with
    | .error transitionError => pure { error := mapTransitionError transitionError }
    | .ok candidate => do
      if ← persistTimeline candidate then
        setTimeline candidate
        pure {}
      else pure { error := .persistenceUnavailable }

def markBroadcast (messageId : MessageId) : SessionM CommandResult :=
    transition messageId .broadcast

def markFailed (messageId : MessageId) : SessionM CommandResult := transition messageId .failed

/-! ### The commands of the session -/

def mapInbound : CommandError → InboundPostStatus
  | .none => .accepted
  | .duplicatePost => .duplicate
  | .conflictingPost => .conflict
  | .timelineFull => .timelineFull
  | .queueFull => .timelineFull
  | .orderExhausted => .orderExhausted
  | .persistenceUnavailable => .storageUnavailable
  | _ => .invalid

def acceptReceivedPost (canonicalPost : Bytes) : SessionM InboundPostStatus := do
  let session ← Prog.memory
  if session.status ≠ .ready ∨ session.closed ∨ session.settings.isNone ∨ !session.historyOpen then
    pure .notReady
  else
    match decodePost canonicalPost with
    | .error _ => pure .invalid
    | .ok decoded =>
      if encodePost decoded ≠ .ok canonicalPost then pure .invalid
      else match session.dedupe.classify decoded.messageId canonicalPost with
        | .duplicate => pure .duplicate
        | .conflict => pure .conflict
        | .invalid => pure .invalid
        | .new => do
          let accepted ← acceptReceived decoded
          pure (mapInbound accepted.error)

/-- `persist_locale` and `persist_skip_title` differ in the field they set. -/
def setPreference (differs : SettingsRecord → Bool) (change : SettingsRecord → SettingsRecord) :
    SessionM Bool := do
  let session ← Prog.memory
  match session.settings with
  | none => pure false
  | some settings =>
    if session.mayAdopt settings then
      if differs settings then
        adoptSettings (change { settings with generation := settings.generation + 1 })
      else pure true
    else pure false

def setLocale (locale : StoredLocale) : SessionM Bool :=
  setPreference (·.locale ≠ locale) ({ · with locale := locale })

def setSkipTitle (skipTitle : Bool) : SessionM Bool :=
  setPreference (·.skipTitle ≠ skipTitle) ({ · with skipTitle := skipTitle })

def deleteAll : SessionM Bool := do
  let session ← Prog.memory
  if !session.locked ∨ session.closed then pure false
  else if ← discardHistoryProbe then
    if ← unlinkSettings then
      Prog.update fun session => { session with settings := none, historyOpen := false }
      let removed ← unlinkHistory
      setStatus .recoveryRequired
      pure removed
    else
      setStatus .recoveryRequired
      pure false
  else
    setStatus .recoveryRequired
    pure false

def shutdown : SessionM Unit :=
  Prog.update fun session =>
    if session.closed then session
    else { session with historyOpen := false, locked := false, closed := true }

/-! ### Starting -/

/-- What a starting process finds of its directories and locks. -/
inductive Environment where
  | noPaths
  | noDirectories
  | lockUnavailable
  | lockBusy
  | available
deriving DecidableEq

/-- `"Mika"`. -/
def defaultUserId : Bytes := [0x4d, 0x69, 0x6b, 0x61]

/-- `open_empty_history`. -/
def openEmptyHistory (settings : SettingsRecord) : SessionM Bool := do
  if ← openHistory then
    Prog.update fun session => { session with historyOpen := true }
    let saved ← saveSnapshot {} (identityFrom settings)
    if saved ≠ .none then
      Prog.update fun session => { session with historyOpen := false, status := .recoveryRequired }
      pure false
    else pure true
  else
    setStatus .recoveryRequired
    pure false

/-- `finalize_history_initialization`; returns the settings in force. -/
def finalizeHistoryInitialization (settings : SettingsRecord) :
    SessionM (Option SettingsRecord) := do
  if settings.historyInitialized then pure (some settings)
  else if settings.generation = kMaximumGeneration then
    setStatus .recoveryRequired
    pure none
  else
    let candidate :=
      { settings with generation := settings.generation + 1, historyInitialized := true }
    match ← saveSettings candidate with
    | .ok () =>
      Prog.update fun session => { session with settings := some candidate }
      pure (some candidate)
    | .error failure =>
      setStatus (if failure.finalReplaced then .recoveryRequired else .storageUnavailable)
      pure none

def bootstrapMissingSettings (random : Option (Vector UInt8 16)) : SessionM Unit := do
  if ← hasHistoryArtifact then setStatus .recoveryRequired
  else
    match InstallId.generate random, UserId.create defaultUserId with
    | .ok installId, .ok userId =>
      let created : SettingsRecord :=
        { generation := 1
          installId := installId
          userId := userId
          senderSequenceHighWatermark := 0
          locale := .english
          historyInitialized := false
          skipTitle := false }
      match ← saveSettings created with
      | .error failure =>
        setStatus (if failure.finalReplaced then .recoveryRequired else .storageUnavailable)
      | .ok () =>
        Prog.update fun session => { session with settings := some created }
        if ← openEmptyHistory created then
          match ← finalizeHistoryInitialization created with
          | none => pure ()
          | some settings =>
            let restored ← restoreState (identityFrom settings) Timeline.empty
            if restored.error ≠ .none then setStatus .storageUnavailable
            else setStatus .ready
        else pure ()
    | _, _ => setStatus .storageUnavailable

/-- A post that was queued when the process ended may or may not have been
sent. -/
def retire (entry : TimelineEntry) : TimelineEntry :=
  if entry.isQueued then { entry with origin := .localDelivery .unknown } else entry

/-- The end of `bootstrap_loaded_settings`. -/
def restoreTimeline (identity : Identity) (snapshot : HistorySnapshot) : SessionM Unit := do
  match Timeline.restore kMaxTimelineEntries snapshot.lastAssignedOrder snapshot.entries with
  | .error _ => setStatus .recoveryRequired
  | .ok timeline => do
    let restored ← restoreState identity timeline
    if restored.error ≠ .none then setStatus .recoveryRequired
    else setStatus .ready

/-- The part of `bootstrap_loaded_settings` after the history has been read. -/
def restoreSnapshot (identity : Identity) (snapshot : HistorySnapshot) : SessionM Unit := do
  match MessageDedupeWindow.restore kDefaultSeenMessageCapacity snapshot.lastSeenOrder
      snapshot.seenMessages with
  | .error _ => setStatus .recoveryRequired
  | .ok window => do
    Prog.update fun session => { session with dedupe := window }
    let retired := { snapshot with entries := snapshot.entries.map retire }
    if snapshot.entries.any TimelineEntry.isQueued then
      let saved ← saveSnapshot retired identity
      if saved ≠ .none then setStatus .recoveryRequired
      else restoreTimeline identity retired
    else restoreTimeline identity retired

/-- The part of `bootstrap_loaded_settings` once the history is open. -/
def bootstrapHistory (settings : SettingsRecord) : SessionM Unit := do
  match ← loadSnapshot (identityFrom settings) with
  | .error _ => setStatus .recoveryRequired
  | .ok snapshot =>
    match ← finalizeHistoryInitialization settings with
    | none => pure ()
    | some _ => restoreSnapshot (identityFrom settings) snapshot

def bootstrapLoadedSettings (settings : SettingsRecord) : SessionM Unit := do
  match ← Prog.read with
  | none => setStatus .storageUnavailable
  | some disk =>
    -- Without a database file, only a first launch that was cut short resumes.
    if disk.history = .missing ∨ disk.history = .leftover then
      if settings.historyInitialized ∨ settings.senderSequenceHighWatermark ≠ 0 then
        setStatus .recoveryRequired
      else if ← hasHistoryArtifact then setStatus .recoveryRequired
      else if ← openEmptyHistory settings then bootstrapHistory settings
      else setStatus .recoveryRequired
    else
      let opened ← openExistingBound (identityFrom settings)
      if opened ≠ .none then setStatus .recoveryRequired
      else
        Prog.update fun session => { session with historyOpen := true }
        bootstrapHistory settings

def bootstrap (environment : Environment) (random : Option (Vector UInt8 16)) : SessionM Unit := do
  match environment with
  | .noPaths => setStatus .environmentUnavailable
  | .noDirectories => setStatus .storageUnavailable
  | .lockUnavailable => setStatus .storageUnavailable
  | .lockBusy => setStatus .storageBusy
  | .available => do
    Prog.update fun session => { session with locked := true }
    if ← discardHistoryProbe then
      Prog.update fun session => { session with settingsStore := true }
      match ← loadSettings with
      | .error failure =>
        if failure.error ≠ .notFound then setStatus .recoveryRequired
        else bootstrapMissingSettings random
      | .ok settings =>
        Prog.update fun session => { session with settings := some settings }
        bootstrapLoadedSettings settings
    else setStatus .recoveryRequired

end Session

end Lora
