/-
The view model.

`ViewModel` holds what the screen shows and the draft of a post, `Ui` has the messenger
beside it.  A key changes the view, and may ask the messenger to compose a post.  The
messenger also changes on its own between two keys, so the view keeps message ids only and
looks them up again: `reconcileModel` runs before every key and every snapshot.
-/
import LoraMessenger.DetailWrap
import LoraMessenger.MessengerState

namespace Lora

inductive ScreenId where
  | menu
  | timeline
  | detail
  | compose
  | mentions
  | settings
deriving DecidableEq

inductive ModalId where
  | none
  | status
  | error
  | discard
  | exit
  | deleteData
  | recovery
deriving DecidableEq

inductive UiKey where
  | character
  | up
  | down
  | left
  | right
  | enter
  | escape
  | home
  | backspace
  | delete
  | tab
deriving DecidableEq

structure KeyEvent where
  key : UiKey := .character
  character : ℕ := 0
deriving DecidableEq

structure UiAction where
  renderRequired : Bool := false
  exitApproved : Bool := false
  deleteDataApproved : Bool := false
deriving DecidableEq

inductive MenuItem where
  | talk
  | settings
deriving DecidableEq

inductive SettingsItem where
  | language
  | skipTitle
deriving DecidableEq

inductive TransportStatus where
  | offline
  | loRa
  | wifiLan
deriving DecidableEq

inductive Locale where
  | english
  | japanese
  | simplifiedChinese
deriving DecidableEq

/-- The texts that the view model asks for. -/
inductive StringId where
  | appTitle
  | timelineTitle
  | detailTitle
  | composeTitle
  | mentionsTitle
  | settingsTitle
  | footerMenu
  | footerTimeline
  | footerDetail
  | footerCompose
  | footerMentions
  | footerSettings
  | badgeUnknown
  | replyOriginalUnavailable
  | statusTitle
  | errorTitle
  | statusQueued
  | statusQueuedForRadio
  | statusQueuedForLan
  | statusPostUnavailable
  | confirmDiscardTitle
  | confirmDiscardMessage
  | confirmExitTitle
  | confirmExitMessage
  | confirmDeleteTitle
  | confirmDeleteMessage
  | recoveryTitle
  | recoveryMessage
  | buttonCancel
  | buttonDiscard
  | buttonExit
  | buttonDelete
  | mentionLimitReached
  | settingsSavedLocally
  | radioNoDelivery
  | radioReadyNoDelivery
  | lanReadyNoDelivery
  | errorInvalidCharacter
  | unknownError
  | command (error : CommandError)
deriving DecidableEq

/-- `command_error_string_id`: every error has a text of its own. -/
def commandErrorStringId (error : CommandError) : StringId := .command error

namespace Locale

def kSupportedLocales : List Locale := [english, japanese, simplifiedChinese]

/-- The locale so many places further, around the end. -/
def shift (locale : Locale) (offset : ℕ) : Locale :=
  kSupportedLocales.getD ((kSupportedLocales.idxOf locale + offset) %
    kSupportedLocales.length) english

end Locale

/-! ### The timeline, newest first -/

namespace Timeline

def newestAt (timeline : Timeline) (index : ℕ) : Option TimelineEntry :=
  if index ≥ timeline.entries.length then none
  else timeline.entries[timeline.entries.length - 1 - index]?

/-- The entries that a loop over `newest_at` sees. -/
def newest (timeline : Timeline) : List TimelineEntry :=
  (List.range timeline.entries.length).filterMap timeline.newestAt

/-- The loop of `newest_index`. -/
def newestIndex (timeline : Timeline) (messageId : MessageId) : Option ℕ :=
  (List.range timeline.entries.length).find? fun index =>
    (timeline.newestAt index).any fun entry => entry.messageId = messageId

end Timeline

/-! ### The state -/

structure Draft where
  body : TextEditor := { maximumBytes := kMaxPostBodyBytes }
  mentions : List InstallId := []
  replyTo : Option MessageId := none

namespace Draft

def dirty (draft : Draft) : Bool := draft.body.text ≠ [] || draft.mentions ≠ []

def reset (draft : Draft) : Draft := { body := draft.body.clear }

end Draft

structure ActiveModal where
  id : ModalId := .none
  message : StringId := .unknownError
  confirmSelected : Bool := false
deriving DecidableEq

structure ViewModel where
  locale : Locale
  radioReady : Bool := false
  transportStatus : TransportStatus := .offline
  screen : ScreenId := .timeline
  composeReturnScreen : ScreenId := .timeline
  settingsReturnScreen : ScreenId := .timeline
  activeModal : ActiveModal := {}
  selectedMessageId : Option MessageId := none
  detailMessageId : Option MessageId := none
  detailScrollLine : ℕ := 0
  draft : Draft := {}
  peers : List InstallId := []
  peerCursor : ℕ := 0
  menuItem : MenuItem := .talk
  settingsItem : SettingsItem := .language
  skipTitle : Bool := false

/-- `IUiSettingsCommit`. -/
structure SettingsCommit where
  persistLocale : Locale → Bool
  persistSkipTitle : Bool → Bool

/-- What is asked of the surroundings while a key is handled. -/
structure UiEnvironment where
  random : Option (Vector UInt8 16) := none
  now : Option Int64 := none
  settingsCommit : Option SettingsCommit := none

def isShortcut (event : KeyEvent) (lowerCase : Char) : Bool :=
  event.key = .character &&
    (event.character = lowerCase.toNat || event.character = lowerCase.toNat - 0x61 + 0x41)

def isEditableScalar (codepoint : ℕ) : Bool :=
  if codepoint = 0 ∨ codepoint > 0x10ffff ∨ (0xd800 ≤ codepoint ∧ codepoint ≤ 0xdfff) then false
  else 0x20 ≤ codepoint && !(0x7f ≤ codepoint && codepoint ≤ 0x9f)

/-- The action that asks for a new picture. -/
def UiAction.render : UiAction := { renderRequired := true }

namespace ViewModel

variable (messenger : Messenger) (view : ViewModel)

/-! ### Following the messenger -/

def ensureTimelineSelection : ViewModel :=
  if view.selectedMessageId.any fun id => (messenger.timeline.find id).isSome then view
  else
    { view with
      selectedMessageId := (messenger.timeline.newestAt 0).map TimelineEntry.messageId }

/-- Appends the ids that are neither there nor the own one. -/
def collectPeers (own : Option InstallId) (peers : List InstallId) (ids : List InstallId) :
    List InstallId :=
  ids.foldl (fun peers id => if own = some id ∨ id ∈ peers then peers else peers ++ [id]) peers

def refreshPeers : ViewModel :=
  let oldCursor := view.peers[view.peerCursor]?
  let own := messenger.identity.map Identity.installId
  let senders := messenger.timeline.newest.map fun entry => entry.post.senderId
  let peers := collectPeers own (collectPeers own [] senders) view.draft.mentions
  let cursor :=
    match oldCursor with
    | some old => if old ∈ peers then peers.idxOf old else 0
    | none => 0
  { view with
    peers := peers
    peerCursor := if peers ≠ [] ∧ cursor ≥ peers.length then peers.length - 1 else cursor }

def showStatus (message : StringId) : ViewModel :=
    { view with activeModal := ⟨.status, message, false⟩ }

def showError (message : StringId) : ViewModel :=
    { view with activeModal := ⟨.error, message, false⟩ }

def showCommandError (error : CommandError) : ViewModel :=
    view.showError (commandErrorStringId error)

def showExitConfirmation : ViewModel :=
    { view with activeModal := ⟨.exit, .confirmExitMessage, false⟩ }

def showDeleteConfirmation : ViewModel :=
  { view with activeModal := ⟨.deleteData, .confirmDeleteMessage, false⟩ }

/-- The post of the detail screen, if it still is in the timeline. -/
def detailEntry : Option TimelineEntry := view.detailMessageId.bind messenger.timeline.find

def selectedEntry : Option TimelineEntry := view.selectedMessageId.bind messenger.timeline.find

/-- The part of `reconcile_model` about the detail screen. -/
def leaveVanished : ViewModel :=
  if view.screen = .detail ∧ view.detailEntry messenger = none then
    let left := { view with detailMessageId := none, detailScrollLine := 0, screen := .timeline }
    if left.activeModal.id = .none then left.showStatus .statusPostUnavailable else left
  else view

def reconcileModel : ViewModel :=
  let view := (view.ensureTimelineSelection messenger).leaveVanished messenger
  if view.screen = .mentions then view.refreshPeers messenger else view

/-! ### Screens -/

def openDetail : ViewModel :=
  if (view.selectedEntry messenger).isNone then view
  else
    { view with
      detailMessageId := view.selectedMessageId
      detailScrollLine := 0
      screen := .detail }

def openCompose (replyTo : Option MessageId) (initialMention : Option InstallId)
    (returnScreen : ScreenId) :
    ViewModel :=
  let own := messenger.identity.map Identity.installId
  { view with
    draft := { view.draft.reset with
      replyTo := replyTo
      mentions := initialMention.toList.filter fun mention => own ≠ some mention }
    composeReturnScreen := returnScreen
    screen := .compose }

def closeCompose : ViewModel :=
  { view with
    draft := view.draft.reset
    screen :=
      if view.composeReturnScreen = .detail ∧ (view.detailEntry messenger).isSome then .detail
      else if view.composeReturnScreen = .settings then .settings
      else .timeline }

/-! ### Keys -/

def handleModal (event : KeyEvent) : UiAction × ViewModel :=
  let modal := view.activeModal
  if event.key = .home ∧ modal.id ≠ .exit ∧ modal.id ≠ .recovery then
    (.render, view.showExitConfirmation)
  else if modal.id = .status ∨ modal.id = .error then
    if event.key = .escape ∨ event.key = .enter then (.render, { view with activeModal := {} })
    else ({}, view)
  else if modal.id = .discard ∨ modal.id = .exit ∨ modal.id = .deleteData ∨
    modal.id = .recovery then
    if event.key = .escape then
      if modal.id = .recovery then ({ exitApproved := true }, view)
      else (.render, { view with activeModal := {} })
    else if event.key = .left then
      (.render, { view with activeModal := { modal with confirmSelected := false } })
    else if event.key = .right then
      (.render, { view with activeModal := { modal with confirmSelected := true } })
    else if event.key = .enter then
      if !modal.confirmSelected then
        if modal.id = .recovery then ({ exitApproved := true }, view)
        else (.render, { view with activeModal := {} })
      else
        let closed := { view with activeModal := {} }
        if modal.id = .discard then (.render, closed.closeCompose messenger)
        else if modal.id = .deleteData ∨ modal.id = .recovery then
          ({ deleteDataApproved := true }, closed)
        else ({ exitApproved := true }, closed)
    else ({}, view)
  else ({}, view)

/-- The settings screen, with the place to return to. -/
def openSettings (returnScreen : ScreenId) : ViewModel :=
  { view with settingsReturnScreen := returnScreen, screen := .settings, settingsItem := .language }

def handleGlobalShortcut (event : KeyEvent) : UiAction × ViewModel :=
  if view.screen = .compose ∨ view.screen = .mentions then ({}, view)
  else if view.screen = .menu then
    if isShortcut event 's' then (.render, view.openSettings .menu) else ({}, view)
  else
    let targetId := if view.screen = .detail then view.detailMessageId else view.selectedMessageId
    let target := targetId.bind messenger.timeline.find
    if isShortcut event 'n' then (.render, view.openCompose messenger none none view.screen)
    else if isShortcut event 'r' ∧ targetId.isSome then
      (.render, view.openCompose messenger targetId none view.screen)
    else if isShortcut event 'm' then
      (.render, view.openCompose messenger none (target.map fun entry => entry.post.senderId)
        view.screen)
    else if isShortcut event 's' ∧ view.screen ≠ .settings then
      (.render, view.openSettings view.screen)
    else ({}, view)

def handleMenu (event : KeyEvent) : UiAction × ViewModel :=
  if event.key = .up ∨ event.key = .down then
    (.render, { view with menuItem := if view.menuItem = .talk then .settings else .talk })
  else if event.key = .enter then
    (.render, if view.menuItem = .talk then { view with screen := .timeline } else
      view.openSettings .menu)
  else ({}, view)

def handleTimeline (event : KeyEvent) : UiAction × ViewModel :=
  if event.key = .escape then (.render, { view with screen := .menu })
  else
    let selectedIndex := view.selectedMessageId.bind messenger.timeline.newestIndex
    match event.key, selectedIndex with
    | .up, some (index + 1) =>
      (.render, { view with
        selectedMessageId := (messenger.timeline.newestAt index).map TimelineEntry.messageId })
    | .down, some index =>
      if index + 1 < messenger.timeline.entries.length then
        (.render, { view with
          selectedMessageId := (messenger.timeline.newestAt (index + 1)).map
            TimelineEntry.messageId })
      else ({}, view)
    | .enter, _ =>
      let opened := view.openDetail messenger
      ({ renderRequired := opened.screen ≠ view.screen }, opened)
    | _, _ => ({}, view)

def handleDetail (event : KeyEvent) : UiAction × ViewModel :=
  if event.key = .escape then (.render, { view with screen := .timeline, detailScrollLine := 0 })
  else if event.key = .up ∧ view.detailScrollLine > 0 then
    (.render, { view with detailScrollLine := view.detailScrollLine - 1 })
  else
    let maximumScrollLine :=
      match view.detailEntry messenger with
      | some entry => (wrapDetailBody entry.post.body.value).maximumScrollLine
      | none => 0
    if event.key = .down ∧ view.detailScrollLine < maximumScrollLine then
      (.render, { view with detailScrollLine := view.detailScrollLine + 1 })
    else ({}, view)

/-- A key that moves the cursor of the editor or deletes. -/
def editBody (edit : TextEditor → Bool × TextEditor) : UiAction × ViewModel :=
  let (moved, body) := edit view.draft.body
  ({ renderRequired := moved }, { view with draft := { view.draft with body := body } })

/-- `handle_compose`, but for the key that sends the draft. -/
def handleEdit (event : KeyEvent) : UiAction × ViewModel :=
  match event.key with
  | .character =>
    if !isEditableScalar event.character then (.render, view.showError .errorInvalidCharacter)
    else
      let (error, body) := view.draft.body.insert event.character
      let view := { view with draft := { view.draft with body := body } }
      (.render,
        if error = .none then view
        else if error = .tooLong then view.showError (commandErrorStringId .invalidBody)
        else view.showError .errorInvalidCharacter)
  | .left => view.editBody TextEditor.moveLeft
  | .right => view.editBody TextEditor.moveRight
  | .backspace => view.editBody TextEditor.backspace
  | .delete => view.editBody TextEditor.deleteForward
  | .tab => (.render, { view.refreshPeers messenger with screen := .mentions })
  | .escape =>
    (.render,
      if view.draft.dirty then { view with
        activeModal := ⟨.discard, .confirmDiscardMessage, false⟩ }
      else view.closeCompose messenger)
  | _ => ({}, view)

def handleMentions (event : KeyEvent) : UiAction × ViewModel :=
  let view := view.refreshPeers messenger
  if event.key = .escape ∨ event.key = .tab then (.render, { view with screen := .compose })
  else if event.key = .up ∧ view.peerCursor > 0 then
    (.render, { view with peerCursor := view.peerCursor - 1 })
  else if event.key = .down ∧ view.peerCursor + 1 < view.peers.length then
    (.render, { view with peerCursor := view.peerCursor + 1 })
  else if event.key = .enter then
    match view.peers[view.peerCursor]? with
    | some peer =>
      if peer ∈ view.draft.mentions then
        (.render, { view with
          draft := { view.draft with mentions := view.draft.mentions.erase peer } })
      else if view.draft.mentions.length ≥ kMaxMentions then
        (.render, view.showError .mentionLimitReached)
      else (.render, { view with
        draft := { view.draft with mentions := view.draft.mentions ++ [peer] } })
    | none => ({}, view)
  else ({}, view)

/-- A setting is adopted once it is saved. -/
def adopt (saved : Bool) (adopted : ViewModel) : UiAction × ViewModel :=
  (.render, if saved then adopted else view.showError
    (commandErrorStringId .persistenceUnavailable))

def handleSettings (environment : UiEnvironment) (event : KeyEvent) : UiAction × ViewModel :=
  let persistLocale (locale : Locale) := environment.settingsCommit.all (·.persistLocale locale)
  if isShortcut event 'd' then (.render, view.showDeleteConfirmation)
  else if event.key = .escape then
    (.render, { view with
      screen :=
        if view.settingsReturnScreen = .detail ∧ (view.detailEntry messenger).isSome then .detail
        else if view.settingsReturnScreen = .settings then .timeline
        else view.settingsReturnScreen })
  else if event.key = .up ∨ event.key = .down then
    (.render, { view with
      settingsItem := if view.settingsItem = .language then .skipTitle else .language })
  else if view.settingsItem = .skipTitle ∧
    (event.key = .left ∨ event.key = .right ∨ event.key = .enter) then
    view.adopt (environment.settingsCommit.all (·.persistSkipTitle !view.skipTitle))
      { view with skipTitle := !view.skipTitle }
  else if view.settingsItem = .language ∧ event.key = .left then
    let candidate := view.locale.shift (Locale.kSupportedLocales.length - 1)
    view.adopt (persistLocale candidate) { view with locale := candidate }
  else if view.settingsItem = .language ∧ (event.key = .right ∨ event.key = .enter) then
    let candidate := view.locale.shift 1
    view.adopt (persistLocale candidate) { view with locale := candidate }
  else ({}, view)

/-- The text after a post has been composed. -/
def queuedMessage : StringId :=
  if view.transportStatus = .wifiLan then .statusQueuedForLan
  else if view.radioReady then .statusQueuedForRadio
  else .statusQueued

/-- The view after a post has been composed. -/
def composed (messageId : Option MessageId) : ViewModel :=
  let sent := { view with
    selectedMessageId := messageId, detailMessageId := none, detailScrollLine := 0
    draft := view.draft.reset, screen := .timeline }
  (sent.ensureTimelineSelection messenger).showStatus view.queuedMessage

/-- The constructor. -/
def create (locale : Locale) (recoveryRequired skipTitle : Bool) : ViewModel :=
  let start : ScreenId := if skipTitle then .timeline else .menu
  let view : ViewModel :=
    { locale := locale, screen := start, settingsReturnScreen := start, skipTitle := skipTitle }
  let view := view.ensureTimelineSelection messenger
  if recoveryRequired then { view with
    activeModal := ⟨.recovery, .recoveryMessage, false⟩ } else view

end ViewModel

/-! ### The view and the messenger -/

structure Ui (σ : Type) where
  view : ViewModel
  world : MessengerWorld σ

namespace Ui

variable {σ : Type} (commit : Option (StateCommit σ)) (environment : UiEnvironment)

/-- The draft is handed to the messenger. -/
def compose (ui : Ui σ) : CommandResult × MessengerWorld σ :=
  (MessengerState.compose (StateCommit.port commit)
    { body := ui.view.draft.body.text, mentions := ui.view.draft.mentions,
      replyTo := ui.view.draft.replyTo }
    environment.random environment.now).run ui.world

def handleCompose (event : KeyEvent) (ui : Ui σ) : UiAction × Ui σ :=
  if event.key = .enter then
    let (result, world) := ui.compose commit environment
    if result.error ≠ .none then (.render, ⟨ui.view.showCommandError result.error, world⟩)
    else (.render, ⟨ui.view.composed world.messenger result.messageId, world⟩)
  else
    let (action, view) := ui.view.handleEdit ui.world.messenger event
    (action, ⟨view, ui.world⟩)

/-- What the current screen does with a key. -/
def handleScreen (event : KeyEvent) (ui : Ui σ) : UiAction × Ui σ :=
  match ui.view.screen with
  | .menu => (ui.view.handleMenu event).map id ({ ui with view := · })
  | .timeline => (ui.view.handleTimeline ui.world.messenger event).map id ({ ui with view := · })
  | .detail => (ui.view.handleDetail ui.world.messenger event).map id ({ ui with view := · })
  | .compose => ui.handleCompose commit environment event
  | .mentions => (ui.view.handleMentions ui.world.messenger event).map id ({ ui with view := · })
  | .settings =>
    (ui.view.handleSettings ui.world.messenger environment event).map id ({ ui with view := · })

def handle (event : KeyEvent) (ui : Ui σ) : UiAction × Ui σ :=
  let view := ui.view.reconcileModel ui.world.messenger
  if view.activeModal.id ≠ .none then
    (view.handleModal ui.world.messenger event).map id ({ ui with view := · })
  else if event.key = .home then (.render, { ui with view := view.showExitConfirmation })
  else
    let (shortcut, view) := view.handleGlobalShortcut ui.world.messenger event
    if shortcut.renderRequired || shortcut.exitApproved || shortcut.deleteDataApproved then
      (shortcut, { ui with view := view })
    else ({ ui with view := view } : Ui σ).handleScreen commit environment event

end Ui

end Lora
