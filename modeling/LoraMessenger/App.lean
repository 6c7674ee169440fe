/-
The application.

Its loop handles the keys that have come in, pumps the radio, and draws the screen again
where something has changed.  The screen shows what it was last given, so a change that
nobody draws would stay unseen.

* `UiPort.handle` — a key of the view model, over anything that keeps a messenger;
* `App.handleKey`, `App.turn` — the key handler of the application and the rest of a turn;
* `AppWorld.run` — one start of the application, with what it leaves behind.
-/
import LoraMessenger.RadioLifetimes
import LoraMessenger.ViewGuards

namespace Lora

open Crash

/-! ### The view model over a port -/

/-- What the view model asks of its surroundings: the messenger and `IUiSettingsCommit`. -/
structure UiPort (m : Type → Type) where
  messenger : m Messenger
  compose : PostDraft → m CommandResult
  persistLocale : Locale → m Bool
  persistSkipTitle : Bool → m Bool

/-- The post that a draft stands for. -/
def Draft.post (draft : Draft) : PostDraft where
  body := draft.body.text
  mentions := draft.mentions
  replyTo := draft.replyTo

namespace UiPort

section Keys

variable {m : Type → Type} [Monad m] (port : UiPort m) (event : KeyEvent) (view : ViewModel)

def handleCompose : m (UiAction × ViewModel) := do
  if event.key = .enter then
    let result ← port.compose view.draft.post
    let messenger ← port.messenger
    if result.error ≠ .none then pure (.render, view.showCommandError result.error)
    else pure (.render, view.composed messenger result.messageId)
  else
    let messenger ← port.messenger
    pure (view.handleEdit messenger event)

/-- The keys of `handle_settings` that save something. -/
def changeSetting : m (UiAction × ViewModel) := do
  if view.settingsItem = .skipTitle ∧
    (event.key = .left ∨ event.key = .right ∨ event.key = .enter) then
    let candidate := !view.skipTitle
    let saved ← port.persistSkipTitle candidate
    pure (view.adopt saved { view with skipTitle := candidate })
  else if view.settingsItem = .language ∧ event.key = .left then
    let candidate := view.locale.shift (Locale.kSupportedLocales.length - 1)
    let saved ← port.persistLocale candidate
    pure (view.adopt saved { view with locale := candidate })
  else if view.settingsItem = .language ∧ (event.key = .right ∨ event.key = .enter) then
    let candidate := view.locale.shift 1
    let saved ← port.persistLocale candidate
    pure (view.adopt saved { view with locale := candidate })
  else pure ({}, view)

def handleSettings : m (UiAction × ViewModel) := do
  if isShortcut event 'd' then pure (.render, view.showDeleteConfirmation)
  else if event.key = .escape then
    let messenger ← port.messenger
    pure (.render, { view with
      screen :=
        if view.settingsReturnScreen = .detail ∧ (view.detailEntry messenger).isSome then .detail
        else if view.settingsReturnScreen = .settings then .timeline
        else view.settingsReturnScreen })
  else if event.key = .up ∨ event.key = .down then
    pure (.render, { view with
      settingsItem := if view.settingsItem = .language then .skipTitle else .language })
  else port.changeSetting event view

def handleScreen : m (UiAction × ViewModel) := do
  let messenger ← port.messenger
  match view.screen with
  | .menu => pure (view.handleMenu event)
  | .timeline => pure (view.handleTimeline messenger event)
  | .detail => pure (view.handleDetail messenger event)
  | .compose => port.handleCompose event view
  | .mentions => pure (view.handleMentions messenger event)
  | .settings => port.handleSettings event view

def handle : m (UiAction × ViewModel) := do
  let messenger ← port.messenger
  let view := view.reconcileModel messenger
  if view.activeModal.id ≠ .none then pure (view.handleModal messenger event)
  else if event.key = .home then pure (.render, view.showExitConfirmation)
  else
    let (shortcut, view) := view.handleGlobalShortcut messenger event
    if shortcut.renderRequired || shortcut.exitApproved || shortcut.deleteDataApproved then
      pure (shortcut, view)
    else port.handleScreen event view

end Keys

end UiPort

/-! ### The application -/

/-- The keys that LVGL names; everything else is a character. -/
def semanticKey (key : ℕ) : KeyEvent :=
  match key with
  | 17 => ⟨.up, 0⟩
  | 18 => ⟨.down, 0⟩
  | 20 => ⟨.left, 0⟩
  | 19 => ⟨.right, 0⟩
  | 10 => ⟨.enter, 0⟩
  | 27 => ⟨.escape, 0⟩
  | 2 => ⟨.home, 0⟩
  | 8 => ⟨.backspace, 0⟩
  | 127 => ⟨.delete, 0⟩
  | 9 => ⟨.tab, 0⟩
  | key => ⟨.character, key⟩

def viewLocale : StoredLocale → Locale
  | .english => .english
  | .japanese => .japanese
  | .simplifiedChinese => .simplifiedChinese

def storedLocale : Locale → StoredLocale
  | .english => .english
  | .japanese => .japanese
  | .simplifiedChinese => .simplifiedChinese

def RadioRuntime.ready {ε : Type} (radio : Radio ε) (process : Process ε) : Bool :=
  process.runtime.valid && !process.runtime.stopped && radio.connected process.radio

/-- The draft goes to the session, and a post that comes out of it on record. -/
def Process.compose {ε : Type} (draft : PostDraft) (random : Option (Vector UInt8 16))
    (now : Option Int64) : RuntimeM ε CommandResult := do
  let result ← onSession (Session.compose draft random now)
  let process ← Prog.memory
  Prog.note fun legacy => { legacy with
    record := { legacy.record with
      composed := legacy.record.composed ++
        composedPosts (.compose draft random now) (.command result) process.session } }
  pure result

/-- `RunState` and the objects of `Application::run`.  A process always has a runtime here;
`attached` says that the application has one, and nothing touches it otherwise. -/
structure App (ε : Type) where
  process : Process ε
  view : ViewModel
  attached : Bool
  transportStatus : TransportStatus
  reportedRadioReady : Bool
  shown : Option ViewSnapshot := none
  running : Bool := true
  looping : Bool := true
  exitCode : ℕ := 0

abbrev AppM (ε : Type) := Prog (App ε) Legacy

namespace App

variable {ε : Type} (texts : Texts) (radio : Radio ε)

def requestStop (app : App ε) : App ε := { app with running := false }

def requestFailure (app : App ε) : App ε := { app with exitCode := 1, running := false }

def setView (view : ViewModel) (app : App ε) : App ε := { app with view := view }

def onProcess {α : Type} (program : RuntimeM ε α) : AppM ε α :=
  Prog.zoom App.process (fun process app => { app with process := process }) program

/-- The surroundings of the view model. -/
def port (random : Option (Vector UInt8 16)) (now : Option Int64) : UiPort (AppM ε) where
  messenger := do
    let app ← Prog.memory
    pure app.process.session.messenger
  compose draft := onProcess (Process.compose draft random now)
  persistLocale locale :=
    onProcess (Process.onSession (Session.setLocale (storedLocale locale)))
  persistSkipTitle skipTitle := onProcess (Process.onSession (Session.setSkipTitle skipTitle))

/-- The screen is given a snapshot. -/
def draw (rendered : Bool) (app : App ε) : App ε :=
  let (snapshot, view) := app.view.snapshot texts app.process.session.messenger
  let app := app.setView view
  if rendered then { app with shown := some snapshot } else app.requestFailure

def render (rendered : Bool) : AppM ε Unit := Prog.update (draw texts rendered)

/-- The picture that is asked for, and the end.  A picture that cannot be drawn is an error,
and nothing more is looked at. -/
def obey (action : UiAction) (rendered : Bool) (app : App ε) : App ε :=
  let app := if action.renderRequired then app.draw texts rendered else app
  if action.exitApproved ∧ (action.renderRequired → rendered) then app.requestStop else app

/-- What the key handler does with the answer of the view model. -/
def follow (action : UiAction) (rendered : Bool) : AppM ε Unit := do
  if action.deleteDataApproved then
    if ← onProcess (Process.onSession Session.deleteAll) then Prog.update requestStop
    else
      Prog.update fun app => app.setView app.view.reportStorageFailure
      render texts rendered
  else Prog.update (obey texts action rendered)

/-- The key handler. -/
def handleKey (key : ℕ) (random : Option (Vector UInt8 16)) (now : Option Int64)
    (rendered : Bool) : AppM ε Unit := do
  let app ← Prog.memory
  if app.running then
    let (action, view) ← (port random now).handle (semanticKey key) app.view
    Prog.update (setView view)
    follow texts action rendered

/-- What follows a pump. -/
def report (changed : Bool) (rendered : Bool) : AppM ε Unit := do
  let app ← Prog.memory
  let ready := RadioRuntime.ready radio app.process
  if ready ≠ app.reportedRadioReady then
    Prog.update fun app =>
      { app with
        reportedRadioReady := ready
        view := app.view.setTransportStatus (if ready then app.transportStatus else .offline) }
    render texts rendered
  else if changed then
    Prog.update fun app =>
      app.setView (app.view.reconcileModel app.process.session.messenger)
    render texts rendered

def pumpRadio (now : ℕ) (rendered : Bool) : AppM ε Unit := do
  let app ← Prog.memory
  if app.attached then
    let changed ← onProcess (RadioRuntime.pump radio now)
    report texts radio changed rendered

/-- The loop ends after a turn if something has stopped the application in the meantime. -/
def endTurn (scriptFailed : Bool) (app : App ε) : App ε :=
  let app := if scriptFailed then app.requestFailure else app
  { app with looping := app.running }

/-- A turn of the loop, after `lv_timer_handler`. -/
def turn (now : ℕ) (rendered scriptFailed : Bool) : AppM ε Unit := do
  pumpRadio texts radio now rendered
  Prog.update (endTurn scriptFailed)

def stopRadio : AppM ε Unit := do
  let app ← Prog.memory
  if app.attached then onProcess (RadioRuntime.stop radio)

/-- What follows the loop. -/
def finish (scriptPending : Bool) : AppM ε Unit := do
  Prog.update fun app => if scriptPending then app.requestFailure else app
  stopRadio radio
  onProcess (Process.onSession Session.shutdown)

end App

/-! ### A start and what follows -/

/-- What the application finds when it is started: which transport could be opened, whether
the fonts are there, and whether the first picture can be drawn. -/
structure AppStart (ε : Type) where
  environment : Session.Environment
  random : Option (Vector UInt8 16) := none
  fonts : Bool := true
  link : TransportStatus := .offline
  radio : ε
  rendered : Bool := true
  faults : List Fault := []

inductive AppEvent (ε : Type) where
  | key (key : ℕ) (random : Option (Vector UInt8 16)) (now : Option Int64) (rendered : Bool)
      (faults : List Fault)
  | displayDeleted
  | turn (now : ℕ) (state : ε) (rendered scriptFailed : Bool) (faults : List Fault)
  | finish (state : ε) (scriptPending : Bool)

/-- What the application leaves behind, and the application while its process lives. -/
structure AppWorld (ε : Type) where
  legacy : Legacy
  app : Option (App ε) := none

namespace App

variable {ε : Type} (texts : Texts) (radio : Radio ε)

/-- The objects of `run`, with the transport that could be opened. -/
def build (start : AppStart ε) (process : Process ε) : App ε :=
  let session := process.session
  let running := start.fonts && (session.status = .ready || session.status = .recoveryRequired)
  let attached := running && session.status = .ready && start.link ≠ .offline
  let ready := attached && RadioRuntime.ready radio process
  let transportStatus :=
    if !attached then .offline
    else if start.link = .loRa && !ready then .offline
    else start.link
  let locale := viewLocale ((session.settings.map SettingsRecord.locale).getD .english)
  let view := ViewModel.create session.messenger locale (session.status = .recoveryRequired)
    (session.settings.any SettingsRecord.skipTitle)
  { process := process
    view := view.setTransportStatus (if ready then transportStatus else .offline)
    attached := attached
    transportStatus := transportStatus
    reportedRadioReady := ready
    running := running }

/-- What `run` does before its loop. -/
def create (start : AppStart ε) (process : Process ε) : App ε :=
  let app := build radio start process
  let app := if app.running then app.draw texts start.rendered else app.requestFailure
  { app with looping := app.running }

end App

namespace AppWorld

variable {ε : Type} (texts : Texts) (radio : Radio ε)

def start (disk : Disk) (start : AppStart ε) : AppWorld ε :=
  match Session.bootstrap start.environment start.random ⟨{}, disk, start.faults⟩ with
  | .done _ m =>
    let (runtime, state) := RadioRuntime.new radio start.radio
    { legacy := { disk := m.durable }
      app := some (App.create texts radio start ⟨m.memory, runtime, state⟩) }
  | .crashed disk => { legacy := { disk := disk } }

/-- Runs a program of the application, which ends if the program crashes. -/
def perform (world : AppWorld ε) (program : AppM ε Unit) (faults : List Fault) : AppWorld ε :=
  match world.app with
  | none => world
  | some app =>
    match program ⟨app, world.legacy, faults⟩ with
    | .done _ m => { legacy := m.durable, app := some m.memory }
    | .crashed legacy => { legacy := legacy }

/-- A turn belongs to the loop, and the end comes after it. -/
def step (world : AppWorld ε) : AppEvent ε → AppWorld ε
  | .key key random now rendered faults =>
    world.perform (App.handleKey texts key random now rendered) faults
  | .displayDeleted => world.perform (Prog.update App.requestStop) []
  | .turn now state rendered scriptFailed faults =>
    world.perform (do
      let app ← Prog.memory
      if app.looping then
        App.onProcess (Process.setRadio state)
        App.turn texts radio now rendered scriptFailed) faults
  | .finish state scriptPending =>
    world.perform (do
      let app ← Prog.memory
      if !app.looping then
        App.onProcess (Process.setRadio state)
        App.finish radio scriptPending) []

def run (disk : Disk) (start : AppStart ε) (events : List (AppEvent ε)) : AppWorld ε :=
  events.foldl (step texts radio) (AppWorld.start texts radio disk start)

theorem run_concat (disk : Disk) (start : AppStart ε) (events : List (AppEvent ε))
    (event : AppEvent ε) : run texts radio disk start (events ++ [event]) =
      (run texts radio disk start events).step texts radio event := by
  simp [run, List.foldl_append]

variable {texts radio}

/-- An application that lives after a program has returned from it. -/
theorem perform_eq_some {world : AppWorld ε} {program : AppM ε Unit} {faults : List Fault}
    {app : App ε} (h : (world.perform program faults).app = some app) :
    ∃ before m', world.app = some before ∧
      program ⟨before, world.legacy, faults⟩ = .done () m' ∧ m'.memory = app := by
  rw [perform] at h
  rcases hbefore : world.app with _ | before
  · rw [hbefore] at h
    exact absurd (hbefore.symm.trans h) (Option.some_ne_none app).symm
  · rw [hbefore] at h
    dsimp only at h
    rcases hrun : program ⟨before, world.legacy, faults⟩ with ⟨_, m'⟩ | legacy
    · rw [hrun] at h
      exact ⟨before, m', rfl, hrun, Option.some.inj h⟩
    · rw [hrun] at h
      cases h

end AppWorld

end Lora
