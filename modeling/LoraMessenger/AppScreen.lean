/-
What is on the screen.

The screen keeps what it was given last, and the messenger and the radio change without it.
A key that asks for no picture has changed nothing that could be seen, a pump says whether
it has changed the messenger, and a change of the link is noticed by the loop.  So what the
screen shows is never out of date.

* `ViewModel.snapshot_reconcile` — a view that has been reconciled gives the same snapshot;
* `Ui.handle_unseen` — a key that asks for nothing;
* `screen_shows_current_state` — the screen, the link and the messenger at any time.
-/
import LoraMessenger.AppSteps

namespace Lora

open Crash

namespace ViewModel

variable {messenger : Messenger} {view next : ViewModel} {event : KeyEvent} {texts : Texts}

/-! ### Twice the same -/

theorem ensureTimelineSelection_of_valid (h : view.SelectsValid messenger) :
    view.ensureTimelineSelection messenger = view := by
  rw [ensureTimelineSelection]
  split
  · rfl
  · rename_i hselected
    -- nothing is selected, so there is nothing to select
    have hnone : view.selectedMessageId = none := by
      rw [Option.eq_none_iff_forall_ne_some]
      intro id hid
      refine hselected ?_
      rw [hid]
      exact h.2 id hid
    have hempty : messenger.timeline.newestAt 0 = none := by
      rw [Timeline.newestAt_eq, h.1.mp hnone]
      rfl
    rw [hempty, Option.map_none, ← hnone]

theorem leaveVanished_of_shows (h : view.ShowsPresent messenger) :
    view.leaveVanished messenger = view := by
  rw [leaveVanished]
  refine if_neg ?_
  rintro ⟨hscreen, hnone⟩
  have hpresent := h hscreen
  rw [hnone] at hpresent
  cases hpresent

/-- Where the peer is found, and the first place for one that is not there. -/
def foundAt (peers : List InstallId) (old : Option InstallId) : ℕ :=
  match old with
  | some old => if old ∈ peers then peers.idxOf old else 0
  | none => 0

/-- Where `refresh_peers` puts the cursor that was on `old`. -/
def cursorAt (peers : List InstallId) (old : Option InstallId) : ℕ :=
  if peers ≠ [] ∧ foundAt peers old ≥ peers.length then peers.length - 1 else foundAt peers old

theorem cursorAt_nil (old : Option InstallId) : cursorAt [] old = 0 := by
  rw [cursorAt, if_neg fun h => h.1 rfl]
  cases old with
  | none => rfl
  | some old =>
    show (if old ∈ [] then List.idxOf old [] else 0) = 0
    exact if_neg List.not_mem_nil

theorem cursorAt_getElem {peers : List InstallId} (hnodup : peers.Nodup) {cursor : ℕ}
    (hlt : cursor < peers.length) : cursorAt peers peers[cursor]? = cursor := by
  have hfound : foundAt peers peers[cursor]? = cursor := by
    rw [List.getElem?_eq_getElem hlt]
    show (if peers[cursor] ∈ peers then peers.idxOf peers[cursor] else 0) = cursor
    rw [if_pos (List.getElem_mem hlt), hnodup.idxOf_getElem cursor hlt]
  rw [cursorAt, hfound]
  exact if_neg fun h => Nat.not_le.mpr hlt h.2

/-- The peers are the same again, and the cursor stays on its peer. -/
theorem refreshPeers_refresh (messenger : Messenger) (view : ViewModel) :
    (view.refreshPeers messenger).refreshPeers messenger = view.refreshPeers messenger := by
  obtain ⟨hnodup, -, hlt⟩ := view.refreshPeers_valid messenger
  have hfirst : (view.refreshPeers messenger).peerCursor =
      cursorAt (view.refreshPeers messenger).peers view.peers[view.peerCursor]? := rfl
  have hagain : (view.refreshPeers messenger).refreshPeers messenger =
      { view.refreshPeers messenger with
        peerCursor := cursorAt (view.refreshPeers messenger).peers
          (view.refreshPeers messenger).peers[(view.refreshPeers messenger).peerCursor]? } := rfl
  rw [hagain]
  generalize view.refreshPeers messenger = refreshed at *
  have hcursor : cursorAt refreshed.peers refreshed.peers[refreshed.peerCursor]? =
      refreshed.peerCursor := by
    by_cases hempty : refreshed.peers = []
    · rw [hempty, cursorAt_nil] at hfirst ⊢
      exact hfirst.symm
    · exact cursorAt_getElem hnodup (hlt hempty)
  rw [hcursor]

/-- What `snapshot` does to the view is what `refresh` does. -/
theorem prepareSnapshot_eq (messenger : Messenger) (view : ViewModel) :
    view.prepareSnapshot messenger = view.reconcileModel messenger := by
  rw [prepareSnapshot]
  split
  · rename_i hscreen
    rw [reconcileModel] at hscreen ⊢
    split
    · exact refreshPeers_refresh messenger _
    · rename_i hother
      rw [if_neg hother] at hscreen
      exact absurd hscreen hother
  · rfl

theorem reconcileModel_reconcile (messenger : Messenger) (view : ViewModel) :
    (view.reconcileModel messenger).reconcileModel messenger = view.reconcileModel messenger := by
  obtain ⟨hselects, hshows, -⟩ := view.reconcileModel_valid messenger
  have hagain : (view.reconcileModel messenger).reconcileModel messenger =
      if (view.reconcileModel messenger).screen = .mentions then
        (view.reconcileModel messenger).refreshPeers messenger
      else view.reconcileModel messenger := by
    rw [reconcileModel, ensureTimelineSelection_of_valid hselects, leaveVanished_of_shows hshows]
  rw [hagain, ← prepareSnapshot_eq, prepareSnapshot]
  split
  · rename_i hscreen
    split
    · exact refreshPeers_refresh messenger _
    · rfl
  · rfl

/-- A view that has followed the messenger is shown as before. -/
theorem snapshot_reconcile (messenger : Messenger) (view : ViewModel) :
    (view.reconcileModel messenger).snapshot texts messenger = view.snapshot texts messenger := by
  rw [snapshot, snapshot, prepareSnapshot_eq, prepareSnapshot_eq, reconcileModel_reconcile]

/-! ### The link of the view -/

/-- What the view says about the link. -/
def link (view : ViewModel) : TransportStatus × Bool := (view.transportStatus, view.radioReady)

theorem link_ensureTimelineSelection (messenger : Messenger) (view : ViewModel) :
    (view.ensureTimelineSelection messenger).link = view.link := by
  rw [ensureTimelineSelection]
  split
  · rfl
  · rfl

theorem link_reconcileModel (messenger : Messenger) (view : ViewModel) :
    (view.reconcileModel messenger).link = view.link := by
  have hleft : ((view.ensureTimelineSelection messenger).leaveVanished messenger).link =
      view.link := by
    rw [← link_ensureTimelineSelection messenger view, leaveVanished]
    split
    · dsimp only
      split
      · rfl
      · rfl
    · rfl
  rw [reconcileModel]
  split
  · exact hleft
  · exact hleft

theorem link_handleModal : (view.handleModal messenger event).2.link = view.link := by
  have hanswers := handleModal_answers messenger event view
  generalize (view.handleModal messenger event).1 = action at hanswers
  generalize (view.handleModal messenger event).2 = next at hanswers ⊢
  cases hanswers with
  | _ => rfl

/-- Two ways that both leave it. -/
theorem link_ite {c : Prop} [Decidable c] {first second : UiAction × ViewModel}
    (hfirst : first.2.link = view.link) (hsecond : second.2.link = view.link) :
    (if c then first else second).2.link = view.link := by
  split
  · exact hfirst
  · exact hsecond

theorem link_handleGlobalShortcut :
    (view.handleGlobalShortcut messenger event).2.link = view.link :=
  link_ite rfl (link_ite (link_ite rfl rfl)
    (link_ite rfl (link_ite rfl (link_ite rfl (link_ite rfl rfl)))))

theorem link_handleMenu : (view.handleMenu event).2.link = view.link := by
  refine link_ite rfl (link_ite ?_ rfl)
  dsimp only
  split
  · rfl
  · rfl

theorem link_openDetail : (view.openDetail messenger).link = view.link := by
  rw [openDetail]
  split
  · rfl
  · rfl

theorem link_handleTimeline : (view.handleTimeline messenger event).2.link = view.link := by
  refine link_ite rfl ?_
  dsimp only
  split
  · rfl
  · exact link_ite rfl rfl
  · exact link_openDetail
  · rfl

theorem link_handleDetail : (view.handleDetail messenger event).2.link = view.link :=
  link_ite rfl (link_ite rfl (link_ite rfl rfl))

theorem link_handleEdit : (view.handleEdit messenger event).2.link = view.link := by
  rw [handleEdit]
  split
  · refine link_ite rfl ?_
    dsimp only
    split_ifs
    · rfl
    · rfl
    · rfl
  · rfl
  · rfl
  · rfl
  · rfl
  · rfl
  · dsimp only
    split
    · rfl
    · rfl
  · rfl

theorem link_handleMentions : (view.handleMentions messenger event).2.link = view.link := by
  refine link_ite rfl (link_ite rfl (link_ite rfl (link_ite ?_ rfl)))
  split
  · exact link_ite rfl (link_ite rfl rfl)
  · rfl

theorem link_adopt {saved : Bool} (h : next.link = view.link) :
    (view.adopt saved next).2.link = view.link := by
  rw [adopt]
  dsimp only
  split
  · exact h
  · rfl

theorem link_handleSettings {environment : UiEnvironment} :
    (view.handleSettings messenger environment event).2.link = view.link :=
  link_ite rfl (link_ite rfl (link_ite rfl (link_ite (link_adopt rfl)
    (link_ite (link_adopt rfl) (link_ite (link_adopt rfl) rfl)))))

theorem link_composed (messageId : Option MessageId) :
    (view.composed messenger messageId).link = view.link :=
  link_ensureTimelineSelection messenger _

/-! ### Keys that ask for nothing -/

/-- If the key asks for nothing, the view is as before. -/
def Unseen (view : ViewModel) (result : UiAction × ViewModel) : Prop :=
  result.1 = {} → result.2 = view

namespace Unseen

theorem same (action : UiAction) : view.Unseen (action, view) := fun _ => rfl

theorem render : view.Unseen (.render, next) := by
  rintro ⟨⟩

theorem ite {c : Prop} [Decidable c] {first second : UiAction × ViewModel}
    (hfirst : view.Unseen first) (hsecond : view.Unseen second) :
    view.Unseen (if c then first else second) := by
  split
  · exact hfirst
  · exact hsecond

end Unseen

theorem unseen_handleModal : view.Unseen (view.handleModal messenger event) := by
  intro hidle
  have hanswers := handleModal_answers messenger event view
  generalize (view.handleModal messenger event).1 = action at hidle hanswers
  generalize (view.handleModal messenger event).2 = next at hanswers ⊢
  subst hidle
  cases hanswers with
  | ignored => rfl

theorem unseen_handleMenu : view.Unseen (view.handleMenu event) :=
  .ite .render (.ite .render (.same _))

theorem unseen_handleTimeline (hscreen : view.screen ≠ .detail) :
    view.Unseen (view.handleTimeline messenger event) := by
  refine .ite .render ?_
  dsimp only
  split
  · exact .render
  · exact .ite .render (.same _)
  · -- the screen is another one if a post has been opened
    intro hidle
    have hscreen' : (view.openDetail messenger).screen = view.screen := by
      have hsame := congrArg UiAction.renderRequired hidle
      exact not_not.mp (of_decide_eq_false hsame)
    change view.openDetail messenger = view
    rw [openDetail] at hscreen' ⊢
    split
    · rfl
    · rename_i hentry
      rw [if_neg hentry] at hscreen'
      exact absurd hscreen'.symm hscreen
  · exact .same _

theorem unseen_handleDetail : view.Unseen (view.handleDetail messenger event) :=
  .ite .render (.ite .render (.ite .render (.same _)))

theorem unseen_editBody {edit : TextEditor → Bool × TextEditor}
    (hedit : (edit view.draft.body).1 = false → (edit view.draft.body).2 = view.draft.body) :
    view.Unseen (view.editBody edit) := by
  intro hidle
  have hmoved : (edit view.draft.body).1 = false := congrArg UiAction.renderRequired hidle
  show { view with draft := { view.draft with body := (edit view.draft.body).2 } } = view
  rw [hedit hmoved]

theorem unseen_handleEdit : view.Unseen (view.handleEdit messenger event) := by
  rw [handleEdit]
  split
  · exact .ite .render .render
  · refine unseen_editBody ?_
    rw [TextEditor.moveLeft]
    split
    · exact fun _ => rfl
    · exact fun h => by cases h
  · refine unseen_editBody ?_
    rw [TextEditor.moveRight]
    split
    · exact fun _ => rfl
    · exact fun h => by cases h
  · refine unseen_editBody ?_
    rw [TextEditor.backspace]
    split
    · exact fun _ => rfl
    · exact fun h => by cases h
  · refine unseen_editBody ?_
    rw [TextEditor.deleteForward]
    split
    · exact fun _ => rfl
    · exact fun h => by cases h
  · exact .render
  · exact .render
  · exact .same _

theorem unseen_handleMentions :
    (view.refreshPeers messenger).Unseen (view.handleMentions messenger event) := by
  refine .ite .render (.ite .render (.ite .render (.ite ?_ (.same _))))
  split
  · exact .ite .render (.ite .render .render)
  · exact .same _

theorem unseen_handleSettings {environment : UiEnvironment} :
    view.Unseen (view.handleSettings messenger environment event) :=
  .ite .render (.ite .render (.ite .render (.ite .render (.ite .render (.ite .render (.same _))))))

end ViewModel

namespace Ui

variable {σ : Type} (commit : Option (StateCommit σ)) (environment : UiEnvironment)
  (event : KeyEvent) (ui : Ui σ)

theorem handleScreen_unseen (hidle : (ui.handleScreen commit environment event).1 = {}) :
    (ui.handleScreen commit environment event).2 =
      if ui.view.screen = .mentions then
        { ui with view := ui.view.refreshPeers ui.world.messenger }
      else ui := by
  obtain ⟨view, world⟩ := ui
  rw [handleScreen] at hidle ⊢
  dsimp only at hidle ⊢
  cases hscreen : view.screen with
  | menu =>
    rw [hscreen] at hidle
    exact congrArg (Ui.mk · world) (ViewModel.unseen_handleMenu hidle)
  | timeline =>
    rw [hscreen] at hidle
    have hne : view.screen ≠ .detail := by
      rw [hscreen]
      decide
    exact congrArg (Ui.mk · world) (ViewModel.unseen_handleTimeline hne hidle)
  | detail =>
    rw [hscreen] at hidle
    exact congrArg (Ui.mk · world) (ViewModel.unseen_handleDetail hidle)
  -- Enter always asks for a picture, whatever becomes of the draft
  | compose =>
    rw [hscreen] at hidle
    by_cases hkey : event.key = .enter
    · have henter := @handleCompose_enter σ commit environment event hkey ⟨view, world⟩
      dsimp only at hidle
      rw [henter] at hidle
      cases hidle
    · rw [handleCompose, if_neg hkey] at hidle
      dsimp only
      rw [handleCompose, if_neg hkey]
      exact congrArg (Ui.mk · world) (ViewModel.unseen_handleEdit hidle)
  | mentions =>
    rw [hscreen] at hidle
    exact congrArg (Ui.mk · world) (ViewModel.unseen_handleMentions hidle)
  | settings =>
    rw [hscreen] at hidle
    exact congrArg (Ui.mk · world) (ViewModel.unseen_handleSettings hidle)

/-- **A key that asks for nothing** has changed nothing but what a snapshot changes anyway. -/
theorem handle_unseen (hidle : (ui.handle commit environment event).1 = {}) :
    (ui.handle commit environment event).2 =
      { ui with view := ui.view.reconcileModel ui.world.messenger } := by
  rcases ui.handle_cases commit environment event with ⟨-, hhandle⟩ | ⟨-, -, hhandle⟩ |
    ⟨-, -, hhandle⟩ | ⟨-, hhandle⟩ <;> rw [hhandle] at hidle ⊢
  · exact congrArg (Ui.mk · ui.world) (ViewModel.unseen_handleModal hidle)
  -- Home and a shortcut always ask for a picture
  · cases hidle
  · cases hidle
  · rw [handleScreen_unseen commit environment event _ hidle]
    dsimp only
    split
    · -- the peers have been refreshed already
      rename_i hscreen
      refine congrArg (Ui.mk · ui.world) ?_
      have hprepared := ui.view.prepareSnapshot_eq ui.world.messenger
      rw [ViewModel.prepareSnapshot] at hprepared
      exact (if_pos hscreen).symm.trans hprepared
    · rfl

theorem handleScreen_link :
    (ui.handleScreen commit environment event).2.view.link = ui.view.link := by
  rw [handleScreen]
  split
  · exact ViewModel.link_handleMenu
  · exact ViewModel.link_handleTimeline
  · exact ViewModel.link_handleDetail
  · by_cases hkey : event.key = .enter
    · rw [handleCompose_enter hkey]
      dsimp only
      split
      · rfl
      · exact ViewModel.link_composed _
    · rw [handleCompose, if_neg hkey]
      exact ViewModel.link_handleEdit
  · exact ViewModel.link_handleMentions
  · exact ViewModel.link_handleSettings

theorem handle_link : (ui.handle commit environment event).2.view.link = ui.view.link := by
  have hfollowed := ui.view.link_reconcileModel ui.world.messenger
  rcases ui.handle_cases commit environment event with ⟨-, hhandle⟩ | ⟨-, -, hhandle⟩ |
    ⟨-, -, hhandle⟩ | ⟨-, hhandle⟩ <;> rw [hhandle, ← hfollowed]
  · exact ViewModel.link_handleModal
  · rfl
  · exact ViewModel.link_handleGlobalShortcut
  · exact handleScreen_link commit environment event _

end Ui

/-! ### The application -/

section App

variable {ε : Type} (texts : Texts) (radio : Radio ε)

/-- What the loop has told the view. -/
def App.told (app : App ε) : TransportStatus :=
  if app.reportedRadioReady then app.transportStatus else .offline

/-- The loop knows the link, and has told the view. -/
structure App.Informed (app : App ε) : Prop where
  reported : app.looping = true →
    app.reportedRadioReady = (app.attached && RadioRuntime.ready radio app.process)
  link : app.view.link = (app.told, decide (app.told ≠ .offline))
  looping : app.looping = false → app.running = false

/-- What the screen shows is what it would be given now. -/
def App.Current (app : App ε) : Prop :=
  app.shown = some (app.view.snapshot texts app.process.session.messenger).1

/-- As long as the application runs. -/
structure App.UpToDate (app : App ε) : Prop extends App.Informed radio app where
  current : app.running = true → app.Current texts

namespace App

variable {texts radio} {app : App ε} {m : Machine (App ε) Legacy}

theorem Informed.draw (h : app.Informed radio) (rendered : Bool) :
    (app.draw texts rendered).UpToDate texts radio := by
  have hview : (app.view.snapshot texts app.process.session.messenger).2 =
      app.view.reconcileModel app.process.session.messenger :=
    app.view.prepareSnapshot_eq _
  have hlink : ((app.view.snapshot texts app.process.session.messenger).2).link =
      (app.told, decide (app.told ≠ .offline)) := by
    rw [hview, ViewModel.link_reconcileModel]
    exact h.link
  cases rendered with
  | false =>
    refine ⟨⟨h.reported, hlink, fun _ => rfl⟩, ?_⟩
    rintro ⟨⟩
  | true =>
    refine ⟨⟨h.reported, hlink, h.looping⟩, fun _ => ?_⟩
    show some _ = some (ViewModel.snapshot texts app.process.session.messenger
      (app.view.snapshot texts app.process.session.messenger).2).1
    -- a snapshot of a view that is up to date is the same snapshot
    rw [hview, ViewModel.snapshot_reconcile]
    rfl

/-- The session and the view have changed, but not what the view says about the link. -/
theorem Informed.congr (h : app.Informed radio) (session : Session) (view : ViewModel)
    (hlink : view.link = app.view.link) :
    ({ app with process := { app.process with session := session }, view := view } :
      App ε).Informed radio :=
  ⟨h.reported, hlink.trans h.link, h.looping⟩

/-- What the key handler does with an answer: a picture that is not asked for is not needed. -/
theorem wp_follow (h : m.memory.Informed radio) (action : UiAction) (rendered : Bool)
    (hunseen : action = {} → m.memory.running = true → m.memory.Current texts) :
    wp (follow texts action rendered) (fun _ m' => m'.memory.UpToDate texts radio)
      (fun _ => True) m := by
  have hstopped {app : App ε} (h : app.Informed radio) :
      (app.requestStop).UpToDate texts radio := by
    refine ⟨⟨h.reported, h.link, fun _ => rfl⟩, ?_⟩
    rintro ⟨⟩
  obtain ⟨render, exit, delete⟩ := action
  cases delete with
  | true =>
    rw [follow, if_pos rfl, wp_bind, onProcess, wp_zoom, Process.onSession, wp_within]
    refine wp_true fun deleted m' => ?_
    cases deleted with
    | true => exact hstopped (h.congr m'.memory m.memory.view rfl)
    -- the data is still there, and the error is shown
    | false => exact (h.congr m'.memory m.memory.view.reportStorageFailure rfl).draw rendered
  | false =>
    rw [follow, if_neg Bool.false_ne_true, wp_update]
    cases render with
    | true =>
      have hdrawn : (m.memory.draw texts rendered).UpToDate texts radio := h.draw rendered
      show (if exit = true ∧ (true = true → rendered = true) then
        (m.memory.draw texts rendered).requestStop
        else m.memory.draw texts rendered).UpToDate texts radio
      split
      · exact hstopped hdrawn.toInformed
      · exact hdrawn
    | false =>
      show (if exit = true ∧ (false = true → rendered = true) then m.memory.requestStop
        else m.memory).UpToDate texts radio
      split
      · exact hstopped h
      · rename_i hexit
        cases exit with
        | true => exact absurd ⟨rfl, fun h => by cases h⟩ hexit
        | false => exact ⟨h, hunseen rfl⟩

variable (texts radio)

theorem wp_handleKey_upToDate (h : m.memory.UpToDate texts radio) (key : ℕ)
    (random : Option (Vector UInt8 16)) (now : Option Int64) (rendered : Bool) :
    wp (handleKey texts key random now rendered) (fun _ m' => m'.memory.UpToDate texts radio)
      (fun _ => True) m := by
  rw [handleKey, wp_bind, wp_memory]
  split
  swap
  -- after the end a key changes nothing
  · exact h
  rename_i hrunning
  rw [wp_bind]
  refine wp_mono (wp_handle (semanticKey key) m.memory.view m) ?_ (fun _ _ => trivial)
  rintro ⟨action, view⟩ m' ⟨hasked, commit, environment, haction, hview, hmessenger⟩
  dsimp only at haction hview ⊢
  rw [wp_bind, wp_update]
  have hlink : view.link = m.memory.view.link := by
    rw [← hview]
    exact Ui.handle_link _ _ _ _
  refine wp_follow ?_ action rendered ?_
  · have hinformed := h.toInformed.congr m'.memory.process.session view hlink
    rw [setView]
    dsimp only
    rw [hasked.session]
    exact hinformed
  · -- nothing is asked for, so the view and the messenger are shown already
    intro hidle _
    subst hidle
    have hunseen := Ui.handle_unseen _ _ _ _ haction
    have hcurrent := h.current hrunning
    have hshown : m'.memory.shown = m.memory.shown := by rw [hasked.session]
    rw [hunseen] at hview hmessenger
    show m'.memory.shown = some (view.snapshot texts m'.memory.process.session.messenger).1
    rw [hshown, ← hmessenger, ← hview]
    dsimp only [Messenger.world]
    rw [ViewModel.snapshot_reconcile]
    exact hcurrent

/-- What follows a pump that has changed the process, and says so if it has changed the
messenger. -/
theorem wp_report_upToDate {before : App ε} (h : before.UpToDate texts radio)
    (hattached : before.attached = true)
    (hframe : m.memory = { before with process := m.memory.process }) {changed : Bool}
    (hreports : changed = true ∨ m.memory.process.messenger = before.process.messenger)
    (rendered : Bool) : wp (report texts radio changed rendered)
      (fun _ m' => m'.memory.UpToDate texts radio) (fun _ => True) m := by
  rw [report, wp_bind, wp_memory]
  have hlooping : m.memory.looping = false → m.memory.running = false := by
    rw [hframe]
    exact h.looping
  have hattached : m.memory.attached = true := by
    rw [hframe]
    exact hattached
  dsimp only
  split
  · rw [wp_bind, wp_update, App.render, wp_update]
    have hinformed : ({ m.memory with
        reportedRadioReady := RadioRuntime.ready radio m.memory.process
        view := m.memory.view.setTransportStatus
          (if RadioRuntime.ready radio m.memory.process then m.memory.transportStatus
          else .offline) } : App ε).Informed radio := by
      refine ⟨fun _ => ?_, rfl, hlooping⟩
      dsimp only
      rw [hattached, Bool.true_and]
    exact hinformed.draw rendered
  -- the link is as it was told, so that only the messenger can be new
  · rename_i hready
    rw [ne_eq, not_not] at hready
    have hinformed : m.memory.Informed radio := by
      refine ⟨fun _ => ?_, ?_, hlooping⟩
      · rw [hattached, Bool.true_and, hready]
      · have hlink := h.link
        rw [hframe]
        exact hlink
    split
    · rw [wp_bind, wp_update, App.render, wp_update]
      have hfollowed : (m.memory.setView
          (m.memory.view.reconcileModel m.memory.process.session.messenger)).Informed radio :=
        ⟨hinformed.reported, (ViewModel.link_reconcileModel _ _).trans hinformed.link,
          hinformed.looping⟩
      exact hfollowed.draw rendered
    -- the pump has left the messenger alone, so the old picture will do
    · rename_i hchanged
      refine ⟨hinformed, fun hrunning => ?_⟩
      have hmessenger := hreports.resolve_left hchanged
      have hrunning : before.running = true := by
        rw [hframe] at hrunning
        exact hrunning
      have hcurrent := h.current hrunning
      have hshown : m.memory.shown = before.shown := by rw [hframe]
      have hview : m.memory.view = before.view := by rw [hframe]
      rw [Current, hshown, hview, hcurrent]
      show some (before.view.snapshot texts before.process.messenger).1 =
        some (before.view.snapshot texts m.memory.process.messenger).1
      rw [hmessenger]

theorem wp_pumpRadio_upToDate (h : m.memory.UpToDate texts radio) (now : ℕ) (state : ε)
    (rendered : Bool) :
    wp (do
      App.onProcess (Process.setRadio state)
      App.pumpRadio texts radio now rendered) (fun _ m' => m'.memory.UpToDate texts radio)
      (fun _ => True) m := by
  rw [wp_bind, onProcess, wp_zoom, Process.setRadio, wp_update, pumpRadio, wp_bind, wp_memory]
  dsimp only
  split
  · rename_i hattached
    rw [wp_bind, onProcess, wp_zoom]
    refine wp_mono (RadioRuntime.reports_pump radio now _) (fun changed m₁ hreports => ?_)
      (fun _ h => h)
    refine wp_report_upToDate texts radio h hattached ?_ hreports rendered
    rfl
  -- without a transport there is nothing to pump, and the loop has told so
  · rename_i hattached
    refine ⟨⟨fun hlooping => ?_, h.link, h.looping⟩, h.current⟩
    have hreported := h.reported hlooping
    rw [Bool.not_eq_true] at hattached
    rw [hattached, Bool.false_and] at hreported
    show m.memory.reportedRadioReady = (m.memory.attached && _)
    rw [hreported, hattached, Bool.false_and]

theorem UpToDate.endTurn (h : app.UpToDate texts radio) (scriptFailed : Bool) :
    (app.endTurn scriptFailed).UpToDate texts radio := by
  cases scriptFailed with
  | true =>
    refine ⟨⟨?_, h.link, fun _ => rfl⟩, ?_⟩
    · rintro ⟨⟩
    · rintro ⟨⟩
  -- whoever still runs was in the loop
  | false =>
    refine ⟨⟨fun hrunning => ?_, h.link, id⟩, h.current⟩
    change app.running = true at hrunning
    refine h.reported (Bool.eq_true_of_not_eq_false fun hlooping => ?_)
    rw [h.looping hlooping] at hrunning
    cases hrunning

theorem wp_turn_upToDate (h : m.memory.UpToDate texts radio) (now : ℕ) (state : ε)
    (rendered scriptFailed : Bool) :
    wp (do
      App.onProcess (Process.setRadio state)
      App.turn texts radio now rendered scriptFailed) (fun _ m' => m'.memory.UpToDate texts radio)
      (fun _ => True) m := by
  have hpumped := wp_pumpRadio_upToDate texts radio h now state rendered
  rw [wp_bind] at hpumped ⊢
  refine wp_mono hpumped (fun _ m₁ h₁ => ?_) (fun _ h => h)
  rw [turn, wp_bind]
  exact wp_mono h₁ (fun _ _ h₂ => h₂.endTurn texts radio scriptFailed) (fun _ h => h)

/-- The end of the application, which leaves the screen alone. -/
theorem wp_finish_upToDate (h : m.memory.UpToDate texts radio) (hlooping : m.memory.looping = false)
    (state : ε) (scriptPending : Bool) :
    wp (do
      App.onProcess (Process.setRadio state)
      App.finish radio scriptPending) (fun _ m' => m'.memory.UpToDate texts radio)
      (fun _ => True) m := by
  let Over (app : App ε) : Prop := app.looping = false ∧ app.running = false ∧
    app.view.link = (app.told, decide (app.told ≠ .offline))
  have hprocess {α : Type} (program : RuntimeM ε α) : Maintains Over (onProcess program) := by
    intro m hover
    rw [onProcess, wp_zoom]
    exact wp_true fun _ _ => hover
  have hfailed : Maintains Over
      (Prog.update fun app => if scriptPending then app.requestFailure else app : AppM ε Unit) := by
    refine .update fun app hover => ?_
    split
    · exact ⟨hover.1, rfl, hover.2.2⟩
    · exact hover
  have hstop : Maintains Over (stopRadio radio : AppM ε Unit) := by
    refine .bind .memory fun app => ?_
    split
    · exact hprocess _
    · exact .pure _
  have hfinish : Maintains Over (finish radio scriptPending : AppM ε Unit) :=
    .bind hfailed fun _ => .bind hstop fun _ => hprocess _
  rw [wp_bind]
  refine wp_mono (hprocess _ m ⟨hlooping, h.looping hlooping, h.link⟩) (fun _ m₁ hover => ?_)
    (fun _ h => h)
  refine wp_mono (hfinish m₁ hover) ?_ (fun _ h => h)
  rintro _ m₂ ⟨hlooping, hrunning, hlink⟩
  refine ⟨⟨fun h => ?_, hlink, fun _ => hrunning⟩, fun h => ?_⟩
  · rw [hlooping] at h
    cases h
  · rw [hrunning] at h
    cases h

/-- The application that has just been built. -/
theorem create_upToDate (start : AppStart ε) (process : Process ε) :
    (create texts radio start process).UpToDate texts radio := by
  have hbuilt : (build radio start process).Informed radio :=
    ⟨fun _ => rfl, rfl, fun h => by cases h⟩
  have hclosed {app : App ε} (h : app.UpToDate texts radio) (hlooping : app.looping = true) :
      ({ app with looping := app.running } : App ε).UpToDate texts radio :=
    ⟨⟨fun _ => h.reported hlooping, h.link, id⟩, h.current⟩
  rw [create]
  cases hrunning : (build radio start process).running with
  | true =>
    refine hclosed (hbuilt.draw start.rendered) ?_
    cases start.rendered with
    | true => rfl
    | false => rfl
  | false =>
    refine hclosed ⟨⟨hbuilt.reported, hbuilt.link, fun _ => rfl⟩, ?_⟩ rfl
    rintro ⟨⟩

end App

namespace AppWorld

/-- Whatever a program that keeps the screen up to date leaves behind. -/
theorem perform_upToDate {world : AppWorld ε} {program : AppM ε Unit}
    (hworld : ∀ app, world.app = some app → app.UpToDate texts radio)
    (hprogram : ∀ m : Machine (App ε) Legacy, m.memory.UpToDate texts radio →
      wp program (fun _ m' => m'.memory.UpToDate texts radio) (fun _ => True) m)
    (faults : List Fault) :
    ∀ app, (world.perform program faults).app = some app → app.UpToDate texts radio := by
  intro app happ
  obtain ⟨before, m', hbefore, hrun, rfl⟩ := perform_eq_some happ
  have hafter := hprogram ⟨before, world.legacy, faults⟩ (hworld before hbefore)
  unfold wp at hafter
  rw [hrun] at hafter
  exact hafter

theorem step_upToDate {world : AppWorld ε}
    (hworld : ∀ app, world.app = some app → app.UpToDate texts radio) (event : AppEvent ε) :
    ∀ app, (world.step texts radio event).app = some app → app.UpToDate texts radio := by
  cases event with
  | key key random now rendered faults =>
    exact perform_upToDate texts radio hworld
      (fun _ h => App.wp_handleKey_upToDate texts radio h key random now rendered) faults
  | displayDeleted =>
    refine perform_upToDate texts radio hworld (fun m h => ?_) []
    rw [wp_update]
    refine ⟨⟨h.reported, h.link, fun _ => rfl⟩, ?_⟩
    rintro ⟨⟩
  | turn now state rendered scriptFailed faults =>
    refine perform_upToDate texts radio hworld (fun m h => ?_) faults
    rw [wp_bind, wp_memory]
    split
    · exact App.wp_turn_upToDate texts radio h now state rendered scriptFailed
    · exact h
  | finish state scriptPending =>
    refine perform_upToDate texts radio hworld (fun m h => ?_) []
    rw [wp_bind, wp_memory]
    split
    · rename_i hlooping
      rw [Bool.not_eq_true'] at hlooping
      exact App.wp_finish_upToDate texts radio h hlooping state scriptPending
    · exact h

/-- The screen is up to date after every run. -/
theorem run_upToDate (disk : Disk) (start : AppStart ε) (events : List (AppEvent ε)) :
    ∀ app, (run texts radio disk start events).app = some app → app.UpToDate texts radio := by
  induction events using List.reverseRecOn with
  | nil =>
    intro app happ
    change (AppWorld.start texts radio disk start).app = some app at happ
    rw [AppWorld.start] at happ
    rcases hboot : Session.bootstrap start.environment start.random ⟨{}, disk, start.faults⟩ with
      ⟨_, m⟩ | left <;> rw [hboot] at happ
    · cases happ
      exact App.create_upToDate texts radio start _
    · cases happ
  | append_singleton events event ih =>
    rw [run_concat]
    exact step_upToDate texts radio ih event

end AppWorld

/-- **The screen is never out of date.**  Whatever is stored, whichever keys come in, whatever
the radio brings and whatever fails: as long as the application runs, the screen shows the
snapshot that the view would give of the messenger now, and it tells whether the link is ready
now. -/
theorem screen_shows_current_state (texts : Texts) (radio : Radio ε) (disk : Disk)
    (start : AppStart ε) (events : List (AppEvent ε)) (app : App ε)
    (happ : (AppWorld.run texts radio disk start events).app = some app)
    (hrunning : app.running = true) :
    let ready := app.attached && RadioRuntime.ready radio app.process
    let status := if ready then app.transportStatus else .offline
    ∃ shown, app.shown = some shown ∧
      shown = (app.view.snapshot texts app.process.session.messenger).1 ∧
      shown.transportStatus = status ∧ shown.radioReady = decide (status ≠ .offline) := by
  intro ready status
  have hworld := AppWorld.run_upToDate texts radio disk start events app happ
  have hlooping : app.looping = true := by
    refine Bool.eq_true_of_not_eq_false fun hended => ?_
    rw [hworld.looping hended] at hrunning
    cases hrunning
  have hlink := hworld.link
  rw [App.told, hworld.reported hlooping] at hlink
  have hfollowed := app.view.prepareSnapshot_eq app.process.session.messenger
  have hshown := app.view.link_reconcileModel app.process.session.messenger
  rw [← hfollowed, hlink] at hshown
  exact ⟨_, hworld.current hrunning, rfl, (Prod.mk.inj hshown).1, (Prod.mk.inj hshown).2⟩

/-- Two letters are typed and sent, and the radio is pumped. -/
def typedHello : List (AppEvent Link) :=
  [.key 10 none none true [], .key 110 none none true [], .key 104 none none true [],
    .key 105 none none true [], .turn 0 {} true false [],
    .key 10 (some (Vector.replicate 16 2)) none true [], .turn 10 {} true false []]

/-- A start over a link that takes everything. -/
def AppStart.linked : AppStart Link where
  environment := .available
  random := some (Vector.replicate 16 1)
  link := .loRa
  radio := {}

def Texts.blank : Texts := ⟨fun _ _ => [], fun _ => []⟩

theorem screen_shows_current_state_typedHello :
    ∃ app shown, (AppWorld.run Texts.blank Link.radio ⟨.missing, .missing⟩ .linked
        typedHello).app = some app ∧ app.running = true ∧ app.shown = some shown ∧
      shown = (app.view.snapshot Texts.blank app.process.session.messenger).1 ∧
      shown.transportStatus = .loRa := by
  have hrun : (AppWorld.run Texts.blank Link.radio ⟨.missing, .missing⟩ .linked
      typedHello).app.map (fun app => (app.running,
        app.attached && RadioRuntime.ready Link.radio app.process, app.transportStatus)) =
      some (true, true, .loRa) := by decide +kernel
  obtain ⟨app, happ, hstate⟩ := Option.map_eq_some_iff.mp hrun
  obtain ⟨hrunning, hlink⟩ := Prod.mk.inj hstate
  obtain ⟨hready, hstatus⟩ := Prod.mk.inj hlink
  obtain ⟨shown, hshown, hsnapshot, hcurrent, -⟩ := screen_shows_current_state Texts.blank
    Link.radio ⟨.missing, .missing⟩ .linked typedHello app happ hrunning
  refine ⟨app, shown, happ, hrunning, hshown, hsnapshot, ?_⟩
  rw [hcurrent, hready, hstatus]
  rfl

end App

end Lora
