/-
Runs of the view.

Keys, snapshots and reports come in any order, and between any two of them the messenger
may be another one: a step of `UiStep` puts an arbitrary messenger in its place.

* `UiStep`, `Ui.run` — the steps of a run;
* `snapshot_selection_valid` — every snapshot of a run shows a valid selection;
* `settings_return_checked` — only the way back from the settings leads to a vanished post.
-/
import LoraMessenger.ViewStep

namespace Lora

inductive UiStep (σ : Type) where
  | key (environment : UiEnvironment) (event : KeyEvent)
  | reportStorageFailure
  | refresh
  | snapshot (texts : Texts)
  | setRadioReady (ready : Bool)
  | setTransportStatus (status : TransportStatus)
  | change (world : MessengerWorld σ)

namespace ViewModel

def reportStorageFailure (view : ViewModel) : ViewModel :=
  view.showError (commandErrorStringId .persistenceUnavailable)

def setRadioReady (view : ViewModel) (ready : Bool) : ViewModel :=
  { view with radioReady := ready, transportStatus := if ready then .loRa else .offline }

def setTransportStatus (view : ViewModel) (status : TransportStatus) : ViewModel :=
  { view with transportStatus := status, radioReady := status ≠ .offline }

end ViewModel

namespace Ui

variable {σ : Type} (commit : Option (StateCommit σ))

/-- A step, and the action of a key. -/
def step (ui : Ui σ) : UiStep σ → UiAction × Ui σ
  | .key environment event => ui.handle commit environment event
  | .reportStorageFailure => ({}, { ui with view := ui.view.reportStorageFailure })
  | .refresh => ({}, { ui with view := ui.view.reconcileModel ui.world.messenger })
  | .snapshot texts => ({}, { ui with view := (ui.view.snapshot texts ui.world.messenger).2 })
  | .setRadioReady ready => ({}, { ui with view := ui.view.setRadioReady ready })
  | .setTransportStatus status => ({}, { ui with view := ui.view.setTransportStatus status })
  | .change world => ({}, { ui with world := world })

def run (ui : Ui σ) (steps : List (UiStep σ)) :
    Ui σ := steps.foldl (fun ui step => (ui.step commit step).2) ui

theorem run_concat (ui : Ui σ) (steps : List (UiStep σ)) (step : UiStep σ) :
    ui.run commit (steps ++ [step]) = ((ui.run commit steps).step commit step).2 := by
  rw [run, List.foldl_append]
  rfl

/-- A new view over a messenger. -/
def start (world : MessengerWorld σ) (locale : Locale) (recoveryRequired skipTitle : Bool) : Ui σ :=
  { view := ViewModel.create world.messenger locale recoveryRequired skipTitle, world := world }

end Ui

/-- **Every snapshot shows a valid selection**, whatever has happened before.  Something is
selected if and only if the timeline is not empty, and it is in the timeline.  The timeline
page shows it in one row, and marks that row only; the detail page shows a post that is in
the timeline; the mentions page marks one of its options, which are distinct peers. -/
theorem snapshot_selection_valid {σ : Type} (commit : Option (StateCommit σ))
    (world : MessengerWorld σ)
    (locale : Locale) (recoveryRequired skipTitle : Bool) (steps : List (UiStep σ))
    (texts : Texts) :
    let ui := (Ui.start world locale recoveryRequired skipTitle).run commit steps
    let messenger := ui.world.messenger
    let (shown, view) := ui.view.snapshot texts messenger
    (view.selectedMessageId.isSome ↔ messenger.timeline.entries ≠ []) ∧
    (∀ id, view.selectedMessageId = some id → (messenger.timeline.find id).isSome) ∧
    match shown.page with
    | .timeline page =>
      page.rows.length ≤ 2 ∧ page.selectedMessageId = view.selectedMessageId ∧
      ∀ id, page.selectedMessageId = some id →
        ∃ before row after, page.rows = before ++ row :: after ∧ row.messageId = id ∧
          row.selected = true ∧
          ∀ other ∈ before ++ after, other.messageId ≠ id ∧ other.selected = false
    | .detail page =>
      ∃ id, page.messageId = some id ∧ (messenger.timeline.find id).isSome ∧
        page.scrollLine ≤ page.maximumScrollLine
    | .mentions page =>
      page.options.length ≤ 3 ∧
      (page.totalOptions ≠ 0 → ∃ before option after, page.options = before ++ option :: after ∧
        option.cursor = true ∧ ∀ other ∈ before ++ after, other.cursor = false) ∧
      (page.options.map MentionOptionSnapshot.installId).Nodup ∧
      ∀ identity, messenger.identity = some identity →
        ∀ option ∈ page.options, option.installId ≠ identity.installId
    | _ => True := by
  intro ui messenger
  obtain ⟨hselects, hshows, hpeers⟩ := ViewModel.prepareSnapshot_valid messenger ui.view
  show _ ∧ _ ∧ match (ui.view.prepareSnapshot messenger).pageSnapshot texts messenger with
    | .timeline page => _
    | .detail page => _
    | .mentions page => _
    | _ => True
  generalize ui.view.prepareSnapshot messenger = view at *
  refine ⟨?_, hselects.2, ?_⟩
  · rw [Option.isSome_iff_ne_none]
    exact not_congr hselects.1
  rw [ViewModel.pageSnapshot]
  cases hscreen : view.screen with
  | timeline =>
    have hselected : (view.timelineSnapshot messenger).selectedMessageId =
        view.selectedMessageId := by
      rw [ViewModel.timelineSnapshot]
      split
      · rfl
      · rfl
    refine ⟨ViewModel.length_timelineSnapshot_rows, hselected, fun id hid => ?_⟩
    exact ViewModel.timelineSnapshot_rows hselects (hselected ▸ hid)
  | detail => exact ViewModel.detailSnapshot_present hshows hscreen
  | mentions =>
    refine ⟨ViewModel.length_mentionsSnapshot_options, ?_⟩
    by_cases hempty : view.peers = []
    · rw [ViewModel.mentionsSnapshot, if_pos hempty]
      exact ⟨fun hne => absurd rfl hne, List.nodup_nil, fun _ _ _ hoption => by cases hoption⟩
    · obtain ⟨hcursor, hnodup, hothers⟩ :=
        ViewModel.mentionsSnapshot_options (hpeers hscreen) hempty
      refine ⟨fun _ => hcursor, hnodup, fun identity hidentity option hoption heq => ?_⟩
      refine hothers option hoption ?_
      rw [ViewModel.ownInstallId, hidentity, Option.map_some, heq]
  | _ => trivial

/-! ### The way back -/

namespace Ui

variable {σ : Type} (commit : Option (StateCommit σ)) (environment : UiEnvironment)
    (event : KeyEvent)

/-- Where a key may lead: the detail screen shows a post of the timeline, and a draft or
the settings that were opened from a post that has vanished since are left for the
timeline. -/
structure ReturnsChecked (ui next : Ui σ) : Prop where
  shows : next.view.ShowsPresent next.world.messenger
  compose : ui.view.Composing → ui.view.composeReturnScreen = .detail →
    ui.view.detailEntry ui.world.messenger = none → ¬next.view.Composing →
      next.view.screen = .timeline
  settings : ui.view.activeModal.id = .none → ui.view.ReturnsToVanished ui.world.messenger event →
    next.view.screen = .timeline

theorem handle_returnsChecked (ui : Ui σ) :
    ReturnsChecked event ui (ui.handle commit environment event).2 ↔
      ¬(ui.view.activeModal.id = .none ∧ ui.view.ReturnsToVanished ui.world.messenger event) := by
  have hshows := ui.handle_shows commit environment event
  refine ⟨fun h => hshows.mp h.shows, fun h =>
    ⟨hshows.mpr h, ?_, fun hid hvanished => absurd ⟨hid, hvanished⟩ h⟩⟩
  exact ViewModel.timeline_of_drafting (ui.handle_drafting commit environment event)

end Ui

/-- **Only the way back from the settings leads to a vanished post.**  A run never shows the
detail of a post that is not there, if and only if Escape is never pressed on a settings
screen that was opened from the detail of a post that has left the timeline since. -/
theorem settings_return_checked {σ : Type} (commit : Option (StateCommit σ))
    (world : MessengerWorld σ)
    (locale : Locale) (recoveryRequired skipTitle : Bool) (steps : List (UiStep σ)) :
    let start := Ui.start world locale recoveryRequired skipTitle
    (∀ before environment event after, steps = before ++ .key environment event :: after →
      let ui := start.run commit before
      Ui.ReturnsChecked event ui (ui.handle commit environment event).2) ↔
    ∀ before environment event after, steps = before ++ .key environment event :: after →
      let ui := start.run commit before
      ¬(ui.view.activeModal.id = .none ∧ ui.view.ReturnsToVanished ui.world.messenger event) := by
  intro start
  constructor
  · intro h before environment event after hsteps
    exact (Ui.handle_returnsChecked commit environment event _).mp
      (h before environment event after hsteps)
  · intro h before environment event after hsteps
    exact (Ui.handle_returnsChecked commit environment event _).mpr
      (h before environment event after hsteps)

/-- The timeline after one more post has been received. -/
def Timeline.receiving (timeline : Timeline) (post : PostPayload) : Timeline :=
  match timeline.insertReceived post with
  | .ok inserted => inserted.timeline
  | .error _ => timeline

/-- A timeline with room for one post, and the post in it. -/
def singleTimeline : Timeline :=
  Timeline.receiving
    { Timeline.empty with
      capacity := 1
      capacity_pos := by decide
      capacity_le := by decide
      length_le := by decide
      queued_le := by decide } samplePost

def laterPost : PostPayload :=
  { samplePost with
    messageId := ⟨⟨[2, 2, 3, 4, 5, 6, 0x47, 8, 0x89, 10, 11, 12, 13, 14, 15, 16], rfl⟩, by decide⟩
    senderSequence := 2
    senderSequence_ne := by decide
    replyTo_ne := by decide }

def singleStart : Ui Unit := Ui.start ⟨⟨none, singleTimeline⟩, (), []⟩ .english false true

/-- The post is opened and then the settings.  A second post evicts the first. -/
def evictingSteps : List (UiStep Unit) :=
  [.key {} ⟨.enter, 0⟩, .key {} ⟨.character, 's'.toNat⟩,
    .change ⟨⟨none, singleTimeline.receiving laterPost⟩, (), []⟩]

/-- Escape then leads to the detail screen of a post that is not there. -/
theorem settings_return_unchecked :
    let ui := singleStart.run none evictingSteps
    let next := (ui.handle none {} ⟨.escape, 0⟩).2
    next.view.screen = .detail ∧ (next.view.detailEntry next.world.messenger).isSome = false ∧
      ¬∀ before environment event after,
        evictingSteps ++ [.key {} ⟨.escape, 0⟩] = before ++ .key environment event :: after →
        let ui := singleStart.run none before
        Ui.ReturnsChecked event ui (ui.handle none environment event).2 := by
  have hscreen : ((singleStart.run none evictingSteps).handle none {} ⟨.escape, 0⟩).2.view.screen =
      .detail := by
    decide +kernel
  have hentry : let next := ((singleStart.run none evictingSteps).handle none {} ⟨.escape, 0⟩).2
      (next.view.detailEntry next.world.messenger).isSome = false := by
    decide +kernel
  refine ⟨hscreen, hentry, fun h => ?_⟩
  have hshown := (h evictingSteps {} ⟨.escape, 0⟩ [] rfl).shows hscreen
  rw [hentry] at hshown
  cases hshown

end Lora
