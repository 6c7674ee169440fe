/-
What a key does to the view.

A key is handled by the open modal, by a shortcut or by the screen.  The lemmas below say
for each of them, once and for all, what it may approve, what becomes of the modal, whether
the detail screen shows a post that is there, and what becomes of the draft.

* `Quiet` — nothing is approved, and no modal is confirmed;
* `Drafting` — what may become of the draft;
* `Ui.handle_cases` — who handles a key.
-/
import LoraMessenger.ViewSnapshot

namespace Lora

/-- Nothing is approved, and the modal stays or is a new one. -/
structure Quiet (view : ViewModel) (result : UiAction × ViewModel) : Prop where
  exit : result.1.exitApproved = false
  delete : result.1.deleteDataApproved = false
  modal : result.2.activeModal = view.activeModal ∨ result.2.activeModal.confirmSelected = false

/-- The draft is on the screen. -/
def ViewModel.Composing (view : ViewModel) : Prop := view.screen = .compose ∨
    view.screen = .mentions

/-- The call of the editor that a key stands for. -/
def editOf (event : KeyEvent) : Option EditorCall :=
  match event.key with
  | .character => some (.insert event.character)
  | .left => some .moveLeft
  | .right => some .moveRight
  | .backspace => some .backspace
  | .delete => some .deleteForward
  | _ => none

/-- What may become of the draft at a key, and of the screen it is on.  A `reset` needs a
reason. -/
inductive Drafting (messenger : Messenger) (event : KeyEvent) (mayReset : Prop)
    (view next : ViewModel) : Prop
  | keep (hdraft : next.draft = view.draft) (hnext : view.Composing → next.Composing)
  | edit {call : EditorCall} (hcall : editOf event = some call) (hscreen : view.screen = .compose)
    (hdraft : next.draft = { view.draft with body := (view.draft.body.call call).2 })
    (hnext : next.Composing)
  | remove (peer : InstallId) (hkey : event.key = .enter) (hscreen : view.screen = .mentions)
    (hdraft : next.draft = { view.draft with mentions := view.draft.mentions.erase peer })
    (hnext : next.Composing)
  | add {peer : InstallId} (hkey : event.key = .enter) (hscreen : view.screen = .mentions)
    (hpeer : ViewModel.ownInstallId messenger ≠ some peer) (hnew : peer ∉ view.draft.mentions)
    (hroom : view.draft.mentions.length < kMaxMentions)
    (hdraft : next.draft = { view.draft with mentions := view.draft.mentions ++ [peer] })
    (hnext : next.Composing)
  | fresh (replyTo : Option MessageId) (mention : Option InstallId) (hscreen : ¬view.Composing)
    (hmention : ∀ peer ∈ mention, ViewModel.ownInstallId messenger ≠ some peer)
    (hdraft : next.draft = { view.draft.reset with replyTo := replyTo, mentions := mention.toList })
    (hnext : next.Composing)
  | reset (hreason : mayReset) (hdraft : next.draft = view.draft.reset)
    (hnext : view.Composing → next.screen = .timeline ∨
      next.screen = (view.closeCompose messenger).screen)

namespace ViewModel

variable {messenger : Messenger} {view next : ViewModel} {event : KeyEvent}
    {environment : UiEnvironment}

/-! ### The detail screen -/

theorem showsPresent_of_eq (screen : ScreenId) (h : view.screen = screen) (hne : screen ≠ .detail) :
    view.ShowsPresent messenger :=
  fun hscreen => absurd (h.symm.trans hscreen) hne

theorem ShowsPresent.congr (h : view.ShowsPresent messenger) (hscreen : next.screen = view.screen)
    (hdetail : next.detailMessageId = view.detailMessageId) : next.ShowsPresent messenger := by
  intro hnext
  rw [detailEntry, hdetail]
  exact h (hscreen ▸ hnext)

theorem closeCompose_shows : (view.closeCompose messenger).ShowsPresent messenger := by
  intro hscreen
  by_cases hreturn : view.composeReturnScreen = .detail ∧ (view.detailEntry messenger).isSome
  · exact hreturn.2
  · have hother : (view.closeCompose messenger).screen =
        if view.composeReturnScreen = .settings then .settings else .timeline :=
      if_neg hreturn
    rw [hscreen] at hother
    split at hother
    · cases hother
    · cases hother

/-- The compose screen is not left for a post that has vanished. -/
theorem closeCompose_timeline (hreturn : view.composeReturnScreen = .detail)
    (hvanished : view.detailEntry messenger = none) : (view.closeCompose messenger).screen =
      .timeline := by
  rw [closeCompose, hreturn, hvanished]
  rfl

theorem timeline_of_drafting {mayReset : Prop} (h : Drafting messenger event mayReset view next)
    (hcomposing : view.Composing) (hreturn : view.composeReturnScreen = .detail)
    (hvanished : view.detailEntry messenger = none) (hleft : ¬next.Composing) : next.screen =
      .timeline := by
  rcases h with ⟨-, hnext⟩ | ⟨-, -, -, hnext⟩ | ⟨_, -, -, -, hnext⟩ | ⟨-, -, -, -, -, -, hnext⟩ |
    ⟨_, _, -, -, -, hnext⟩ | ⟨-, -, hnext⟩
  · exact absurd (hnext hcomposing) hleft
  · exact absurd hnext hleft
  · exact absurd hnext hleft
  · exact absurd hnext hleft
  · exact absurd hnext hleft
  · rcases hnext hcomposing with hnext | hnext
    · exact hnext
    · exact hnext.trans (closeCompose_timeline hreturn hvanished)

/-! ### Following the messenger -/

/-- The way back from the settings to a post that has vanished. -/
def ReturnsToVanished (messenger : Messenger) (view : ViewModel) (event : KeyEvent) : Prop :=
  view.screen = .settings ∧ event.key = .escape ∧ view.settingsReturnScreen = .detail ∧
    view.detailEntry messenger = none

/-- What `reconcile_model` leaves as it is.  The screen only changes where a post has
vanished. -/
structure Follows (view next : ViewModel) : Prop where
  draft : next.draft = view.draft
  returns : next.settingsReturnScreen = view.settingsReturnScreen ∧
    next.composeReturnScreen = view.composeReturnScreen
  modal : next.activeModal = view.activeModal ∨
    view.activeModal.id = .none ∧ next.activeModal.id = .status ∧
      next.activeModal.confirmSelected = false
  screen : next.screen = view.screen ∧ next.detailMessageId = view.detailMessageId ∧
      next.activeModal = view.activeModal ∨
    view.screen = .detail ∧ next.screen = .timeline

theorem leaveVanished_follows (messenger : Messenger) (view : ViewModel) :
    Follows view (view.leaveVanished messenger) := by
  rw [leaveVanished]
  split
  · rename_i hvanished
    dsimp only
    split
    · rename_i hmodal
      exact ⟨rfl, ⟨rfl, rfl⟩, .inr ⟨hmodal, rfl, rfl⟩, .inr ⟨hvanished.1, rfl⟩⟩
    · exact ⟨rfl, ⟨rfl, rfl⟩, .inl rfl, .inr ⟨hvanished.1, rfl⟩⟩
  · exact ⟨rfl, ⟨rfl, rfl⟩, .inl rfl, .inl ⟨rfl, rfl, rfl⟩⟩

theorem reconcileModel_follows (messenger : Messenger) (view : ViewModel) :
    Follows view (view.reconcileModel messenger) := by
  obtain ⟨id, hid⟩ : ∃ id, view.ensureTimelineSelection messenger =
      { view with selectedMessageId := id } := by
    rw [ensureTimelineSelection]
    split
    · exact ⟨view.selectedMessageId, rfl⟩
    · exact ⟨_, rfl⟩
  have h := leaveVanished_follows messenger (view.ensureTimelineSelection messenger)
  have hfollows : Follows view
      ((view.ensureTimelineSelection messenger).leaveVanished messenger) := by
    rw [hid] at h ⊢
    exact ⟨h.draft, h.returns, h.modal, h.screen⟩
  rw [reconcileModel]
  split
  · exact ⟨hfollows.draft, hfollows.returns, hfollows.modal, hfollows.screen⟩
  · exact hfollows

theorem prepareSnapshot_follows (messenger : Messenger) (view : ViewModel) :
    Follows view (view.prepareSnapshot messenger) := by
  have h := reconcileModel_follows messenger view
  rw [prepareSnapshot]
  split
  · exact ⟨h.draft, h.returns, h.modal, h.screen⟩
  · exact h

namespace Follows

variable (h : Follows view next)

include h in
theorem screen_eq (hne : view.screen ≠ .detail) :
    next.screen = view.screen ∧ next.detailMessageId = view.detailMessageId ∧
      next.activeModal = view.activeModal :=
  h.screen.resolve_right fun hdetail => hne hdetail.1

include h in
theorem composing : next.Composing ↔ view.Composing := by
  rcases h.screen with ⟨hscreen, -⟩ | ⟨hview, hnext⟩
  · rw [Composing, Composing, hscreen]
  · rw [Composing, Composing, hview, hnext]
    exact iff_of_false (by decide) (by decide)

include h in
theorem closeCompose_screen (hcomposing : view.Composing) :
    (next.closeCompose messenger).screen = (view.closeCompose messenger).screen := by
  have hscreen := h.screen_eq (by rcases hcomposing with h | h <;> rw [h] <;> decide)
  rw [closeCompose, closeCompose, h.returns.2, detailEntry, detailEntry, hscreen.2.1]

include h in
/-- The draft screens are not left. -/
theorem eq_of_screen {screen : ScreenId} (hscreen : next.screen = screen)
    (hne : screen ≠ .timeline) :
    view.screen = screen := by
  rcases h.screen with ⟨heq, -⟩ | ⟨-, hnext⟩
  · exact heq.symm.trans hscreen
  · exact absurd (hscreen.symm.trans hnext) hne

include h in
theorem drafting {mayReset mayReset' : Prop} (hmay : mayReset' → mayReset) {after : ViewModel}
    (hdrafting : Drafting messenger event mayReset' next after) :
    Drafting messenger event mayReset view after := by
  rcases hdrafting with ⟨hdraft, hafter⟩ | ⟨hcall, hscreen, hdraft, hafter⟩ |
    ⟨peer, hkey, hscreen, hdraft, hafter⟩ | ⟨hkey, hscreen, hpeer, hnew, hroom, hdraft, hafter⟩ |
    ⟨replyTo, mention, hscreen, hmention, hdraft, hafter⟩ | ⟨hreason, hdraft, hafter⟩
      <;> rw [h.draft] at hdraft
  · exact .keep hdraft fun hcomposing => hafter (h.composing.mpr hcomposing)
  · exact .edit hcall (h.eq_of_screen hscreen (by decide)) hdraft hafter
  · exact .remove peer hkey (h.eq_of_screen hscreen (by decide)) hdraft hafter
  · rw [h.draft] at hnew hroom
    exact .add hkey (h.eq_of_screen hscreen (by decide)) hpeer hnew hroom hdraft hafter
  · exact .fresh replyTo mention (fun hcomposing => hscreen (h.composing.mpr hcomposing)) hmention
      hdraft hafter
  · refine .reset (hmay hreason) hdraft fun hcomposing => ?_
    have hscreen : (next.closeCompose messenger).screen = (view.closeCompose messenger).screen :=
      h.closeCompose_screen hcomposing
    rw [← hscreen]
    exact hafter (h.composing.mpr hcomposing)

include h in
/-- An open modal stays. -/
theorem modal_eq (hid : next.activeModal.id ≠ .status) : next.activeModal = view.activeModal :=
  h.modal.resolve_right fun hopened => hid hopened.2.1

include h in
theorem returnsToVanished : next.ReturnsToVanished messenger event ↔
    view.ReturnsToVanished messenger event := by
  have hiff : next.screen = .settings ↔ view.screen = .settings := by
    rcases h.screen with ⟨hscreen, -⟩ | ⟨hview, hnext⟩
    · rw [hscreen]
    · rw [hview, hnext]
      exact iff_of_false (by decide) (by decide)
  rw [ReturnsToVanished, ReturnsToVanished, hiff, h.returns.1]
  refine and_congr_right fun hscreen => ?_
  rw [detailEntry, detailEntry, (h.screen_eq (by rw [hscreen]; decide)).2.1]

end Follows

/-! ### Menu, timeline and detail -/

theorem handleMenu_spec (hscreen : view.screen = .menu) :
    Quiet view (view.handleMenu event) ∧ (view.handleMenu event).2.draft = view.draft ∧
      (view.handleMenu event).2.ShowsPresent messenger := by
  rw [handleMenu]
  split_ifs
  · exact ⟨⟨rfl, rfl, .inl rfl⟩, rfl, showsPresent_of_eq .menu hscreen (by decide)⟩
  · exact ⟨⟨rfl, rfl, .inl rfl⟩, rfl, showsPresent_of_eq .menu hscreen (by decide)⟩
  · exact ⟨⟨rfl, rfl, .inl rfl⟩, rfl, showsPresent_of_eq .timeline rfl (by decide)⟩
  · exact ⟨⟨rfl, rfl, .inl rfl⟩, rfl, showsPresent_of_eq .settings rfl (by decide)⟩
  · exact ⟨⟨rfl, rfl, .inl rfl⟩, rfl, showsPresent_of_eq .menu hscreen (by decide)⟩


/-- The entry is opened, or nothing happens. -/
theorem openDetail_eq (messenger : Messenger) (view : ViewModel) :
    view.openDetail messenger = view ∨
    (view.openDetail messenger).ShowsPresent messenger ∧ (view.openDetail messenger).activeModal =
      view.activeModal ∧
      (view.openDetail messenger).draft = view.draft := by
  rw [openDetail]
  split
  · exact .inl rfl
  · rename_i hentry
    rw [Option.isNone_iff_eq_none] at hentry
    exact .inr ⟨fun _ => Option.isSome_iff_ne_none.mpr hentry, rfl, rfl⟩

theorem handleTimeline_spec (hscreen : view.screen = .timeline) :
    Quiet view (view.handleTimeline messenger event) ∧
      (view.handleTimeline messenger event).2.draft = view.draft ∧
      (view.handleTimeline messenger event).2.ShowsPresent messenger := by
  have hshows : ∀ {other : ViewModel}, other.screen = view.screen →
      other.ShowsPresent messenger := by
    intro other hother
    exact showsPresent_of_eq .timeline (hother.trans hscreen) (by decide)
  rw [handleTimeline]
  dsimp only
  split
  · exact ⟨⟨rfl, rfl, .inl rfl⟩, rfl, showsPresent_of_eq .menu rfl (by decide)⟩
  · split
    · exact ⟨⟨rfl, rfl, .inl rfl⟩, rfl, hshows rfl⟩
    · split
      · exact ⟨⟨rfl, rfl, .inl rfl⟩, rfl, hshows rfl⟩
      · exact ⟨⟨rfl, rfl, .inl rfl⟩, rfl, hshows rfl⟩
    · rcases view.openDetail_eq messenger with hsame | ⟨hopened, hmodal, hdraft⟩
      · rw [hsame]
        exact ⟨⟨rfl, rfl, .inl rfl⟩, rfl, hshows rfl⟩
      · exact ⟨⟨rfl, rfl, .inl hmodal⟩, hdraft, hopened⟩
    · exact ⟨⟨rfl, rfl, .inl rfl⟩, rfl, hshows rfl⟩

theorem handleDetail_spec (hshows : view.ShowsPresent messenger) :
    Quiet view (view.handleDetail messenger event) ∧
      (view.handleDetail messenger event).2.draft = view.draft ∧
      (view.handleDetail messenger event).2.ShowsPresent messenger := by
  rw [handleDetail]
  dsimp only
  split_ifs
  · exact ⟨⟨rfl, rfl, .inl rfl⟩, rfl, showsPresent_of_eq .timeline rfl (by decide)⟩
  · exact ⟨⟨rfl, rfl, .inl rfl⟩, rfl, hshows.congr rfl rfl⟩
  · exact ⟨⟨rfl, rfl, .inl rfl⟩, rfl, hshows.congr rfl rfl⟩
  · exact ⟨⟨rfl, rfl, .inl rfl⟩, rfl, hshows⟩

/-! ### Settings -/

theorem handleSettings_quiet : Quiet view (view.handleSettings messenger environment event) := by
  rw [handleSettings]
  dsimp only [adopt, showError]
  split_ifs <;> first | exact ⟨rfl, rfl, .inl rfl⟩ | exact ⟨rfl, rfl, .inr rfl⟩

theorem handleSettings_draft : (view.handleSettings messenger environment event).2.draft =
    view.draft := by
  rw [handleSettings]
  dsimp only [adopt, showError]
  split_ifs <;> rfl

theorem handleSettings_shows (hscreen : view.screen = .settings) :
    (view.handleSettings messenger environment event).2.ShowsPresent messenger ↔
      ¬view.ReturnsToVanished messenger event := by
  by_cases hescape : event.key = .escape
  · -- the only key that leaves the screen
    have hdelete : isShortcut event 'd' = false := by rw [isShortcut, hescape]; rfl
    have hnext : (view.handleSettings messenger environment event).2 = { view with
        screen :=
          if view.settingsReturnScreen = .detail ∧ (view.detailEntry messenger).isSome then .detail
          else if view.settingsReturnScreen = .settings then .timeline
          else view.settingsReturnScreen } := by
      rw [handleSettings, hdelete, if_neg Bool.false_ne_true, if_pos hescape]
    rw [hnext]
    by_cases hreturn : view.settingsReturnScreen = .detail
    · by_cases hentry : (view.detailEntry messenger).isSome
      · refine iff_of_true (fun _ => hentry) fun hvanished => ?_
        rw [hvanished.2.2.2] at hentry
        cases hentry
      · have hnone : view.detailEntry messenger = none := by simpa using hentry
        refine iff_of_false (fun hshows => hentry (hshows ?_))
          (not_not.mpr ⟨hscreen, hescape, hreturn, hnone⟩)
        show (if _ then _ else if _ then _ else _) = ScreenId.detail
        rw [if_neg fun h => hentry h.2, if_neg (by rw [hreturn]; decide), hreturn]
    · refine iff_of_true (fun hdetail => ?_) fun hvanished => hreturn hvanished.2.2.1
      change (if _ then _ else if _ then _ else _) = ScreenId.detail at hdetail
      rw [if_neg fun h => hreturn h.1] at hdetail
      split at hdetail
      · cases hdetail
      · exact absurd hdetail hreturn
  · refine iff_of_true (showsPresent_of_eq .settings ?_ (by decide)) fun hvanished =>
      hescape hvanished.2.1
    rw [handleSettings]
    dsimp only [adopt, showError]
    split_ifs <;> exact hscreen

/-! ### The draft -/

theorem handleMentions_spec (hscreen : view.screen = .mentions) (mayReset : Prop) :
    Quiet view (view.handleMentions messenger event) ∧
      Drafting messenger event mayReset view (view.handleMentions messenger event).2 ∧
      (view.handleMentions messenger event).2.ShowsPresent messenger := by
  have hpeers := refreshPeers_valid messenger view
  have hmentions : (view.refreshPeers messenger).screen = .mentions := hscreen
  rw [handleMentions]
  generalize hrefreshed : view.refreshPeers messenger = refreshed at *
  have hmodal : refreshed.activeModal = view.activeModal := by rw [← hrefreshed]; rfl
  have hdraft : refreshed.draft = view.draft := by rw [← hrefreshed]; rfl
  have hshows : ∀ {other : ViewModel}, other.screen = refreshed.screen →
      other.ShowsPresent messenger := by
    intro other hother
    exact showsPresent_of_eq .mentions (hother.trans hmentions) (by decide)
  dsimp only
  split
  · exact ⟨⟨rfl, rfl, .inl hmodal⟩, .keep hdraft fun _ => .inl rfl,
      showsPresent_of_eq .compose rfl (by decide)⟩
  split
  · exact ⟨⟨rfl, rfl, .inl hmodal⟩, .keep hdraft fun _ => .inr hmentions, hshows rfl⟩
  split
  · exact ⟨⟨rfl, rfl, .inl hmodal⟩, .keep hdraft fun _ => .inr hmentions, hshows rfl⟩
  split
  · rename_i hkey
    rcases hpeer : refreshed.peers[refreshed.peerCursor]? with _ | peer
    · exact ⟨⟨rfl, rfl, .inl hmodal⟩, .keep hdraft fun _ => .inr hmentions, hshows rfl⟩
    dsimp only
    split_ifs with hchosen hfull
    · exact ⟨⟨rfl, rfl, .inl hmodal⟩, .remove peer hkey hscreen (by rw [hdraft])
        (.inr hmentions), hshows rfl⟩
    · exact ⟨⟨rfl, rfl, .inr rfl⟩, .keep hdraft fun _ => .inr hmentions, hshows rfl⟩
    · rw [hdraft] at hchosen hfull
      refine ⟨⟨rfl, rfl, .inl hmodal⟩, .add hkey hscreen ?_ hchosen (Nat.lt_of_not_le hfull)
        (by rw [hdraft])
        (.inr hmentions), hshows rfl⟩
      exact hpeers.others peer (List.mem_of_getElem? hpeer)
  · exact ⟨⟨rfl, rfl, .inl hmodal⟩, .keep hdraft fun _ => .inr hmentions, hshows rfl⟩

theorem handleEdit_spec (hscreen : view.screen = .compose) {mayReset : Prop}
    (hclean : view.draft.dirty = false → mayReset) :
    Quiet view (view.handleEdit messenger event) ∧
      Drafting messenger event mayReset view (view.handleEdit messenger event).2 ∧
      (view.handleEdit messenger event).2.ShowsPresent messenger := by
  have hshows : ∀ {other : ViewModel}, other.screen = view.screen →
      other.ShowsPresent messenger := by
    intro other hother
    exact showsPresent_of_eq .compose (hother.trans hscreen) (by decide)
  have hedit : ∀ {call : EditorCall}, editOf event = some call → ∀ {next : ViewModel},
      next.draft = { view.draft with body := (view.draft.body.call call).2 } →
        next.screen = view.screen →
      Drafting messenger event mayReset view next ∧ next.ShowsPresent messenger := by
    intro call hcall next hdraft hnext
    exact ⟨.edit hcall hscreen hdraft (.inl (hnext.trans hscreen)), hshows hnext⟩
  rw [handleEdit]
  dsimp only [editBody, showError]
  split <;> rename_i hkey
  · have hcall : editOf event = some (.insert event.character) := by rw [editOf, hkey]
    split_ifs
    · exact ⟨⟨rfl, rfl, .inr rfl⟩, .keep rfl fun _ => .inl hscreen, hshows rfl⟩
    · exact ⟨⟨rfl, rfl, .inl rfl⟩, hedit hcall rfl rfl⟩
    · exact ⟨⟨rfl, rfl, .inr rfl⟩, hedit hcall rfl rfl⟩
    · exact ⟨⟨rfl, rfl, .inr rfl⟩, hedit hcall rfl rfl⟩
  · exact ⟨⟨rfl, rfl, .inl rfl⟩, hedit (by rw [editOf, hkey]) rfl rfl⟩
  · exact ⟨⟨rfl, rfl, .inl rfl⟩, hedit (by rw [editOf, hkey]) rfl rfl⟩
  · exact ⟨⟨rfl, rfl, .inl rfl⟩, hedit (by rw [editOf, hkey]) rfl rfl⟩
  · exact ⟨⟨rfl, rfl, .inl rfl⟩, hedit (by rw [editOf, hkey]) rfl rfl⟩
  · exact ⟨⟨rfl, rfl, .inl rfl⟩, .keep rfl fun _ => .inr rfl, showsPresent_of_eq .mentions rfl
      (by decide)⟩
  · split_ifs with hdirty
    · exact ⟨⟨rfl, rfl, .inr rfl⟩, .keep rfl fun _ => .inl hscreen, hshows rfl⟩
    · exact ⟨⟨rfl, rfl, .inl rfl⟩, .reset (hclean (Bool.not_eq_true _ ▸ hdirty)) rfl
        fun _ => .inr rfl,
        closeCompose_shows⟩
  · exact ⟨⟨rfl, rfl, .inl rfl⟩, .keep rfl fun _ => .inl hscreen, hshows rfl⟩

/-! ### Shortcuts -/

theorem isShortcut_key {lowerCase : Char} (h : isShortcut event lowerCase = true) : event.key =
    .character := by
  rw [isShortcut, Bool.and_eq_true, decide_eq_true_iff] at h
  exact h.1

theorem openCompose_drafting (hscreen : ¬view.Composing) (replyTo : Option MessageId)
    (mention : Option InstallId) (mayReset : Prop) :
    Drafting messenger event mayReset view
      (view.openCompose messenger replyTo mention view.screen) := by
  refine .fresh replyTo (mention.filter fun peer => ownInstallId messenger ≠ some peer) hscreen ?_
    ?_ (.inl rfl)
  · intro peer hpeer
    simpa using (Option.mem_filter_iff.mp hpeer).2
  · rw [Option.toList_filter]
    rfl

/-- A shortcut that is none leaves the view as it is. -/
theorem handleGlobalShortcut_spec (mayReset : Prop) :
    view.handleGlobalShortcut messenger event = ({}, view) ∨
      (view.handleGlobalShortcut messenger event).1 = .render ∧ event.key = .character ∧
      (view.handleGlobalShortcut messenger event).2.activeModal = view.activeModal ∧
      Drafting messenger event mayReset view (view.handleGlobalShortcut messenger event).2 ∧
      (view.handleGlobalShortcut messenger event).2.ShowsPresent messenger := by
  rw [handleGlobalShortcut]
  split
  · exact .inl rfl
  rename_i hcomposing
  have hcompose : ∀ replyTo mention, Drafting messenger event mayReset view
      (view.openCompose messenger replyTo mention view.screen) ∧
      (view.openCompose messenger replyTo mention view.screen).ShowsPresent messenger :=
    fun replyTo mention => ⟨openCompose_drafting hcomposing replyTo mention mayReset,
      showsPresent_of_eq .compose rfl (by decide)⟩
  have hsettings : ∀ screen, Drafting messenger event mayReset view (view.openSettings screen) ∧
      (view.openSettings screen).ShowsPresent messenger :=
    fun screen => ⟨.keep rfl fun h => absurd h hcomposing, showsPresent_of_eq .settings rfl
      (by decide)⟩
  dsimp only
  split
  · split
    · exact .inr ⟨rfl, isShortcut_key ‹_›, rfl, hsettings _⟩
    · exact .inl rfl
  · generalize (if view.screen = .detail then view.detailMessageId else
      view.selectedMessageId) = targetId
    split_ifs with hnew hreply hmention hs
    · exact .inr ⟨rfl, isShortcut_key hnew, rfl, hcompose _ _⟩
    · exact .inr ⟨rfl, isShortcut_key hreply.1, rfl, hcompose _ _⟩
    · exact .inr ⟨rfl, isShortcut_key hmention, rfl, hcompose _ _⟩
    · exact .inr ⟨rfl, isShortcut_key hs.1, rfl, hsettings _⟩
    · exact .inl rfl

/-! ### Modals -/

/-- The modals that ask for a confirmation. -/
def Confirms (id : ModalId) : Prop := id = .discard ∨ id = .exit ∨ id = .deleteData ∨ id = .recovery

/-- The keys of an open modal: what is approved, and what becomes of the modal. -/
inductive Answers (messenger : Messenger) (event : KeyEvent) (view : ViewModel) : UiAction →
    ViewModel → Prop
  | ignored (hkey : Confirms view.activeModal.id → event.key ≠ .left ∧ event.key ≠ .right) :
    Answers messenger event view {} view
  | closed : Answers messenger event view .render { view with activeModal := {} }
  | leaving (hid : view.activeModal.id ≠ .exit) :
    Answers messenger event view .render view.showExitConfirmation
  | cancelled (hid : Confirms view.activeModal.id) (hkey : event.key = .left) :
    Answers messenger event view .render
      { view with activeModal := { view.activeModal with confirmSelected := false } }
  | confirmed (hid : Confirms view.activeModal.id) (hkey : event.key = .right) :
    Answers messenger event view .render
      { view with activeModal := { view.activeModal with confirmSelected := true } }
  | recoveryLeft (hid : view.activeModal.id = .recovery)
    (hkey : event.key = .escape ∨ event.key = .enter ∧ view.activeModal.confirmSelected = false) :
    Answers messenger event view { exitApproved := true } view
  | discarded (hid : view.activeModal.id = .discard) (hkey : event.key = .enter)
    (hconfirmed : view.activeModal.confirmSelected = true) :
    Answers messenger event view .render
      (({ view with activeModal := {} } : ViewModel).closeCompose messenger)
  | deleted (hid : view.activeModal.id = .deleteData ∨ view.activeModal.id = .recovery)
    (hkey : event.key = .enter) (hconfirmed : view.activeModal.confirmSelected = true) :
    Answers messenger event view { deleteDataApproved := true } { view with activeModal := {} }
  | exited (hid : view.activeModal.id = .exit) (hkey : event.key = .enter)
    (hconfirmed : view.activeModal.confirmSelected = true) :
    Answers messenger event view { exitApproved := true } { view with activeModal := {} }

/-- Enter in a modal that asks. -/
theorem handleModal_enter (hid : Confirms view.activeModal.id) (hkey : event.key = .enter) :
    let result : UiAction × ViewModel :=
      if !view.activeModal.confirmSelected then
        if view.activeModal.id = .recovery then ({ exitApproved := true }, view)
        else (.render, { view with activeModal := {} })
      else if view.activeModal.id = .discard then
        (.render, ({ view with activeModal := {} } : ViewModel).closeCompose messenger)
      else if view.activeModal.id = .deleteData ∨ view.activeModal.id = .recovery then
        ({ deleteDataApproved := true }, { view with activeModal := {} })
      else ({ exitApproved := true }, { view with activeModal := {} })
    Answers messenger event view result.1 result.2 := by
  intro result
  cases hconfirm : view.activeModal.confirmSelected with
  | false =>
    have hresult : result = if view.activeModal.id = .recovery then ({ exitApproved := true }, view)
        else (.render, { view with activeModal := {} }) := if_pos (by rw [hconfirm]; rfl)
    rw [hresult]
    by_cases hrecovery : view.activeModal.id = .recovery
    · rw [if_pos hrecovery]
      exact .recoveryLeft hrecovery (.inr ⟨hkey, hconfirm⟩)
    · rw [if_neg hrecovery]
      exact .closed
  | true =>
    have hresult : result = if view.activeModal.id = .discard then
        (.render, ({ view with activeModal := {} } : ViewModel).closeCompose messenger)
      else if view.activeModal.id = .deleteData ∨ view.activeModal.id = .recovery then
        ({ deleteDataApproved := true }, { view with activeModal := {} })
      else ({ exitApproved := true }, { view with activeModal := {} }) :=
        if_neg (by rw [hconfirm]; decide)
    rw [hresult]
    by_cases hdiscard : view.activeModal.id = .discard
    · rw [if_pos hdiscard]
      exact .discarded hdiscard hkey hconfirm
    rw [if_neg hdiscard]
    by_cases hdelete : view.activeModal.id = .deleteData ∨ view.activeModal.id = .recovery
    · rw [if_pos hdelete]
      exact .deleted hdelete hkey hconfirm
    · rw [if_neg hdelete]
      refine .exited ?_ hkey hconfirm
      rcases hid with h | h | h | h
      · exact absurd h hdiscard
      · exact h
      · exact absurd (.inl h) hdelete
      · exact absurd (.inr h) hdelete

theorem handleModal_answers (messenger : Messenger) (event : KeyEvent) (view : ViewModel) :
    Answers messenger event view (view.handleModal messenger event).1
      (view.handleModal messenger event).2 := by
  rw [handleModal]
  dsimp only
  by_cases hhome : event.key = .home ∧ view.activeModal.id ≠ .exit ∧ view.activeModal.id ≠ .recovery
  · rw [if_pos hhome]
    exact .leaving hhome.2.1
  rw [if_neg hhome]
  by_cases htold : view.activeModal.id = .status ∨ view.activeModal.id = .error
  · rw [if_pos htold]
    by_cases hkey : event.key = .escape ∨ event.key = .enter
    · rw [if_pos hkey]
      exact .closed
    · rw [if_neg hkey]
      refine .ignored fun hid => absurd htold ?_
      rcases hid with hid | hid | hid | hid <;> rw [hid] <;> decide
  rw [if_neg htold]
  by_cases hid : view.activeModal.id = .discard ∨ view.activeModal.id = .exit ∨
      view.activeModal.id = .deleteData ∨ view.activeModal.id = .recovery
  · rw [if_pos hid]
    by_cases hescape : event.key = .escape
    · rw [if_pos hescape]
      by_cases hrecovery : view.activeModal.id = .recovery
      · rw [if_pos hrecovery]
        exact .recoveryLeft hrecovery (.inl hescape)
      · rw [if_neg hrecovery]
        exact .closed
    rw [if_neg hescape]
    by_cases hleft : event.key = .left
    · rw [if_pos hleft]
      exact .cancelled hid hleft
    rw [if_neg hleft]
    by_cases hright : event.key = .right
    · rw [if_pos hright]
      exact .confirmed hid hright
    rw [if_neg hright]
    by_cases henter : event.key = .enter
    · rw [if_pos henter]
      exact handleModal_enter hid henter
    · rw [if_neg henter]
      exact .ignored fun _ => ⟨hleft, hright⟩
  · rw [if_neg hid]
    exact .ignored fun h => absurd h hid

/-- The draft and the detail screen while a modal is open. -/
theorem handleModal_drafting {mayReset : Prop}
    (hdiscard : view.activeModal.id = .discard → event.key = .enter →
      view.activeModal.confirmSelected = true →
      mayReset) :
    Drafting messenger event mayReset view (view.handleModal messenger event).2 ∧
      (view.ShowsPresent messenger →
        (view.handleModal messenger event).2.ShowsPresent messenger) := by
  have hkeep : ∀ {next : ViewModel}, next.draft = view.draft → next.screen = view.screen →
      next.detailMessageId = view.detailMessageId → Drafting messenger event mayReset view next ∧
      (view.ShowsPresent messenger → next.ShowsPresent messenger) := by
    intro next hdraft hscreen hdetail
    refine ⟨.keep hdraft fun hcomposing => ?_, fun hshows => hshows.congr hscreen hdetail⟩
    rwa [Composing, hscreen]
  have hanswers := handleModal_answers messenger event view
  generalize (view.handleModal messenger event).1 = action at hanswers
  generalize (view.handleModal messenger event).2 = next at hanswers ⊢
  cases hanswers with
  | discarded hid hkey hconfirmed =>
    exact ⟨.reset (hdiscard hid hkey hconfirmed) rfl fun _ => .inr rfl, fun _ => closeCompose_shows⟩
  | _ => exact hkeep rfl rfl rfl

end ViewModel

/-! ### Who handles a key -/

namespace Ui

variable {σ : Type} {commit : Option (StateCommit σ)} {environment : UiEnvironment}
    {event : KeyEvent} {ui : Ui σ}

/-- A key is handled by the modal, asks to leave, is a shortcut or is one for the screen. -/
theorem handle_cases (commit : Option (StateCommit σ)) (environment : UiEnvironment)
    (event : KeyEvent) (ui : Ui σ) :
    let view := ui.view.reconcileModel ui.world.messenger
    (view.activeModal.id ≠ .none ∧ ui.handle commit environment event =
      ((view.handleModal ui.world.messenger event).1,
        ⟨(view.handleModal ui.world.messenger event).2, ui.world⟩)) ∨
    (view.activeModal.id = .none ∧ event.key = .home ∧
      ui.handle commit environment event = (.render, ⟨view.showExitConfirmation, ui.world⟩)) ∨
    (view.activeModal.id = .none ∧
      (view.handleGlobalShortcut ui.world.messenger event).1 = .render ∧
      ui.handle commit environment event =
        (.render, ⟨(view.handleGlobalShortcut ui.world.messenger event).2, ui.world⟩)) ∨
    (view.activeModal.id = .none ∧
      ui.handle commit environment event =
        ({ ui with view := view } : Ui σ).handleScreen commit environment event) := by
  intro view
  rw [handle]
  by_cases hmodal : view.activeModal.id = .none
  · rw [if_neg (not_not.mpr hmodal)]
    by_cases hhome : event.key = .home
    · rw [if_pos hhome]
      exact .inr (.inl ⟨hmodal, hhome, rfl⟩)
    rw [if_neg hhome]
    rcases view.handleGlobalShortcut_spec True with hnone | ⟨hrender, -⟩
    · refine .inr (.inr (.inr ⟨hmodal, ?_⟩))
      rw [hnone]
      rfl
    · refine .inr (.inr (.inl ⟨hmodal, hrender, ?_⟩))
      dsimp only
      rw [hrender]
      rfl
  · rw [if_pos hmodal]
    exact .inl ⟨hmodal, rfl⟩

/-- What is asked before a dirty draft is given up. -/
def MayReset (commit : Option (StateCommit σ)) (environment : UiEnvironment) (event : KeyEvent)
    (ui : Ui σ) : Prop :=
  ui.view.draft.dirty = false ∨
  ui.view.activeModal.id = .discard ∧ event.key = .enter ∧
    ui.view.activeModal.confirmSelected = true ∨
  ui.view.activeModal.id = .none ∧ ui.view.screen = .compose ∧ event.key = .enter ∧
    (ui.compose commit environment).1.error = .none

/-- The key that sends the draft. -/
theorem handleCompose_spec (hmodal : ui.view.activeModal.id = .none)
    (hscreen : ui.view.screen = .compose) :
    let result := ui.handleCompose commit environment event
    Quiet ui.view (result.1, result.2.view) ∧
      Drafting ui.world.messenger event (ui.MayReset commit environment event) ui.view
        result.2.view ∧
      result.2.view.ShowsPresent result.2.world.messenger := by
  rw [handleCompose]
  split
  · rename_i hkey
    dsimp only
    split
    · exact ⟨⟨rfl, rfl, .inr rfl⟩, .keep rfl fun _ => .inl hscreen,
        ViewModel.showsPresent_of_eq .compose hscreen (by decide)⟩
    · rename_i herror
      obtain ⟨id, hsent⟩ : ∃ id, ui.view.composed (ui.compose commit environment).2.messenger
          (ui.compose commit environment).1.messageId =
          { ui.view with
            selectedMessageId := id, detailMessageId := none, detailScrollLine := 0
            draft := ui.view.draft.reset, screen := .timeline
            activeModal := ⟨.status, ui.view.queuedMessage, false⟩ } := by
        rw [ViewModel.composed, ViewModel.ensureTimelineSelection]
        split
        · exact ⟨_, rfl⟩
        · exact ⟨_, rfl⟩
      rw [hsent]
      exact ⟨⟨rfl, rfl, .inr rfl⟩,
        .reset (.inr (.inr ⟨hmodal, hscreen, hkey, not_not.mp herror⟩)) rfl
        fun _ => .inl rfl, ViewModel.showsPresent_of_eq .timeline rfl (by decide)⟩
  · obtain ⟨hquiet, hdraft, hshows⟩ := ViewModel.handleEdit_spec hscreen
      (fun hclean => (.inl hclean : ui.MayReset commit environment event))
    exact ⟨hquiet, hdraft, hshows⟩

theorem handleScreen_spec (hmodal : ui.view.activeModal.id = .none)
    (hshows : ui.view.ShowsPresent ui.world.messenger) :
    let result := ui.handleScreen commit environment event
    Quiet ui.view (result.1, result.2.view) ∧
      Drafting ui.world.messenger event (ui.MayReset commit environment event) ui.view
        result.2.view ∧
      (result.2.view.ShowsPresent result.2.world.messenger ↔
        ¬ui.view.ReturnsToVanished ui.world.messenger event) := by
  have hother : ∀ {screen : ScreenId}, ui.view.screen = screen → screen ≠ .settings →
    ∀ {shown : Prop}, shown →
      (shown ↔ ¬ui.view.ReturnsToVanished ui.world.messenger event) :=
    fun hscreen hne _ hshown => iff_of_true hshown fun hvanished =>
      hne (hscreen.symm.trans hvanished.1)
  have hkeep : ∀ {screen : ScreenId}, ui.view.screen = screen → screen ≠ .compose →
    screen ≠ .mentions →
      ¬ui.view.Composing :=
    fun hscreen hcompose hmentions hcomposing =>
      hcomposing.elim (fun h => hcompose (hscreen.symm.trans h)) fun h =>
        hmentions (hscreen.symm.trans h)
  intro result
  have hresult : result = ui.handleScreen commit environment event := rfl
  generalize result = result at hresult ⊢
  rw [handleScreen] at hresult
  split at hresult <;> rename_i hscreen <;> subst hresult
  · obtain ⟨hquiet, hdraft, hshown⟩ := @ViewModel.handleMenu_spec ui.world.messenger ui.view
      event hscreen
    exact ⟨hquiet, .keep hdraft fun h => absurd h (hkeep hscreen (by decide) (by decide)),
      hother hscreen (by decide) hshown⟩
  · obtain ⟨hquiet, hdraft, hshown⟩ := @ViewModel.handleTimeline_spec ui.world.messenger ui.view
      event hscreen
    exact ⟨hquiet, .keep hdraft fun h => absurd h (hkeep hscreen (by decide) (by decide)),
      hother hscreen (by decide) hshown⟩
  · obtain ⟨hquiet, hdraft, hshown⟩ := @ViewModel.handleDetail_spec ui.world.messenger ui.view
      event hshows
    exact ⟨hquiet, .keep hdraft fun h => absurd h (hkeep hscreen (by decide) (by decide)),
      hother hscreen (by decide) hshown⟩
  · obtain ⟨hquiet, hdraft, hshown⟩ :=
      @handleCompose_spec σ commit environment event ui hmodal hscreen
    exact ⟨hquiet, hdraft, hother hscreen (by decide) hshown⟩
  · obtain ⟨hquiet, hdraft, hshown⟩ := @ViewModel.handleMentions_spec ui.world.messenger ui.view
      event hscreen
      (ui.MayReset commit environment event)
    exact ⟨hquiet, hdraft, hother hscreen (by decide) hshown⟩
  · exact ⟨ViewModel.handleSettings_quiet,
      .keep ViewModel.handleSettings_draft fun h =>
        absurd h (hkeep hscreen (by decide) (by decide)),
      ViewModel.handleSettings_shows hscreen⟩

/-- The view that a key finds is the one after `reconcile_model`. -/
theorem mayReset_of_follows {view : ViewModel} (h : ViewModel.Follows ui.view view)
    (hmay : ({ ui with view := view } : Ui σ).MayReset commit environment event) :
    ui.MayReset commit environment event := by
  rcases hmay with hclean | ⟨hid, hkey, hconfirmed⟩ | ⟨hid, hscreen, hkey, herror⟩
  · rw [h.draft] at hclean
    exact .inl hclean
  · have hmodal := h.modal_eq (by rw [hid]; decide)
    rw [hmodal] at hid hconfirmed
    exact .inr (.inl ⟨hid, hkey, hconfirmed⟩)
  · have hmodal := h.modal_eq (by rw [hid]; decide)
    rw [hmodal] at hid
    rw [compose, h.draft] at herror
    exact .inr (.inr ⟨hid, h.eq_of_screen hscreen (by decide), hkey, herror⟩)

/-- **The draft at a key.**  Whoever handles it, one of the cases of `Drafting` holds. -/
theorem handle_drafting (commit : Option (StateCommit σ)) (environment : UiEnvironment)
    (event : KeyEvent)
    (ui : Ui σ) :
    Drafting ui.world.messenger event (ui.MayReset commit environment event) ui.view
      (ui.handle commit environment event).2.view := by
  have hfollows := ui.view.reconcileModel_follows ui.world.messenger
  have hshows := (ui.view.reconcileModel_valid ui.world.messenger).2.1
  have hcases := ui.handle_cases commit environment event
  have hmay := @mayReset_of_follows σ commit environment event ui _ hfollows
  dsimp only at hcases
  generalize ui.view.reconcileModel ui.world.messenger = view at *
  refine hfollows.drafting hmay ?_
  rcases hcases with ⟨hmodal, hhandle⟩ | ⟨hmodal, hkey, hhandle⟩ | ⟨hmodal, hrender,
    hhandle⟩ | ⟨hmodal, hhandle⟩ <;>
    rw [hhandle]
  · exact (ViewModel.handleModal_drafting fun hid hkey hconfirmed =>
      .inr (.inl ⟨hid, hkey, hconfirmed⟩)).1
  · exact .keep rfl id
  · rcases view.handleGlobalShortcut_spec
      (({ ui with view := view } : Ui σ).MayReset commit environment event) with
        hnone | ⟨-, -, -, hdraft, -⟩
    · rw [hnone]
      exact .keep rfl id
    · exact hdraft
  · exact (@handleScreen_spec σ commit environment event { ui with view := view } hmodal hshows).2.1

/-- **The detail screen at a key.**  Only the way back from the settings leads to a post
that is not there. -/
theorem handle_shows (commit : Option (StateCommit σ)) (environment : UiEnvironment)
    (event : KeyEvent) (ui : Ui σ) :
    let next := (ui.handle commit environment event).2
    next.view.ShowsPresent next.world.messenger ↔
      ¬(ui.view.activeModal.id = .none ∧ ui.view.ReturnsToVanished ui.world.messenger event) := by
  have hfollows := ui.view.reconcileModel_follows ui.world.messenger
  have hshows := (ui.view.reconcileModel_valid ui.world.messenger).2.1
  have hcases := ui.handle_cases commit environment event
  dsimp only at hcases ⊢
  generalize ui.view.reconcileModel ui.world.messenger = view at *
  rcases hcases with ⟨hmodal, hhandle⟩ | ⟨hmodal, hkey, hhandle⟩ | ⟨hmodal, hrender,
    hhandle⟩ | ⟨hmodal, hhandle⟩ <;>
    rw [hhandle]
  · refine iff_of_true ((@ViewModel.handleModal_drafting _ _ _ True fun _ _ _ =>
      trivial).2 hshows) ?_
    rintro ⟨hnone, hvanished⟩
    rw [(hfollows.screen_eq (by rw [hvanished.1]; decide)).2.2] at hmodal
    exact hmodal hnone
  · refine iff_of_true (hshows.congr rfl rfl) ?_
    rintro ⟨-, -, hescape, -⟩
    rw [hkey] at hescape
    cases hescape
  · rcases view.handleGlobalShortcut_spec True with hnone | ⟨-, hkey, -, -, hshown⟩
    · rw [hnone] at hrender
      cases hrender
    · refine iff_of_true hshown ?_
      rintro ⟨-, -, hescape, -⟩
      rw [hkey] at hescape
      cases hescape
  · have hscreen := (@handleScreen_spec σ commit environment event { ui with view := view }
      hmodal hshows).2.2
    have hid : ui.view.activeModal.id = .none := by
      rw [← hfollows.modal_eq (by rw [hmodal]; decide)]
      exact hmodal
    refine hscreen.trans (not_congr ?_)
    rw [hfollows.returnsToVanished, and_iff_right hid]

/-- A key that no modal is there for approves nothing, and confirms nothing. -/
theorem handle_quiet (hid : (ui.view.reconcileModel ui.world.messenger).activeModal.id = .none) :
    let result := ui.handle commit environment event
    Quiet (ui.view.reconcileModel ui.world.messenger) (result.1, result.2.view) := by
  have hshows := (ui.view.reconcileModel_valid ui.world.messenger).2.1
  have hcases := ui.handle_cases commit environment event
  dsimp only at hcases ⊢
  generalize ui.view.reconcileModel ui.world.messenger = view at *
  rcases hcases with ⟨hmodal, hhandle⟩ | ⟨hmodal, hkey, hhandle⟩ | ⟨hmodal, hrender,
    hhandle⟩ | ⟨hmodal, hhandle⟩ <;>
    rw [hhandle]
  · exact absurd hid hmodal
  · exact ⟨rfl, rfl, .inr rfl⟩
  · rcases view.handleGlobalShortcut_spec True with hnone | ⟨-, -, hsame, -, -⟩
    · rw [hnone]
      exact ⟨rfl, rfl, .inl rfl⟩
    · exact ⟨rfl, rfl, .inl hsame⟩
  · exact (@handleScreen_spec σ commit environment event { ui with view := view } hmodal hshows).1

/-- A key while a modal is there. -/
theorem handle_answers (hid : (ui.view.reconcileModel ui.world.messenger).activeModal.id ≠ .none) :
    let result := ui.handle commit environment event
    ViewModel.Answers ui.world.messenger event (ui.view.reconcileModel ui.world.messenger)
      result.1 result.2.view := by
  rw [handle, if_pos hid]
  exact ViewModel.handleModal_answers _ _ _

end Ui

end Lora
