/-
Snapshots of the view.

A snapshot first follows the messenger and then shows one page.  The timeline and the
mentions are shown through a window of a few rows that always holds the selected one.

The texts come from the tables of the translations, which are a parameter here.

* `window` — the rows that are shown;
* `ViewModel.timelineSnapshot_rows`, `ViewModel.mentionsSnapshot_options` — one of them is
  the selected one.
-/
import LoraMessenger.ViewModel

namespace Lora

def kVisibleTimelineRows : ℕ := 2
def kVisibleMentionRows : ℕ := 3
def kTimelinePreviewBytes : ℕ := 72

/-- `translate` and `locale_display_name`. -/
structure Texts where
  translate : Locale → StringId → Bytes
  displayName : Locale → Bytes

inductive DeliveryBadge where
  | received
  | queued
  | broadcast
  | failed
  | unknown
deriving DecidableEq

inductive ReplyAvailability where
  | notReply
  | available
  | unavailable
deriving DecidableEq

structure TimelineRowSnapshot where
  messageId : MessageId
  sender : Bytes
  senderSuffix : Bytes
  bodyPreview : Bytes
  delivery : DeliveryBadge
  showSenderSuffix : Bool
  isReply : Bool
  mentionsMe : Bool
  selected : Bool

structure TimelineSnapshot where
  rows : List TimelineRowSnapshot := []
  totalRows : ℕ := 0
  selectedMessageId : Option MessageId := none

structure MentionLabelSnapshot where
  installId : InstallId
  label : Bytes

structure DetailSnapshot where
  messageId : Option MessageId := none
  sender : Bytes := []
  senderSuffix : Bytes := []
  body : Bytes := []
  visibleBody : Bytes := []
  delivery : DeliveryBadge := .unknown
  reply : ReplyAvailability := .notReply
  replyPreview : Bytes := []
  mentions : List MentionLabelSnapshot := []
  mentionsMe : Bool := false
  scrollLine : ℕ := 0
  maximumScrollLine : ℕ := 0

structure ComposeSnapshot where
  body : Bytes
  cursorByteOffset : ℕ
  remainingBytes : ℕ
  replyTo : Option MessageId
  mentions : List MentionLabelSnapshot
  dirty : Bool

structure MentionOptionSnapshot where
  installId : InstallId
  label : Bytes
  selected : Bool
  cursor : Bool

structure MentionsSnapshot where
  options : List MentionOptionSnapshot := []
  totalOptions : ℕ := 0
  selectedCount : ℕ := 0

structure SettingsSnapshot where
  userId : Bytes := []
  installSuffix : Bytes := []
  localeName : Bytes
  sessionNotice : Bytes
  radioStatus : Bytes
  skipTitle : Bool
  selected : SettingsItem

inductive PageSnapshot where
  | menu (selected : MenuItem)
  | timeline (page : TimelineSnapshot)
  | detail (page : DetailSnapshot)
  | compose (page : ComposeSnapshot)
  | mentions (page : MentionsSnapshot)
  | settings (page : SettingsSnapshot)

structure ModalSnapshot where
  id : ModalId := .none
  title : Bytes := []
  message : Bytes := []
  cancelLabel : Bytes := []
  confirmLabel : Bytes := []
  confirmSelected : Bool := false

structure ViewSnapshot where
  screen : ScreenId
  locale : Locale
  radioReady : Bool
  transportStatus : TransportStatus
  title : Bytes
  footer : Bytes
  page : PageSnapshot
  modal : ModalSnapshot

/-- Cut before a character that does not fit, with three dots. -/
def truncatedUtf8 (value : Bytes) (maximumBytes : ℕ) : Bytes :=
  if value.length ≤ maximumBytes then value
  else if maximumBytes ≤ 3 then List.replicate maximumBytes 0x2e
  else value.take (TextEditor.skipBack value (maximumBytes - 3)) ++ [0x2e, 0x2e, 0x2e]

def idSuffix (installId : InstallId) : Bytes :=
  let value := installId.uuid.toString
  if value.length ≤ 4 then value else value.drop (value.length - 4)

def deliveryBadge (entry : TimelineEntry) : DeliveryBadge :=
  match entry.origin with
  | .receivedOrigin => .received
  | .localDelivery .queued => .queued
  | .localDelivery .broadcast => .broadcast
  | .localDelivery .failed => .failed
  | .localDelivery .unknown => .unknown

def screenTitle : ScreenId → StringId
  | .menu => .appTitle
  | .timeline => .timelineTitle
  | .detail => .detailTitle
  | .compose => .composeTitle
  | .mentions => .mentionsTitle
  | .settings => .settingsTitle

def screenFooter : ScreenId → StringId
  | .menu => .footerMenu
  | .timeline => .footerTimeline
  | .detail => .footerDetail
  | .compose => .footerCompose
  | .mentions => .footerMentions
  | .settings => .footerSettings

/-- The first row of a window of so many rows that starts at the selected one where it can. -/
def windowStart (selected rows total : ℕ) : ℕ :=
  if selected + rows > total then (if total > rows then total - rows else 0) else selected

/-- The rows of the window. -/
def window (selected rows total : ℕ) : List ℕ :=
  let first := windowStart selected rows total
  List.range' first (min total (first + rows) - first)

namespace ViewModel

variable (texts : Texts) (messenger : Messenger) (view : ViewModel)

def peerLabel (installId : InstallId) : Bytes :=
  match messenger.timeline.newest.find? fun entry => entry.post.senderId = installId with
  | some entry => entry.post.senderUserId.value ++ [0x20, 0x23] ++ idSuffix installId
  | none => texts.translate view.locale .badgeUnknown ++ [0x20, 0x23] ++ idSuffix installId

def ownInstallId : Option InstallId := messenger.identity.map Identity.installId

def mentionsMe (entry : TimelineEntry) : Bool :=
  (ownInstallId messenger).any fun own => own ∈ entry.post.mentions

/-- Another sender has the same name. -/
def duplicateName (entry : TimelineEntry) : Bool :=
  messenger.timeline.entries.any fun candidate =>
    candidate.post.senderId ≠ entry.post.senderId &&
      candidate.post.senderUserId.value = entry.post.senderUserId.value

def timelineRow (entry : TimelineEntry) : TimelineRowSnapshot where
  messageId := entry.messageId
  sender := entry.post.senderUserId.value
  senderSuffix := idSuffix entry.post.senderId
  bodyPreview := truncatedUtf8 entry.post.body.value kTimelinePreviewBytes
  delivery := deliveryBadge entry
  showSenderSuffix := duplicateName messenger entry
  isReply := entry.post.replyTo.isSome
  mentionsMe := mentionsMe messenger entry
  selected := view.selectedMessageId = some entry.messageId

def timelineSnapshot : TimelineSnapshot :=
  let total := messenger.timeline.entries.length
  if total = 0 then { selectedMessageId := view.selectedMessageId }
  else
    let selectedIndex := (view.selectedMessageId.bind messenger.timeline.newestIndex).getD 0
    { totalRows := total
      selectedMessageId := view.selectedMessageId
      rows := ((window selectedIndex kVisibleTimelineRows total).filterMap
        messenger.timeline.newestAt).map
        (view.timelineRow messenger) }

def mentionLabels (mentions : List InstallId) : List MentionLabelSnapshot :=
  mentions.map fun mention => ⟨mention, view.peerLabel texts messenger mention⟩

/-- The reply state of the post and the line about its parent. -/
def replySnapshot (entry : TimelineEntry) : ReplyAvailability × Bytes :=
  match entry.post.replyTo with
  | none => (.notReply, [])
  | some parent =>
    match messenger.timeline.find parent with
    | some parent => (.available, truncatedUtf8 parent.post.body.value kTimelinePreviewBytes)
    | none => (.unavailable, texts.translate view.locale .replyOriginalUnavailable)

def detailSnapshot : DetailSnapshot :=
  match view.detailEntry messenger with
  | none => {}
  | some entry =>
    let wrapped := wrapDetailBody entry.post.body.value
    let scrollLine := min view.detailScrollLine wrapped.maximumScrollLine
    { messageId := some entry.messageId
      sender := entry.post.senderUserId.value
      senderSuffix := idSuffix entry.post.senderId
      body := entry.post.body.value
      visibleBody := detailWindow wrapped scrollLine
      delivery := deliveryBadge entry
      reply := (view.replySnapshot texts messenger entry).1
      replyPreview := (view.replySnapshot texts messenger entry).2
      mentions := view.mentionLabels texts messenger entry.post.mentions
      mentionsMe := mentionsMe messenger entry
      scrollLine := scrollLine
      maximumScrollLine := wrapped.maximumScrollLine }

def composeSnapshot : ComposeSnapshot where
  body := view.draft.body.text
  cursorByteOffset := view.draft.body.cursor
  remainingBytes := view.draft.body.maximumBytes - view.draft.body.text.length
  replyTo := view.draft.replyTo
  mentions := view.mentionLabels texts messenger view.draft.mentions
  dirty := view.draft.dirty

/-- `mentions_snapshot`, after the peers have been refreshed. -/
def mentionsSnapshot : MentionsSnapshot :=
  if view.peers = [] then { selectedCount := view.draft.mentions.length }
  else
    { totalOptions := view.peers.length
      selectedCount := view.draft.mentions.length
      options := (window view.peerCursor kVisibleMentionRows view.peers.length).filterMap
        fun index =>
        view.peers[index]?.map fun peer =>
          { installId := peer
            label := view.peerLabel texts messenger peer
            selected := peer ∈ view.draft.mentions
            cursor := index = view.peerCursor } }

def settingsSnapshot : SettingsSnapshot where
  userId := (messenger.identity.map fun identity => identity.userId.value).getD []
  installSuffix := (messenger.identity.map fun identity => idSuffix identity.installId).getD []
  localeName := texts.displayName view.locale
  sessionNotice := texts.translate view.locale .settingsSavedLocally
  radioStatus := texts.translate view.locale
    (if view.transportStatus = .wifiLan then .lanReadyNoDelivery
    else if view.radioReady then .radioReadyNoDelivery
    else .radioNoDelivery)
  skipTitle := view.skipTitle
  selected := view.settingsItem

def modalSnapshot : ModalSnapshot :=
  let translate := texts.translate view.locale
  let modal := view.activeModal
  let labelled (title : StringId) (cancel confirm : Bytes) : ModalSnapshot :=
    { id := modal.id, title := translate title, message := translate modal.message
      cancelLabel := cancel, confirmLabel := confirm, confirmSelected := modal.confirmSelected }
  match modal.id with
  | .none => { confirmSelected := modal.confirmSelected }
  | .status => labelled .statusTitle [] []
  | .error => labelled .errorTitle [] []
  | .discard => labelled .confirmDiscardTitle (translate .buttonCancel) (translate .buttonDiscard)
  | .exit => labelled .confirmExitTitle (translate .buttonCancel) (translate .buttonExit)
  | .deleteData => labelled .confirmDeleteTitle (translate .buttonCancel) (translate .buttonDelete)
  | .recovery => labelled .recoveryTitle (translate .buttonExit) (translate .buttonDelete)

/-- What a snapshot changes: it follows the messenger, and refreshes the peers it shows. -/
def prepareSnapshot : ViewModel :=
  let view := view.reconcileModel messenger
  if view.screen = .mentions then view.refreshPeers messenger else view

def pageSnapshot : PageSnapshot :=
  match view.screen with
  | .menu => .menu view.menuItem
  | .timeline => .timeline (view.timelineSnapshot messenger)
  | .detail => .detail (view.detailSnapshot texts messenger)
  | .compose => .compose (view.composeSnapshot texts messenger)
  | .mentions => .mentions (view.mentionsSnapshot texts messenger)
  | .settings => .settings (view.settingsSnapshot texts messenger)

def snapshot : ViewSnapshot × ViewModel :=
  let view := view.prepareSnapshot messenger
  ({ screen := view.screen
     locale := view.locale
     radioReady := view.radioReady
     transportStatus := view.transportStatus
     title := texts.translate view.locale (screenTitle view.screen)
     footer := texts.translate view.locale (screenFooter view.screen)
     page := view.pageSnapshot texts messenger
     modal := view.modalSnapshot texts }, view)

end ViewModel

/-! ### Windows -/

section Window

variable {selected rows total index : ℕ}

theorem mem_window (hrows : index ∈ window selected rows total) :
    windowStart selected rows total ≤ index ∧ index < total := by
  rw [window, List.mem_range'_1] at hrows
  omega

theorem nodup_window : (window selected rows total).Nodup := List.nodup_range'

theorem length_window_le : (window selected rows total).length ≤ rows := by
  rw [window, List.length_range']
  omega

/-- The window holds the selected row. -/
theorem selected_mem_window (hselected : selected < total) (hrows : 0 < rows) :
    selected ∈ window selected rows total := by
  rw [window, List.mem_range'_1, windowStart]
  split
  · split
    · omega
    · omega
  · omega

/-- The selected row, among the others of the window. -/
theorem exists_window (hselected : selected < total) (hrows : 0 < rows) :
    ∃ before after, window selected rows total = before ++ selected :: after ∧
      ∀ other ∈ before ++ after, other ≠ selected ∧ other < total := by
  obtain ⟨before, after, hsplit⟩ := List.append_of_mem (selected_mem_window hselected hrows)
  refine ⟨before, after, hsplit, fun other hother => ⟨?_, ?_⟩⟩
  · have hnodup : (window selected rows total).Nodup := nodup_window
    rw [hsplit, List.nodup_middle, List.nodup_cons] at hnodup
    rintro rfl
    exact hnodup.1 hother
  · have hmem : other ∈ window selected rows total := by
      rw [hsplit]
      simp only [List.mem_append, List.mem_cons] at hother ⊢
      exact hother.elim .inl fun h => .inr (.inr h)
    exact (mem_window hmem).2

end Window

/-! ### The newest entries -/

namespace Timeline

variable {timeline : Timeline} {index other : ℕ} {entry entry' : TimelineEntry}
    {messageId : MessageId}

theorem newestAt_eq (timeline : Timeline) (index : ℕ) : timeline.newestAt index =
    timeline.entries.reverse[index]? := by
  rw [newestAt]
  split
  · rw [List.getElem?_eq_none (by rw [List.length_reverse]; assumption)]
  · rw [List.getElem?_reverse (by omega)]

theorem newestAt_inj (hentry : timeline.newestAt index = some entry)
    (hother : timeline.newestAt other = some entry') (hid : entry.messageId = entry'.messageId) :
    index = other := by
  have hnodup : (timeline.entries.reverse.map TimelineEntry.messageId).Nodup := by
    rw [List.map_reverse, List.nodup_reverse]
    exact timeline.stamped.distinct
  rw [newestAt_eq] at hentry hother
  have hlength : index < (timeline.entries.reverse.map TimelineEntry.messageId).length := by
    rw [List.length_map]
    exact (List.getElem?_eq_some_iff.mp hentry).1
  refine (List.getElem?_inj hlength hnodup).mp ?_
  rw [List.getElem?_map, List.getElem?_map, hentry, hother, Option.map_some, Option.map_some, hid]

theorem newestAt_mem (hentry : timeline.newestAt index = some entry) :
    entry ∈ timeline.entries := by
  rw [newestAt_eq] at hentry
  exact List.mem_reverse.mp (List.mem_of_getElem? hentry)

theorem newestAt_of_lt (hindex : index < timeline.entries.length) :
    ∃ entry, timeline.newestAt index = some entry := by
  rw [newestAt_eq]
  exact ⟨_, List.getElem?_eq_getElem (by rwa [List.length_reverse])⟩

theorem exists_newestIndex (hentry : timeline.find messageId = some entry) :
    ∃ index, timeline.newestIndex messageId = some index ∧ index < timeline.entries.length ∧
      ∃ found, timeline.newestAt index = some found ∧ found.messageId = messageId := by
  obtain ⟨hmem, hid⟩ := mem_of_find hentry
  obtain ⟨place, hplace⟩ := List.mem_iff_getElem?.mp (List.mem_reverse.mpr hmem)
  rw [← newestAt_eq] at hplace
  rcases hindex : timeline.newestIndex messageId with _ | index
  · -- the place of the entry would have been found
    have hlength : place < timeline.entries.length := by
      rw [newestAt_eq] at hplace
      have hlt := (List.getElem?_eq_some_iff.mp hplace).1
      rwa [List.length_reverse] at hlt
    have hnone := List.find?_eq_none.mp hindex place (List.mem_range.mpr hlength)
    rw [hplace] at hnone
    simp [hid] at hnone
  · have hlength := List.mem_range.mp (List.mem_of_find?_eq_some hindex)
    obtain ⟨found, hfound⟩ := newestAt_of_lt hlength
    have hsome := List.find?_some hindex
    rw [hfound] at hsome
    exact ⟨index, rfl, hlength, found, hfound, by simpa using hsome⟩

end Timeline

namespace ViewModel

variable {texts : Texts} {messenger : Messenger} {view : ViewModel}

/-! ### The pages -/

/-- Something is selected if there is anything, and it is there. -/
def SelectsValid (messenger : Messenger) (view : ViewModel) : Prop :=
  (view.selectedMessageId = none ↔ messenger.timeline.entries = []) ∧
    ∀ id, view.selectedMessageId = some id → (messenger.timeline.find id).isSome

theorem ensureTimelineSelection_valid (messenger : Messenger) (view : ViewModel) :
    (view.ensureTimelineSelection messenger).SelectsValid messenger := by
  rw [ensureTimelineSelection]
  split
  · rename_i hselected
    obtain ⟨id, hid, hfind⟩ := (Option.any_eq_true _ _).mp hselected
    obtain ⟨entry, hentry⟩ := Option.isSome_iff_exists.mp hfind
    refine ⟨iff_of_false (by simp [hid]) ?_, fun other hother => ?_⟩
    · exact List.ne_nil_of_mem (Timeline.mem_of_find hentry).1
    · rw [hid, Option.some.injEq] at hother
      exact hother ▸ hfind
  · -- the newest entry, if there is one
    rcases hnewest : messenger.timeline.newestAt 0 with _ | newest
    · have hempty : messenger.timeline.entries = [] := by
        rw [Timeline.newestAt_eq, List.getElem?_eq_none_iff, List.length_reverse] at hnewest
        exact List.eq_nil_of_length_eq_zero (Nat.le_zero.mp hnewest)
      refine ⟨iff_of_true rfl hempty, ?_⟩
      rintro _ ⟨⟩
    · have hmem := Timeline.newestAt_mem hnewest
      refine ⟨iff_of_false (by simp) (List.ne_nil_of_mem hmem), ?_⟩
      rintro _ ⟨⟩
      rw [Timeline.find_of_mem hmem]
      rfl

/-- A row is shown for the selected post, and only that is marked. -/
theorem timelineSnapshot_rows (hvalid : view.SelectsValid messenger) {id : MessageId}
    (hid : view.selectedMessageId = some id) :
    ∃ before row after, (view.timelineSnapshot messenger).rows = before ++ row :: after ∧
      row.messageId = id ∧ row.selected = true ∧
      ∀ other ∈ before ++ after, other.messageId ≠ id ∧ other.selected = false := by
  obtain ⟨entry, hentry⟩ := Option.isSome_iff_exists.mp (hvalid.2 id hid)
  obtain ⟨index, hindex, hlength, found, hfound, hfoundId⟩ := Timeline.exists_newestIndex hentry
  obtain ⟨before, after, hwindow, hothers⟩ :=
    exists_window hlength (show 0 < kVisibleTimelineRows by decide)
  let row (entry : TimelineEntry) := view.timelineRow messenger entry
  have hselected : (view.selectedMessageId.bind messenger.timeline.newestIndex).getD 0 = index := by
    rw [hid, Option.bind_some, hindex, Option.getD_some]
  refine ⟨(before.filterMap messenger.timeline.newestAt).map row, row found,
    (after.filterMap messenger.timeline.newestAt).map row, ?_, hfoundId, ?_, fun other hother => ?_⟩
  · rw [timelineSnapshot, if_neg (by omega), hselected]
    show ((window index kVisibleTimelineRows _).filterMap messenger.timeline.newestAt).map row = _
    rw [hwindow, List.filterMap_append, List.filterMap_cons_some hfound, List.map_append,
      List.map_cons]
  · show decide (view.selectedMessageId = some found.messageId) = true
    rw [hid, hfoundId, decide_eq_true rfl]
  · rw [← List.map_append, ← List.filterMap_append] at hother
    obtain ⟨shown, hshown, rfl⟩ := List.mem_map.mp hother
    obtain ⟨place, hplace, hentryAt⟩ := List.mem_filterMap.mp hshown
    have hne : shown.messageId ≠ id := by
      intro heq
      exact (hothers place hplace).1
        (Timeline.newestAt_inj hentryAt hfound (heq.trans hfoundId.symm))
    refine ⟨hne, ?_⟩
    show decide (view.selectedMessageId = some shown.messageId) = false
    rw [hid, decide_eq_false_iff_not, Option.some.injEq]
    exact fun heq => hne heq.symm

theorem length_timelineSnapshot_rows : (view.timelineSnapshot messenger).rows.length ≤
    kVisibleTimelineRows := by
  rw [timelineSnapshot]
  split
  · exact Nat.zero_le _
  · rw [List.length_map]
    exact le_trans (List.length_filterMap_le _ _) length_window_le

/-! ### Peers -/

/-- Peers are distinct and others than the owner, and the cursor is on one of them. -/
structure PeersValid (messenger : Messenger) (view : ViewModel) : Prop where
  nodup : view.peers.Nodup
  others : ∀ peer ∈ view.peers, ownInstallId messenger ≠ some peer
  cursor : view.peers ≠ [] → view.peerCursor < view.peers.length

theorem collectPeers_valid {own : Option InstallId} (ids : List InstallId) {peers : List InstallId}
    (hnodup : peers.Nodup) (hothers : ∀ peer ∈ peers, own ≠ some peer) :
    (collectPeers own peers ids).Nodup ∧ ∀ peer ∈ collectPeers own peers ids, own ≠ some peer := by
  induction ids generalizing peers with
  | nil => exact ⟨hnodup, hothers⟩
  | cons id ids ih =>
    rw [collectPeers, List.foldl_cons]
    split
    · exact ih hnodup hothers
    · rename_i hnew
      rw [not_or] at hnew
      refine ih (List.nodup_append_comm.mp ?_) fun peer hpeer => ?_
      · rw [List.singleton_append, List.nodup_cons]
        exact ⟨hnew.2, hnodup⟩
      · rcases List.mem_append.mp hpeer with hpeer | hpeer
        · exact hothers peer hpeer
        · rw [List.mem_singleton.mp hpeer]
          exact hnew.1

theorem clamp_lt {peers : List InstallId} (cursor : ℕ) (hpeers : peers ≠ []) :
    (if peers ≠ [] ∧ cursor ≥ peers.length then peers.length - 1 else cursor) < peers.length := by
  have hpos := List.length_pos_iff.mpr hpeers
  split
  · omega
  · rename_i hcursor
    exact Nat.lt_of_not_le fun hle => hcursor ⟨hpeers, hle⟩

theorem refreshPeers_valid (messenger : Messenger) (view : ViewModel) :
    (view.refreshPeers messenger).PeersValid messenger := by
  obtain ⟨hnodup, hothers⟩ := @collectPeers_valid (ownInstallId messenger)
    (messenger.timeline.newest.map fun entry => entry.post.senderId) []
    List.nodup_nil (List.forall_mem_nil _)
  obtain ⟨hnodup, hothers⟩ := collectPeers_valid view.draft.mentions hnodup hothers
  exact ⟨hnodup, hothers, clamp_lt _⟩

/-- One option is marked, and the options are distinct peers. -/
theorem mentionsSnapshot_options (hvalid : view.PeersValid messenger) (hpeers : view.peers ≠ []) :
    (∃ before option after, (view.mentionsSnapshot texts messenger).options =
      before ++ option :: after ∧
      option.cursor = true ∧ ∀ other ∈ before ++ after, other.cursor = false) ∧
    ((view.mentionsSnapshot texts messenger).options.map MentionOptionSnapshot.installId).Nodup ∧
    ∀ option ∈ (view.mentionsSnapshot texts messenger).options,
      ownInstallId messenger ≠ some option.installId := by
  let option (index : ℕ) : Option MentionOptionSnapshot := view.peers[index]?.map fun peer =>
    { installId := peer
      label := view.peerLabel texts messenger peer
      selected := peer ∈ view.draft.mentions
      cursor := index = view.peerCursor }
  have hoptions : (view.mentionsSnapshot texts messenger).options =
      (window view.peerCursor kVisibleMentionRows view.peers.length).filterMap option := by
    rw [mentionsSnapshot, if_neg hpeers]
  have hcursor := hvalid.cursor hpeers
  refine ⟨?_, ?_, ?_⟩
  · obtain ⟨before, after, hwindow, hothers⟩ :=
      exists_window hcursor (show 0 < kVisibleMentionRows by decide)
    obtain ⟨marked, hmarked⟩ : ∃ marked, option view.peerCursor = some marked :=
      Option.isSome_iff_exists.mp (by simp [option, hcursor])
    have hmark : ∀ {index : ℕ} {shown : MentionOptionSnapshot}, option index = some shown →
        shown.cursor = decide (index = view.peerCursor) := by
      intro index shown hshown
      obtain ⟨peer, -, rfl⟩ := Option.map_eq_some_iff.mp hshown
      rfl
    refine ⟨before.filterMap option, marked, after.filterMap option, ?_, ?_, fun other hother => ?_⟩
    · rw [hoptions, hwindow, List.filterMap_append, List.filterMap_cons_some hmarked]
    · rw [hmark hmarked, decide_eq_true rfl]
    · rw [← List.filterMap_append] at hother
      obtain ⟨index, hindex, hshown⟩ := List.mem_filterMap.mp hother
      rw [hmark hshown, decide_eq_false (hothers index hindex).1]
  · have hids : (window view.peerCursor kVisibleMentionRows view.peers.length).filterMap
        (fun index => (option index).map MentionOptionSnapshot.installId) =
        (window view.peerCursor kVisibleMentionRows view.peers.length).filterMap
          (view.peers[·]?) := by
      refine List.filterMap_congr fun index _ => ?_
      rw [show option index = _ from rfl, Option.map_map]
      exact Option.map_id'
    rw [hoptions, List.map_filterMap, hids]
    refine nodup_window.filterMap fun index other peer hindex hother => ?_
    have hlength := (List.getElem?_eq_some_iff.mp hindex).1
    exact (List.getElem?_inj hlength hvalid.nodup).mp (hindex.trans hother.symm)
  · rw [hoptions]
    intro shown hshown
    obtain ⟨index, -, hindex⟩ := List.mem_filterMap.mp hshown
    obtain ⟨peer, hpeer, rfl⟩ := Option.map_eq_some_iff.mp hindex
    exact hvalid.others peer (List.mem_of_getElem? hpeer)

theorem length_mentionsSnapshot_options :
    (view.mentionsSnapshot texts messenger).options.length ≤ kVisibleMentionRows := by
  rw [mentionsSnapshot]
  split
  · exact Nat.zero_le _
  · exact le_trans (List.length_filterMap_le _ _) length_window_le

/-! ### Following the messenger -/

/-- The detail screen shows a post of the timeline. -/
def ShowsPresent (messenger : Messenger) (view : ViewModel) : Prop :=
  view.screen = .detail → (view.detailEntry messenger).isSome

theorem leaveVanished_shows (messenger : Messenger) (view : ViewModel) :
    (view.leaveVanished messenger).ShowsPresent messenger := by
  rw [leaveVanished]
  split
  · dsimp only
    split
    · exact fun h => by cases h
    · exact fun h => by cases h
  · rename_i hpresent
    intro hscreen
    exact Option.isSome_iff_ne_none.mpr fun hnone => hpresent ⟨hscreen, hnone⟩

theorem leaveVanished_selected (messenger : Messenger) (view : ViewModel) :
    (view.leaveVanished messenger).selectedMessageId = view.selectedMessageId := by
  rw [leaveVanished]
  split
  · dsimp only
    split
    · rfl
    · rfl
  · rfl

/-- After `reconcile_model` the view fits the messenger. -/
theorem reconcileModel_valid (messenger : Messenger) (view : ViewModel) :
    (view.reconcileModel messenger).SelectsValid messenger ∧
      (view.reconcileModel messenger).ShowsPresent messenger ∧
      ((view.reconcileModel messenger).screen = .mentions →
        (view.reconcileModel messenger).PeersValid messenger) := by
  have hselects := ensureTimelineSelection_valid messenger view
  have hshows := leaveVanished_shows messenger (view.ensureTimelineSelection messenger)
  rw [SelectsValid, ← leaveVanished_selected messenger] at hselects
  rw [reconcileModel]
  split
  · exact ⟨hselects, hshows, fun _ => refreshPeers_valid messenger _⟩
  · exact ⟨hselects, hshows, fun h => absurd h ‹_›⟩

theorem prepareSnapshot_valid (messenger : Messenger) (view : ViewModel) :
    (view.prepareSnapshot messenger).SelectsValid messenger ∧
      (view.prepareSnapshot messenger).ShowsPresent messenger ∧
      ((view.prepareSnapshot messenger).screen = .mentions →
        (view.prepareSnapshot messenger).PeersValid messenger) := by
  obtain ⟨hselects, hshows, hpeers⟩ := reconcileModel_valid messenger view
  rw [prepareSnapshot]
  split
  · exact ⟨hselects, hshows, fun _ => refreshPeers_valid messenger _⟩
  · exact ⟨hselects, hshows, hpeers⟩

theorem detailSnapshot_present (hshows : view.ShowsPresent messenger)
    (hscreen : view.screen = .detail) :
    ∃ id, (view.detailSnapshot texts messenger).messageId = some id ∧
      (messenger.timeline.find id).isSome ∧
      (view.detailSnapshot texts messenger).scrollLine ≤
        (view.detailSnapshot texts messenger).maximumScrollLine := by
  obtain ⟨entry, hentry⟩ := Option.isSome_iff_exists.mp (hshows hscreen)
  obtain ⟨id, -, hfind⟩ := Option.bind_eq_some_iff.mp hentry
  rw [detailSnapshot, hentry]
  refine ⟨entry.messageId, rfl, ?_, Nat.min_le_right _ _⟩
  rw [Timeline.find_of_mem (Timeline.mem_of_find hfind).1]
  rfl

end ViewModel

end Lora
