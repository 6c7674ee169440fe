/-
Calls of the session.

Any call may meet a crash or a failing store on its way.  What the next process
finds then is what is on the disk.

* `wp_call` — a call changes the disk by steps that belong to it, and what is in
  service afterwards agrees with the disk;
* `call_idle` — a session out of service leaves the disk alone.
-/
import LoraMessenger.SessionStart

namespace Lora

open Crash

inductive SessionCall where
  | compose (draft : PostDraft) (random : Option (Vector UInt8 16)) (now : Option Int64)
  | renameUser (userId : Bytes)
  | acceptReceivedPost (canonicalPost : Bytes)
  | markBroadcast (messageId : MessageId)
  | markFailed (messageId : MessageId)
  | setLocale (locale : StoredLocale)
  | setSkipTitle (skipTitle : Bool)
  | initializeNew (userId : Bytes) (random : Option (Vector UInt8 16))
  | restoreIdentity (identity : Identity)
  | restoreState (identity : Identity) (timeline : Timeline)
  | deleteAll
  | shutdown

inductive Reply where
  | command (result : CommandResult)
  | inbound (status : InboundPostStatus)
  | flag (value : Bool)
  | nothing

def Session.call : SessionCall → SessionM Reply
  | .compose draft random now => do pure (.command (← compose draft random now))
  | .renameUser userId => do pure (.command (← renameUser userId))
  | .acceptReceivedPost canonicalPost => do pure (.inbound (← acceptReceivedPost canonicalPost))
  | .markBroadcast messageId => do pure (.command (← markBroadcast messageId))
  | .markFailed messageId => do pure (.command (← markFailed messageId))
  | .setLocale locale => do pure (.flag (← setLocale locale))
  | .setSkipTitle skipTitle => do pure (.flag (← setSkipTitle skipTitle))
  | .initializeNew userId random => do pure (.command (← initializeNew userId random))
  | .restoreIdentity identity => do pure (.command (← restoreIdentity identity))
  | .restoreState identity timeline => do pure (.command (← restoreState identity timeline))
  | .deleteAll => do pure (.flag (← deleteAll))
  | .shutdown => do
    shutdown
    pure .nothing

/-- The changes of the disk that belong to a call. -/
def SessionCall.causes : SessionCall → Cause → Prop
  | .compose _ random _ => fun cause => cause = .commit .sequence ∨
      ∃ post, MessageId.generate random = .ok post.messageId ∧ cause = .commit (.composed post)
  | .renameUser _ => (· = .commit .settings)
  | .acceptReceivedPost canonicalPost => fun cause =>
      ∃ post, canonicalPost = postBytes post ∧ cause = .commit (.received post)
  | .markBroadcast messageId => (· = .commit (.delivered messageId .broadcast))
  | .markFailed messageId => (· = .commit (.delivered messageId .failed))
  | .setLocale _ => (· = .commit .settings)
  | .setSkipTitle _ => (· = .commit .settings)
  | .deleteAll => (· = .erase)
  | _ => fun _ => False

variable {m : Machine Session Disk} {crash : Disk → Prop}

/-- An error of a transition is an error of the command. -/
theorem Timeline.mapTransitionError_ne_none {timeline : Timeline} {messageId : MessageId}
    {target : LocalDeliveryState} {error : TransitionError}
    (h : timeline.transition messageId target = .error error) :
    mapTransitionError error ≠ .none := by
  rw [Timeline.transition] at h
  split at h
  · cases h
    simp [mapTransitionError]
  split at h
  · cases h
    simp [mapTransitionError]
  split at h
  · cases h
  split at h
  · cases h
    simp [mapTransitionError]
  · cases h

/-! ### Out of service -/

section Idle

/-- Out of service: not ready, or closed. -/
def Session.Idle (session : Session) : Prop := session.status ≠ .ready ∨ session.closed

variable (hidle : m.memory.Idle)
include hidle

theorem mayPersist_of_idle : ¬m.memory.mayPersist := by
  rintro ⟨hready, hopen, -⟩
  rcases hidle with h | h
  · exact h hready
  · simp [hopen] at h

theorem mayAdopt_of_idle (settings : SettingsRecord) : m.memory.mayAdopt settings = false := by
  rcases hidle with h | h
  · simp [Session.mayAdopt, h]
  · simp [Session.mayAdopt, h]

theorem wp_persistIdentity_idle {identity : Identity} {post : Bool → Machine Session Disk → Prop}
    (hpost : post false m) : wp (Session.persistIdentity identity) post crash m := by
  unfold Session.persistIdentity
  simp only [wp_bind, wp_memory]
  rcases m.memory.settings with _ | settings
  · exact hpost
  · simp only [mayAdopt_of_idle hidle settings, Bool.false_eq_true, if_false]
    exact hpost

theorem wp_persistTimeline_idle {timeline : Timeline} {post : Bool → Machine Session Disk → Prop}
    (hpost : post false m) : wp (Session.persistTimeline timeline) post crash m := by
  rw [wp, persistTimeline_idle (mayPersist_of_idle hidle)]
  exact hpost

theorem wp_transition_idle {messageId : MessageId} {target : LocalDeliveryState}
    {post : CommandResult → Machine Session Disk → Prop}
    (hpost : ∀ result : CommandResult, result.error ≠ .none → post result m) :
    wp (Session.transition messageId target) post crash m := by
  unfold Session.transition
  simp only [wp_bind, wp_memory]
  rcases m.memory.messenger.identity with _ | identity
  · exact hpost _ (by simp)
  dsimp only
  rcases hchanged : m.memory.messenger.timeline.transition messageId target with error | changed
  · exact hpost _ (Timeline.mapTransitionError_ne_none hchanged)
  rw [wp_bind]
  refine wp_persistTimeline_idle hidle ?_
  exact hpost _ (by simp)

theorem wp_setPreference_idle {differs : SettingsRecord → Bool}
    {change : SettingsRecord → SettingsRecord} {post : Machine Session Disk → Prop}
    (hpost : post m) :
    wp (Session.setPreference differs change) (fun _ m' => post m') crash m := by
  unfold Session.setPreference
  simp only [wp_bind, wp_memory]
  rcases m.memory.settings with _ | settings
  · exact hpost
  · simp only [mayAdopt_of_idle hidle settings, Bool.false_eq_true, if_false]
    exact hpost

end Idle

/-- What a call leaves as it is if the session is out of service. -/
def Untouched (m m' : Machine Session Disk) : Prop :=
  m'.durable = m.durable ∧ m'.memory.status = m.memory.status ∧
    (m.memory.closed → m'.memory.closed) ∧ ∀ v, Shows m.memory v → Shows m'.memory v

theorem untouched_refl : Untouched m m := ⟨rfl, rfl, id, fun _ h => h⟩

/-- A session out of service leaves the disk alone, unless it deletes it. -/
theorem call_idle (hidle : m.memory.Idle) {c : SessionCall} (hdelete : c ≠ .deleteAll) :
    wp (Session.call c) (fun _ m' => Untouched m m') (fun _ => False) m := by
  have hsame : Untouched m m := untouched_refl
  -- Out of service, every program returns before its first save.
  cases c with
  | deleteAll => exact absurd rfl hdelete
  | compose draft random now =>
    simp only [Session.call, Session.compose, wp_bind, wp_memory, wp_pure]
    rcases m.memory.messenger.identity with _ | identity
    · exact hsame
    dsimp only
    rcases m.memory.messenger.stage identity draft random now with result | staged
    · exact hsame
    rw [wp_bind]
    refine wp_persistIdentity_idle hidle ?_
    exact hsame
  | renameUser userId =>
    simp only [Session.call, Session.renameUser, wp_bind, wp_memory, wp_pure]
    rcases m.memory.messenger.identity with _ | identity
    · exact hsame
    dsimp only
    rcases UserId.create userId with error | userId
    · exact hsame
    rw [wp_bind]
    refine wp_persistIdentity_idle hidle ?_
    exact hsame
  | acceptReceivedPost canonicalPost =>
    simp only [Session.call, Session.acceptReceivedPost, wp_bind, wp_memory, wp_pure]
    rw [if_pos]
    · exact hsame
    · rcases hidle with h | h
      · exact .inl h
      · exact .inr (.inl h)
  | markBroadcast messageId =>
    rw [Session.call, wp_bind]
    exact wp_transition_idle hidle fun _ _ => hsame
  | markFailed messageId =>
    rw [Session.call, wp_bind]
    exact wp_transition_idle hidle fun _ _ => hsame
  | setLocale locale =>
    rw [Session.call, wp_bind]
    exact wp_setPreference_idle hidle hsame
  | setSkipTitle skipTitle =>
    rw [Session.call, wp_bind]
    exact wp_setPreference_idle hidle hsame
  | initializeNew userId random =>
    simp only [Session.call, Session.initializeNew, wp_bind, wp_memory, wp_pure]
    rcases m.memory.messenger.identity with _ | identity
    swap
    · exact hsame
    dsimp only
    rcases UserId.create userId with error | userId
    · exact hsame
    dsimp only
    rcases InstallId.generate random with error | installId
    · exact hsame
    rw [wp_bind]
    refine wp_persistIdentity_idle hidle ?_
    exact hsame
  | restoreIdentity identity =>
    simp only [Session.call, Session.restoreIdentity, wp_bind, wp_memory, wp_pure]
    rcases hnone : m.memory.messenger.identity with _ | other
    · -- A memory without an identity shows no committed state.
      refine ⟨rfl, rfl, id, fun v hshows => ?_⟩
      rw [hshows.identity] at hnone
      cases hnone
    · exact hsame
  | restoreState identity timeline =>
    simp only [Session.call, Session.restoreState, wp_bind, wp_memory, wp_pure]
    rcases hnone : m.memory.messenger.identity with _ | other
    · refine ⟨rfl, rfl, id, fun v hshows => ?_⟩
      rw [hshows.identity] at hnone
      cases hnone
    · exact hsame
  | shutdown =>
    simp only [Session.call, Session.shutdown, wp_bind, wp_update, wp_pure]
    split
    · exact hsame
    · exact ⟨rfl, rfl, fun _ => rfl, fun v hshows => ⟨.inl rfl, hshows.settings, hshows.identity,
        hshows.timeline, hshows.dedupe⟩⟩

/-! ### Calls -/

section Erase

variable {allowed : Cause → Prop} (hallowed : allowed .erase)
include hallowed

theorem reaches_eraseSettings (disk : Disk) :
    Reaches allowed disk { disk with settings := .missing } :=
  Reaches.refl.step hallowed .eraseSettings

/-- The settings go first; no history is left without settings to read it. -/
theorem wp_deleteAll (hagrees : Agrees m.memory m.durable) :
    wp Session.deleteAll (fun _ m' => Settled allowed m.durable m')
      (Reaches allowed m.durable) m := by
  unfold Session.deleteAll discardHistoryProbe unlinkSettings unlinkHistory Session.setStatus
  simp only [wp_bind, wp_memory]
  by_cases hguard : (!m.memory.locked) = true ∨ m.memory.closed = true
  · rw [if_pos hguard]
    exact ⟨.refl, hagrees⟩
  rw [if_neg hguard]
  simp only [wp_bind]
  have hgone : Reaches allowed m.durable { m.durable with settings := .missing } :=
    reaches_eraseSettings hallowed m.durable
  refine wp_read ?_ ?_ ?_
  swap
  · exact fun _ _ => ⟨.refl, agrees_recovery⟩
  swap
  · exact fun _ => .refl
  intro rest _
  simp only [wp_bind, wp_pure, if_true]
  refine wp_write _ ?_ ?_ ?_
  · intro rest _
    simp only [wp_bind, wp_pure, wp_update, if_true]
    refine wp_write _ ?_ ?_ ?_
    · exact fun rest _ => ⟨hgone.step hallowed (.eraseHistory (.inr rfl)), agrees_recovery⟩
    · rintro (_ | _ | _) rest _
      · exact ⟨hgone, agrees_recovery⟩
      · exact ⟨hgone.step hallowed (.eraseHistory (.inl rfl)), agrees_recovery⟩
      · exact ⟨hgone.step hallowed (.eraseHistory (.inr rfl)), agrees_recovery⟩
    · rintro (_ | _ | _) _
      · exact hgone
      · exact hgone.step hallowed (.eraseHistory (.inl rfl))
      · exact hgone.step hallowed (.eraseHistory (.inr rfl))
  · rintro (_ | _ | _) rest _
    · exact ⟨.refl, agrees_recovery⟩
    · exact ⟨.refl, agrees_recovery⟩
    · exact ⟨hgone, agrees_recovery⟩
  · rintro (_ | _ | _) _
    · exact .refl
    · exact .refl
    · exact hgone

end Erase

theorem settled_transition {v : Committed} (hshows : Shows m.memory v) (hdisk : m.durable = v.disk)
    {allowed : Cause → Prop} {messageId : MessageId} {target : LocalDeliveryState}
    (hallowed : allowed (.commit (.delivered messageId target))) :
    wp (Session.transition messageId target) (fun _ m' => Settled allowed v.disk m')
      (Reaches allowed v.disk) m := by
  refine wp_transition hshows hdisk ?_ ?_ ?_ ?_ ?_
  · exact fun _ _ => settled_same hshows hdisk
  · exact fun _ => settled_same hshows hdisk
  · exact fun v' rest _ hcommit _ =>
      ⟨reaches_commit hcommit hallowed (.inr rfl), fun _ => ⟨v', hshows.adopt v', rfl⟩⟩
  · exact fun v' disk rest hcommit _ hor =>
      ⟨reaches_commit hcommit hallowed hor, agrees_recovery⟩
  · exact fun v' disk hcommit _ hor => reaches_commit hcommit hallowed hor

/-- A call changes the disk by steps that belong to it; if the session is in
service afterwards, memory and disk agree. -/
theorem wp_call (hagrees : Agrees m.memory m.durable) (c : SessionCall) :
    wp (Session.call c) (fun _ m' => Settled c.causes m.durable m')
      (Reaches c.causes m.durable) m := by
  -- Deleting all works out of service as well, so it comes first.
  by_cases hdelete : c = .deleteAll
  · subst hdelete
    rw [Session.call, wp_bind]
    exact wp_deleteAll rfl hagrees
  by_cases hready : m.memory.status = .ready
  swap
  · refine wp_mono (call_idle (.inl hready) hdelete) ?_ (fun _ h => h.elim)
    rintro _ m' ⟨hdurable, hstatus, -⟩
    exact ⟨hdurable ▸ .refl, fun h => absurd (hstatus ▸ h) hready⟩
  obtain ⟨v, hshows, hdisk⟩ := hagrees hready
  rw [hdisk]
  -- In service: each call by the rule of its program, with the causes that the call allows.
  cases c with
  | deleteAll => exact absurd rfl hdelete
  | compose draft random now =>
    rw [Session.call, wp_bind]
    have hallowed : ∀ post : PostPayload, MessageId.generate random = .ok post.messageId →
        ∀ cause, cause = .commit .sequence ∨ cause = .commit (.composed post) →
          (SessionCall.compose draft random now).causes cause := by
      rintro post hgenerate cause (rfl | rfl)
      · exact .inl rfl
      · exact .inr ⟨post, hgenerate, rfl⟩
    have hsequence : ∀ v₁, Commit .sequence v v₁ →
        Reaches (SessionCall.compose draft random now).causes v.disk v₁.disk :=
      fun v₁ hcommit => reaches_commit hcommit (.inl rfl) (.inr rfl)
    refine wp_compose hshows hdisk ?_ ?_ ?_ ?_ ?_ ?_ ?_
    · exact fun _ _ => settled_same hshows hdisk
    · exact fun _ _ => settled_same hshows hdisk
    · exact fun post v₁ rest _ hcommit _ =>
        ⟨hsequence v₁ hcommit, fun _ => ⟨v₁, hshows.adopt _, rfl⟩⟩
    · exact fun post ids v₁ rest _ hcommit _ _ _ => ⟨hsequence v₁ hcommit, agrees_recovery⟩
    · exact fun post session disk rest hgenerate _ hreach =>
        ⟨hreach.mono (hallowed post hgenerate), agrees_recovery⟩
    · -- both commits have happened: the sequence, then the post
      intro post evicted v₁ v₂ rest hgenerate hcommit₁ hcommit₂ _
      exact ⟨(hsequence v₁ hcommit₁).step (.inr ⟨post, hgenerate, rfl⟩) (.commit hcommit₂),
        fun _ => ⟨v₂, hshows.adopt _, rfl⟩⟩
    · exact fun post disk hgenerate _ hreach => hreach.mono (hallowed post hgenerate)
  | renameUser userId =>
    rw [Session.call, wp_bind]
    refine wp_renameUser hshows hdisk ?_ userId
    rfl
  | acceptReceivedPost canonicalPost =>
    rw [Session.call, wp_bind]
    refine wp_acceptReceivedPost hshows hdisk ?_ ?_ ?_ ?_ ?_
    · exact fun _ _ => settled_same hshows hdisk
    · exact fun post v' rest hbytes hcommit _ =>
        ⟨reaches_commit hcommit ⟨post, hbytes, rfl⟩ (.inr rfl), fun _ => ⟨v', hshows.adopt _, rfl⟩⟩
    · exact fun post ids _ _ _ _ _ => ⟨hdisk ▸ .refl, agrees_recovery⟩
    · exact fun post v' disk rest hbytes hcommit _ hor =>
        ⟨reaches_commit hcommit ⟨post, hbytes, rfl⟩ hor, agrees_recovery⟩
    · exact fun post v' disk hbytes hcommit _ hor => reaches_commit hcommit ⟨post, hbytes, rfl⟩ hor
  | markBroadcast messageId =>
    rw [Session.call, wp_bind]
    exact settled_transition hshows hdisk rfl
  | markFailed messageId =>
    rw [Session.call, wp_bind]
    exact settled_transition hshows hdisk rfl
  | setLocale locale =>
    rw [Session.call, wp_bind]
    refine wp_setPreference hshows hdisk ?_ _ _ ?_
    · rfl
    · exact fun _ => ⟨rfl, rfl, rfl⟩
  | setSkipTitle skipTitle =>
    rw [Session.call, wp_bind]
    refine wp_setPreference hshows hdisk ?_ _ _ ?_
    · rfl
    · exact fun _ => ⟨rfl, rfl, rfl⟩
  | initializeNew userId random =>
    simp only [Session.call, Session.initializeNew, wp_bind, wp_memory, hshows.identity, wp_pure]
    exact settled_same hshows hdisk
  | restoreIdentity identity =>
    simp only [Session.call, Session.restoreIdentity, wp_bind, wp_memory, hshows.identity, wp_pure]
    exact settled_same hshows hdisk
  | restoreState identity timeline =>
    simp only [Session.call, Session.restoreState, wp_bind, wp_memory, hshows.identity, wp_pure]
    exact settled_same hshows hdisk
  | shutdown =>
    simp only [Session.call, Session.shutdown, wp_bind, wp_update, wp_pure]
    refine ⟨hdisk ▸ .refl, fun _ => ⟨v, ?_, hdisk⟩⟩
    split
    · exact hshows
    · exact ⟨.inl rfl, hshows.settings, hshows.identity, hshows.timeline, hshows.dedupe⟩

end Lora
