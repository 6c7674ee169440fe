/-
What the programs of the session leave alone.

Only `shutdown` closes a session, and only an insertion, a transition or a start
replaces its timeline.

* `keeps_saveSnapshot`, … — the stores do not touch the memory at all;
* `starts_bootstrap` — a start leaves the session open with nothing queued;
* `opens_user` — no call of the user closes a session;
* `wp_compose_timeline` — nor does one that composes nothing change the timeline.
-/
import LoraMessenger.RadioRuntime

namespace Lora

open Crash

/-! ### The stores -/

section Store

variable {μ ν : Type} {view : μ → ν}

theorem keeps_saveSettings (record : SettingsRecord) :
    Keeps view (saveSettings record : Prog μ Disk (Except SettingsStoreFailure Unit)) := by
  unfold saveSettings
  split
  · exact .pure _
  · refine .bind (.write _) fun written => ?_
    cases written with
    | done => exact .pure _
    | failed progress => exact .pure _

theorem keeps_loadSettings :
    Keeps view (loadSettings : Prog μ Disk (Except SettingsStoreFailure SettingsRecord)) := by
  unfold loadSettings
  refine .bind .read fun disk => ?_
  repeat' split
  all_goals exact .pure _

theorem keeps_discardHistoryProbe : Keeps view (discardHistoryProbe : Prog μ Disk Bool) := by
  unfold discardHistoryProbe
  refine .bind .read fun disk => ?_
  split
  all_goals exact .pure _

theorem keeps_hasHistoryArtifact : Keeps view (hasHistoryArtifact : Prog μ Disk Bool) := by
  unfold hasHistoryArtifact
  refine .bind .read fun disk => ?_
  split
  all_goals exact .pure _

theorem keeps_openHistory : Keeps view (openHistory : Prog μ Disk Bool) := by
  unfold openHistory
  refine .bind .read fun disk => ?_
  split
  · exact .pure _
  split
  · refine .bind (.write _) fun written => ?_
    split
    all_goals exact .pure _
  all_goals exact .pure _

theorem keeps_openExistingBound (identity : Identity) :
    Keeps view (openExistingBound identity : Prog μ Disk HistoryError) := by
  unfold openExistingBound
  refine .bind .read fun disk => ?_
  repeat' split
  all_goals exact .pure _

theorem keeps_saveSnapshot (snapshot : HistorySnapshot) (identity : Identity) :
    Keeps view (saveSnapshot snapshot identity : Prog μ Disk HistoryError) := by
  unfold saveSnapshot
  split
  · exact .pure _
  split
  · exact .pure _
  refine .bind .read fun disk => ?_
  split
  · exact .pure _
  split
  · exact .pure _
  refine .bind (.write _) fun written => ?_
  split
  all_goals exact .pure _

theorem keeps_loadSnapshot (identity : Identity) :
    Keeps view (loadSnapshot identity : Prog μ Disk (Except HistoryError HistorySnapshot)) := by
  unfold loadSnapshot
  refine .bind .read fun disk => ?_
  split
  · exact .pure _
  split
  · exact .pure _
  · split
    · exact .pure _
    split
    · exact .pure _
    split
    · exact .pure _
    split
    · exact .pure _
    · refine .bind (keeps_saveSnapshot _ _) fun saved => ?_
      split
      all_goals exact .pure _
  · exact .pure _

end Store

/-! ### Saving -/

namespace Session

/-- What a session shows and whether it is closed. -/
abbrev Frames {α : Type} (program : SessionM α) : Prop :=
  Keeps (fun session => (session.closed, session.messenger.timeline)) program

/-- The program does not close the session. -/
abbrev Opens {α : Type} (program : SessionM α) : Prop := Keeps Session.closed program

theorem Frames.opens {α : Type} {program : SessionM α} (h : Frames program) : Opens program :=
  h.map Prod.fst

theorem frames_setStatus (status : PersistentSessionStatus) : Frames (setStatus status) :=
  .update fun _ => rfl

theorem frames_adoptSettings (candidate : SettingsRecord) : Frames (adoptSettings candidate) := by
  unfold adoptSettings
  refine .bind (keeps_saveSettings _) fun saved => ?_
  split
  · exact .bind (.update fun _ => rfl) fun _ => .pure _
  · split
    · exact .bind (frames_setStatus _) fun _ => .pure _
    · exact .pure _

theorem frames_persistIdentity (identity : Identity) : Frames (persistIdentity identity) := by
  unfold persistIdentity
  refine .bind .memory fun session => ?_
  split
  · exact .pure _
  · split
    · exact frames_adoptSettings _
    · exact .pure _

theorem frames_persistTimeline (timeline : Timeline) : Frames (persistTimeline timeline) := by
  unfold persistTimeline
  refine .bind .memory fun session => ?_
  split
  · exact .pure _
  split
  · exact .pure _
  split
  · exact .pure _
  · exact .bind (frames_setStatus _) fun _ => .pure _
  · refine .bind (keeps_saveSnapshot _ _) fun result => ?_
    split
    · exact .bind (frames_setStatus _) fun _ => .pure _
    · exact .bind (.update fun _ => rfl) fun _ => .pure _

theorem frames_renameUser (userId : Bytes) : Frames (renameUser userId) := by
  unfold renameUser
  refine .bind .memory fun session => ?_
  split
  · exact .pure _
  split
  · exact .pure _
  refine .bind (frames_persistIdentity _) fun saved => ?_
  split
  · exact .bind (.update fun _ => rfl) fun _ => .pure _
  · exact .pure _

theorem frames_setPreference (differs : SettingsRecord → Bool)
    (change : SettingsRecord → SettingsRecord) : Frames (setPreference differs change) := by
  unfold setPreference
  refine .bind .memory fun session => ?_
  split
  · exact .pure _
  split
  · split
    · exact frames_adoptSettings _
    · exact .pure _
  · exact .pure _

/-! ### Calls of the user -/

theorem opens_compose (draft : PostDraft) (random : Option (Vector UInt8 16)) (now : Option Int64) :
    Opens (compose draft random now) := by
  unfold compose
  refine .bind .memory fun session => ?_
  split
  · exact .pure _
  split
  · exact .pure _
  refine .bind (frames_persistIdentity _).opens fun saved => ?_
  split
  · refine .bind (.update fun _ => rfl) fun _ =>
      .bind (frames_persistTimeline _).opens fun saved => ?_
    split
    · exact .bind (.update fun _ => rfl) fun _ => .pure _
    · exact .pure _
  · exact .pure _

theorem opens_user (c : UserCall) : Opens (Session.call c.call) := by
  cases c with
  | compose draft random now => exact .bind (opens_compose draft random now) fun _ => .pure _
  | renameUser userId => exact .bind (frames_renameUser userId).opens fun _ => .pure _
  | setLocale locale => exact .bind (frames_setPreference _ _).opens fun _ => .pure _
  | setSkipTitle skipTitle => exact .bind (frames_setPreference _ _).opens fun _ => .pure _

/-- If nothing is composed, the timeline stays. -/
theorem wp_compose_timeline (draft : PostDraft) (random : Option (Vector UInt8 16))
    (now : Option Int64) (m : Machine Session Disk) :
    wp (compose draft random now) (fun result m' => result.messageId = none →
      m'.memory.messenger.timeline = m.memory.messenger.timeline) (fun _ => True) m := by
  unfold compose
  rw [wp_bind, wp_memory]
  split
  · exact fun _ => rfl
  split
  · exact fun _ => rfl
  rw [wp_bind]
  refine wp_mono ((frames_persistIdentity _).map Prod.snd m) (fun saved m₁ hfirst => ?_)
    (fun _ h => h)
  split
  · simp only [setIdentity, wp_bind, wp_update]
    refine wp_mono ((frames_persistTimeline _).map Prod.snd _) (fun saved m₂ hsecond => ?_)
      (fun _ h => h)
    split
    · intro hnone
      cases hnone
    · exact fun _ => hsecond.trans hfirst
  · exact fun _ => hfirst

/-! ### Starting -/

/-- A session that is coming up: it is not closed, and no post is queued. -/
def Fresh (session : Session) : Prop :=
  session.closed = false ∧ ∀ entry ∈ session.messenger.timeline.entries, entry.isQueued = false

/-- The program is a part of a start. -/
abbrev Starts {α : Type} (program : SessionM α) : Prop := Maintains Session.Fresh program

theorem Frames.starts {α : Type} {program : SessionM α} (h : Frames program) : Starts program := by
  refine .of_keeps h fun {before after} hsame hfresh => ?_
  obtain ⟨hclosed, htimeline⟩ := Prod.mk.inj hsame
  exact ⟨hclosed.trans hfresh.1, htimeline ▸ hfresh.2⟩

theorem starts_openEmptyHistory (settings : SettingsRecord) :
    Starts (openEmptyHistory settings) := by
  unfold openEmptyHistory
  refine .bind (Frames.starts keeps_openHistory) fun opened => ?_
  split
  · refine .bind (.update fun _ h => h) fun _ =>
      .bind (Frames.starts (keeps_saveSnapshot _ _)) fun saved => ?_
    split
    · exact .bind (.update fun _ h => h) fun _ => .pure _
    · exact .pure _
  · exact .bind (frames_setStatus _).starts fun _ => .pure _

theorem starts_finalize (settings : SettingsRecord) :
    Starts (finalizeHistoryInitialization settings) := by
  unfold finalizeHistoryInitialization
  split
  · exact .pure _
  split
  · exact .bind (frames_setStatus _).starts fun _ => .pure _
  refine .bind (Frames.starts (keeps_saveSettings _)) fun saved => ?_
  split
  · exact .bind (.update fun _ h => h) fun _ => .pure _
  · exact .bind (frames_setStatus _).starts fun _ => .pure _

theorem starts_restoreState (identity : Identity) {timeline : Timeline}
    (hquiet : ∀ entry ∈ timeline.entries, entry.isQueued = false) :
    Starts (restoreState identity timeline) := by
  unfold restoreState
  refine .bind .memory fun session => ?_
  split
  · exact .pure _
  · exact .bind (.update fun _ h => h) fun _ =>
      .bind (.update fun _ h => ⟨h.1, hquiet⟩) fun _ => .pure _

theorem starts_bootstrapMissingSettings (random : Option (Vector UInt8 16)) :
    Starts (bootstrapMissingSettings random) := by
  unfold bootstrapMissingSettings
  refine .bind (Frames.starts keeps_hasHistoryArtifact) fun artifact => ?_
  split
  · exact (frames_setStatus _).starts
  split
  swap
  · exact (frames_setStatus _).starts
  refine .bind (Frames.starts (keeps_saveSettings _)) fun saved => ?_
  split
  · exact (frames_setStatus _).starts
  refine .bind (.update fun _ h => h) fun _ => .bind (starts_openEmptyHistory _) fun opened => ?_
  split
  swap
  · exact .pure _
  refine .bind (starts_finalize _) fun finalized => ?_
  split
  · exact .pure _
  refine .bind (starts_restoreState _ (by simp [Timeline.empty])) fun restored => ?_
  split
  all_goals exact (frames_setStatus _).starts

theorem starts_restoreTimeline (identity : Identity) {snapshot : HistorySnapshot}
    (hquiet : ∀ entry ∈ snapshot.entries, entry.isQueued = false) :
    Starts (restoreTimeline identity snapshot) := by
  unfold restoreTimeline
  split
  · exact (frames_setStatus _).starts
  rename_i timeline hrestore
  rw [← (Timeline.restore_eq_ok.mp hrestore).2.2] at hquiet
  refine .bind (starts_restoreState _ hquiet) fun restored => ?_
  split
  all_goals exact (frames_setStatus _).starts

theorem starts_restoreSnapshot (identity : Identity) (snapshot : HistorySnapshot) :
    Starts (restoreSnapshot identity snapshot) := by
  have hquiet : ∀ entry ∈ snapshot.entries.map retire, entry.isQueued = false := by
    rw [List.forall_mem_map]
    exact fun entry _ => retire_not_queued entry
  unfold restoreSnapshot
  split
  · exact (frames_setStatus _).starts
  refine .bind (.update fun _ h => h) fun _ => ?_
  split
  · refine .bind (Frames.starts (keeps_saveSnapshot _ _)) fun saved => ?_
    split
    · exact (frames_setStatus _).starts
    · exact starts_restoreTimeline _ hquiet
  · exact starts_restoreTimeline _ hquiet

theorem starts_bootstrapHistory (settings : SettingsRecord) :
    Starts (bootstrapHistory settings) := by
  unfold bootstrapHistory
  refine .bind (Frames.starts (keeps_loadSnapshot _)) fun loaded => ?_
  split
  · exact (frames_setStatus _).starts
  refine .bind (starts_finalize _) fun finalized => ?_
  split
  · exact .pure _
  · exact starts_restoreSnapshot _ _

theorem starts_bootstrapLoadedSettings (settings : SettingsRecord) :
    Starts (bootstrapLoadedSettings settings) := by
  unfold bootstrapLoadedSettings
  refine .bind (Frames.starts .read) fun disk => ?_
  split
  · exact (frames_setStatus _).starts
  split
  · split
    · exact (frames_setStatus _).starts
    refine .bind (Frames.starts keeps_hasHistoryArtifact) fun artifact => ?_
    split
    · exact (frames_setStatus _).starts
    refine .bind (starts_openEmptyHistory _) fun opened => ?_
    split
    · exact starts_bootstrapHistory _
    · exact (frames_setStatus _).starts
  · refine .bind (Frames.starts (keeps_openExistingBound _)) fun opened => ?_
    split
    · exact (frames_setStatus _).starts
    · exact .bind (.update fun _ h => h) fun _ => starts_bootstrapHistory _

theorem starts_bootstrap (environment : Environment) (random : Option (Vector UInt8 16)) :
    Starts (bootstrap environment random) := by
  cases environment with
  | available =>
    refine .bind (.update fun _ h => h) fun _ =>
      .bind (Frames.starts keeps_discardHistoryProbe) fun discarded => ?_
    split
    swap
    · exact (frames_setStatus _).starts
    refine .bind (.update fun _ h => h) fun _ =>
      .bind (Frames.starts keeps_loadSettings) fun loaded => ?_
    split
    · split
      · exact (frames_setStatus _).starts
      · exact starts_bootstrapMissingSettings _
    · exact .bind (.update fun _ h => h) fun _ => starts_bootstrapLoadedSettings _
  | _ => exact (frames_setStatus _).starts

end Session

end Lora
