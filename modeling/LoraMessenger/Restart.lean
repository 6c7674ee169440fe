/-
Restarts.

A start without failures on the disk of a session in service brings back all
that the session held: every check a start makes is passed by every committed
state.  Only the posts that were still queued have changed, and a second start
finds nothing to change any more.

* `Committed.exists_quiet` — the committed state after a restart;
* `wp_bootstrap_committed` — a start from a committed state leads to it;
* `restart_is_lossless` — what this says of any session of any run.
-/
import LoraMessenger.Lifetime

namespace Lora

open Crash

/-- The memory of a session that has just been started. -/
def Session.inService (v : Committed) : Session where
  messenger := ⟨some (identityFrom v.settings), v.timeline⟩
  dedupe := v.ledger
  status := .ready
  locked := true
  settingsStore := true
  settings := some v.settings
  historyOpen := true

namespace Committed

variable {v v' : Committed}

/-- What becomes of a committed state at a restart: every queued post is one of
unknown fate. -/
structure Quiets (v v' : Committed) : Prop where
  settings : v'.settings = v.settings
  ledger : v'.ledger = v.ledger
  lastAssignedOrder : v'.timeline.lastAssignedOrder = v.timeline.lastAssignedOrder
  entries : v'.timeline.entries = v.timeline.entries.map Session.retire

theorem exists_quiet (v : Committed) : ∃ v', Quiets v v' := by
  obtain ⟨v', hsettings, hledger, hsnapshot, -⟩ := exists_retired v.snapshotValid v.launched
  exact ⟨v', hsettings, hledger, congrArg HistorySnapshot.lastAssignedOrder hsnapshot,
    congrArg HistorySnapshot.entries hsnapshot⟩

theorem Quiets.snapshot (h : Quiets v v') :
    v'.snapshot = { v.snapshot with entries := v.snapshot.entries.map Session.retire } := by
  simp only [Committed.snapshot, Session.snapshotOf, h.ledger, h.lastAssignedOrder, h.entries]

theorem retire_retire (entry : TimelineEntry) :
    Session.retire (Session.retire entry) = Session.retire entry :=
  retire_of_not_queued (retire_not_queued entry)

/-- The history of a committed state can be read again. -/
theorem readable (v : Committed) :
    StoredHistory.identityMatches ⟨v.settings.installId.uuid, true, v.snapshot⟩
      (identityFrom v.settings) = true ∧
    StoredHistory.readSnapshot ⟨v.settings.installId.uuid, true, v.snapshot⟩
      (identityFrom v.settings) = .ok v.snapshot :=
  ⟨decide_eq_true rfl, StoredHistory.readSnapshot_of_valid rfl v.snapshotValid⟩

/-- A second restart changes nothing. -/
theorem Quiets.again (h : Quiets v v') : Quiets v' v' := by
  refine ⟨rfl, rfl, rfl, ?_⟩
  rw [h.entries, List.map_map]
  exact List.map_congr_left fun entry _ => (retire_retire entry).symm

end Committed

/-! ### A start from a committed state -/

section Start

variable {v v' : Committed} (hquiet : Committed.Quiets v v')
include hquiet

theorem wp_restoreTimeline_committed :
    wp (Session.restoreTimeline (identityFrom v.settings) v'.snapshot)
      (fun _ m' => m' = ⟨Session.inService v', v'.disk, []⟩) (fun _ => False)
      ⟨{ Session.inService v with
        messenger := ⟨none, Timeline.empty⟩
        status := .storageUnavailable },
        v'.disk, []⟩ := by
  have hrestore : Timeline.restore kMaxTimelineEntries v'.snapshot.lastAssignedOrder
      v'.snapshot.entries = .ok v'.timeline :=
    Timeline.restore_eq_ok.mpr ⟨v'.timeline_capacity, rfl, rfl⟩
  simp only [Session.restoreTimeline, hrestore, Session.restoreState, Session.setIdentity,
    Session.setTimeline, Session.setStatus, wp_bind, wp_memory, wp_update, wp_pure]
  simp only [ne_eq, not_true_eq_false, if_false, wp_update, Session.inService, hquiet.settings,
    hquiet.ledger]

theorem wp_restoreSnapshot_committed :
    wp (Session.restoreSnapshot (identityFrom v.settings) v.snapshot)
      (fun _ m' => m' = ⟨Session.inService v', v'.disk, []⟩) (fun _ => False)
      ⟨{ Session.inService v with
          messenger := ⟨none, Timeline.empty⟩
          dedupe := MessageDedupeWindow.empty
          status := .storageUnavailable }, v.disk, []⟩ := by
  have hwindow : MessageDedupeWindow.restore kDefaultSeenMessageCapacity v.snapshot.lastSeenOrder
      v.snapshot.seenMessages = .ok v.ledger :=
    MessageDedupeWindow.restore_eq_ok.mpr ⟨v.ledger_capacity, rfl, rfl⟩
  have hsaved : { v.disk with
      history := .stored ⟨(identityFrom v.settings).installId.uuid, true, v'.snapshot⟩ } =
      v'.disk := by
    rw [Committed.disk, Committed.disk, hquiet.settings]
    rfl
  simp only [Session.restoreSnapshot, hwindow, wp_bind, wp_update, ← hquiet.snapshot]
  by_cases hany : v.snapshot.entries.any TimelineEntry.isQueued
  · -- Something was queued, so the history is saved once more.
    rw [if_pos hany, wp_bind]
    have hvalid : SnapshotValid v'.ledger v'.snapshot (identityFrom v.settings) :=
      hquiet.settings ▸ v'.snapshotValid
    have hadmits : v.disk.history.admits v'.snapshot (identityFrom v.settings) = .none := by
      refine StoredHistory.admits_eq_none rfl ?_ (.inr ⟨?_, ?_⟩)
      · rw [hquiet.snapshot]
      · rw [hquiet.snapshot]
      · rw [hquiet.snapshot]
    refine wp_saveSnapshot hvalid hadmits ?_ ?_ ?_
    · intro rest hrest
      obtain rfl := hrest rfl
      rw [if_neg (by simp), hsaved]
      exact wp_restoreTimeline_committed hquiet
    · exact fun _ _ _ _ hfaults => absurd rfl hfaults
    · exact fun _ hfaults => absurd rfl hfaults
  · rw [if_neg hany]
    have hsame : v.disk = v'.disk := by
      have hnone : ∀ entry ∈ v.snapshot.entries, Session.retire entry = entry := by
        intro entry hentry
        refine retire_of_not_queued (by_contra fun hqueued => hany ?_)
        exact List.any_eq_true.mpr ⟨entry, hentry, by simpa using hqueued⟩
      rw [Committed.disk, Committed.disk, hquiet.settings, hquiet.snapshot,
        List.map_congr_left hnone, List.map_id']
    rw [hsame]
    exact wp_restoreTimeline_committed hquiet

theorem wp_bootstrapHistory_committed :
    wp (Session.bootstrapHistory v.settings)
      (fun _ m' => m' = ⟨Session.inService v', v'.disk, []⟩) (fun _ => False)
      ⟨{ Session.inService v with
          messenger := ⟨none, Timeline.empty⟩
          dedupe := MessageDedupeWindow.empty
          status := .storageUnavailable }, v.disk, []⟩ := by
  obtain ⟨hmatches, hread⟩ := v.readable
  have hhistory : v.disk.history = .stored ⟨v.settings.installId.uuid, true, v.snapshot⟩ := rfl
  unfold Session.bootstrapHistory loadSnapshot
  simp only [wp_bind, wp_read_calm, hhistory, hmatches, hread, Bool.not_true, Bool.false_eq_true,
    if_false, if_true, wp_pure, Session.finalizeHistoryInitialization, v.launched.2]
  exact wp_restoreSnapshot_committed hquiet

theorem wp_bootstrap_committed (random : Option (Vector UInt8 16)) :
    wp (Session.bootstrap .available random)
      (fun _ m' => m' = ⟨Session.inService v', v'.disk, []⟩) (fun _ => False)
      ⟨{}, v.disk, []⟩ := by
  obtain ⟨hmatches, hread⟩ := v.readable
  have hsettings : v.disk.settings = .stored v.settings := rfl
  have hhistory : v.disk.history = .stored ⟨v.settings.installId.uuid, true, v.snapshot⟩ := rfl
  unfold Session.bootstrap discardHistoryProbe loadSettings Session.bootstrapLoadedSettings
    openExistingBound
  simp only [wp_bind, wp_update, wp_read_calm, wp_pure, if_true, hsettings, v.launched.1, if_false,
    hhistory, reduceCtorEq, or_self, hmatches, hread, Bool.not_true, Bool.false_eq_true, ne_eq,
    not_true_eq_false]
  exact wp_bootstrapHistory_committed hquiet

theorem World.start_committed {w : World} (hdisk : w.disk = v.disk)
    (random : Option (Vector UInt8 16)) :
    w.start .available random [] =
      { w with disk := v'.disk, process := some (Session.inService v') } := by
  obtain ⟨value, m, hrun, hm⟩ := wp_false (wp_bootstrap_committed hquiet random)
  simp only [World.start, hdisk, hrun, hm]

end Start

/-- How a process may end without a save being cut short. -/
def WorldEvent.EndsQuietly (event : WorldEvent) : Prop :=
  event = .kill ∨ ∃ faults, event = .call .shutdown faults

theorem World.disk_of_endsQuietly {w : World} {event : WorldEvent} (h : event.EndsQuietly) :
    (w.step event).disk = w.disk := by
  rcases h with rfl | ⟨faults, rfl⟩
  · rfl
  · rcases hprocess : w.process with _ | session
    · simp [World.step, World.call, hprocess]
    · simp only [World.step, World.call, hprocess]
      rfl

/-- A session in service that is closed or lost between two saves comes back as it
was, except that what was queued has an unknown fate; starting once more changes
nothing. -/
theorem restart_is_lossless (disk : Disk) (events : List WorldEvent) (session : Session)
    (hprocess : (World.run { disk := disk } events).process = some session)
    (hready : session.status = .ready) {ending ending' : WorldEvent}
    (hending : ending.EndsQuietly) (hending' : ending'.EndsQuietly)
    (random random' : Option (Vector UInt8 16)) :
    ∃ restarted, (World.run { disk := disk }
        (events ++ [ending, .start .available random []])).process = some restarted ∧
      restarted.status = .ready ∧
      restarted.messenger.identity = session.messenger.identity ∧
      restarted.dedupe = session.dedupe ∧
      restarted.messenger.timeline.capacity = session.messenger.timeline.capacity ∧
      restarted.messenger.timeline.lastAssignedOrder =
        session.messenger.timeline.lastAssignedOrder ∧
      restarted.messenger.timeline.entries =
        session.messenger.timeline.entries.map Session.retire ∧
      (World.run { disk := disk } (events ++ [ending, .start .available random [], ending',
        .start .available random' []])).process = some restarted ∧
      (World.run { disk := disk } (events ++ [ending, .start .available random [], ending',
        .start .available random' []])).disk =
        (World.run { disk := disk } (events ++ [ending, .start .available random []])).disk := by
  obtain ⟨v, hshows, hdisk⟩ :=
    World.run_agrees (World.agrees_off disk) events session hprocess hready
  obtain ⟨v', hquiet⟩ := v.exists_quiet
  simp only [World.run, List.foldl_append, List.foldl_cons, List.foldl_nil] at hdisk ⊢
  generalize events.foldl World.step { disk := disk } = w at hdisk ⊢
  have hfirst : ((w.step ending).step (.start .available random [])) =
      { w.step ending with disk := v'.disk, process := some (Session.inService v') } :=
    World.start_committed hquiet ((World.disk_of_endsQuietly hending).trans hdisk) random
  rw [hfirst]
  generalize hw' : ({ w.step ending with
    disk := v'.disk, process := some (Session.inService v') } : World) = w'
  have hdisk' : w'.disk = v'.disk := by rw [← hw']
  have hsecond : ((w'.step ending').step (.start .available random' [])) =
      { w'.step ending' with disk := v'.disk, process := some (Session.inService v') } :=
    World.start_committed hquiet.again ((World.disk_of_endsQuietly hending').trans hdisk') random'
  rw [hsecond, hshows.identity, hshows.dedupe, hshows.timeline]
  refine ⟨Session.inService v', by rw [← hw'], rfl, ?_, hquiet.ledger, ?_, hquiet.lastAssignedOrder,
    hquiet.entries, rfl, hdisk'.symm⟩
  · exact congrArg (fun settings => some (identityFrom settings)) hquiet.settings
  · exact v'.timeline_capacity.trans v.timeline_capacity.symm

theorem restart_is_lossless_sampleEvents :
    ∃ restarted, (World.run { disk := ⟨.missing, .missing⟩ }
        (sampleEvents ++ [.kill, .start .available none []])).process = some restarted ∧
      restarted.status = .ready := by
  have hready : (World.run { disk := ⟨.missing, .missing⟩ } sampleEvents).process.map
      Session.status = some .ready := by decide +kernel
  obtain ⟨session, hprocess, hstatus⟩ := Option.map_eq_some_iff.mp hready
  obtain ⟨restarted, hrestarted, hready, -⟩ := restart_is_lossless ⟨.missing, .missing⟩
    sampleEvents session hprocess hstatus (.inl rfl) (.inr ⟨[], rfl⟩) none none
  exact ⟨restarted, hrestarted, hready⟩

end Lora
