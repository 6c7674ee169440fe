/-
Starting a session.

A starting session reads what the last one left, completes what was cut short
and turns every post that was queued into one of unknown fate.  However far it
gets, it has changed the disk by the steps of a start alone, and a session
that reaches service agrees with the disk and has nothing queued.

* `Started` — what a start leaves behind;
* `wp_bootstrap` — every start does.
-/
import LoraMessenger.SessionStep

namespace Lora

open Crash

/-- The changes of a start. -/
abbrev StartReaches : Disk → Disk → Prop := Reaches (· = .start)

/-- A session in service agrees with the disk and has nothing queued. -/
def Started (disk : Disk) (m : Machine Session Disk) : Prop :=
  StartReaches disk m.durable ∧ (m.memory.status = .ready → ∃ v, Shows m.memory v ∧
    m.durable = v.disk ∧ ∀ entry ∈ v.timeline.entries, entry.isQueued = false)

variable {m : Machine Session Disk} {crash : Disk → Prop} {settings : SettingsRecord}

theorem started_out {disk : Disk} (hreach : StartReaches disk m.durable)
    (hstatus : m.memory.status ≠ .ready) : Started disk m :=
  ⟨hreach, fun hready => absurd hready hstatus⟩

theorem startReaches_of_or {d d' disk : Disk} (hstep : DiskStep .start d d')
    (hdisk : disk = d ∨ disk = d') : StartReaches d disk := by
  rcases hdisk with rfl | rfl
  · exact .refl
  · exact Reaches.refl.step rfl hstep

theorem snapshotValid_empty (identity : Identity) :
    SnapshotValid MessageDedupeWindow.empty {} identity where
  capacity := rfl
  last := rfl
  records := rfl
  length := Nat.zero_le _
  stamped := Stamped.nil
  locals := ⟨by simp, by simp, by simp⟩
  queued := Nat.zero_le _
  covers := by simp [Covers]

/-! ### The parts of a start -/

theorem reaches_emptyHistory : StartReaches ⟨.stored settings, .missing⟩
    ⟨.stored settings, .stored ⟨settings.installId.uuid, true, {}⟩⟩ := by
  have hblank : StartReaches ⟨.stored settings, .missing⟩ ⟨.stored settings, .blank⟩ :=
    Reaches.refl.step rfl (.create (.inr rfl))
  exact hblank.step rfl .bind

theorem wp_openEmptyHistory (hdisk : m.durable = ⟨.stored settings, .missing⟩)
    {returns : Bool → Machine Session Disk → Prop}
    (hdone : ∀ rest, returns true
      { memory := { m.memory with historyOpen := true }
        durable := ⟨.stored settings, .stored ⟨settings.installId.uuid, true, {}⟩⟩
        faults := rest })
    (hfailed : ∀ (session : Session) disk rest, StartReaches m.durable disk → returns false
      { memory := { session with status := .recoveryRequired }, durable := disk, faults := rest })
    (hcrash : ∀ disk, StartReaches m.durable disk → crash disk) :
    wp (Session.openEmptyHistory settings) returns crash m := by
  have hcreate : ∀ file, file = .damaged ∨ file = .blank →
      StartReaches m.durable ⟨.stored settings, file⟩ :=
    fun file hfile => hdisk ▸ Reaches.refl.step rfl (.create hfile)
  have hblank := hcreate .blank (.inr rfl)
  unfold Session.openEmptyHistory openHistory
  simp only [wp_bind]
  refine wp_read ?_ ?_ ?_
  · intro rest _
    rw [hdisk]
    simp only [wp_bind]
    refine wp_write _ ?_ ?_ ?_
    · intro rest _
      simp only [wp_pure, if_true, wp_bind, wp_update]
      have hbound : ∀ disk, disk = ⟨.stored settings, .blank⟩ ∨ disk =
          ⟨.stored settings, .stored ⟨settings.installId.uuid, true, {}⟩⟩ →
          StartReaches m.durable disk :=
        fun disk hor => hblank.trans (startReaches_of_or .bind hor)
      refine wp_saveSnapshot (snapshotValid_empty _) rfl ?_ ?_ ?_
      · exact fun rest _ => hdone rest
      · intro error disk rest herror _ hor
        rw [if_pos herror]
        exact hfailed { m.memory with historyOpen := false } disk rest (hbound disk hor)
      · exact fun disk _ hor => hcrash disk (hbound disk hor)
    · rintro (_ | _ | _) rest _
      · exact hfailed _ _ rest (hdisk ▸ .refl)
      · exact hfailed _ _ rest (hcreate _ (.inl rfl))
      · exact hfailed _ _ rest hblank
    · rintro (_ | _ | _) _
      · exact hcrash _ (hdisk ▸ .refl)
      · exact hcrash _ (hcreate _ (.inl rfl))
      · exact hcrash _ hblank
  · exact fun rest _ => hfailed _ _ rest .refl
  · exact fun _ => hcrash _ .refl

/-- The settings, marked as initialized; nothing the identity depends on changes. -/
theorem wp_finalize {file : HistoryFile} (hdisk : m.durable = ⟨.stored settings, file⟩)
    (hsettings : m.memory.settings = some settings) (hsaved : settings.generation ≠ 0)
    {returns : Option SettingsRecord → Machine Session Disk → Prop}
    (hdone : ∀ settings' rest, identityFrom settings' = identityFrom settings →
      settings'.Launched → StartReaches m.durable ⟨.stored settings', file⟩ →
      returns (some settings')
        { memory := { m.memory with settings := some settings' }
          durable := ⟨.stored settings', file⟩
          faults := rest })
    (hfailed : ∀ status disk rest, status ≠ .ready → StartReaches m.durable disk → returns none
      { memory := { m.memory with status := status }, durable := disk, faults := rest })
    (hcrash : ∀ disk, StartReaches m.durable disk → crash disk) :
    wp (Session.finalizeHistoryInitialization settings) returns crash m := by
  unfold Session.finalizeHistoryInitialization
  by_cases hinitialized : settings.historyInitialized
  · rw [if_pos hinitialized, wp_pure]
    have hreturns := hdone settings m.faults rfl ⟨hsaved, hinitialized⟩ (hdisk ▸ .refl)
    rw [← hdisk] at hreturns
    simpa only [← hsettings] using hreturns
  rw [if_neg hinitialized]
  by_cases hgeneration : settings.generation = kMaximumGeneration
  · rw [if_pos hgeneration]
    exact hfailed .recoveryRequired _ _ (by simp) .refl
  rw [if_neg hgeneration]
  simp only [wp_bind]
  let finalized : SettingsRecord :=
    { settings with generation := settings.generation + 1, historyInitialized := true }
  have hreach : ∀ disk, disk = m.durable ∨ disk = { m.durable with settings := .stored finalized } →
      StartReaches m.durable disk := by
    rw [hdisk]
    exact fun disk hor => startReaches_of_or .finalize hor
  refine wp_saveSettings (Nat.succ_ne_zero _) ?_ ?_ ?_
  · intro rest _
    rw [hdisk]
    refine hdone _ rest rfl ⟨Nat.succ_ne_zero _, rfl⟩ ?_
    rw [hdisk]
    exact Reaches.refl.step rfl .finalize
  · rintro ⟨error, finalReplaced⟩ disk rest _ hor
    rcases finalReplaced with _ | _
    · exact hfailed .storageUnavailable disk rest (by simp)
        (hreach disk (hor.imp_right (fun h => h.2)))
    · exact hfailed .recoveryRequired disk rest (by simp)
        (hreach disk (hor.imp_right (fun h => h.2)))
  · exact fun disk _ hor => hcrash disk (hreach disk hor)

/-- What is loaded passes the checks and is on the disk, with its ledger. -/
theorem wp_loadSnapshot (hdisk : m.durable.settings = .stored settings)
    (hblank : m.durable.history ≠ .blank)
    {returns : Except HistoryError HistorySnapshot → Machine Session Disk → Prop}
    (hdone : ∀ window snapshot rest, SnapshotValid window snapshot (identityFrom settings) →
      StartReaches m.durable
        ⟨.stored settings, .stored ⟨settings.installId.uuid, true, snapshot⟩⟩ →
      returns (.ok snapshot)
        { m with
          durable := ⟨.stored settings, .stored ⟨settings.installId.uuid, true, snapshot⟩⟩
          faults := rest })
    (hfailed : ∀ error disk rest, StartReaches m.durable disk →
      returns (.error error) { m with durable := disk, faults := rest })
    (hcrash : ∀ disk, StartReaches m.durable disk → crash disk) :
    wp (loadSnapshot (identityFrom settings)) returns crash m := by
  unfold loadSnapshot
  simp only [wp_bind]
  refine wp_read ?_ ?_ ?_
  swap
  · exact fun rest _ => hfailed _ _ rest .refl
  swap
  · exact fun _ => hcrash _ .refl
  intro rest _
  dsimp only
  rcases hfile : m.durable.history with _ | _ | _ | _ | stored
  · exact hfailed _ _ rest .refl
  · exact hfailed _ _ rest .refl
  · exact hfailed _ _ rest .refl
  · exact absurd hfile hblank
  have hdurable : m.durable = ⟨.stored settings, .stored stored⟩ := by rw [← hdisk, ← hfile]
  dsimp only
  by_cases hmatches : stored.identityMatches (identityFrom settings)
  swap
  · rw [if_pos (by simpa using hmatches)]
    exact hfailed _ _ rest .refl
  rw [if_neg (by simp [hmatches])]
  have hinstall : stored.installId = settings.installId.uuid := of_decide_eq_true hmatches
  rcases hread : stored.readSnapshot (identityFrom settings) with error | snapshot
  · exact hfailed _ _ rest .refl
  dsimp only
  obtain ⟨hsnapshot, hvalid⟩ := StoredHistory.readSnapshot_eq_ok hread
  -- A ledger that was written is checked; one that was not is seeded from the timeline.
  by_cases hinitialized : stored.dedupeInitialized
  · rw [if_pos hinitialized] at hvalid ⊢
    obtain ⟨window, hvalid⟩ := hvalid
    have hsame : m.durable =
        ⟨.stored settings, .stored ⟨settings.installId.uuid, true, snapshot⟩⟩ := by
      rw [hdurable, hsnapshot, ← hinstall, ← hinitialized]
    have hreturns := hdone window snapshot rest hvalid (hsame ▸ .refl)
    rw [← hsame] at hreturns
    exact hreturns
  · rw [if_neg hinitialized] at hvalid ⊢
    obtain ⟨⟨hnothing, hzero⟩, seeded, hseeded, window, hvalid⟩ := hvalid
    simp only [hseeded, wp_bind]
    have hpending : stored.dedupeInitialized = false := by simpa using hinitialized
    have hstep : StartReaches m.durable
        ⟨.stored settings, .stored ⟨settings.installId.uuid, true, seeded⟩⟩ :=
      hdurable ▸ Reaches.refl.step rfl (.seed hread hpending hseeded)
    have hor : ∀ disk, disk = m.durable ∨ disk = { m.durable with
        history := .stored ⟨(identityFrom settings).installId.uuid, true, seeded⟩ } →
        StartReaches m.durable disk := by
      rintro disk (rfl | rfl)
      · exact .refl
      · rw [hdurable] at hstep ⊢
        exact hstep
    -- A ledger that is seeded grows, unless there is nothing to seed it with.
    have hadmits : m.durable.history.admits seeded (identityFrom settings) = .none := by
      rw [hfile]
      refine StoredHistory.admits_eq_none hinstall ?_ ?_
      · rw [← hsnapshot, (reconcile_eq_ok hseeded).2.1]
      · rw [← hsnapshot, hzero, hnothing, ← hvalid.last, ← hvalid.records]
        rcases Nat.eq_zero_or_pos window.lastSeenOrder with hlast | hlast
        · exact .inr ⟨hlast.symm, (MessageDedupeWindow.records_eq_nil hlast).symm⟩
        · exact .inl hlast
    refine wp_saveSnapshot (m := { m with faults := rest }) hvalid hadmits ?_ ?_ ?_
    · intro rest _
      rw [if_neg (by simp)]
      have hreturns := hdone window seeded rest hvalid hstep
      rw [hdurable]
      exact hreturns
    · intro error disk rest herror _ hdisk
      rw [if_pos herror]
      exact hfailed _ disk rest (hor disk hdisk)
    · exact fun disk _ hdisk => hcrash disk (hor disk hdisk)

theorem retire_post (entry : TimelineEntry) : (Session.retire entry).post = entry.post := by
  unfold Session.retire
  split <;> rfl

theorem retire_isLocal (entry : TimelineEntry) : (Session.retire entry).isLocal =
    entry.isLocal := by
  unfold Session.retire
  split
  · rename_i hqueued
    rw [isLocal_of_isQueued hqueued]
    rfl
  · rfl

theorem retire_not_queued (entry : TimelineEntry) : (Session.retire entry).isQueued = false := by
  unfold Session.retire
  split
  · simp [TimelineEntry.isQueued]
  · rename_i hqueued
    simpa using hqueued

theorem retire_of_not_queued {entry : TimelineEntry} (h : entry.isQueued = false) :
    Session.retire entry = entry := by
  simp [Session.retire, h]

/-- The committed state of a snapshot that passes the checks, once its queued
posts are retired. -/
theorem exists_retired {window : MessageDedupeWindow} {snapshot : HistorySnapshot}
    (hvalid : SnapshotValid window snapshot (identityFrom settings))
    (hlaunched : settings.Launched) :
    ∃ v : Committed, v.settings = settings ∧ v.ledger = window ∧
      v.snapshot = { snapshot with entries := snapshot.entries.map Session.retire } ∧
      Timeline.restore kMaxTimelineEntries snapshot.lastAssignedOrder
        (snapshot.entries.map Session.retire) = .ok v.timeline := by
  have hqueued : (snapshot.entries.map Session.retire).countP TimelineEntry.isQueued = 0 := by
    rw [List.countP_eq_zero, List.forall_mem_map]
    intro entry _
    simp [retire_not_queued]
  have hstamped : Stamped TimelineEntry.messageId TimelineEntry.receivedOrder
      snapshot.lastAssignedOrder (snapshot.entries.map Session.retire) :=
    hvalid.stamped.map (fun entry => congrArg PostPayload.messageId (retire_post entry))
      (fun entry => by unfold Session.retire; split <;> rfl)
  let timeline : Timeline :=
    { capacity := kMaxTimelineEntries
      lastAssignedOrder := snapshot.lastAssignedOrder
      entries := snapshot.entries.map Session.retire
      capacity_pos := by decide
      capacity_le := le_refl _
      length_le := by rw [List.length_map]; exact hvalid.length
      stamped := hstamped
      queued_le := by rw [hqueued]; exact Nat.zero_le _ }
  refine ⟨{ settings := settings
            timeline := timeline
            ledger := window
            timeline_capacity := rfl
            ledger_capacity := hvalid.capacity
            covers := hvalid.covers.map fun entry _ => retire_post entry
            locals := hvalid.locals.map (fun entry _ => retire_post entry)
              (fun entry _ => retire_isLocal entry)
            launched := hlaunched }, rfl, rfl, ?_,
    Timeline.restore_eq_ok.mpr ⟨rfl, rfl, rfl⟩⟩
  simp only [Committed.snapshot, Session.snapshotOf, hvalid.records, hvalid.last]
  rfl

theorem wp_restoreSnapshot {settings' : SettingsRecord} {window : MessageDedupeWindow}
    {snapshot : HistorySnapshot} (hvalid : SnapshotValid window snapshot (identityFrom settings))
    (hidentity : identityFrom settings' = identityFrom settings) (hlaunched : settings'.Launched)
    (hdisk : m.durable = ⟨.stored settings', .stored ⟨settings.installId.uuid, true, snapshot⟩⟩)
    (hstores : m.memory.Open) (hsettings : m.memory.settings = some settings')
    (hfresh : m.memory.messenger.identity = none) {disk : Disk}
    (hreach : StartReaches disk m.durable) :
    wp (Session.restoreSnapshot (identityFrom settings) snapshot) (fun _ m' => Started disk m')
      (StartReaches disk) m := by
  rw [← hidentity] at hvalid
  obtain ⟨v, rfl, hledger, hsnapshot, hrestore⟩ := exists_retired hvalid hlaunched
  have hinstall : v.settings.installId = settings.installId := (Identity.mk.inj hidentity).1
  rw [← hinstall] at hdisk
  have hretired : StartReaches disk v.disk := by
    refine hreach.step rfl ?_
    rw [hdisk, Committed.disk, hsnapshot]
    exact .retire
  have hquiet : ∀ entry ∈ v.timeline.entries, entry.isQueued = false := by
    have hentries : v.timeline.entries = snapshot.entries.map Session.retire :=
      congrArg HistorySnapshot.entries hsnapshot
    rw [hentries, List.forall_mem_map]
    exact fun entry _ => retire_not_queued entry
  -- Once the retired timeline is on the disk, nothing can go wrong any more.
  have hfinish : ∀ rest, wp (Session.restoreTimeline (identityFrom settings) v.snapshot)
      (fun _ m' => Started disk m') (StartReaches disk)
      { memory := { m.memory with dedupe := window }, durable := v.disk, faults := rest } := by
    intro rest
    have hassigned : v.snapshot.lastAssignedOrder = snapshot.lastAssignedOrder := by rw [hsnapshot]
    have hentries : v.snapshot.entries = snapshot.entries.map Session.retire := by rw [hsnapshot]
    unfold Session.restoreTimeline Session.restoreState
    rw [hassigned, hentries, hrestore]
    simp only [wp_bind, wp_memory, hfresh]
    exact ⟨hretired, fun _ =>
      ⟨v, ⟨.inr hstores, hsettings, congrArg some hidentity.symm, rfl, hledger.symm⟩,
      rfl, hquiet⟩⟩
  unfold Session.restoreSnapshot
  simp only [MessageDedupeWindow.restore_eq_ok.mpr ⟨hvalid.capacity, hvalid.last, hvalid.records⟩,
    wp_bind, wp_update, ← hsnapshot]
  -- the file is written again only if some entry was still queued
  by_cases hany : snapshot.entries.any TimelineEntry.isQueued
  · rw [if_pos hany, wp_bind]
    have hsaved : { m.durable with
        history := .stored ⟨(identityFrom settings).installId.uuid, true, v.snapshot⟩ } =
        v.disk := by
      rw [hdisk, Committed.disk, ← hidentity]
      rfl
    have hadmits : m.durable.history.admits v.snapshot (identityFrom settings) = .none := by
      rw [hdisk, ← hidentity]
      refine StoredHistory.admits_eq_none rfl ?_ (.inr ⟨?_, ?_⟩)
      · rw [hsnapshot]
      · rw [hsnapshot]
      · rw [hsnapshot]
    have hor : ∀ d, d = m.durable ∨ d = v.disk → StartReaches disk d := by
      rintro d (rfl | rfl)
      · exact hreach
      · exact hretired
    refine wp_saveSnapshot (m := { m with memory := { m.memory with dedupe := window } })
      (hidentity ▸ v.snapshotValid) hadmits ?_ ?_ ?_
    · intro rest _
      rw [if_neg (by simp)]
      dsimp only
      rw [hsaved]
      exact hfinish rest
    · intro error d rest herror _ hd
      rw [if_pos herror]
      rw [hsaved] at hd
      exact started_out (hor d hd) (by simp)
    · intro d _ hd
      rw [hsaved] at hd
      exact hor d hd
  · rw [if_neg hany]
    have hsame : v.snapshot = snapshot := by
      have hnone : ∀ entry ∈ snapshot.entries, Session.retire entry = entry := by
        intro entry hentry
        refine retire_of_not_queued (by_contra fun hqueued => hany ?_)
        exact List.any_eq_true.mpr ⟨entry, hentry, by simpa using hqueued⟩
      rw [hsnapshot, List.map_congr_left hnone, List.map_id']
    have hdurable : m.durable = v.disk := by rw [hdisk, Committed.disk, hsame]
    rw [hdurable]
    exact hfinish m.faults

/-! ### The start as a whole -/

theorem wp_bootstrapHistory (hdisk : m.durable.settings = .stored settings)
    (hblank : m.durable.history ≠ .blank) (hstores : m.memory.Open)
    (hsettings : m.memory.settings = some settings) (hsaved : settings.generation ≠ 0)
    (hfresh : m.memory.messenger.identity = none) {disk : Disk}
    (hreach : StartReaches disk m.durable) :
    wp (Session.bootstrapHistory settings) (fun _ m' => Started disk m') (StartReaches disk) m := by
  unfold Session.bootstrapHistory
  rw [wp_bind]
  refine wp_loadSnapshot hdisk hblank ?_ ?_ ?_
  · intro window snapshot rest hvalid hloaded
    rw [wp_bind]
    refine wp_finalize (m := { m with durable := _, faults := rest }) rfl hsettings hsaved ?_ ?_ ?_
    · intro settings' rest hidentity hlaunched hfinal
      refine wp_restoreSnapshot hvalid hidentity hlaunched ?_ ?_ ?_ ?_ ?_
      · rfl
      · exact hstores
      · rfl
      · exact hfresh
      · exact (hreach.trans hloaded).trans hfinal
    · intro status d rest hstatus hd
      exact started_out ((hreach.trans hloaded).trans hd) hstatus
    · exact fun d hd => (hreach.trans hloaded).trans hd
  · exact fun error d rest hd => started_out (hreach.trans hd) (by simp)
  · exact fun d hd => hreach.trans hd

theorem wp_bootstrapLoadedSettings (hdisk : m.durable.settings = .stored settings)
    (hstore : m.memory.settingsStore = true) (hsettings : m.memory.settings = some settings)
    (hsaved : settings.generation ≠ 0) (hfresh : m.memory.messenger.identity = none) :
    wp (Session.bootstrapLoadedSettings settings) (fun _ m' => Started m.durable m')
      (StartReaches m.durable) m := by
  unfold Session.bootstrapLoadedSettings
  simp only [wp_bind]
  refine wp_read ?_ ?_ ?_
  · intro rest _
    dsimp only
    by_cases habsent : m.durable.history = .missing ∨ m.durable.history = .leftover
    · -- no history to open: it is created, unless the settings say that there was one
      rw [if_pos habsent]
      by_cases hused : settings.historyInitialized ∨ settings.senderSequenceHighWatermark ≠ 0
      · rw [if_pos hused]
        exact started_out .refl (by simp)
      rw [if_neg hused]
      unfold hasHistoryArtifact
      simp only [wp_bind]
      refine wp_read ?_ ?_ ?_
      · intro rest _
        dsimp only
        rw [wp_pure]
        by_cases hmissing : m.durable.history = .missing
        · have hdurable : m.durable = ⟨.stored settings, .missing⟩ := by rw [← hdisk, ← hmissing]
          rw [if_neg (by simpa using hmissing), wp_bind]
          refine wp_openEmptyHistory (m := { m with faults := rest }) hdurable ?_ ?_ ?_
          · intro rest
            refine wp_bootstrapHistory ?_ ?_ ?_ ?_ ?_ ?_ ?_
            · rfl
            · simp
            · exact ⟨rfl, hstore⟩
            · exact hsettings
            · exact hsaved
            · exact hfresh
            · rw [hdurable]
              exact reaches_emptyHistory
          · exact fun session d rest hd => started_out hd (by simp)
          · exact fun d hd => hd
        · -- Something is left of a history that is not one.
          rw [if_pos (by simpa using hmissing)]
          exact started_out .refl (by simp)
      · exact fun rest _ => started_out .refl (by simp)
      · exact fun _ => .refl
    · -- a history is there: it has to be of this installation
      rw [if_neg habsent]
      unfold openExistingBound
      simp only [wp_bind]
      refine wp_read ?_ ?_ ?_
      · intro rest _
        dsimp only
        rcases hfile : m.durable.history with _ | _ | _ | _ | stored
        · exact absurd (.inl hfile) habsent
        · exact absurd (.inr hfile) habsent
        · exact started_out .refl (by simp)
        · exact started_out .refl (by simp)
        dsimp only
        by_cases hmatches : stored.identityMatches (identityFrom settings)
        swap
        · rw [if_pos (by simpa using hmatches)]
          exact started_out .refl (by simp)
        rw [if_neg (by simp [hmatches])]
        have hopened : ∀ error, wp (if error ≠ HistoryError.none then
            Session.setStatus .recoveryRequired else do
              Prog.update fun session => { session with historyOpen := true }
              Session.bootstrapHistory settings) (fun _ m' => Started m.durable m')
            (StartReaches m.durable) { m with faults := rest } := by
          intro error
          by_cases herror : error = .none
          · rw [if_neg (by simpa using herror)]
            simp only [wp_bind, wp_update]
            refine wp_bootstrapHistory ?_ ?_ ?_ ?_ ?_ ?_ .refl
            · exact hdisk
            · simp [hfile]
            · exact ⟨rfl, hstore⟩
            · exact hsettings
            · exact hsaved
            · exact hfresh
          · rw [if_pos herror]
            exact started_out .refl (by simp)
        rcases stored.readSnapshot (identityFrom settings) with error | snapshot
        · exact hopened error
        · exact hopened .none
      · exact fun rest _ => started_out .refl (by simp)
      · exact fun _ => .refl
  · exact fun rest _ => started_out .refl (by simp)
  · exact fun _ => .refl

/-- Nothing but settings. -/
def firstCommitted (settings : SettingsRecord) (hlaunched : settings.Launched) : Committed where
  settings := settings
  timeline := Timeline.empty
  ledger := MessageDedupeWindow.empty
  timeline_capacity := rfl
  ledger_capacity := rfl
  covers := by simp [Covers, Timeline.empty]
  locals := ⟨by simp [Timeline.empty], by simp [Timeline.empty], by simp [Timeline.empty]⟩
  launched := hlaunched

theorem wp_bootstrapMissingSettings (hmissing : m.durable.settings = .missing)
    (hstore : m.memory.settingsStore = true) (hfresh : m.memory.messenger.identity = none)
    (hdedupe : m.memory.dedupe = .empty)
    (random : Option (Vector UInt8 16)) :
    wp (Session.bootstrapMissingSettings random) (fun _ m' => Started m.durable m')
      (StartReaches m.durable) m := by
  unfold Session.bootstrapMissingSettings hasHistoryArtifact
  simp only [wp_bind]
  refine wp_read ?_ ?_ ?_
  swap
  · exact fun rest _ => started_out .refl (by simp)
  swap
  · exact fun _ => .refl
  intro rest _
  dsimp only
  rw [wp_pure]
  -- A history without settings is never taken over.
  by_cases habsent : m.durable.history = .missing
  swap
  · rw [if_pos (by simpa using habsent)]
    exact started_out .refl (by simp)
  rw [if_neg (by simpa using habsent)]
  have hdurable : m.durable = ⟨.missing, .missing⟩ := by rw [← hmissing, ← habsent]
  rcases InstallId.generate random with error | installId
  · exact started_out .refl (by simp)
  rcases UserId.create Session.defaultUserId with error | userId
  · exact started_out .refl (by simp)
  dsimp only
  rw [wp_bind]
  have hlaunch : StartReaches m.durable ⟨.stored (firstSettings installId userId), .missing⟩ :=
    hdurable ▸ Reaches.refl.step rfl (.launch installId userId)
  -- The save of the first settings may or may not have reached the disk.
  have hor : ∀ d, d = m.durable ∨ d = { m.durable with
      settings := .stored (firstSettings installId userId) } → StartReaches m.durable d := by
    rintro d (rfl | rfl)
    · exact .refl
    · rw [hdurable] at hlaunch ⊢
      exact hlaunch
  refine wp_saveSettings (m := { m with faults := rest }) (by simp) ?_ ?_ ?_
  · intro rest _
    simp only [wp_bind, wp_update]
    have hempty : StartReaches m.durable ⟨.stored (firstSettings installId userId),
        .stored ⟨installId.uuid, true, {}⟩⟩ := hlaunch.trans reaches_emptyHistory
    refine wp_openEmptyHistory ?_ ?_ ?_ ?_
    · rw [hdurable]
    · intro rest
      simp only [wp_bind, if_true]
      refine wp_finalize rfl rfl (by simp) ?_ ?_ ?_
      · intro settings rest hidentity hlaunched hfinal
        have hinstall : settings.installId = installId := (Identity.mk.inj hidentity).1
        simp only [Session.restoreState, Session.setIdentity, Session.setTimeline,
          Session.setStatus, wp_bind, wp_memory, wp_update, hfresh, wp_pure]
        -- The first session in service knows nothing but its settings.
        refine ⟨hempty.trans hfinal, fun _ => ⟨firstCommitted settings hlaunched,
          ⟨.inr ⟨rfl, hstore⟩, rfl, rfl, rfl, hdedupe⟩, ?_, ?_⟩⟩
        · rw [← hinstall]
          rfl
        · simp [firstCommitted, Timeline.empty]
      · exact fun status d rest hstatus hd => started_out (hempty.trans hd) hstatus
      · exact fun d hd => hempty.trans hd
    · intro session d rest hd
      refine started_out ?_ (by simp)
      rw [hdurable] at hd hlaunch ⊢
      exact hlaunch.trans hd
    · intro d hd
      rw [hdurable] at hd hlaunch ⊢
      exact hlaunch.trans hd
  · rintro ⟨error, finalReplaced⟩ d rest _ hd
    refine started_out (hor d (hd.imp_right (fun h => h.2))) ?_
    rcases finalReplaced with _ | _ <;> simp
  · exact fun d _ hd => hor d hd

/-- Every start, however far it gets. -/
theorem wp_bootstrap (environment : Session.Environment) (random : Option (Vector UInt8 16))
    (disk : Disk) (faults : List Fault) :
    wp (Session.bootstrap environment random) (fun _ m' => Started disk m') (StartReaches disk)
      { memory := {}, durable := disk, faults := faults } := by
  have hnothing : ∀ status, status ≠ .ready → Started disk
      { memory := { ({} : Session) with status := status }, durable := disk, faults := faults } :=
    fun status hstatus => started_out .refl hstatus
  unfold Session.bootstrap
  cases environment with
  | noPaths => exact hnothing .environmentUnavailable (by simp)
  | noDirectories => exact hnothing .storageUnavailable (by simp)
  | lockUnavailable => exact hnothing .storageUnavailable (by simp)
  | lockBusy => exact hnothing .storageBusy (by simp)
  | available =>
    unfold discardHistoryProbe loadSettings
    simp only [wp_bind, wp_update]
    refine wp_read ?_ ?_ ?_
    swap
    · exact fun rest _ => started_out .refl (by simp)
    swap
    · exact fun _ => .refl
    intro rest _
    simp only [wp_pure, wp_bind, wp_update, if_true]
    refine wp_read ?_ ?_ ?_
    swap
    · exact fun rest _ => started_out .refl (by simp)
    swap
    · exact fun _ => .refl
    intro rest _
    dsimp only
    rcases hsettings : disk.settings with _ | _ | settings
    · exact wp_bootstrapMissingSettings (m := ⟨_, disk, rest⟩) hsettings rfl rfl rfl random
    · exact started_out .refl (by simp)
    dsimp only
    by_cases hgeneration : settings.generation = 0
    · rw [if_pos hgeneration]
      exact started_out .refl (by simp)
    · rw [if_neg hgeneration, wp_pure]
      simp only [wp_bind, wp_update]
      exact wp_bootstrapLoadedSettings (m := ⟨_, disk, rest⟩) hsettings rfl rfl hgeneration rfl

end Lora
