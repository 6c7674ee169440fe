/-
Lifetimes.

What an installation goes through: processes start, their sessions are called,
the radio runtime picks up what is queued, and processes end, in the middle of
a start or a call or at any other time.  The disk is all that is left then.
What goes wrong is part of the events, so a statement about all lists of
events is one about all failures and crashes at all points.

* `World.step_agrees`, `World.run_agrees` — memory and disk agree;
* `session_agrees_with_disk` — what this says of the two, and that a session
  out of service leaves the disk alone;
* `sender_sequence_never_reused` — sequences grow over all lifetimes, and the
  settings are ahead of every post.
-/
import LoraMessenger.SessionRun

namespace Lora

open Crash

inductive WorldEvent where
  | start (environment : Session.Environment) (random : Option (Vector UInt8 16))
      (faults : List Fault)
  | call (c : SessionCall) (faults : List Fault)
  | scan
  | kill

/-- The changes of the disk that belong to an event. -/
def WorldEvent.causes : WorldEvent → Cause → Prop
  | .start .. => (· = .start)
  | .call c _ => c.causes
  | _ => fun _ => False

/-- The disk and the session of the running process, with a record of the
sequences of the posts that were composed or handed to the scheduler. -/
structure World where
  disk : Disk
  process : Option Session := none
  composed : List ℕ := []
  handed : List ℕ := []

/-- The sequence of the post that a call has composed. -/
def composedSequences (c : SessionCall) (reply : Reply) (session : Session) : List ℕ :=
  match c, reply with
  | .compose .., .command { error := .none, messageId := some messageId, .. } =>
    ((session.messenger.timeline.find messageId).map TimelineEntry.sequence).toList
  | _, _ => []

namespace World

def start (environment : Session.Environment) (random : Option (Vector UInt8 16))
    (faults : List Fault) (w : World) : World :=
  match Session.bootstrap environment random ⟨{}, w.disk, faults⟩ with
  | .done _ m => { w with disk := m.durable, process := some m.memory }
  | .crashed disk => { w with disk := disk, process := none }

def call (c : SessionCall) (faults : List Fault) (w : World) : World :=
  match w.process with
  | none => w
  | some session =>
    match Session.call c ⟨session, w.disk, faults⟩ with
    | .done reply m =>
      { w with
        disk := m.durable
        process := some m.memory
        composed := w.composed ++ composedSequences c reply m.memory }
    | .crashed disk => { w with disk := disk, process := none }

/-- The posts that a pump of the radio runtime may hand to the scheduler. -/
def scan (w : World) : World :=
  match w.process with
  | none => w
  | some session =>
    if session.status = .ready then
      { w with
        handed := w.handed ++
          (session.messenger.timeline.entries.filter TimelineEntry.isQueued).map
            TimelineEntry.sequence }
    else w

def step (w : World) : WorldEvent → World
  | .start environment random faults => w.start environment random faults
  | .call c faults => w.call c faults
  | .scan => w.scan
  | .kill => { w with process := none }

def run (w : World) (events : List WorldEvent) : World := events.foldl step w

theorem run_concat (w : World) (events : List WorldEvent) (event : WorldEvent) :
    w.run (events ++ [event]) = (w.run events).step event := by
  simp [run, List.foldl_append]

/-! ### Memory and disk -/

def Agrees (w : World) : Prop := ∀ session, w.process = some session → Lora.Agrees session w.disk

variable {w : World}

/-- A start replaces the process and changes the disk by steps of a start. -/
theorem start_cases (w : World) (environment : Session.Environment)
    (random : Option (Vector UInt8 16)) (faults : List Fault) :
    ∃ disk process, w.start environment random faults =
      { w with disk := disk, process := process } ∧
      StartReaches w.disk disk ∧ ∀ session, process = some session →
        Started w.disk ⟨session, disk, []⟩ := by
  have hwp := wp_bootstrap environment random w.disk faults
  unfold wp at hwp
  unfold start
  rcases hrun : Session.bootstrap environment random ⟨{}, w.disk, faults⟩ with ⟨_, m⟩ | disk
  · rw [hrun] at hwp
    refine ⟨m.durable, some m.memory, rfl, hwp.1, ?_⟩
    intro session hsession
    cases hsession
    exact hwp
  · rw [hrun] at hwp
    exact ⟨disk, none, rfl, hwp, by simp⟩

/-- A call that returns keeps the session in agreement; one that crashes ends
the process. -/
theorem call_cases (hagrees : w.Agrees) {session : Session} (hprocess : w.process = some session)
    (c : SessionCall) (faults : List Fault) :
    (∃ reply m, Session.call c ⟨session, w.disk, faults⟩ = .done reply m ∧
      Settled c.causes w.disk m ∧ w.call c faults =
        { w with
          disk := m.durable
          process := some m.memory
          composed := w.composed ++ composedSequences c reply m.memory }) ∨
    ∃ disk, Reaches c.causes w.disk disk ∧
      w.call c faults = { w with disk := disk, process := none } := by
  have hwp := wp_call (m := ⟨session, w.disk, faults⟩) (hagrees session hprocess) c
  unfold wp at hwp
  rcases hrun : Session.call c ⟨session, w.disk, faults⟩ with ⟨reply, m⟩ | disk
  · rw [hrun] at hwp
    exact .inl ⟨reply, m, rfl, hwp, by simp [call, hprocess, hrun]⟩
  · rw [hrun] at hwp
    exact .inr ⟨disk, hwp, by simp [call, hprocess, hrun]⟩

/-- What is handed over is queued in the memory of a session in service. -/
theorem scan_cases (w : World) : ∃ handed, w.scan = { w with handed := w.handed ++ handed } ∧
    ∀ n ∈ handed, ∃ session, w.process = some session ∧ session.status = .ready ∧
      ∃ entry ∈ session.messenger.timeline.entries, entry.isQueued ∧ entry.sequence = n := by
  obtain ⟨disk, _ | session, composed, handed⟩ := w
  · exact ⟨[], by simp [scan], by simp⟩
  by_cases hready : session.status = .ready
  · refine ⟨_, by simp only [scan, hready, if_true]; rfl, ?_⟩
    intro n hn
    obtain ⟨entry, hentry, rfl⟩ := List.mem_map.mp hn
    obtain ⟨hentry, hqueued⟩ := List.mem_filter.mp hentry
    exact ⟨session, rfl, hready, entry, hentry, hqueued, rfl⟩
  · exact ⟨[], by simp [scan, hready], by simp⟩

theorem step_agrees (hagrees : w.Agrees) (event : WorldEvent) : (w.step event).Agrees := by
  cases event with
  | start environment random faults =>
    obtain ⟨disk, process, hstart, -, hstarted⟩ := w.start_cases environment random faults
    rw [step, hstart]
    intro session hsession hready
    obtain ⟨v, hshows, hdisk, -⟩ := (hstarted session hsession).2 hready
    exact ⟨v, hshows, hdisk⟩
  | call c faults =>
    rw [step]
    rcases hprocess : w.process with _ | session
    · simpa [call, hprocess] using hagrees
    rcases call_cases hagrees hprocess c faults with
      ⟨reply, m, -, hsettled, hcall⟩ | ⟨disk, -, hcall⟩
    · rw [hcall]
      intro session hsession
      cases hsession
      exact hsettled.2
    · rw [hcall]
      intro session hsession
      cases hsession
  | scan =>
    obtain ⟨handed, hscan, -⟩ := scan_cases w
    rw [step, hscan]
    exact hagrees
  | kill =>
    intro session hsession
    cases hsession

/-- An event changes the disk for its own causes only. -/
theorem step_reaches_causes (hagrees : w.Agrees) (event : WorldEvent) :
    Reaches event.causes w.disk (w.step event).disk := by
  cases event with
  | start environment random faults =>
    obtain ⟨disk, process, hstart, hreach, -⟩ := w.start_cases environment random faults
    rw [step, hstart]
    exact hreach
  | call c faults =>
    rw [step]
    rcases hprocess : w.process with _ | session
    · simp only [call, hprocess]
      exact .refl
    rcases call_cases hagrees hprocess c faults with ⟨reply, m, -, hsettled, hcall⟩ |
      ⟨disk, hreach, hcall⟩
    · rw [hcall]
      exact hsettled.1
    · rw [hcall]
      exact hreach
  | scan =>
    obtain ⟨handed, hscan, -⟩ := scan_cases w
    rw [step, hscan]
    exact .refl
  | kill => exact .refl

theorem step_reaches (hagrees : w.Agrees) (event : WorldEvent) :
    Reaches (fun _ => True) w.disk (w.step event).disk :=
  (step_reaches_causes hagrees event).mono fun _ _ => trivial

theorem run_agrees (hagrees : w.Agrees) (events : List WorldEvent) : (w.run events).Agrees := by
  induction events using List.reverseRecOn with
  | nil => exact hagrees
  | append_singleton events event ih =>
    rw [run_concat]
    exact step_agrees ih event

theorem agrees_off (disk : Disk) : World.Agrees { disk := disk } := by
  intro session hsession
  cases hsession

/-! ### Out of service -/

/-- Any number of calls, none of which deletes everything, to a session out of
service. -/
theorem run_idle {session : Session} (hprocess : w.process = some session) (hidle : session.Idle)
    (calls : List (SessionCall × List Fault)) (hkeep : ∀ call ∈ calls, call.1 ≠ .deleteAll) :
    (w.run (calls.map fun call => .call call.1 call.2)).disk = w.disk := by
  induction calls generalizing w session with
  | nil => rfl
  | cons call calls ih =>
    obtain ⟨c, faults⟩ := call
    obtain ⟨hc, hkeep⟩ := List.forall_mem_cons.mp hkeep
    have hwp := call_idle (m := ⟨session, w.disk, faults⟩) hidle hc
    unfold wp at hwp
    rcases hrun : Session.call c ⟨session, w.disk, faults⟩ with ⟨reply, m⟩ | disk
    swap
    · rw [hrun] at hwp
      exact hwp.elim
    rw [hrun] at hwp
    obtain ⟨hdisk, hstatus, hclosed, -⟩ := hwp
    have hidle : m.memory.Idle := hidle.imp (fun h => hstatus ▸ h) hclosed
    have hcall : w.call c faults =
        { w with
          disk := m.durable
          process := some m.memory
          composed := w.composed ++ composedSequences c reply m.memory } := by
      simp [World.call, hprocess, hrun]
    rw [List.map_cons, run, List.foldl_cons, step, hcall]
    exact (ih rfl hidle hkeep).trans hdisk

end World

/-- While a session is in service, its memory and the disk hold the same.  A
session that has left service for recovery or is closed does not write to the
disk any more, unless it is told to delete everything. -/
theorem session_agrees_with_disk (disk : Disk) (events : List WorldEvent) (session : Session)
    (hprocess : (World.run { disk := disk } events).process = some session) :
    (session.status = .ready → ∃ settings stored,
      (World.run { disk := disk } events).disk = ⟨.stored settings, .stored stored⟩ ∧
      session.messenger.identity = some (identityFrom settings) ∧
      stored.snapshot =
        { entries := session.messenger.timeline.entries
          lastAssignedOrder := session.messenger.timeline.lastAssignedOrder
          seenMessages := session.dedupe.records
          lastSeenOrder := session.dedupe.lastSeenOrder } ∧
      ∀ entry ∈ session.messenger.timeline.entries, ∃ bytes, encodePost entry.post = .ok bytes ∧
        session.dedupe.classify entry.messageId bytes = .duplicate) ∧
    (session.status = .recoveryRequired ∨ session.closed →
      ∀ calls : List (SessionCall × List Fault), (∀ call ∈ calls, call.1 ≠ .deleteAll) →
        (World.run { disk := disk } (events ++ calls.map fun call => .call call.1 call.2)).disk =
          (World.run { disk := disk } events).disk) := by
  constructor
  · intro hready
    obtain ⟨v, hshows, hdisk⟩ := World.run_agrees (World.agrees_off disk) events session
      hprocess hready
    refine ⟨v.settings, _, hdisk, hshows.identity, ?_, ?_⟩
    · rw [hshows.timeline, hshows.dedupe]
      rfl
    · rw [hshows.timeline, hshows.dedupe]
      intro entry hentry
      exact ⟨postBytes entry.post, encodePost_eq entry.post, v.covers entry hentry⟩
  · intro hout calls hkeep
    have hidle : session.Idle := hout.imp (fun h => by simp [h]) id
    rw [World.run, List.foldl_append]
    exact World.run_idle hprocess hidle calls hkeep

/-- A first launch and three posts, the second of which is saved although the
save is reported as failed, with a restart after it. -/
def sampleEvents : List WorldEvent :=
  [.start .available (some (Vector.replicate 16 1)) [],
   .call (.compose ⟨[0x68, 0x69], [], none⟩ (some (Vector.replicate 16 2)) none) [],
   .scan,
   .call (.compose ⟨[0x68, 0x69], [], none⟩ (some (Vector.replicate 16 3)) none)
     [.none, .none, .failed .complete],
   .start .available (some (Vector.replicate 16 1)) [],
   .call (.compose ⟨[0x68, 0x69], [], none⟩ (some (Vector.replicate 16 4)) none) []]

theorem session_agrees_with_disk_sampleEvents :
    ∃ session, (World.run { disk := ⟨.missing, .missing⟩ } sampleEvents).process = some session ∧
      session.status = .ready ∧ ∃ settings stored,
        (World.run { disk := ⟨.missing, .missing⟩ } sampleEvents).disk =
          ⟨.stored settings, .stored stored⟩ ∧
        session.messenger.identity = some (identityFrom settings) := by
  have hready : (World.run { disk := ⟨.missing, .missing⟩ } sampleEvents).process.map
      Session.status = some .ready := by decide +kernel
  obtain ⟨session, hprocess, hstatus⟩ := Option.map_eq_some_iff.mp hready
  obtain ⟨hagrees, -⟩ :=
    session_agrees_with_disk ⟨.missing, .missing⟩ sampleEvents session hprocess
  obtain ⟨settings, stored, hdisk, hidentity, -⟩ := hagrees hstatus
  exact ⟨session, hprocess, hstatus, settings, stored, hdisk, hidentity⟩

/-! ### Sequences -/

theorem causes_erase {c : SessionCall} (hkeep : c ≠ .deleteAll) : ¬c.causes .erase := by
  cases c with
  | deleteAll => exact absurd rfl hkeep
  | compose draft random now =>
    rintro (h | ⟨post, -, h⟩)
    · cases h
    · cases h
  | acceptReceivedPost canonicalPost =>
    rintro ⟨post, -, h⟩
    cases h
  | _ => rintro ⟨⟩

theorem wp_compose_idle {m : Machine Session Disk} (hidle : m.memory.Idle) (draft : PostDraft)
    (random : Option (Vector UInt8 16)) (now : Option Int64) {crash : Disk → Prop} :
    wp (Session.compose draft random now) (fun result _ => result.messageId = none) crash m := by
  unfold Session.compose
  simp only [wp_bind, wp_memory]
  rcases m.memory.messenger.identity with _ | identity
  · rfl
  dsimp only
  rcases hstage : m.memory.messenger.stage identity draft random now with result | staged
  · exact stage_error hstage
  rw [wp_bind]
  refine wp_persistIdentity_idle hidle ?_
  rfl

/-- A composed post has a sequence that was not given out before, and the
settings on the disk know it. -/
theorem wp_call_composed {m : Machine Session Disk} (hagrees : Agrees m.memory m.durable)
    (c : SessionCall) : wp (Session.call c)
      (fun reply m' => ∀ n ∈ composedSequences c reply m'.memory,
        m.durable.watermark < n ∧ n ≤ m'.durable.watermark) (fun _ => True) m := by
  have hnone : ∀ (result : CommandResult) (session : Session) (d : Disk), result.messageId = none →
      ∀ draft random now, ∀ n ∈ composedSequences (.compose draft random now) (.command result)
        session, m.durable.watermark < n ∧ n ≤ d.watermark := by
    rintro ⟨error, textError, postError, messageId, evicted⟩ session d rfl draft random now
    rcases error <;> simp [composedSequences]
  cases c with
  | compose draft random now =>
    rw [Session.call, wp_bind]
    by_cases hready : m.memory.status = .ready
    swap
    · refine wp_mono (wp_compose_idle (.inl hready) draft random now) ?_ (fun _ h => h)
      exact fun result m' hresult => hnone result m'.memory m'.durable hresult draft random now
    obtain ⟨v, hshows, hdisk⟩ := hagrees hready
    refine wp_compose hshows hdisk ?_ ?_ ?_ ?_ ?_ ?_ ?_
    · exact fun result hstage => hnone _ _ _ (stage_error hstage) draft random now
    · exact fun rest _ => hnone _ _ _ rfl draft random now
    · exact fun post v₁ rest _ _ _ => hnone _ _ _ rfl draft random now
    · exact fun post ids v₁ rest _ _ _ _ _ => hnone _ _ _ rfl draft random now
    · exact fun post session disk rest _ _ _ => hnone _ _ _ rfl draft random now
    · intro post evicted v₁ v₂ rest _ hcommit₁ hcommit₂ _ n hn
      cases hcommit₁ with
      | sequence _ hwatermark _ _ =>
      cases hcommit₂ with
      | composed hsequence hinserts =>
      obtain ⟨entry, hfind, hpost⟩ := hinserts.find
      have hissued := Identity.nextSenderSequence_eq_some hwatermark
      simp only [composedSequences, Session.adopt, hfind, Option.map_some, Option.toList_some,
        List.mem_singleton, TimelineEntry.sequence, hpost, hsequence] at hn
      simp only [hdisk, Disk.watermark, Committed.disk, hinserts.settings, hn]
      exact ⟨by rw [hissued]; exact Nat.lt_succ_self _, le_refl _⟩
    · exact fun post disk _ _ _ => trivial
  | _ => exact wp_true fun _ _ => by simp [composedSequences]

theorem composedSequences_pairwise (c : SessionCall) (reply : Reply) (session : Session) :
    (composedSequences c reply session).Pairwise (· < ·) := by
  unfold composedSequences
  split
  · rcases session.messenger.timeline.find _ with _ | entry <;> simp
  · exact List.Pairwise.nil

namespace World

/-- What holds of the sequences at every point of a run. -/
structure Sequences (w : World) : Prop where
  agrees : w.Agrees
  covered : w.disk.Covered
  growing : w.composed.Pairwise (· < ·)
  composed : ∀ n ∈ w.composed, n ≤ w.disk.watermark
  handed : ∀ n ∈ w.handed, n ≤ w.disk.watermark

variable {w : World}

/-- The disk changes and nothing is composed or handed over. -/
theorem Sequences.onDisk {disk : Disk} {process : Option Session} {allowed : Cause → Prop}
    (h : w.Sequences) (herase : ¬allowed .erase) (hreach : Reaches allowed w.disk disk)
    (hagrees : World.Agrees { w with disk := disk, process := process }) :
    Sequences { w with disk := disk, process := process } where
  agrees := hagrees
  covered := hreach.covered herase h.covered
  growing := h.growing
  composed n hn := le_trans (h.composed n hn) (hreach.watermark_le herase)
  handed n hn := le_trans (h.handed n hn) (hreach.watermark_le herase)

theorem Sequences.call {c : SessionCall} (h : w.Sequences) (hkeep : c ≠ .deleteAll)
    (faults : List Fault) : (w.call c faults).Sequences := by
  have hagrees := step_agrees h.agrees (.call c faults)
  rw [step] at hagrees
  rcases hprocess : w.process with _ | session
  · simpa [World.call, hprocess] using h
  rcases call_cases h.agrees hprocess c faults with ⟨reply, m, hrun, hsettled, hcall⟩ |
    ⟨disk, hreach, hcall⟩
  swap
  · rw [hcall] at hagrees ⊢
    exact h.onDisk (causes_erase hkeep) hreach hagrees
  rw [hcall] at hagrees ⊢
  have hkept : Sequences { w with disk := m.durable, process := some m.memory } :=
    h.onDisk (causes_erase hkeep) hsettled.1 hagrees
  have hcomposed := wp_call_composed (m := ⟨session, w.disk, faults⟩)
    (h.agrees session hprocess) c
  rw [wp, hrun] at hcomposed
  refine ⟨hagrees, hkept.covered, ?_, ?_, hkept.handed⟩
  · -- At most one post is composed, and its sequence is beyond the old watermark.
    refine List.pairwise_append.mpr ⟨h.growing, ?_, ?_⟩
    · exact composedSequences_pairwise c reply m.memory
    · intro old hold n hn
      exact lt_of_le_of_lt (h.composed old hold) (hcomposed n hn).1
  · intro n hn
    rcases List.mem_append.mp hn with hold | hnew
    · exact hkept.composed n hold
    · exact (hcomposed n hnew).2

theorem Sequences.scan (h : w.Sequences) : w.scan.Sequences := by
  obtain ⟨handed, hscan, hqueued⟩ := scan_cases w
  rw [hscan]
  refine ⟨h.agrees, h.covered, h.growing, h.composed, ?_⟩
  intro n hn
  rcases List.mem_append.mp hn with hold | hnew
  · exact h.handed n hold
  -- A queued post in the memory of a session in service is on the disk.
  obtain ⟨session, hprocess, hready, entry, hentry, hlocal, rfl⟩ := hqueued n hnew
  obtain ⟨v, hshows, hdisk⟩ := h.agrees session hprocess hready
  rw [hshows.timeline] at hentry
  rw [hdisk]
  exact v.covered entry hentry (isLocal_of_isQueued hlocal)

theorem Sequences.step (h : w.Sequences) (event : WorldEvent)
    (hkeep : ∀ faults, event ≠ .call .deleteAll faults) : (w.step event).Sequences := by
  cases event with
  | start environment random faults =>
    obtain ⟨disk, process, hstart, hreach, -⟩ := w.start_cases environment random faults
    have hagrees := step_agrees h.agrees (.start environment random faults)
    rw [World.step, hstart] at hagrees ⊢
    exact h.onDisk (by simp) hreach hagrees
  | call c faults => exact h.call (fun hdelete => hkeep faults (by rw [hdelete])) faults
  | scan => exact h.scan
  | kill =>
    have hsame : StartReaches w.disk w.disk := .refl
    exact h.onDisk (by simp) hsame (by rintro session ⟨⟩)

theorem Sequences.run (h : w.Sequences) (events : List WorldEvent)
    (hkeep : ∀ faults, .call .deleteAll faults ∉ events) : (w.run events).Sequences := by
  induction events using List.reverseRecOn with
  | nil => exact h
  | append_singleton events event ih =>
    rw [run_concat]
    refine (ih fun faults hmem => hkeep faults (by simp [hmem])).step event ?_
    rintro faults rfl
    exact hkeep faults (by simp)

end World

/-- On a disk whose history is covered by its settings, such as an empty one,
no sequence is given out twice, whatever fails and wherever processes end. -/
theorem sender_sequence_never_reused (disk : Disk) (hdisk : disk.Covered) (events : List WorldEvent)
    (hkeep : ∀ faults, .call .deleteAll faults ∉ events) :
    (World.run { disk := disk } events).composed.Pairwise (· < ·) ∧
    (∀ entry ∈ (World.run { disk := disk } events).disk.entries, entry.isLocal →
      entry.sequence ≤ (World.run { disk := disk } events).disk.watermark) ∧
    (∀ n ∈ (World.run { disk := disk } events).composed,
      n ≤ (World.run { disk := disk } events).disk.watermark) ∧
    ∀ n ∈ (World.run { disk := disk } events).handed,
      n ≤ (World.run { disk := disk } events).disk.watermark := by
  have hstart : World.Sequences { disk := disk } :=
    ⟨World.agrees_off disk, hdisk, .nil, by simp, by simp⟩
  have hend := hstart.run events hkeep
  exact ⟨hend.growing, hend.covered, hend.composed, hend.handed⟩

theorem sender_sequence_never_reused_sampleEvents :
    (World.run { disk := ⟨.missing, .missing⟩ } sampleEvents).composed = [1, 3] ∧
      (World.run { disk := ⟨.missing, .missing⟩ } sampleEvents).handed = [1] ∧
      ∀ n ∈ (World.run { disk := ⟨.missing, .missing⟩ } sampleEvents).handed,
        n ≤ (World.run { disk := ⟨.missing, .missing⟩ } sampleEvents).disk.watermark :=
  ⟨by decide +kernel, by decide +kernel,
    (sender_sequence_never_reused ⟨.missing, .missing⟩ (by simp [Disk.Covered, Disk.entries])
      sampleEvents (by simp [sampleEvents])).2.2.2⟩

end Lora
