/-
What becomes of a post.

A post that is composed is queued in the timeline, and each pump of the runtime finds
it there and hands it to the scheduler again.  While the scheduler has it, it is
turned away as a duplicate; when the scheduler is done with it, the runtime has
marked it in the timeline, or has failed to and is out of service.  So the scheduler
gets each post once.

* `Legacy.Kept` — what the process leaves behind at any time;
* `Pumping`, `Driven` — what holds during a pump, and between two calls;
* `wp_pump`, `wp_user`, `wp_stop`, `wp_shutdown` — the calls keep it.
-/
import LoraMessenger.SchedulerRecord
import LoraMessenger.SessionFrame

namespace Lora

open Crash

variable {ε : Type}

/-! ### What is marked -/

/-- The state of the timeline for an outcome. -/
def OutboundTerminalState.delivery : OutboundTerminalState → LocalDeliveryState
  | .broadcast => .broadcast
  | .failed => .failed

theorem OutboundTerminalState.delivery_ne_queued (state : OutboundTerminalState) :
    state.delivery ≠ .queued := by
  cases state with
  | broadcast => simp [delivery]
  | failed => simp [delivery]

theorem deliver_eq (event : OutboundEvent) :
    RadioRuntime.deliver event = Session.transition event.messageId event.state.delivery := by
  obtain ⟨messageId, state⟩ := event
  cases state with
  | broadcast => rfl
  | failed => rfl

/-- A transition that is refused finds no queued post. -/
theorem Timeline.not_queued_of_error {timeline : Timeline} {messageId : MessageId}
    {target : LocalDeliveryState} (htarget : target ≠ .queued) {error : TransitionError}
    (h : timeline.transition messageId target = .error error) {entry : TimelineEntry}
    (hentry : entry ∈ timeline.entries) (hqueued : entry.isQueued) : entry.messageId ≠
      messageId := by
  rintro rfl
  rw [Timeline.transition_queued hentry hqueued htarget] at h
  cases h

/-- A post that has been delivered is no longer queued, and the others are as before. -/
theorem Commit.queued_of_delivered {v v' : Committed} {messageId : MessageId}
    {target : LocalDeliveryState} (htarget : target ≠ .queued)
    (h : Commit (.delivered messageId target) v v') {entry : TimelineEntry}
    (hentry : entry ∈ v'.timeline.entries) (hqueued : entry.isQueued) :
    entry ∈ v.timeline.entries ∧ entry.messageId ≠ messageId := by
  have horigin : entry.origin = .localDelivery .queued := by
    simpa [TimelineEntry.isQueued] using hqueued
  cases h with
  | delivered _ _ htimeline =>
    obtain ⟨found, hfound, hid, ⟨hstate, hsame⟩ | ⟨-, _, hchanged⟩⟩ :=
      Timeline.transition_eq_ok htimeline
    · -- a repeated transition
      rw [hsame] at hentry
      refine ⟨hentry, fun hother => htarget ?_⟩
      have hfind := Timeline.find_of_mem hentry
      rw [hother, ← hid, Timeline.find_of_mem hfound, Option.some.injEq] at hfind
      rw [← hfind, hstate] at horigin
      exact EntryOrigin.localDelivery.inj horigin
    · rw [hchanged] at hentry
      obtain ⟨before, hbefore, rfl⟩ := List.mem_map.mp hentry
      by_cases hother : before.messageId = messageId
      · rw [if_pos hother] at horigin
        exact absurd (EntryOrigin.localDelivery.inj horigin) htarget
      · rw [if_neg hother]
        exact ⟨hbefore, hother⟩

section Mark

variable {m : Machine (Process ε) Legacy} {event : OutboundEvent}
  {returns : Bool → Machine (Process ε) Legacy → Prop} {crash : Legacy → Prop}

/-- The memory once an outcome is marked and counted. -/
def Process.marked (process : Process ε) (v : Committed) (event : OutboundEvent) : Process ε :=
  { process with
    session := process.session.adopt v
    runtime := { process.runtime with
      metrics := RadioRuntime.countOutcome event.state process.runtime.metrics } }

def Legacy.marked (legacy : Legacy) (v : Committed) (event : OutboundEvent) : Legacy :=
  { disk := v.disk
    record := { legacy.record with outcomes := legacy.record.outcomes ++ [event] } }

/-- An outcome is marked, or there is nothing to mark; otherwise the session leaves
service. -/
theorem wp_mark (hagrees : Agrees m.memory.session m.durable.disk)
    (hopen : m.memory.session.closed = false)
    (hrefused : (m.memory.session.status = .ready →
      ∀ entry ∈ m.memory.session.messenger.timeline.entries, entry.isQueued →
        entry.messageId ≠ event.messageId) → returns false m)
    (hdone : ∀ v v' rest, m.memory.session.status = .ready → Shows m.memory.session v →
      m.durable.disk = v.disk → Commit (.delivered event.messageId event.state.delivery) v v' →
      returns true ⟨m.memory.marked v' event, m.durable.marked v' event, rest⟩)
    (hlost : ∀ v v' disk rest, m.memory.session.status = .ready → Shows m.memory.session v →
      m.durable.disk = v.disk → Commit (.delivered event.messageId event.state.delivery) v v' →
      disk = v.disk ∨ disk = v'.disk →
      returns false
        ⟨{ m.memory with session := { m.memory.session with status := .recoveryRequired } },
          { m.durable with disk := disk }, rest⟩)
    (hcrash : ∀ v v' disk, m.memory.session.status = .ready → Shows m.memory.session v →
      m.durable.disk = v.disk → Commit (.delivered event.messageId event.state.delivery) v v' →
      disk = v.disk ∨ disk = v'.disk → crash { m.durable with disk := disk }) :
    wp (RadioRuntime.mark event) returns crash m := by
  simp only [RadioRuntime.mark, Process.onSession, deliver_eq, wp_bind, wp_within]
  by_cases hready : m.memory.session.status = .ready
  swap
  · refine wp_transition_idle (.inl hready) fun result herror => ?_
    rw [if_neg herror]
    exact hrefused fun h => absurd h hready
  obtain ⟨v, hshows, hdisk⟩ := hagrees hready
  have hmay : m.memory.session.mayPersist := by
    have hstores := hshows.stores.resolve_left (by simp [hopen])
    exact ⟨hready, by simp [hopen], hstores.1⟩
  refine wp_transition hshows hdisk ?_ ?_ ?_ ?_ ?_
  · intro error herror
    rw [if_neg (Timeline.mapTransitionError_ne_none herror)]
    refine hrefused fun _ entry hentry hqueued => ?_
    rw [hshows.timeline] at hentry
    exact Timeline.not_queued_of_error event.state.delivery_ne_queued herror hentry hqueued
  · exact fun hnot => absurd hmay hnot
  · exact fun v' rest _ hcommit _ => hdone v v' rest hready hshows hdisk hcommit
  · exact fun v' disk rest hcommit _ hor => hlost v v' disk rest hready hshows hdisk hcommit hor
  · exact fun v' disk hcommit _ hor => hcrash v v' disk hready hshows hdisk hcommit hor

end Mark

/-! ### What outlasts a process -/

/-- Each post is enqueued once, and only if it was composed in this run. -/
structure RunRecord.Sound (record : RunRecord) : Prop where
  filed : ∃ t : Tracked, t.Filed ∧ t.log = record.log
  origin : ∀ {serial post mtu start}, .enqueued serial post mtu start ∈ record.log →
    post ∈ record.composed
  once : ∀ {serial mtu start serial' mtu' start' post}, .enqueued serial post mtu start ∈
    record.log →
    .enqueued serial' post mtu' start' ∈ record.log → serial = serial'

/-- The post was composed, and a broadcast under its id is on record. -/
def RunRecord.Tells (record : RunRecord) (post : PostPayload) : Prop :=
  post ∈ record.composed ∧
    ∃ serial now, .reported serial ⟨post.messageId, .broadcast⟩ now ∈ record.log

/-- A sound record of posts with sequences above `first`; all broadcasts on the disk are
on record, or were `earned` before. -/
structure Legacy.Kept (first : ℕ) (earned : PostPayload → Prop) (legacy : Legacy) : Prop where
  sound : legacy.record.Sound
  sorted : legacy.record.composed.Pairwise fun post later =>
    post.senderSequence.toNat < later.senderSequence.toNat
  issued : ∀ post ∈ legacy.record.composed, first < post.senderSequence.toNat ∧
    post.senderSequence.toNat ≤ legacy.disk.watermark
  first_le : first ≤ legacy.disk.watermark
  broadcast : ∀ entry ∈ legacy.disk.entries, entry.origin = .localDelivery .broadcast →
    earned entry.post ∨ legacy.record.Tells entry.post

namespace Legacy.Kept

variable {first : ℕ} {earned : PostPayload → Prop} {legacy : Legacy}

/-- Another disk. -/
theorem onDisk (h : legacy.Kept first earned) {disk : Disk}
    (hwatermark : legacy.disk.watermark ≤ disk.watermark)
    (hbroadcast : ∀ entry ∈ disk.entries, entry.origin = .localDelivery .broadcast →
      earned entry.post ∨ legacy.record.Tells entry.post) :
    Legacy.Kept first earned { legacy with disk := disk } where
  sound := h.sound
  sorted := h.sorted
  issued post hpost := ⟨(h.issued post hpost).1, le_trans (h.issued post hpost).2 hwatermark⟩
  first_le := le_trans h.first_le hwatermark
  broadcast := hbroadcast

/-- Changes for causes that broadcast nothing. -/
theorem reaches (h : legacy.Kept first earned) {allowed : Cause → Prop} {disk : Disk}
    (hreach : Reaches allowed legacy.disk disk) (herase : ¬allowed .erase)
    (hquiet : ∀ messageId, ¬allowed (.commit (.delivered messageId .broadcast))) :
    Legacy.Kept first earned { legacy with disk := disk } := by
  refine h.onDisk (hreach.watermark_le herase) ?_
  have hkeeps : ∀ cause before after, allowed cause → DiskStep cause before after →
      (∀ entry ∈ before.entries, entry.origin = .localDelivery .broadcast →
        earned entry.post ∨ legacy.record.Tells entry.post) →
      ∀ entry ∈ after.entries, entry.origin = .localDelivery .broadcast →
        earned entry.post ∨ legacy.record.Tells entry.post := by
    intro cause before after hcause hstep hbefore entry hentry horigin
    cases hstep.mem_entries hentry with
    | kept hkept => exact hbefore entry hkept horigin
    | settled hold hqueued hpost horigin' hreason =>
      rw [horigin] at horigin'
      obtain rfl := EntryOrigin.localDelivery.inj horigin'
      rcases hreason with ⟨-, hunknown⟩ | rfl
      · cases hunknown
      · exact absurd hcause (hquiet _)
    | received _ horigin' =>
      rw [horigin] at horigin'
      cases horigin'
    | composed _ horigin' =>
      rw [horigin] at horigin'
      cases horigin'
  exact hreach.keeps hkeeps h.broadcast

/-- What is counted does not matter. -/
theorem counted (h : legacy.Kept first earned) (outcomes : List OutboundEvent) :
    Legacy.Kept first earned
      { legacy with record := { legacy.record with outcomes := outcomes } } where
  sound := ⟨h.sound.filed, h.sound.origin, h.sound.once⟩
  sorted := h.sorted
  issued := h.issued
  first_le := h.first_le
  broadcast := h.broadcast

/-- The post under an id gets another state. -/
theorem delivered (h : legacy.Kept first earned) {v v' : Committed} {messageId : MessageId}
    {target : LocalDeliveryState} (hdisk : legacy.disk = v.disk)
    (hcommit : Commit (.delivered messageId target) v v')
    (htells : target = .broadcast → ∀ entry ∈ v.timeline.entries, entry.isQueued →
      entry.messageId = messageId → legacy.record.Tells entry.post) {disk : Disk}
    (hor : disk = v.disk ∨ disk = v'.disk) :
    Legacy.Kept first earned { legacy with disk := disk } := by
  rcases hor with rfl | rfl
  · rw [← hdisk]
    exact h
  refine h.onDisk ?_ fun entry hentry horigin => ?_
  · rw [hdisk]
    exact (DiskStep.commit hcommit).watermark_le (by simp)
  · have hold := h.broadcast
    rw [hdisk] at hold
    cases hcommit.mem_entries hentry with
    | kept hkept => exact hold entry hkept horigin
    | @settled before hbefore hqueued hpost target' horigin' hcause =>
      rcases hcause with ⟨hstart, -⟩ | hcause
      · cases hstart
      · cases hcause
        rw [horigin] at horigin'
        rw [hpost]
        exact .inr (htells (EntryOrigin.localDelivery.inj horigin').symm before hbefore hqueued rfl)
    | received hcause => cases hcause
    | composed hcause => cases hcause

end Legacy.Kept

/-! ### What holds while a process runs -/

/-- The post was composed in this run, and if the scheduler has had it, it still has. -/
structure FreshIn (m : Machine (Process ε) Legacy) (post : PostPayload) : Prop where
  composed : post ∈ m.durable.record.composed
  untold : ∀ serial mtu start, .enqueued serial post mtu start ∈ m.memory.runtime.scheduler.log →
    Untold m.memory.runtime.scheduler.log serial

/-- The record is that of the scheduler, and what is queued was composed in this run. -/
structure Based (first : ℕ) (earned : PostPayload → Prop)
    (m : Machine (Process ε) Legacy) : Prop where
  kept : m.durable.Kept first earned
  agrees : Agrees m.memory.session m.durable.disk
  log : m.durable.record.log = m.memory.runtime.scheduler.log
  filed : m.memory.runtime.scheduler.Filed
  queued : m.memory.session.status = .ready →
    ∀ entry ∈ m.memory.session.messenger.timeline.entries, entry.isQueued →
      entry.post ∈ m.durable.record.composed

/-- While the runtime is not stopped: what is queued has not been given up by the
scheduler, except for a post that is about to be marked. -/
structure Pumping (first : ℕ) (earned : PostPayload → Prop) (spared : Option MessageId)
    (m : Machine (Process ε) Legacy) : Prop extends Based first earned m where
  running : m.memory.runtime.stopped = false
  opened : m.memory.session.closed = false
  fresh : m.memory.session.status = .ready →
    ∀ entry ∈ m.memory.session.messenger.timeline.entries, entry.isQueued →
      some entry.messageId ≠ spared → FreshIn m entry.post

/-- Between two calls. -/
structure Driven (first : ℕ) (earned : PostPayload → Prop) (m : Machine (Process ε) Legacy) : Prop
    extends Based first earned m where
  running : m.memory.runtime.stopped = false → Pumping first earned none m

section Pumping

variable {first : ℕ} {earned : PostPayload → Prop} {spared : Option MessageId}
  {m : Machine (Process ε) Legacy}

/-- The radio, the queue of what is received and the metrics do not matter. -/
theorem Pumping.congr (h : Pumping first earned spared m) {m' : Machine (Process ε) Legacy}
    (hsession : m'.memory.session = m.memory.session)
    (hscheduler : m'.memory.runtime.scheduler = m.memory.runtime.scheduler)
    (hstopped : m'.memory.runtime.stopped = m.memory.runtime.stopped)
    (hdurable : m'.durable = m.durable) : Pumping first earned spared m' := by
  obtain ⟨⟨session, runtime, radio⟩, durable, faults⟩ := m
  obtain ⟨⟨session', runtime', radio'⟩, durable', faults'⟩ := m'
  obtain ⟨scheduler, inbound, stopped, valid, metrics⟩ := runtime
  obtain ⟨scheduler', inbound', stopped', valid', metrics'⟩ := runtime'
  dsimp only at hsession hscheduler hstopped hdurable
  subst hsession hscheduler hstopped hdurable
  exact ⟨⟨h.kept, h.agrees, h.log, h.filed, h.queued⟩, h.running, h.opened, fun hready entry hentry
    hqueued hspared => ⟨(h.fresh hready entry hentry hqueued hspared).composed,
      (h.fresh hready entry hentry hqueued hspared).untold⟩⟩

/-- Out of service, nothing more can be said about the session. -/
theorem Pumping.lost (h : Pumping first earned spared m) {disk : Disk} {rest : List Fault}
    (hkept : Legacy.Kept first earned { m.durable with disk := disk }) :
    Pumping first earned none
      ⟨{ m.memory with session := { m.memory.session with status := .recoveryRequired } },
        { m.durable with disk := disk }, rest⟩ where
  kept := hkept
  agrees := agrees_recovery
  log := h.log
  filed := h.filed
  queued hready := by cases hready
  running := h.running
  opened := h.opened
  fresh hready := by cases hready

/-! ### The scheduler -/

/-- The scheduler has moved on to `t`. -/
def Machine.rescheduled (m : Machine (Process ε) Legacy) (t : Tracked) (state : ε) :
    Machine (Process ε) Legacy where
  memory := { m.memory with
    runtime := { m.memory.runtime with scheduler := t }
    radio := state }
  durable := { m.durable with record := { m.durable.record with log := t.log } }
  faults := m.faults

theorem Pumping.rescheduled (h : Pumping first earned spared m) {t : Tracked} {state : ε}
    {spared' : Option MessageId} (hfiled : t.Filed)
    (hsound : RunRecord.Sound { m.durable.record with log := t.log })
    (hlog : ∀ event ∈ m.memory.runtime.scheduler.log, event ∈ t.log)
    (hfresh : m.memory.session.status = .ready →
      ∀ entry ∈ m.memory.session.messenger.timeline.entries, entry.isQueued →
        some entry.messageId ≠ spared' → FreshIn (Machine.rescheduled m t state) entry.post) :
    Pumping first earned spared' (Machine.rescheduled m t state) where
  kept :=
    { sound := hsound
      sorted := h.kept.sorted
      issued := h.kept.issued
      first_le := h.kept.first_le
      broadcast := fun entry hentry horigin => (h.kept.broadcast entry hentry horigin).imp_right
        fun ⟨hcomposed, serial, now, hreported⟩ =>
          ⟨hcomposed, serial, now, hlog _ (h.log ▸ hreported)⟩ }
  agrees := h.agrees
  log := rfl
  filed := hfiled
  queued := h.queued
  running := h.running
  opened := h.opened
  fresh := hfresh

/-- An enqueued post leaves the others as they are. -/
theorem wp_enqueue (h : Pumping first earned none m) (radio : Radio ε)
    {post : PostPayload} {now : ℕ}
    (hpost : FreshIn m post) {returns : SchedulerError → Machine (Process ε) Legacy → Prop}
    {crash : Legacy → Prop}
    (hreturns : ∀ error m', Pumping first earned none m' →
      m'.memory.session = m.memory.session → (∀ other, FreshIn m other → FreshIn m' other) →
      returns error m') :
    wp (RadioRuntime.enqueue radio post now) returns crash m := by
  let mtu := radio.maximumDatagramSize m.memory.radio
  let t := m.memory.runtime.scheduler.enqueue radio post mtu now m.memory.radio
  -- The post is on the record from now on, or nothing has happened.
  have hcases : t.log = m.memory.runtime.scheduler.log ++
        [.enqueued m.memory.runtime.scheduler.nextSerial post mtu now] ∧
        (∀ serial mtu start, .enqueued serial post mtu start ∉ m.memory.runtime.scheduler.log) ∨
      t.log = m.memory.runtime.scheduler.log := by
    rcases Tracked.enqueue_cases (t := m.memory.runtime.scheduler) radio post mtu now
        m.memory.radio with
      ⟨-, hlog, -, hnew, -⟩ | ⟨-, hsame⟩
    · exact .inl ⟨hlog, h.filed.not_enqueued hpost.untold hnew⟩
    · exact .inr (congrArg Tracked.log hsame)
  have hfiled : t.Filed := h.filed.enqueue radio post mtu now m.memory.radio
  have hfresh : ∀ state other, FreshIn m other → FreshIn (Machine.rescheduled m t state) other := by
    intro state other hother
    refine ⟨hother.composed, fun serial mtu' start hmem => ?_⟩
    change .enqueued serial other mtu' start ∈ t.log at hmem
    show Untold t.log serial
    rcases hcases with ⟨hlog, -⟩ | hlog
    · rw [hlog] at hmem ⊢
      rcases List.mem_append.mp hmem with hold | hnew
      · exact (hother.untold serial mtu' start hold).enqueued
      · obtain ⟨rfl, -⟩ := SchedulerEvent.enqueued.inj (List.mem_singleton.mp hnew)
        exact h.filed.inv.untold_nextSerial.enqueued
    · rw [hlog] at hmem ⊢
      exact hother.untold serial mtu' start hmem
  have hsound : RunRecord.Sound { m.durable.record with log := t.log } := by
    obtain ⟨-, horigin, honce⟩ := h.kept.sound
    rw [h.log] at horigin honce
    refine ⟨⟨t, hfiled, rfl⟩, ?_, ?_⟩
    · intro serial other mtu' start hmem
      change .enqueued serial other mtu' start ∈ t.log at hmem
      rcases hcases with ⟨hlog, -⟩ | hlog
      · rw [hlog] at hmem
        rcases List.mem_append.mp hmem with hold | hnew
        · exact horigin hold
        · obtain ⟨-, rfl, -⟩ := SchedulerEvent.enqueued.inj (List.mem_singleton.mp hnew)
          exact hpost.composed
      · exact horigin (hlog ▸ hmem)
    · intro serial mtu₁ start₁ serial' mtu₂ start₂ other hmem hmem'
      change .enqueued serial other mtu₁ start₁ ∈ t.log at hmem
      change .enqueued serial' other mtu₂ start₂ ∈ t.log at hmem'
      rcases hcases with ⟨hlog, hnone⟩ | hlog
      · rw [hlog] at hmem hmem'
        -- of two serials, each is an old one or the one just given out
        rcases List.mem_append.mp hmem with hold | hnew <;>
          rcases List.mem_append.mp hmem' with hold' | hnew'
        · exact honce hold hold'
        · obtain ⟨-, rfl, -⟩ := SchedulerEvent.enqueued.inj (List.mem_singleton.mp hnew')
          exact absurd hold (hnone _ _ _)
        · obtain ⟨-, rfl, -⟩ := SchedulerEvent.enqueued.inj (List.mem_singleton.mp hnew)
          exact absurd hold' (hnone _ _ _)
        · obtain ⟨rfl, -⟩ := SchedulerEvent.enqueued.inj (List.mem_singleton.mp hnew)
          obtain ⟨rfl, -⟩ := SchedulerEvent.enqueued.inj (List.mem_singleton.mp hnew')
          rfl
      · exact honce (hlog ▸ hmem) (hlog ▸ hmem')
  refine hreturns _ (Machine.rescheduled m t _) (h.rescheduled hfiled hsound ?_ ?_) rfl (hfresh _)
  · intro event hevent
    rcases hcases with ⟨hlog, -⟩ | hlog
    · rw [hlog]
      exact List.mem_append_left _ hevent
    · rwa [hlog]
  · exact fun hready entry hentry hqueued hspared =>
      hfresh _ _ (h.fresh hready entry hentry hqueued hspared)

/-! ### The session -/

/-- A committed state in which nothing new is queued. -/
theorem Pumping.adopt (h : Pumping first earned spared m) {v v' : Committed} {legacy : Legacy}
    {runtime : RadioRuntime} {rest : List Fault} {spared' : Option MessageId}
    (hready : m.memory.session.status = .ready) (hshows : Shows m.memory.session v)
    (hkept : legacy.Kept first earned) (hdisk : legacy.disk = v'.disk)
    (hcomposed : legacy.record.composed = m.durable.record.composed)
    (hlog : legacy.record.log = m.durable.record.log)
    (hscheduler : runtime.scheduler = m.memory.runtime.scheduler)
    (hstopped : runtime.stopped = m.memory.runtime.stopped)
    (hqueued : ∀ entry ∈ v'.timeline.entries, entry.isQueued → entry ∈ v.timeline.entries ∧
      (some entry.messageId ≠ spared' → some entry.messageId ≠ spared)) :
    Pumping first earned spared'
      ⟨{ m.memory with session := m.memory.session.adopt v', runtime := runtime },
        legacy, rest⟩ where
  kept := hkept
  agrees _ := ⟨v', hshows.adopt v', hdisk⟩
  log := by
    show legacy.record.log = runtime.scheduler.log
    rw [hlog, hscheduler, h.log]
  filed := by
    show runtime.scheduler.Filed
    rw [hscheduler]
    exact h.filed
  queued _ entry hentry hq := by
    show entry.post ∈ legacy.record.composed
    rw [hcomposed]
    exact h.queued hready entry (hshows.timeline ▸ (hqueued entry hentry hq).1) hq
  running := hstopped.trans h.running
  opened := h.opened
  fresh _ entry hentry hq hspared := by
    obtain ⟨hold, hkeep⟩ := hqueued entry hentry hq
    obtain ⟨horigin, huntold⟩ :=
      h.fresh hready entry (hshows.timeline ▸ hold) hq (hkeep hspared)
    refine ⟨?_, ?_⟩
    · show entry.post ∈ legacy.record.composed
      rwa [hcomposed]
    · show ∀ serial mtu start, .enqueued serial entry.post mtu start ∈ runtime.scheduler.log →
        Untold runtime.scheduler.log serial
      rwa [hscheduler]

/-- Marking ends the time in which a post was spared. -/
theorem wp_mark_pumping {event : OutboundEvent} (h : Pumping first earned spared m)
    (hspared : spared = none ∨ spared = some event.messageId)
    (htells : event.state = .broadcast →
      ∃ serial now, .reported serial event now ∈ m.memory.runtime.scheduler.log)
    {returns : Bool → Machine (Process ε) Legacy → Prop} {crash : Legacy → Prop}
    (hreturns : ∀ result m', Pumping first earned none m' →
      (∀ other, FreshIn m other → FreshIn m' other) → returns result m')
    (hcrash : ∀ legacy : Legacy, legacy.Kept first earned → crash legacy) :
    wp (RadioRuntime.mark event) returns crash m := by
  have hother : ∀ entry : TimelineEntry, entry.messageId ≠ event.messageId →
      some entry.messageId ≠ spared := by
    intro entry hne
    rcases hspared with rfl | rfl
    · simp
    · simpa using hne
  have hkept : ∀ v v' disk, m.memory.session.status = .ready → Shows m.memory.session v →
      m.durable.disk = v.disk → Commit (.delivered event.messageId event.state.delivery) v v' →
      disk = v.disk ∨ disk = v'.disk →
        Legacy.Kept first earned { m.durable with disk := disk } := by
    intro v v' disk hready hshows hdisk hcommit hor
    refine h.kept.delivered hdisk hcommit (fun htarget entry hentry hqueued hid => ?_) hor
    obtain ⟨messageId, state⟩ := event
    obtain rfl : state = .broadcast := by
      cases state with
      | broadcast => rfl
      | failed => cases htarget
    obtain ⟨serial, now, hreported⟩ := htells rfl
    refine ⟨h.queued hready entry (hshows.timeline ▸ hentry) hqueued, serial, now, ?_⟩
    rw [h.log, show entry.post.messageId = messageId from hid]
    exact hreported
  refine wp_mark h.agrees h.opened ?_ ?_ ?_ ?_
  · intro hnone
    refine hreturns false m ⟨h.toBased, h.running, h.opened, ?_⟩ fun _ hfresh => hfresh
    exact fun hready entry hentry hqueued _ =>
      h.fresh hready entry hentry hqueued (hother entry (hnone hready entry hentry hqueued))
  · intro v v' rest hready hshows hdisk hcommit
    refine hreturns true _ ?_ fun other hfresh => ⟨hfresh.composed, hfresh.untold⟩
    refine h.adopt hready hshows ?_ rfl rfl rfl rfl rfl fun entry hentry hqueued => ?_
    · exact (hkept v v' v'.disk hready hshows hdisk hcommit (.inr rfl)).counted _
    · obtain ⟨hold, hne⟩ := hcommit.queued_of_delivered event.state.delivery_ne_queued
        hentry hqueued
      exact ⟨hold, fun _ => hother entry hne⟩
  · intro v v' disk rest hready hshows hdisk hcommit hor
    refine hreturns false _ (h.lost (hkept v v' disk hready hshows hdisk hcommit hor)) ?_
    exact fun other hfresh => ⟨hfresh.composed, hfresh.untold⟩
  · exact fun v v' disk hready hshows hdisk hcommit hor =>
      hcrash _ (hkept v v' disk hready hshows hdisk hcommit hor)

/-! ### A pump -/

theorem wp_enqueueEntries (radio : Radio ε) (now : ℕ) {entries : List TimelineEntry}
    (h : Pumping first earned none m)
    (hentries : ∀ entry ∈ entries, entry.isQueued → FreshIn m entry.post) :
    wp (RadioRuntime.enqueueEntries radio now entries)
      (fun _ m' => Pumping first earned none m') (Legacy.Kept first earned) m := by
  induction entries generalizing m with
  | nil => exact h
  | cons entry rest ih =>
    rw [RadioRuntime.enqueueEntries]
    obtain ⟨hentry, hrest⟩ := List.forall_mem_cons.mp hentries
    by_cases hqueued : entry.isQueued
    swap
    · rw [if_pos (by simpa using hqueued)]
      exact ih h hrest
    rw [if_neg (by simpa using hqueued), wp_bind]
    refine wp_enqueue h radio (hentry hqueued) fun error m' h' _ hfresh => ?_
    have hrest' : ∀ entry ∈ rest, entry.isQueued → FreshIn m' entry.post :=
      fun other hother hq => hfresh _ (hrest other hother hq)
    have hmarked : wp (do
          if ← RadioRuntime.mark ⟨entry.post.messageId, .failed⟩ then pure true
          else RadioRuntime.enqueueEntries radio now rest)
        (fun _ m' => Pumping first earned none m') (Legacy.Kept first earned) m' := by
      rw [wp_bind]
      refine wp_mark_pumping h' (.inl rfl) (fun hstate => by cases hstate)
        (fun result m'' h'' hkeep => ?_)
        (fun _ hkept => hkept)
      cases result with
      | true => exact h''
      | false => exact ih h'' fun other hother hq => hkeep _ (hrest' other hother hq)
    cases error with
    | none => exact ih h' hrest'
    | duplicateMessage => exact ih h' hrest'
    | queueFull => exact ih h' hrest'
    | invalidMtu => exact hmarked
    | invalidPost => exact hmarked
    | randomUnavailable => exact hmarked

/-- What `pumpOutbound` does with the event of the scheduler. -/
def RadioRuntime.markReported : Option OutboundEvent → RuntimeM ε Bool
  | none => pure false
  | some event => mark event

/-- What the scheduler is done with is the post that it reports. -/
theorem wp_pumpOutbound (radio : Radio ε) (now : ℕ) (h : Pumping first earned none m) :
    wp (RadioRuntime.pumpOutbound radio now)
      (fun _ m' => Pumping first earned none m') (Legacy.Kept first earned) m := by
  let t := m.memory.runtime.scheduler.pump radio now m.memory.radio
  let event := (Scheduler.pump radio.recording now m.memory.runtime.scheduler.scheduler
    (m.memory.radio, [])).1.2
  have hfiled : t.Filed := h.filed.pump radio now m.memory.radio
  have hlog : ∀ event ∈ m.memory.runtime.scheduler.log, event ∈ t.log := by
    intro event hevent
    rcases h.filed.pump_cases radio now m.memory.radio with ⟨hsame, -⟩ | ⟨serial, serials, message,
      rest, next, ending, offers, -, -, -, -, -, -, -, -, hlog, -⟩
    · rw [show t = m.memory.runtime.scheduler from hsame]
      exact hevent
    · rw [show t.log = _ from hlog]
      exact List.mem_append_left _ hevent
  have hsound : RunRecord.Sound { m.durable.record with log := t.log } := by
    obtain ⟨-, horigin, honce⟩ := h.kept.sound
    rw [h.log] at horigin honce
    refine ⟨⟨t, hfiled, rfl⟩, ?_, ?_⟩
    · exact fun hmem => horigin ((h.filed.mem_pump_log radio now m.memory.radio).mp hmem)
    · exact fun hmem hmem' => honce ((h.filed.mem_pump_log radio now m.memory.radio).mp hmem)
        ((h.filed.mem_pump_log radio now m.memory.radio).mp hmem')
  have hpumped : ∀ state, Pumping first earned (event.map OutboundEvent.messageId)
      (Machine.rescheduled m t state) := by
    intro state
    refine h.rescheduled hfiled hsound hlog fun hready entry hentry hqueued hspared => ?_
    obtain ⟨horigin, huntold⟩ := h.fresh hready entry hentry hqueued (by simp)
    refine ⟨horigin, fun serial mtu start hmem => ?_⟩
    have hbefore := (h.filed.mem_pump_log radio now m.memory.radio).mp hmem
    refine (h.filed.pump_told radio now m.memory.radio hbefore
      (huntold serial mtu start hbefore)).resolve_right ?_
    rintro ⟨ending, hevent⟩
    refine hspared ?_
    rw [show event = _ from hevent]
    rfl
  rw [RadioRuntime.pumpOutbound, wp_bind]
  show wp (RadioRuntime.markReported event) _ _ (Machine.rescheduled m t _)
  rcases hevent : event with _ | event'
  · have hquiet := hpumped
    rw [hevent] at hquiet
    exact hquiet _
  · have hspared := hpumped
    rw [hevent] at hspared
    refine wp_mark_pumping (hspared _) (.inr rfl) (fun _ => ?_) (fun _ _ h' _ => h')
      (fun _ hkept => hkept)
    obtain ⟨serial, -, -, -, -, -, -, hreported⟩ :=
      h.filed.pump_sent radio now m.memory.radio hevent
    exact ⟨serial, now, hreported⟩

theorem wp_receiveDatagrams (radio : Radio ε) (now work : ℕ) (h : Pumping first earned none m) :
    wp (RadioRuntime.receiveDatagrams radio now work)
      (fun _ m' => Pumping first earned none m') (Legacy.Kept first earned) m := by
  induction work generalizing m with
  | zero => exact h
  | succ work ih =>
    rw [RadioRuntime.receiveDatagrams]
    simp only [wp_bind, wp_memory, Process.setRadio, wp_update]
    split
    · exact h.congr rfl rfl rfl rfl
    · exact ih (h.congr rfl rfl rfl rfl)

/-- A received post is nothing that is queued here. -/
theorem Commit.queued_of_received {v v' : Committed} {post : PostPayload}
    (h : Commit (.received post) v v') {entry : TimelineEntry}
    (hentry : entry ∈ v'.timeline.entries) (hqueued : entry.isQueued) :
    entry ∈ v.timeline.entries := by
  cases h.mem_entries hentry with
  | kept hkept => exact hkept
  | settled _ _ _ _ hcause => rcases hcause with ⟨hcause, -⟩ | hcause <;> cases hcause
  | received _ horigin => simp [TimelineEntry.isQueued, horigin] at hqueued
  | composed hcause => cases hcause

/-- What `acceptCompleted` does with the answer of the session. -/
def RadioRuntime.countCompleted (completed : CompletedPost) (now : ℕ) (status : InboundPostStatus) :
    RuntimeM ε Bool := do
  if status = .accepted ∨ status = .duplicate then
    Process.setRuntime fun runtime =>
      { runtime with inbound := runtime.inbound.markCommitted completed.canonicalFrames now }
  match status with
  | .accepted => do
    Process.count fun metrics => { metrics with completedPosts := metrics.completedPosts + 1 }
    pure true
  | .duplicate => do
    Process.count fun metrics => { metrics with duplicatePosts := metrics.duplicatePosts + 1 }
    pure false
  | _ => do
    Process.count fun metrics => { metrics with rejectedPosts := metrics.rejectedPosts + 1 }
    pure false

theorem wp_acceptCompleted (completed : CompletedPost) (now : ℕ) (h : Pumping first earned none m) :
    wp (RadioRuntime.acceptCompleted completed now)
      (fun _ m' => Pumping first earned none m') (Legacy.Kept first earned) m := by
  have hkept : ∀ post v v' disk, m.durable.disk = v.disk → Commit (.received post) v v' →
      disk = v.disk ∨ disk = v'.disk →
        Legacy.Kept first earned { m.durable with disk := disk } := by
    intro post v v' disk hdisk hcommit hor
    have hreach : Reaches (Cause.commit (.received post) = ·) m.durable.disk disk :=
      hdisk ▸ reaches_commit hcommit rfl hor
    exact h.kept.reaches hreach (by simp) (by simp)
  -- whatever the session says, the rest of the function only counts
  have hcounts : ∀ (status : InboundPostStatus) {m' : Machine (Process ε) Legacy},
      Pumping first earned none m' → wp (RadioRuntime.countCompleted completed now status)
        (fun _ m' => Pumping first earned none m') (Legacy.Kept first earned) m' := by
    intro status m' h'
    cases status with
    | accepted => exact h'.congr rfl rfl rfl rfl
    | duplicate => exact h'.congr rfl rfl rfl rfl
    | _ => exact h'.congr rfl rfl rfl rfl
  unfold RadioRuntime.acceptCompleted
  rw [wp_bind, Process.onSession, wp_within]
  by_cases hready : m.memory.session.status = .ready
  swap
  · unfold Session.acceptReceivedPost
    simp only [wp_bind, wp_memory]
    rw [if_pos (.inl hready)]
    exact hcounts .notReady h
  obtain ⟨v, hshows, hdisk⟩ := h.agrees hready
  refine wp_acceptReceivedPost hshows hdisk ?_ ?_ ?_ ?_ ?_
  · exact fun status _ => hcounts status h
  · intro post v' rest _ hcommit _
    refine hcounts .accepted ?_
    refine h.adopt hready hshows (hkept post v v' v'.disk hdisk hcommit (.inr rfl)) rfl rfl
      rfl rfl rfl ?_
    exact fun entry hentry hqueued => ⟨hcommit.queued_of_received hentry hqueued, id⟩
  · exact fun _ _ _ _ _ _ _ => hcounts .storageUnavailable (h.lost h.kept)
  · exact fun post v' disk rest _ hcommit _ hor =>
      hcounts .storageUnavailable (h.lost (hkept post v v' disk hdisk hcommit hor))
  · exact fun post v' disk _ hcommit _ hor => hkept post v v' disk hdisk hcommit hor

theorem wp_processDatagrams (now work : ℕ) (h : Pumping first earned none m) :
    wp (RadioRuntime.processDatagrams now work)
      (fun _ m' => Pumping first earned none m') (Legacy.Kept first earned) m := by
  induction work generalizing m with
  | zero => exact h
  | succ work ih =>
    rw [RadioRuntime.processDatagrams]
    simp only [wp_bind, wp_memory, Process.setRuntime, wp_update]
    split
    · exact h.congr rfl rfl rfl rfl
    split
    · exact ih (h.congr rfl rfl rfl rfl)
    split
    · exact ih (h.congr rfl rfl rfl rfl)
    · rw [wp_bind]
      refine wp_mono (wp_acceptCompleted _ now (h.congr rfl rfl rfl rfl)) (fun changed m' h' => ?_)
        (fun _ hkept => hkept)
      rw [wp_bind]
      exact wp_mono (ih h') (fun _ _ h'' => h'') (fun _ hkept => hkept)

theorem wp_pump (radio : Radio ε) (now : ℕ) (h : Driven first earned m) :
    wp (RadioRuntime.pump radio now)
      (fun _ m' => Driven first earned m') (Legacy.Kept first earned) m := by
  rw [RadioRuntime.pump, wp_bind, wp_memory]
  split
  · exact h
  rename_i hrunning
  split
  · exact h
  simp only [not_or, Bool.not_eq_true, ne_eq, not_not] at hrunning
  obtain ⟨-, hstopped, hready⟩ := hrunning
  have hpumping := h.running hstopped
  have hdriven : ∀ {m' : Machine (Process ε) Legacy}, Pumping first earned none m' →
      Driven first earned m' := fun h' => ⟨h'.toBased, fun _ => h'⟩
  rw [wp_bind, RadioRuntime.enqueueQueuedPosts, wp_bind, wp_memory]
  refine wp_mono (wp_enqueueEntries radio now hpumping fun entry hentry hqueued =>
    hpumping.fresh hready entry hentry hqueued (by simp)) (fun _ m₁ h₁ => ?_) (fun _ hkept => hkept)
  rw [wp_bind]
  refine wp_mono (wp_pumpOutbound radio now h₁) (fun _ m₂ h₂ => ?_) (fun _ hkept => hkept)
  rw [wp_bind, RadioRuntime.pumpInbound, wp_bind]
  refine wp_mono (wp_receiveDatagrams radio now _ h₂) (fun _ m₃ h₃ => ?_) (fun _ hkept => hkept)
  exact wp_mono (wp_processDatagrams now _ h₃) (fun _ _ h₄ => hdriven h₄) (fun _ hkept => hkept)

/-! ### The other calls -/

theorem wp_stop (radio : Radio ε) (h : Driven first earned m) :
    wp (RadioRuntime.stop radio) (fun _ m' => Driven first earned m' ∧
      m'.memory.runtime.stopped = true) (Legacy.Kept first earned) m := by
  rw [RadioRuntime.stop, wp_bind, wp_memory]
  split
  · rename_i hstopped
    exact ⟨h, hstopped⟩
  have hold : ∀ {serial post mtu start}, SchedulerEvent.enqueued serial post mtu start ∈
      m.memory.runtime.scheduler.cancelAll.log →
        .enqueued serial post mtu start ∈ m.durable.record.log := by
    intro serial post mtu start hmem
    rw [h.log]
    rcases List.mem_append.mp hmem with hmem | hmem
    · exact hmem
    · obtain ⟨number, -, hremoved⟩ := List.mem_map.mp hmem
      cases hremoved
  refine ⟨⟨⟨?_, h.agrees, rfl, h.filed.cancelAll, h.queued⟩, fun hrunning => ?_⟩, rfl⟩
  · exact {
      sound := ⟨⟨_, h.filed.cancelAll, rfl⟩, fun hmem => h.kept.sound.origin (hold hmem),
        fun hmem hmem' => h.kept.sound.once (hold hmem) (hold hmem')⟩
      sorted := h.kept.sorted
      issued := h.kept.issued
      first_le := h.kept.first_le
      broadcast := fun entry hentry horigin => (h.kept.broadcast entry hentry horigin).imp_right
        fun ⟨hcomposed, serial, now, hreported⟩ =>
          ⟨hcomposed, serial, now, List.mem_append_left _ (h.log ▸ hreported)⟩ }
  · cases hrunning

/-- A call of the session that composed some posts. -/
def Machine.called (m : Machine (Process ε) Legacy) (added : List PostPayload)
    (inner : Machine Session Disk) : Machine (Process ε) Legacy where
  memory := { m.memory with session := inner.memory }
  durable :=
    { disk := inner.durable
      record := { m.durable.record with composed := m.durable.record.composed ++ added } }
  faults := inner.faults

/-- A call that composed nothing leaves the timeline alone, or the session is out of
service. -/
theorem Driven.called_nil (h : Driven first earned m) {inner : Machine Session Disk}
    (hkept : Legacy.Kept first earned { m.durable with disk := inner.durable })
    (hagrees : Agrees inner.memory inner.durable)
    (htimeline : inner.memory.status = .ready → m.memory.session.status = .ready ∧
      inner.memory.messenger.timeline = m.memory.session.messenger.timeline)
    (hclosed : inner.memory.closed = m.memory.session.closed) :
    Driven first earned (Machine.called m [] inner) := by
  have hcalled : Machine.called m [] inner = ⟨{ m.memory with session := inner.memory },
      { m.durable with disk := inner.durable }, inner.faults⟩ := by
    rw [Machine.called, List.append_nil]
  have hbased : Based first earned (⟨{ m.memory with session := inner.memory },
      { m.durable with disk := inner.durable }, inner.faults⟩ : Machine (Process ε) Legacy) := by
    refine ⟨hkept, hagrees, h.log, h.filed, fun hready entry hentry => ?_⟩
    obtain ⟨hbefore, hsame⟩ := htimeline hready
    exact h.queued hbefore entry (hsame ▸ hentry)
  rw [hcalled]
  refine ⟨hbased, fun hrunning =>
    ⟨hbased, hrunning, ?_, fun hready entry hentry hqueued hspared => ?_⟩⟩
  · exact hclosed.trans (h.running hrunning).opened
  · obtain ⟨hbefore, hsame⟩ := htimeline hready
    have hfresh := (h.running hrunning).fresh hbefore entry (hsame ▸ hentry) hqueued hspared
    exact ⟨hfresh.composed, hfresh.untold⟩

/-- A post that has just been composed is new to the scheduler. -/
theorem Driven.called_composed (h : Driven first earned m) {v v₁ v₂ : Committed}
    {post : PostPayload}
    {rest : List Fault} (hready : m.memory.session.status = .ready)
    (hshows : Shows m.memory.session v)
    (hdisk : m.durable.disk = v.disk) (hsequence : Commit .sequence v v₁)
    (hcomposed : Commit (.composed post) v₁ v₂) :
    Driven first earned
      (Machine.called m [post] ⟨m.memory.session.adopt v₂, v₂.disk, rest⟩) := by
  have hreach : Reaches (fun cause => cause = .commit .sequence ∨ cause = .commit (.composed post))
      m.durable.disk v₂.disk := by
    rw [hdisk]
    exact (reaches_commit hsequence (.inl rfl) (.inr rfl)).step (.inr rfl) (.commit hcomposed)
  have hkept := h.kept.reaches hreach (by simp) (by simp)
  -- the sequence of the post is above all those given out before
  have hissued : m.durable.disk.watermark < post.senderSequence.toNat ∧
      post.senderSequence.toNat ≤ v₂.disk.watermark := by
    cases hsequence with
    | sequence _ hwatermark _ _ =>
    cases hcomposed with
    | composed hissued hinserts =>
    have hnext := Identity.nextSenderSequence_eq_some hwatermark
    simp only [hdisk, Disk.watermark, Committed.disk, hinserts.settings, hissued]
    exact ⟨by rw [hnext]; exact Nat.lt_succ_self _, le_refl _⟩
  have hnew : post ∉ m.durable.record.composed := by
    intro hmem
    have hle := (h.kept.issued post hmem).2
    omega
  -- Nothing else has been queued by the two commits.
  have hentries : ∀ entry ∈ v₂.timeline.entries, entry.isQueued → entry.post = post ∨
      entry ∈ m.memory.session.messenger.timeline.entries := by
    intro entry hentry hqueued
    cases hcomposed.mem_entries hentry with
    | kept hkept =>
      cases hsequence with
      | sequence _ _ htimeline _ =>
      rw [htimeline, ← hshows.timeline] at hkept
      exact .inr hkept
    | settled _ _ _ _ hcause => rcases hcause with ⟨hcause, -⟩ | hcause <;> cases hcause
    | received hcause => cases hcause
    | composed hcause =>
      cases hcause
      exact .inl rfl
  have hbased : Based first earned
      (Machine.called m [post] ⟨m.memory.session.adopt v₂, v₂.disk, rest⟩) := by
    refine ⟨?_, fun _ => ⟨v₂, hshows.adopt v₂, rfl⟩, h.log, h.filed,
      fun _ entry hentry hqueued => ?_⟩
    · exact {
        sound := ⟨hkept.sound.filed, fun hmem => List.mem_append_left _ (hkept.sound.origin hmem),
          hkept.sound.once⟩
        sorted := by
          refine List.pairwise_append.mpr ⟨h.kept.sorted, List.pairwise_singleton _ _, ?_⟩
          intro earlier hearlier later hlater
          rw [List.mem_singleton.mp hlater]
          exact Nat.lt_of_le_of_lt (h.kept.issued earlier hearlier).2 hissued.1
        issued := by
          intro other hother
          rcases List.mem_append.mp hother with hold | hlast
          · exact hkept.issued other hold
          · rw [List.mem_singleton.mp hlast]
            exact ⟨Nat.lt_of_le_of_lt h.kept.first_le hissued.1, hissued.2⟩
        first_le := hkept.first_le
        broadcast := fun entry hentry horigin => (hkept.broadcast entry hentry horigin).imp_right
          (And.imp_left (List.mem_append_left _)) }
    · rcases hentries entry hentry hqueued with hpost | hold
      · exact List.mem_append_right _ (List.mem_singleton.mpr hpost)
      · exact List.mem_append_left _ (h.queued hready entry hold hqueued)
  refine ⟨hbased, fun hrunning => ⟨hbased, hrunning, (h.running hrunning).opened, ?_⟩⟩
  intro _ entry hentry hqueued hspared
  refine ⟨hbased.queued hready entry hentry hqueued, fun serial mtu start hmem => ?_⟩
  rcases hentries entry hentry hqueued with hpost | hold
  · -- it cannot have been enqueued before it was composed
    rw [hpost] at hmem
    exact absurd (h.kept.sound.origin (h.log ▸ hmem)) hnew
  · exact ((h.running hrunning).fresh hready entry hold hqueued hspared).untold serial
      mtu start hmem

/-- The posts that a call may compose. -/
def UserCall.Composes (c : UserCall) (added : List PostPayload) : Prop :=
  added = [] ∨ ∃ draft random now post, c = .compose draft random now ∧
    MessageId.generate random = .ok post.messageId ∧ added = [post]

theorem composedPosts_of_none {draft : PostDraft} {random : Option (Vector UInt8 16)}
    {now : Option Int64} {result : CommandResult} (h : result.messageId = none)
    (session : Session) :
    composedPosts (.compose draft random now) (.command result) session = [] := by
  obtain ⟨error, textError, postError, messageId, evicted⟩ := result
  subst h
  cases error <;> rfl

/-- The post of a successful call. -/
theorem composedPosts_of_composed {v v' : Committed} {post : PostPayload}
    (hcomposed : Commit (.composed post) v v') (draft : PostDraft)
    (random : Option (Vector UInt8 16))
    (now : Option Int64) (evicted : Option MessageId) (session : Session) :
    composedPosts (.compose draft random now)
      (.command { messageId := some post.messageId, evictedMessageId := evicted })
      (session.adopt v') = [post] := by
  cases hcomposed with
  | composed _ hinserts =>
  obtain ⟨entry, hfind, hpost⟩ := hinserts.find
  simp [composedPosts, Session.adopt, hfind, hpost]

/-- A call that only changes the settings. -/
def UserCall.Settles (c : UserCall) : Prop := ∀ draft random now, c ≠ .compose draft random now

theorem UserCall.Settles.composedPosts {c : UserCall} (hc : c.Settles) (reply : Reply)
    (session : Session) : composedPosts c reply session = [] := by
  cases c with
  | compose draft random now => exact absurd rfl (hc draft random now)
  | renameUser | setLocale | setSkipTitle => rfl

theorem UserCall.Settles.frames {c : UserCall} (hc : c.Settles) :
    Session.Frames (Session.call c.call) := by
  cases c with
  | compose draft random now => exact absurd rfl (hc draft random now)
  | renameUser userId => exact .bind (Session.frames_renameUser userId) fun _ => .pure _
  | setLocale locale => exact .bind (Session.frames_setPreference _ _) fun _ => .pure _
  | setSkipTitle skipTitle => exact .bind (Session.frames_setPreference _ _) fun _ => .pure _

/-- Out of service, nothing is composed. -/
theorem wp_user_idle (c : UserCall) {inner : Machine Session Disk} (hidle : inner.memory.Idle) :
    wp (Session.call c.call)
      (fun reply _ => ∀ session, composedPosts c reply session = []) (fun _ => True) inner := by
  by_cases hc : c.Settles
  · exact wp_true fun reply _ => hc.composedPosts reply
  · simp only [UserCall.Settles, not_forall, not_not] at hc
    obtain ⟨draft, random, now, rfl⟩ := hc
    rw [UserCall.call, Session.call, wp_bind]
    exact wp_mono (wp_compose_idle hidle draft random now) (fun _ _ => composedPosts_of_none)
      (fun _ h => h)

theorem Driven.wp_call (h : Driven first earned m) (c : UserCall) :
    wp (Session.call c.call) (fun reply inner =>
        inner.memory.closed = m.memory.session.closed →
        c.Composes (composedPosts c reply inner.memory) ∧
          Driven first earned (Machine.called m (composedPosts c reply inner.memory) inner))
      (fun disk => Legacy.Kept first earned { m.durable with disk := disk })
      ⟨m.memory.session, m.durable.disk, m.faults⟩ := by
  have hdelete : c.call ≠ .deleteAll := by
    cases c with
    | compose | renameUser | setLocale | setSkipTitle => simp [UserCall.call]
  -- Out of service nothing is composed and the disk stays.
  by_cases hready : m.memory.session.status = .ready
  swap
  · refine wp_mono (wp_and (call_idle (.inl hready) hdelete) (wp_user_idle c (.inl hready)))
      (fun reply inner hinner hclosed => ?_) (fun _ hfalse => hfalse.1.elim)
    obtain ⟨⟨hdurable, hstatus, -⟩, hnone⟩ := hinner
    have hout : inner.memory.status ≠ .ready := fun hin => hready (hstatus ▸ hin)
    rw [hnone]
    refine ⟨.inl rfl, h.called_nil ?_ (fun hin => absurd hin hout)
      (fun hin => absurd hin hout) hclosed⟩
    rw [hdurable]
    exact h.kept
  obtain ⟨v, hshows, hdisk⟩ := h.agrees hready
  -- A call other than `compose` adds no post to the timeline.
  by_cases hc : c.Settles
  · have hkept : ∀ disk, Reaches c.call.causes m.durable.disk disk →
        Legacy.Kept first earned { m.durable with disk := disk } := by
      intro disk hreach
      cases c with
      | compose draft random now => exact absurd rfl (hc draft random now)
      | renameUser | setLocale | setSkipTitle =>
        exact h.kept.reaches hreach (by simp [UserCall.call, SessionCall.causes])
          (by simp [UserCall.call, SessionCall.causes])
    refine wp_mono (wp_and (Lora.wp_call
      (m := ⟨m.memory.session, m.durable.disk, m.faults⟩) h.agrees
      c.call) (hc.frames _)) (fun reply inner hinner hclosed => ?_)
        (fun disk hreach => hkept disk hreach.1)
    obtain ⟨⟨hreach, hagrees⟩, hframe⟩ := hinner
    rw [hc.composedPosts]
    exact ⟨.inl rfl, h.called_nil (hkept _ hreach) hagrees
      (fun _ => ⟨hready, congrArg Prod.snd hframe⟩) hclosed⟩
  simp only [UserCall.Settles, not_forall, not_not] at hc
  obtain ⟨draft, random, now, rfl⟩ := hc
  have hkept : ∀ post disk, Reaches (fun cause => cause = .commit .sequence ∨
      cause = .commit (.composed post)) v.disk disk →
      Legacy.Kept first earned { m.durable with disk := disk } :=
    fun post disk hreach => h.kept.reaches (hdisk ▸ hreach) (by simp) (by simp)
  have hkept₁ : ∀ v₁, Commit .sequence v v₁ →
      Legacy.Kept first earned { m.durable with disk := v₁.disk } := by
    intro v₁ hcommit
    have hreach : Reaches (Cause.commit .sequence = ·) m.durable.disk v₁.disk :=
      hdisk ▸ reaches_commit hcommit rfl (.inr rfl)
    exact h.kept.reaches hreach (by simp) (by simp)
  -- All answers of `compose` but the last carry no id.
  have hnothing : ∀ {result : CommandResult} {inner : Machine Session Disk},
    result.messageId = none →
      Driven first earned (Machine.called m [] inner) →
      (UserCall.compose draft random now).Composes
          (composedPosts (.compose draft random now) (.command result) inner.memory) ∧
        Driven first earned (Machine.called m
          (composedPosts (.compose draft random now) (.command result) inner.memory) inner) := by
    intro result inner hnone hdriven
    rw [composedPosts_of_none hnone]
    exact ⟨.inl rfl, hdriven⟩
  rw [UserCall.call, Session.call, wp_bind]
  refine wp_compose hshows hdisk ?_ ?_ ?_ ?_ ?_ ?_ ?_
  · exact fun result hstage hclosed => hnothing (stage_error hstage)
      (h.called_nil h.kept h.agrees (fun _ => ⟨hready, rfl⟩) hclosed)
  · exact fun rest _ hclosed => hnothing rfl
      (h.called_nil h.kept h.agrees (fun _ => ⟨hready, rfl⟩) hclosed)
  · intro post v₁ rest _ hcommit _ hclosed
    refine hnothing rfl (h.called_nil (hkept₁ v₁ hcommit) (fun _ => ⟨v₁, hshows.adopt v₁, rfl⟩)
      (fun _ => ⟨hready, ?_⟩) hclosed)
    cases hcommit with
    | sequence _ _ htimeline _ => exact htimeline.trans hshows.timeline.symm
  · intro post ids v₁ rest _ hcommit _ _ _ hclosed
    exact hnothing rfl (h.called_nil (hkept₁ v₁ hcommit) agrees_recovery
      (fun hin => by cases hin) hclosed)
  · intro post session disk rest _ _ hreach hclosed
    exact hnothing rfl (h.called_nil (hkept post disk hreach) agrees_recovery
      (fun hin => by cases hin)
      hclosed)
  · intro post evicted v₁ v₂ rest hgenerate hcommit₁ hcommit₂ _ _
    rw [composedPosts_of_composed hcommit₂]
    exact ⟨.inr ⟨draft, random, now, post, rfl, hgenerate, rfl⟩,
      h.called_composed hready hshows hdisk hcommit₁ hcommit₂⟩
  · exact fun post disk _ _ hreach => hkept post disk hreach

theorem wp_user (c : UserCall) (h : Driven first earned m) :
    wp (Process.user c) (fun _ m' => Driven first earned m' ∧ ∃ added, c.Composes added ∧
        m'.durable.record.composed = m.durable.record.composed ++ added)
      (fun legacy => legacy.Kept first earned ∧
        legacy.record.composed = m.durable.record.composed) m := by
  rw [Process.user, wp_bind, Process.onSession, wp_within]
  refine wp_mono (wp_and (h.wp_call c) (Session.opens_user c _)) (fun reply inner hinner => ?_)
    (fun disk hdisk => ⟨hdisk.1, rfl⟩)
  obtain ⟨hcomposes, hdriven⟩ := hinner.1 hinner.2
  exact ⟨hdriven, _, hcomposes, rfl⟩

/-- The runtime is stopped when the session is shut down. -/
theorem wp_shutdown (radio : Radio ε) (h : Driven first earned m) :
    wp (Process.shutdown radio) (fun _ m' => Driven first earned m')
      (Legacy.Kept first earned) m := by
  rw [Process.shutdown, wp_bind]
  refine wp_mono (wp_stop radio h) (fun _ m' hstopped => ?_) (fun _ hkept => hkept)
  obtain ⟨h', hstopped⟩ := hstopped
  rw [Process.onSession, wp_within, Session.shutdown, wp_update]
  by_cases hclosed : m'.memory.session.closed
  · rw [if_pos hclosed]
    exact h'
  rw [if_neg hclosed]
  refine ⟨⟨h'.kept, fun hready => ?_, h'.log, h'.filed, h'.queued⟩, fun hrunning => ?_⟩
  · obtain ⟨v, hshows, hdisk⟩ := h'.agrees hready
    exact ⟨v, ⟨.inl rfl, hshows.settings, hshows.identity, hshows.timeline, hshows.dedupe⟩, hdisk⟩
  · rw [show m'.memory.runtime.stopped = false from hrunning] at hstopped
    cases hstopped

/-- The radio and the faults do not matter. -/
theorem Driven.congr (h : Driven first earned m) (state : ε) (faults : List Fault) :
    Driven first earned ⟨{ m.memory with radio := state }, m.durable, faults⟩ :=
  ⟨⟨h.kept, h.agrees, h.log, h.filed, h.queued⟩, fun hrunning =>
    (h.running hrunning).congr rfl rfl rfl rfl⟩

end Pumping

/-! ### The posts of a run -/

/-- The program composes nothing. -/
abbrev ComposesNothing {α : Type} (program : RuntimeM ε α) : Prop :=
  Spares (fun legacy => legacy.record.composed) program

namespace ComposesNothing

open Process RadioRuntime

theorem onSession {α : Type} (program : SessionM α) :
    ComposesNothing (Process.onSession program : RuntimeM ε α) := .within fun _ _ => rfl

theorem count (change : RadioRuntimeMetrics → RadioRuntimeMetrics) :
    ComposesNothing (Process.count change : RuntimeM ε Unit) := by
  unfold Process.count Process.setRuntime
  exact .update _

theorem setScheduler (t : Tracked) : ComposesNothing (Process.setScheduler t : RuntimeM ε Unit) :=
  .bind (.update _) fun _ => .note fun _ => rfl

theorem mark (event : OutboundEvent) :
    ComposesNothing (RadioRuntime.mark event : RuntimeM ε Bool) := by
  refine .bind (onSession _) fun result => ?_
  split
  · exact .bind (count _) fun _ => .bind (.note fun _ => rfl) fun _ => .pure _
  · exact .pure _

variable (radio : Radio ε) (now : ℕ)

theorem enqueue (post : PostPayload) : ComposesNothing (RadioRuntime.enqueue radio post now) :=
  .bind .memory fun _ => .bind (setScheduler _) fun _ => .bind (.update _) fun _ => .pure _

theorem enqueueEntries (entries : List TimelineEntry) :
    ComposesNothing (RadioRuntime.enqueueEntries radio now entries) := by
  induction entries with
  | nil => exact .pure _
  | cons entry rest ih =>
    rw [RadioRuntime.enqueueEntries]
    split
    · exact ih
    have hmark : ComposesNothing (do
        if ← RadioRuntime.mark ⟨entry.post.messageId, .failed⟩ then pure true
        else RadioRuntime.enqueueEntries radio now rest) := by
      refine .bind (mark _) fun marked => ?_
      split
      · exact .pure _
      · exact ih
    refine .bind (enqueue radio now _) fun error => ?_
    cases error with
    | none | duplicateMessage | queueFull => exact ih
    | invalidMtu | invalidPost | randomUnavailable => exact hmark

theorem pumpOutbound : ComposesNothing (RadioRuntime.pumpOutbound radio now) := by
  refine .bind (.bind .memory fun _ => .bind (setScheduler _) fun _ => .bind (.update _) fun _ =>
    .pure _) fun event => ?_
  split
  · exact .pure _
  · exact mark _

theorem receiveDatagrams (work : ℕ) :
    ComposesNothing (RadioRuntime.receiveDatagrams radio now work) := by
  induction work with
  | zero => exact .pure _
  | succ work ih =>
    refine .bind .memory fun _ => .bind (.update _) fun _ => ?_
    split
    · exact .pure _
    · exact .bind (.update _) fun _ => .bind (count _) fun _ => ih

theorem acceptCompleted (completed : CompletedPost) :
    ComposesNothing (RadioRuntime.acceptCompleted completed now : RuntimeM ε Bool) := by
  refine .bind (onSession _) fun status => ?_
  cases status with
  | accepted | duplicate => exact .bind (.update _) fun _ => .bind (count _) fun _ => .pure _
  | _ => exact .bind (count _) fun _ => .pure _

theorem processDatagrams (work : ℕ) :
    ComposesNothing (RadioRuntime.processDatagrams now work : RuntimeM ε Bool) := by
  induction work with
  | zero => exact .pure _
  | succ work ih =>
    refine .bind .memory fun process => ?_
    rcases process.runtime.inbound.processNext now with ⟨inbound, processed⟩
    refine .bind (.update _) fun _ => ?_
    split
    · exact .pure _
    split
    · exact ih
    split
    · exact ih
    · exact .bind (acceptCompleted now _) fun _ => .bind ih fun _ => .pure _

theorem pump : ComposesNothing (RadioRuntime.pump radio now) := by
  refine .bind .memory fun process => ?_
  split
  · exact .pure _
  split
  · exact .pure _
  exact .bind (.bind .memory fun _ => enqueueEntries radio now _) fun _ =>
    .bind (pumpOutbound radio now) fun _ =>
      .bind (.bind (receiveDatagrams radio now _) fun _ => processDatagrams now _) fun _ => .pure _

theorem stop : ComposesNothing (RadioRuntime.stop radio) := by
  refine .bind .memory fun process => ?_
  split
  · exact .pure _
  · exact .bind (setScheduler _) fun _ => .bind (.update _) fun _ => .update _

theorem shutdown : ComposesNothing (Process.shutdown radio) :=
  .bind (stop radio) fun _ => onSession _

end ComposesNothing

end Lora
