/-
The outcomes that the runtime counts.

A post waits in the timeline from the call that composes it until the runtime marks it,
and the runtime counts what it marks.  So the posts that were composed are those that
were counted and those that still wait.

The balance needs one more thing, which the code does not see to: a post that is marked
must not be in the hands of the scheduler.  When the transport is closed and has no
datagram size any more, the runtime marks the first post that waits, even if the
scheduler is sending it and will report it again.

* `Accounted` — the balance;
* `wp_pump_accounted` — a pump keeps it if the first post that waits is clear;
* `outcomes_counted_once` — in runs of clear pumps each post is counted once;
* `outcome_counted_twice` — and what happens otherwise.
-/
import LoraMessenger.RadioLifetimes

namespace Lora

open Crash

variable {ε : Type}

/-! ### Posts that wait -/

/-- The posts that wait in a timeline. -/
def Timeline.queuedPosts (timeline : Timeline) : List PostPayload :=
  (timeline.entries.filter TimelineEntry.isQueued).map TimelineEntry.post

namespace Timeline

variable {timeline : Timeline}

theorem mem_queuedPosts {post : PostPayload} : post ∈ timeline.queuedPosts ↔
    ∃ entry ∈ timeline.entries, entry.isQueued ∧ entry.post = post := by
  simp [queuedPosts, and_assoc]

theorem queuedPosts_of_quiet (h : ∀ entry ∈ timeline.entries, entry.isQueued = false) :
    timeline.queuedPosts = [] := by
  rw [queuedPosts, List.filter_eq_nil_iff.mpr, List.map_nil]
  exact fun entry hentry => by simp [h entry hentry]

/-- What has to go for an insertion does not wait. -/
theorem filter_evict (protectedMessageId : Option MessageId) :
    (timeline.evict protectedMessageId).filter TimelineEntry.isQueued =
      timeline.entries.filter TimelineEntry.isQueued := by
  have herase : ∀ entries : List TimelineEntry,
      (entries.eraseP (mayGo protectedMessageId)).filter TimelineEntry.isQueued =
        entries.filter TimelineEntry.isQueued := by
    intro entries
    induction entries with
    | nil => rfl
    | cons entry rest ih =>
      by_cases hgoes : mayGo protectedMessageId entry
      · have hquiet : entry.isQueued = false := by
          simp only [mayGo, Bool.and_eq_true, Bool.not_eq_true'] at hgoes
          exact hgoes.2
        rw [List.eraseP_cons_of_pos hgoes, List.filter_cons_of_neg (by simp [hquiet])]
      · rw [List.eraseP_cons_of_neg hgoes, List.filter_cons, List.filter_cons, ih]
  rw [evict_eq, Stamped.makeRoom]
  split
  · exact herase _
  · rfl

/-- A post that is marked no longer waits, and the others do. -/
theorem queuedPosts_withState {entry : TimelineEntry} (hentry : entry ∈ timeline.entries)
    (hqueued : entry.isQueued) {target : LocalDeliveryState} (htarget : target ≠ .queued) :
    timeline.queuedPosts.Perm
      (entry.post :: (timeline.withState entry.messageId target htarget).queuedPosts) := by
  obtain ⟨before, after, hsplit⟩ := List.append_of_mem hentry
  have hunique := timeline.stamped.distinct
  rw [hsplit, List.map_append, List.map_cons, List.nodup_middle, List.nodup_cons,
    ← List.map_append] at hunique
  -- all entries but one stay as they are
  have hsame : ∀ part : List TimelineEntry, (∀ other ∈ part, other ∈ before ++ after) →
      setState part entry.messageId target = part := by
    intro part hpart
    rw [setState]
    refine (List.map_congr_left fun other hother => ?_).trans (List.map_id part)
    exact if_neg fun hid => hunique.1 (List.mem_map.mpr ⟨other, hpart other hother, hid⟩)
  have hmarked : setState (before ++ entry :: after) entry.messageId target =
      before ++ { entry with origin := .localDelivery target } :: after := by
    have hbefore := hsame before fun other hother => List.mem_append_left _ hother
    have hafter := hsame after fun other hother => List.mem_append_right _ hother
    rw [setState] at hbefore hafter ⊢
    rw [List.map_append, List.map_cons, if_pos rfl, hbefore, hafter]
  have hquiet : ({ entry with origin := .localDelivery target } :
      TimelineEntry).isQueued = false := by
    simpa [TimelineEntry.isQueued] using htarget
  simp only [queuedPosts, withState, hsplit, hmarked, List.filter_append, List.map_append]
  rw [List.filter_cons_of_pos hqueued, List.filter_cons_of_neg (by simp [hquiet])]
  exact List.perm_middle

end Timeline

section Commit

variable {v v' : Committed} {post : PostPayload}

theorem Inserts.queuedPosts {origin : EntryOrigin} {protectedMessageId : Option MessageId}
    (h : Inserts v v' post (v.timeline.insert post origin protectedMessageId)) :
    v'.timeline.queuedPosts = v.timeline.queuedPosts ++
      if origin = .localDelivery .queued then [post] else [] := by
  obtain ⟨inserted, hinsert, htimeline⟩ := h.timeline
  obtain ⟨_, _, _, rfl⟩ := Timeline.insert_eq_ok.mp hinsert
  rw [htimeline]
  simp only [Timeline.queuedPosts, Timeline.push, List.filter_append, List.map_append,
    Timeline.filter_evict]
  split
  · rename_i horigin
    rw [List.filter_cons_of_pos (by simp [TimelineEntry.isQueued, horigin])]
    rfl
  · rename_i horigin
    rw [List.filter_cons_of_neg (by simp [TimelineEntry.isQueued, horigin])]
    rfl

/-- A received post waits for nothing. -/
theorem Commit.queuedPosts_received (h : Commit (.received post) v v') :
    v'.timeline.queuedPosts = v.timeline.queuedPosts ∧
      v.timeline.lastAssignedOrder < v'.timeline.lastAssignedOrder := by
  cases h with
  | received hinserts =>
    refine ⟨?_, ?_⟩
    · rw [hinserts.queuedPosts, if_neg (by simp), List.append_nil]
    · rw [hinserts.orders.1]
      exact Nat.lt_succ_self _

theorem Commit.queuedPosts_composed {v₁ v₂ : Committed} (hsequence : Commit .sequence v v₁)
    (hcomposed : Commit (.composed post) v₁ v₂) :
    v₂.timeline.queuedPosts = v.timeline.queuedPosts ++ [post] := by
  cases hsequence with
  | sequence _ _ htimeline _ =>
  cases hcomposed with
  | composed _ hinserts =>
  rw [hinserts.queuedPosts, if_pos rfl, htimeline]

/-- A post that waits is marked. -/
theorem Commit.queuedPosts_delivered {messageId : MessageId} {target : LocalDeliveryState}
    (h : Commit (.delivered messageId target) v v') (htarget : target ≠ .queued)
    {entry : TimelineEntry}
    (hentry : entry ∈ v.timeline.entries) (hqueued : entry.isQueued)
    (hid : entry.messageId = messageId) :
    v.timeline.queuedPosts.Perm (entry.post :: v'.timeline.queuedPosts) ∧
      v'.timeline.lastAssignedOrder = v.timeline.lastAssignedOrder := by
  subst hid
  cases h with
  | delivered _ _ htimeline =>
    rw [Timeline.transition_queued hentry hqueued htarget, Except.ok.injEq] at htimeline
    rw [← htimeline]
    exact ⟨Timeline.queuedPosts_withState hentry hqueued htarget, rfl⟩

end Commit

/-! ### Changes of the timeline -/

/-- During a pump, entries get new orders and posts cease to wait; if the pump says so,
something of this has happened. -/
structure Advances (changed : Bool) (before after : Timeline) : Prop where
  order : before.lastAssignedOrder ≤ after.lastAssignedOrder
  queued : after.queuedPosts.length ≤ before.queuedPosts.length
  changed : changed = true → before.lastAssignedOrder < after.lastAssignedOrder ∨
    after.queuedPosts.length < before.queuedPosts.length

namespace Advances

variable {changed later : Bool} {before middle after : Timeline}

theorem refl (timeline : Timeline) : Advances false timeline timeline :=
  ⟨le_refl _, le_refl _, nofun⟩

theorem trans (h : Advances changed before middle) (hlater : Advances later middle after) :
    Advances (changed || later) before after where
  order := le_trans h.order hlater.order
  queued := le_trans hlater.queued h.queued
  changed hchanged := by
    have horder := h.order
    have hqueued := h.queued
    have horder' := hlater.order
    have hqueued' := hlater.queued
    rcases (Bool.or_eq_true _ _).mp hchanged with hfirst | hsecond
    · have hmoved := h.changed hfirst
      omega
    · have hmoved := hlater.changed hsecond
      omega

theorem ne (h : Advances true before after) : after ≠ before := by
  rintro rfl
  rcases h.changed rfl with hlt | hlt
  · exact Nat.lt_irrefl _ hlt
  · exact Nat.lt_irrefl _ hlt

end Advances

/-! ### The balance -/

abbrev Process.timeline (process : Process ε) : Timeline := process.session.messenger.timeline

/-- The outcomes are counted by their states, each post that was composed was counted or
waits, and what the scheduler has not reported waits. -/
structure Accounted (m : Machine (Process ε) Legacy) : Prop where
  broadcast : m.memory.runtime.metrics.broadcastPosts =
    m.durable.record.outcomes.countP (·.state = .broadcast)
  failed : m.memory.runtime.metrics.failedPosts =
    m.durable.record.outcomes.countP (·.state = .failed)
  balance : ∃ settled : List PostPayload,
    settled.map PostPayload.messageId = m.durable.record.outcomes.map OutboundEvent.messageId ∧
    m.durable.record.composed.Perm (settled ++ m.memory.timeline.queuedPosts)
  sending : m.memory.session.status = .ready → ∀ serial post mtu start,
    .enqueued serial post mtu start ∈ m.memory.runtime.scheduler.log →
    Untold m.memory.runtime.scheduler.log serial → post ∈ m.memory.timeline.queuedPosts

section Accounted

variable {first : ℕ} {earned : PostPayload → Prop} {spared : Option MessageId}
  {m : Machine (Process ε) Legacy}

/-- What is received and the other metrics do not matter. -/
theorem Accounted.congr (h : Accounted m) {m' : Machine (Process ε) Legacy}
    (hrecord : m'.durable.record = m.durable.record)
    (htimeline : m'.memory.timeline = m.memory.timeline)
    (hstatus : m'.memory.session.status = .ready → m.memory.session.status = .ready)
    (hscheduler : m'.memory.runtime.scheduler = m.memory.runtime.scheduler)
    (hbroadcast : m'.memory.runtime.metrics.broadcastPosts =
      m.memory.runtime.metrics.broadcastPosts)
    (hfailed : m'.memory.runtime.metrics.failedPosts = m.memory.runtime.metrics.failedPosts) :
    Accounted m' where
  broadcast := by rw [hbroadcast, hrecord, h.broadcast]
  failed := by rw [hfailed, hrecord, h.failed]
  balance := by
    rw [hrecord, htimeline]
    exact h.balance
  sending hready := by
    rw [hscheduler, htimeline]
    exact h.sending (hstatus hready)

/-- One more outcome. -/
theorem Accounted.marked (h : Accounted m) {event : OutboundEvent} {v v' : Committed}
    {rest : List Fault}
    (hready : m.memory.session.status = .ready) (hshows : Shows m.memory.session v)
    (hcommit : Commit (.delivered event.messageId event.state.delivery) v v')
    {entry : TimelineEntry}
    (hentry : entry ∈ v.timeline.entries) (hqueued : entry.isQueued)
    (hid : entry.messageId = event.messageId)
    (hfree : ¬SentUnder m.memory.runtime.scheduler.log event.messageId) :
    Accounted ⟨m.memory.marked v' event, m.durable.marked v' event, rest⟩ := by
  obtain ⟨hleaves, -⟩ :=
    hcommit.queuedPosts_delivered event.state.delivery_ne_queued hentry hqueued hid
  have htimeline : m.memory.timeline = v.timeline := hshows.timeline
  refine ⟨?_, ?_, ?_, fun _ serial post mtu start hpost huntold => ?_⟩
  · show (RadioRuntime.countOutcome event.state m.memory.runtime.metrics).broadcastPosts =
      (m.durable.record.outcomes ++ [event]).countP (·.state = .broadcast)
    rw [List.countP_append, ← h.broadcast]
    cases hstate : event.state with
    | broadcast => simp [RadioRuntime.countOutcome, hstate]
    | failed => simp [RadioRuntime.countOutcome, hstate]
  · show (RadioRuntime.countOutcome event.state m.memory.runtime.metrics).failedPosts =
      (m.durable.record.outcomes ++ [event]).countP (·.state = .failed)
    rw [List.countP_append, ← h.failed]
    cases hstate : event.state with
    | broadcast => simp [RadioRuntime.countOutcome, hstate]
    | failed => simp [RadioRuntime.countOutcome, hstate]
  · obtain ⟨settled, hids, hperm⟩ := h.balance
    refine ⟨settled ++ [entry.post], ?_, ?_⟩
    · show (settled ++ [entry.post]).map PostPayload.messageId =
        (m.durable.record.outcomes ++ [event]).map OutboundEvent.messageId
      rw [List.map_append, List.map_append, hids]
      exact congrArg (_ ++ [·]) hid
    · show m.durable.record.composed.Perm (settled ++ [entry.post] ++ v'.timeline.queuedPosts)
      rw [htimeline] at hperm
      rw [List.append_assoc]
      exact hperm.trans (hleaves.append_left settled)
  · -- a post that the scheduler is sending is another one
    have hwaits := h.sending hready serial post mtu start hpost huntold
    rw [htimeline] at hwaits
    rcases List.mem_cons.mp (hleaves.subset hwaits) with rfl | hstill
    · exact absurd ⟨serial, entry.post, mtu, start, hpost, huntold, hid⟩ hfree
    · exact hstill

/-- A post that waits, and that the scheduler is not sending, is marked and counted; or the
session is out of service. -/
theorem wp_mark_accounted {event : OutboundEvent} (h : Accounted m)
    (hagrees : Agrees m.memory.session m.durable.disk) (hopen : m.memory.session.closed = false)
    (hwaits : m.memory.session.status = .ready →
      ∃ entry ∈ m.memory.timeline.entries, entry.isQueued ∧ entry.messageId = event.messageId)
    (hfree : m.memory.session.status = .ready →
      ¬SentUnder m.memory.runtime.scheduler.log event.messageId) :
    wp (RadioRuntime.mark event) (fun result m' => Accounted m' ∧
        Advances result m.memory.timeline m'.memory.timeline ∧
        (result = false → m'.memory.session.status ≠ .ready))
      (fun _ => True) m := by
  refine wp_mark hagrees hopen ?_ ?_ ?_ (fun _ _ _ _ _ _ _ _ => trivial)
  · intro hnone
    refine ⟨h, .refl _, fun _ hready => ?_⟩
    obtain ⟨entry, hentry, hqueued, hid⟩ := hwaits hready
    exact hnone hready entry hentry hqueued hid
  · intro v v' rest hready hshows _ hcommit
    have htimeline : m.memory.timeline = v.timeline := hshows.timeline
    obtain ⟨entry, hentry, hqueued, hid⟩ := hwaits hready
    rw [htimeline] at hentry
    obtain ⟨hleaves, horder⟩ :=
      hcommit.queuedPosts_delivered event.state.delivery_ne_queued hentry hqueued hid
    have hlength := hleaves.length_eq
    rw [List.length_cons] at hlength
    refine ⟨h.marked hready hshows hcommit hentry hqueued hid (hfree hready), ?_, nofun⟩
    show Advances true m.memory.timeline v'.timeline
    rw [htimeline]
    exact ⟨by omega, by omega, fun _ => .inr (by omega)⟩
  · intro v v' disk rest _ _ _ _ _
    exact ⟨h.congr rfl rfl (fun hready => by cases hready) rfl rfl rfl, .refl _, fun _ hready =>
      by cases hready⟩

/-! ### The scheduler -/

/-- A record in which nothing new is being sent. -/
theorem Accounted.rescheduled (h : Accounted m) {t : Tracked} {state : ε}
    (hsending : m.memory.session.status = .ready → ∀ serial post mtu start,
      .enqueued serial post mtu start ∈ t.log → Untold t.log serial →
      post ∈ m.memory.timeline.queuedPosts) :
    Accounted (Machine.rescheduled m t state) :=
  ⟨h.broadcast, h.failed, h.balance, hsending⟩

/-- A post that waits is handed to the scheduler. -/
theorem Accounted.enqueued (h : Accounted m) (radio : Radio ε) {post : PostPayload} {mtu now : ℕ}
    (hwaits : m.memory.session.status = .ready → post ∈ m.memory.timeline.queuedPosts) (state : ε) :
    Accounted (Machine.rescheduled m
      (m.memory.runtime.scheduler.enqueue radio post mtu now m.memory.radio) state) := by
  refine h.rescheduled fun hready serial other mtu' start hother huntold => ?_
  rcases Tracked.enqueue_cases (t := m.memory.runtime.scheduler) radio post mtu now
      m.memory.radio with
    ⟨-, hlog, -⟩ | ⟨-, hsame⟩
  · rw [hlog] at hother huntold
    rcases List.mem_append.mp hother with hold | hnew
    · exact h.sending hready serial other mtu' start hold huntold.of_append
    · obtain ⟨-, rfl, -⟩ := SchedulerEvent.enqueued.inj (List.mem_singleton.mp hnew)
      exact hwaits hready
  · rw [hsame] at hother huntold
    exact h.sending hready serial other mtu' start hother huntold

/-- A pump of the scheduler sends nothing new. -/
theorem Accounted.pumped (h : Accounted m) (hfiled : m.memory.runtime.scheduler.Filed)
    (radio : Radio ε)
    (now : ℕ) (state : ε) :
    Accounted (Machine.rescheduled m (m.memory.runtime.scheduler.pump radio now m.memory.radio)
      state) := by
  refine h.rescheduled fun hready serial post mtu start hpost huntold => ?_
  have hbefore := (hfiled.mem_pump_log radio now m.memory.radio).mp hpost
  refine h.sending hready serial post mtu start hbefore ?_
  rcases hfiled.pump_cases radio now m.memory.radio with
    ⟨hsame, -⟩ | ⟨_, _, _, _, _, _, _, -, -, -, -, -,
    -, -, -, hlog, -⟩
  · rwa [hsame] at huntold
  · rw [hlog] at huntold
    exact huntold.of_append

theorem Timeline.eq_of_messageId {timeline : Timeline} {post other : PostPayload}
    (hpost : post ∈ timeline.queuedPosts) (hother : other ∈ timeline.queuedPosts)
    (hid : post.messageId = other.messageId) : post = other := by
  obtain ⟨entry, hentry, -, rfl⟩ := mem_queuedPosts.mp hpost
  obtain ⟨entry', hentry', -, rfl⟩ := mem_queuedPosts.mp hother
  have hfind := find_of_mem hentry
  rw [show entry.messageId = entry'.messageId from hid, find_of_mem hentry',
    Option.some.injEq] at hfind
  rw [hfind]

/-- The post that the scheduler reports has waited until now, and nothing else is being
sent under its id. -/
theorem wp_pumpOutbound_accounted (radio : Radio ε) (now : ℕ)
    (hpumping : Pumping first earned none m)
    (h : Accounted m) :
    wp (RadioRuntime.pumpOutbound radio now) (fun result m' => Accounted m' ∧
      Advances result m.memory.timeline m'.memory.timeline) (fun _ => True) m := by
  let t := m.memory.runtime.scheduler.pump radio now m.memory.radio
  let event := (Scheduler.pump radio.recording now m.memory.runtime.scheduler.scheduler
    (m.memory.radio, [])).1.2
  have hfiled := hpumping.filed
  rw [RadioRuntime.pumpOutbound, wp_bind]
  show wp (RadioRuntime.markReported event) _ _ (Machine.rescheduled m t _)
  rcases hevent : event with _ | event'
  · exact ⟨h.pumped hfiled radio now _, .refl _⟩
  obtain ⟨serial, post, mtu, start, hpost, huntold, hid, hreported⟩ :=
    hfiled.pump_sent radio now m.memory.radio hevent
  refine wp_mono (wp_mark_accounted (h.pumped hfiled radio now _) hpumping.agrees hpumping.opened
    (fun hready => ?_) (fun hready => ?_)) (fun _ _ hm => ⟨hm.1, hm.2.1⟩) (fun _ h => h)
  · obtain ⟨entry, hentry, hqueued, rfl⟩ :=
      Timeline.mem_queuedPosts.mp (h.sending hready serial post mtu start hpost huntold)
    exact ⟨entry, hentry, hqueued, hid⟩
  · rintro ⟨serial', post', mtu', start', hpost', huntold', hid'⟩
    have hwaits' := (h.pumped hfiled radio now m.memory.radio).sending hready serial'
      post' mtu' start'
      hpost' huntold'
    obtain rfl : post = post' := Timeline.eq_of_messageId
      (h.sending hready serial post mtu start hpost huntold) hwaits' (hid.trans hid'.symm)
    have hold' := (hfiled.mem_pump_log radio now m.memory.radio).mp hpost'
    rw [← hpumping.log] at hpost hold'
    obtain rfl := hpumping.kept.sound.once hpost hold'
    have hquiet : SchedulerEvent.isReportOf serial (.reported serial event' now) = false :=
      huntold'.quiet _ hreported
    simp [SchedulerEvent.isReportOf] at hquiet

/-! ### A pump -/

/-- Filling a buffer with random bytes does not change the transport. -/
def Radio.Apart (radio : Radio ε) : Prop :=
  ∀ size state, radio.maximumDatagramSize (radio.fill size state).2 =
    radio.maximumDatagramSize state

/-- What a refusal of the scheduler says. -/
theorem enqueue_refused (radio : Radio ε) (post : PostPayload) (mtu now : ℕ) (scheduler : Scheduler)
    (state : ε) :
    ((Scheduler.enqueue radio post mtu now scheduler state).1.1 = .invalidMtu →
      ¬isSupportedMtu mtu) ∧
    ((Scheduler.enqueue radio post mtu now scheduler state).1.1 = .invalidPost ∨
      (Scheduler.enqueue radio post mtu now scheduler state).1.1 = .randomUnavailable →
      ∀ message ∈ scheduler.pending, message.messageId ≠ post.messageId) := by
  rw [Scheduler.enqueue]
  split
  · rename_i hmtu
    refine ⟨fun _ hsupported => ?_, by simp⟩
    obtain ⟨hmin, hmax⟩ := hsupported
    omega
  split
  · simp
  split
  · simp
  rename_i hduplicate
  refine ⟨?_, fun _ message hmessage hid => hduplicate ?_⟩
  · split
    · simp
    · split
      · simp
      · simp
  · exact List.any_eq_true.mpr ⟨message, hmessage, decide_eq_true hid⟩

theorem maximumDatagramSize_enqueue {radio : Radio ε} (hports : radio.Apart) (post : PostPayload)
    (mtu now : ℕ) (scheduler : Scheduler) (state : ε) :
    radio.maximumDatagramSize (Scheduler.enqueue radio post mtu now scheduler state).2 =
      radio.maximumDatagramSize state := by
  rw [Scheduler.enqueue]
  split
  · rfl
  split
  · rfl
  split
  · rfl
  split
  · rfl
  rename_i frames _
  have hfill := hports (2 * frames.length + 2) state
  split
  · rename_i state' heq
    rwa [heq] at hfill
  · rename_i jitter state' heq
    rwa [heq] at hfill

/-- The transport has a datagram size, or the first of the posts that wait is not being
sent. -/
def ClearOf (radio : Radio ε) (process : Process ε) (entries : List TimelineEntry) : Prop :=
  isSupportedMtu (radio.maximumDatagramSize process.radio) ∨
    ∀ entry, entries.find? TimelineEntry.isQueued = some entry →
      ∀ message ∈ process.runtime.scheduler.scheduler.pending, message.repeatPass = false →
        message.messageId ≠ entry.messageId

theorem wp_enqueue_iff (radio : Radio ε) (post : PostPayload) (now : ℕ)
    {returns : SchedulerError → Machine (Process ε) Legacy → Prop} {crash : Legacy → Prop} :
    wp (RadioRuntime.enqueue radio post now) returns crash m ↔
      returns (Scheduler.enqueue radio post (radio.maximumDatagramSize m.memory.radio) now
          m.memory.runtime.scheduler.scheduler m.memory.radio).1.1
        (Machine.rescheduled m
          (m.memory.runtime.scheduler.enqueue radio post
            (radio.maximumDatagramSize m.memory.radio) now
            m.memory.radio)
          (Scheduler.enqueue radio post (radio.maximumDatagramSize m.memory.radio) now
            m.memory.runtime.scheduler.scheduler m.memory.radio).2) := Iff.rfl

/-- The errors after which the runtime marks a post. -/
def SchedulerError.Final (error : SchedulerError) : Prop :=
  error = .invalidMtu ∨ error = .invalidPost ∨ error = .randomUnavailable

/-- A post that waits is handed to the scheduler; if it is refused for good, it is not
being sent. -/
theorem wp_enqueue_accounted {radio : Radio ε} (hports : radio.Apart) (now : ℕ)
    {entry : TimelineEntry}
    {rest : List TimelineEntry} (hpumping : Pumping first earned none m) (h : Accounted m)
    (hqueued : entry.isQueued) (hfresh : FreshIn m entry.post)
    (hclear : m.memory.session.status = .ready →
      entry ∈ m.memory.timeline.entries ∧ ClearOf radio m.memory (entry :: rest)) :
    wp (RadioRuntime.enqueue radio entry.post now) (fun error m' => Pumping first earned none m' ∧
        Accounted m' ∧ (∀ other, FreshIn m other → FreshIn m' other) ∧
        m'.memory.session = m.memory.session ∧
        (error ≠ .invalidMtu → isSupportedMtu (radio.maximumDatagramSize m'.memory.radio)) ∧
        (error.Final → m'.memory.session.status = .ready →
          ¬SentUnder m'.memory.runtime.scheduler.log entry.messageId)) (fun _ => False) m := by
  have hpumps : wp (RadioRuntime.enqueue radio entry.post now) (fun _ m' =>
      Pumping first earned none m' ∧ ∀ other, FreshIn m other → FreshIn m' other)
        (fun _ => False) m :=
    wp_enqueue hpumping radio hfresh fun _ _ hpumping' _ hfresh' => ⟨hpumping', hfresh'⟩
  rw [wp_enqueue_iff] at hpumps ⊢
  refine ⟨hpumps.1, h.enqueued radio (fun hready => ?_) _, hpumps.2, rfl, fun hvalid => ?_,
    fun hfinal hready => ?_⟩
  · exact Timeline.mem_queuedPosts.mpr ⟨entry, (hclear hready).1, hqueued, rfl⟩
  · show isSupportedMtu (radio.maximumDatagramSize (Scheduler.enqueue ..).2)
    rw [maximumDatagramSize_enqueue hports]
    by_contra hunsupported
    refine hvalid ?_
    rw [Scheduler.enqueue, if_pos]
    rw [isSupportedMtu] at hunsupported
    omega
  · obtain ⟨hmtu, hother⟩ := enqueue_refused radio entry.post
      (radio.maximumDatagramSize m.memory.radio) now m.memory.runtime.scheduler.scheduler
        m.memory.radio
    have hsame : m.memory.runtime.scheduler.enqueue radio entry.post
        (radio.maximumDatagramSize m.memory.radio) now m.memory.radio =
          m.memory.runtime.scheduler := by
      rcases Tracked.enqueue_cases (t := m.memory.runtime.scheduler) radio entry.post
        (radio.maximumDatagramSize m.memory.radio) now m.memory.radio with ⟨hnone, -⟩ | ⟨-, hsame⟩
      · rw [SchedulerError.Final, hnone] at hfinal
        simp at hfinal
      · exact hsame
    show ¬SentUnder (m.memory.runtime.scheduler.enqueue ..).log entry.messageId
    rw [hsame]
    refine hpumping.filed.not_sentUnder fun message hmessage hprimary => ?_
    rcases hfinal with hinvalid | hrefused
    · refine ((hclear hready).2.resolve_left (hmtu hinvalid)) entry ?_ message hmessage hprimary
      rw [List.find?_cons_of_pos hqueued]
    · exact hother hrefused message hmessage

/-- The first post that waits is marked if the scheduler refuses it for good. -/
theorem wp_enqueueEntries_accounted {radio : Radio ε} (hports : radio.Apart) (now : ℕ)
    {entries : List TimelineEntry} (hpumping : Pumping first earned none m) (h : Accounted m)
    (hfresh : ∀ entry ∈ entries, entry.isQueued → FreshIn m entry.post)
    (hclear : m.memory.session.status = .ready →
      (∀ entry ∈ entries, entry ∈ m.memory.timeline.entries) ∧ ClearOf radio m.memory entries) :
    wp (RadioRuntime.enqueueEntries radio now entries)
      (fun result m' => Pumping first earned none m' ∧
        Accounted m' ∧ Advances result m.memory.timeline m'.memory.timeline)
      (Legacy.Kept first earned) m := by
  induction entries generalizing m with
  | nil => exact ⟨hpumping, h, .refl _⟩
  | cons entry rest ih =>
    obtain ⟨hentry, hrest⟩ := List.forall_mem_cons.mp hfresh
    rw [RadioRuntime.enqueueEntries]
    by_cases hqueued : entry.isQueued
    swap
    · rw [if_pos (by simpa using hqueued)]
      refine ih hpumping h hrest fun hready => ?_
      obtain ⟨hknown, hclear⟩ := hclear hready
      refine ⟨fun other hother => hknown other (List.mem_cons_of_mem _ hother), ?_⟩
      rwa [ClearOf, List.find?_cons_of_neg (by simpa using hqueued)] at hclear
    rw [if_neg (by simpa using hqueued), wp_bind]
    refine wp_mono (wp_enqueue_accounted hports now hpumping h hqueued (hentry hqueued)
        fun hready =>
      ⟨(hclear hready).1 entry (List.mem_cons_self ..), (hclear hready).2⟩) (fun error m' hm => ?_)
      (fun _ hfalse => hfalse.elim)
    obtain ⟨hpumping', h', hkeeps, hsession, hsupported, hfree⟩ := hm
    have htimeline : m'.memory.timeline = m.memory.timeline :=
      congrArg (fun session => session.messenger.timeline) hsession
    have hready' : m'.memory.session.status = .ready → m.memory.session.status = .ready :=
      fun hready => hsession ▸ hready
    have hrest' : ∀ other ∈ rest, other.isQueued → FreshIn m' other.post :=
      fun other hother hq => hkeeps _ (hrest other hother hq)
    -- an entry that stays queued leaves the rest as it was
    have hgoes : error ≠ .invalidMtu → wp (RadioRuntime.enqueueEntries radio now rest)
        (fun result m'' => Pumping first earned none m'' ∧ Accounted m'' ∧
          Advances result m.memory.timeline m''.memory.timeline) (Legacy.Kept first earned) m' := by
      intro hvalid
      rw [← htimeline]
      refine ih hpumping' h' hrest' fun hready => ⟨fun other hother => ?_, .inl (hsupported hvalid)⟩
      rw [htimeline]
      exact (hclear (hready' hready)).1 other (List.mem_cons_of_mem _ hother)
    -- an entry the scheduler refuses for good is marked as failed
    have hmarked : error.Final → wp (do
          if ← RadioRuntime.mark ⟨entry.post.messageId, .failed⟩ then pure true
          else RadioRuntime.enqueueEntries radio now rest)
        (fun result m'' => Pumping first earned none m'' ∧ Accounted m'' ∧
          Advances result m.memory.timeline m''.memory.timeline) (Legacy.Kept first earned) m' := by
      intro hfinal
      rw [wp_bind, ← htimeline]
      refine wp_mono (wp_and (wp_mark_pumping hpumping' (.inl rfl) (fun hstate => by cases hstate)
        (fun _ m'' hpumping'' hkeep => And.intro hpumping'' hkeep) (fun _ hkept => hkept))
        (wp_mark_accounted h' hpumping'.agrees hpumping'.opened (fun hready => ?_) (hfree hfinal)))
        (fun result m'' hm => ?_) (fun _ hcrash => hcrash.1)
      · refine ⟨entry, ?_, hqueued, rfl⟩
        rw [htimeline]
        exact (hclear (hready' hready)).1 entry (List.mem_cons_self ..)
      · obtain ⟨⟨hpumping'', hkeep⟩, h'', hadvances, hout⟩ := hm
        cases result with
        | true => exact ⟨hpumping'', h'', hadvances⟩
        | false =>
          -- out of service, nothing more is marked
          refine wp_mono (ih hpumping'' h''
            (fun other hother hq => hkeep _ (hrest' other hother hq))
            (fun hready => absurd hready (hout rfl))) (fun result m₃ hm₃ => ?_)
              (fun _ hkept => hkept)
          exact ⟨hm₃.1, hm₃.2.1, hadvances.trans hm₃.2.2⟩
    cases error with
    | none | duplicateMessage | queueFull => exact hgoes (by simp)
    | invalidMtu => exact hmarked (.inl rfl)
    | invalidPost => exact hmarked (.inr (.inl rfl))
    | randomUnavailable => exact hmarked (.inr (.inr rfl))

theorem wp_receiveDatagrams_accounted (radio : Radio ε) (now work : ℕ) (h : Accounted m) :
    wp (RadioRuntime.receiveDatagrams radio now work)
      (fun _ m' => Accounted m' ∧ m'.memory.timeline = m.memory.timeline) (fun _ => True) m := by
  induction work generalizing m with
  | zero => exact ⟨h, rfl⟩
  | succ work ih =>
    rw [RadioRuntime.receiveDatagrams]
    simp only [wp_bind, wp_memory, Process.setRadio, wp_update]
    split
    · exact ⟨h.congr rfl rfl id rfl rfl rfl, rfl⟩
    · exact ih (h.congr rfl rfl id rfl rfl rfl)

/-- A received post is a new entry, and waits for nothing. -/
theorem wp_acceptCompleted_accounted (completed : CompletedPost) (now : ℕ)
    (hpumping : Pumping first earned none m) (h : Accounted m) :
    wp (RadioRuntime.acceptCompleted completed now) (fun result m' => Accounted m' ∧
      Advances result m.memory.timeline m'.memory.timeline) (fun _ => True) m := by
  -- the three counters of received posts are none of those accounted for
  have hcounts : ∀ (status : InboundPostStatus) {m' : Machine (Process ε) Legacy}, Accounted m' →
      Advances (status = .accepted) m.memory.timeline m'.memory.timeline →
      wp (RadioRuntime.countCompleted completed now status) (fun result m'' => Accounted m'' ∧
        Advances result m.memory.timeline m''.memory.timeline) (fun _ => True) m' := by
    intro status m' h' hadvances
    cases status with
    | accepted => exact ⟨h'.congr rfl rfl id rfl rfl rfl, hadvances⟩
    | duplicate => exact ⟨h'.congr rfl rfl id rfl rfl rfl, hadvances⟩
    | _ => exact ⟨h'.congr rfl rfl id rfl rfl rfl, hadvances⟩
  unfold RadioRuntime.acceptCompleted
  rw [wp_bind, Process.onSession, wp_within]
  by_cases hready : m.memory.session.status = .ready
  swap
  · unfold Session.acceptReceivedPost
    simp only [wp_bind, wp_memory]
    rw [if_pos (.inl hready)]
    exact hcounts .notReady h (.refl _)
  obtain ⟨v, hshows, hdisk⟩ := hpumping.agrees hready
  have hlost : ∀ {disk rest}, Accounted (⟨{ m.memory with
      session := { m.memory.session with status := .recoveryRequired } },
      { m.durable with disk := disk }, rest⟩ : Machine (Process ε) Legacy) :=
    h.congr rfl rfl (fun hin => by cases hin) rfl rfl rfl
  refine wp_acceptReceivedPost hshows hdisk ?_ ?_ ?_ ?_ (fun _ _ _ _ _ _ _ => trivial)
  · intro status hrefused
    refine hcounts status h ?_
    cases hrefused with
    | notReady | invalid | duplicate | conflict | exhausted => exact .refl _
  · intro post v' rest _ hcommit _
    obtain ⟨hqueued, horder⟩ := hcommit.queuedPosts_received
    have htimeline : m.memory.timeline = v.timeline := hshows.timeline
    rw [← htimeline] at hqueued horder
    refine hcounts .accepted ⟨h.broadcast, h.failed, ?_,
      fun _ serial other mtu start hother huntold => ?_⟩ ?_
    · obtain ⟨settled, hids, hperm⟩ := h.balance
      refine ⟨settled, hids, ?_⟩
      show m.durable.record.composed.Perm (settled ++ v'.timeline.queuedPosts)
      rwa [hqueued]
    · show other ∈ v'.timeline.queuedPosts
      rw [hqueued]
      exact h.sending hready serial other mtu start hother huntold
    · show Advances true m.memory.timeline v'.timeline
      exact ⟨le_of_lt horder, le_of_eq (congrArg List.length hqueued), fun _ => .inl horder⟩
  · exact fun _ _ _ _ _ _ _ => hcounts .storageUnavailable hlost (.refl _)
  · exact fun _ _ _ _ _ _ _ _ => hcounts .storageUnavailable hlost (.refl _)

theorem wp_processDatagrams_accounted (now work : ℕ) (hpumping : Pumping first earned none m)
    (h : Accounted m) :
    wp (RadioRuntime.processDatagrams now work) (fun result m' => Accounted m' ∧
      Advances result m.memory.timeline m'.memory.timeline) (fun _ => True) m := by
  induction work generalizing m with
  | zero => exact ⟨h, .refl _⟩
  | succ work ih =>
    rw [RadioRuntime.processDatagrams]
    simp only [wp_bind, wp_memory, Process.setRuntime, wp_update]
    split
    · exact ⟨h.congr rfl rfl id rfl rfl rfl, .refl _⟩
    split
    · exact ih (hpumping.congr rfl rfl rfl rfl) (h.congr rfl rfl id rfl rfl rfl)
    split
    · exact ih (hpumping.congr rfl rfl rfl rfl) (h.congr rfl rfl id rfl rfl rfl)
    · rw [wp_bind]
      refine wp_mono (wp_and (wp_acceptCompleted _ now (hpumping.congr rfl rfl rfl rfl))
        (wp_acceptCompleted_accounted _ now (hpumping.congr rfl rfl rfl rfl)
          (h.congr rfl rfl id rfl rfl rfl))) (fun changed m' hm => ?_) (fun _ _ => trivial)
      obtain ⟨hpumping', h', hadvances⟩ := hm
      rw [wp_bind]
      exact wp_mono (ih hpumping' h') (fun _ _ hm => ⟨hm.1, hadvances.trans hm.2⟩) (fun _ h => h)

/-- The runtime carries out a pump. -/
def Process.Pumps (radio : Radio ε) (process : Process ε) : Prop :=
  process.runtime.valid = true ∧ process.runtime.stopped = false ∧ process.session.status = .ready ∧
    (radio.connected process.radio = true ∨ radio.closed process.radio = true)

/-- In a pump that is carried out, the first post that waits is not being sent, or the
transport has a datagram size. -/
def Process.Clear (radio : Radio ε) (process : Process ε) : Prop :=
  process.Pumps radio → ClearOf radio process process.timeline.entries

theorem wp_pump_accounted {radio : Radio ε} (hports : radio.Apart) (now : ℕ)
    (hdriven : Driven first earned m) (h : Accounted m) (hclear : m.memory.Clear radio) :
    wp (RadioRuntime.pump radio now) (fun result m' => Accounted m' ∧
      Advances result m.memory.timeline m'.memory.timeline) (fun _ => True) m := by
  rw [RadioRuntime.pump, wp_bind, wp_memory]
  split
  · exact ⟨h, .refl _⟩
  rename_i hrunning
  split
  · exact ⟨h, .refl _⟩
  rename_i hlinked
  simp only [not_or, Bool.not_eq_true, Bool.not_eq_false', ne_eq, not_not] at hrunning
  obtain ⟨hvalid, hstopped, hready⟩ := hrunning
  have hlink : radio.connected m.memory.radio = true ∨ radio.closed m.memory.radio = true := by
    cases hconnected : radio.connected m.memory.radio with
    | true => exact .inl rfl
    | false => exact .inr (by simpa [hconnected] using hlinked)
  have hpumping := hdriven.running hstopped
  -- enqueue, send, receive, process: each part keeps the account
  rw [wp_bind, RadioRuntime.enqueueQueuedPosts, wp_bind, wp_memory]
  refine wp_mono (wp_enqueueEntries_accounted hports now hpumping h
    (fun entry hentry hqueued => hpumping.fresh hready entry hentry hqueued (by simp))
    (fun _ => ⟨fun _ hentry => hentry, hclear ⟨hvalid, hstopped, hready, hlink⟩⟩))
    (fun _ m₁ hm₁ => ?_) (fun _ _ => trivial)
  obtain ⟨hpumping₁, h₁, hadvances₁⟩ := hm₁
  rw [wp_bind]
  refine wp_mono (wp_and (wp_pumpOutbound radio now hpumping₁)
    (wp_pumpOutbound_accounted radio now hpumping₁ h₁)) (fun _ m₂ hm₂ => ?_) (fun _ _ => trivial)
  obtain ⟨hpumping₂, h₂, hadvances₂⟩ := hm₂
  rw [wp_bind, RadioRuntime.pumpInbound, wp_bind]
  refine wp_mono (wp_and (wp_receiveDatagrams radio now _ hpumping₂)
    (wp_receiveDatagrams_accounted radio now _ h₂)) (fun _ m₃ hm₃ => ?_) (fun _ _ => trivial)
  obtain ⟨hpumping₃, h₃, htimeline⟩ := hm₃
  refine wp_mono (wp_processDatagrams_accounted now _ hpumping₃ h₃) (fun result m₄ hm₄ => ?_)
    (fun _ _ => trivial)
  obtain ⟨h₄, hadvances₄⟩ := hm₄
  rw [htimeline] at hadvances₄
  exact ⟨h₄, (hadvances₁.trans hadvances₂).trans hadvances₄⟩

/-! ### The other calls -/

/-- A scheduler that is stopped sends nothing. -/
theorem wp_stop_accounted (radio : Radio ε) (hdriven : Driven first earned m) (h : Accounted m) :
    wp (RadioRuntime.stop radio) (fun _ m' => Accounted m') (fun _ => True) m := by
  rw [RadioRuntime.stop, wp_bind, wp_memory]
  split
  · exact h
  refine ⟨h.broadcast, h.failed, h.balance, fun _ serial post mtu start hpost huntold => ?_⟩
  have hinv := hdriven.filed.cancelAll.inv
  exact absurd (hinv.gone serial (hinv.logged _ hpost) List.not_mem_nil) huntold.kept

theorem wp_shutdown_accounted (radio : Radio ε) (hdriven : Driven first earned m)
    (h : Accounted m) :
    wp (Process.shutdown radio) (fun _ m' => Accounted m') (fun _ => True) m := by
  rw [Process.shutdown, wp_bind]
  refine wp_mono (wp_stop_accounted radio hdriven h) (fun _ m' h' => ?_) (fun _ h => h)
  rw [Process.onSession, wp_within, Session.shutdown, wp_update]
  split
  · exact h'
  · exact h'.congr rfl rfl id rfl rfl rfl

/-- A call that composed nothing. -/
theorem Accounted.called_nil (h : Accounted m) {inner : Machine Session Disk}
    (htimeline : inner.memory.messenger.timeline = m.memory.timeline)
    (hstatus : inner.memory.status = .ready → m.memory.session.status = .ready) :
    Accounted (Machine.called m [] inner) := by
  refine h.congr ?_ htimeline hstatus rfl rfl rfl
  show { m.durable.record with composed := m.durable.record.composed ++ [] } = m.durable.record
  rw [List.append_nil]

/-- A post that is composed waits. -/
theorem Accounted.called_composed (h : Accounted m) {v v₁ v₂ : Committed} {post : PostPayload}
    {rest : List Fault} (hready : m.memory.session.status = .ready)
    (hshows : Shows m.memory.session v)
    (hsequence : Commit .sequence v v₁) (hcomposed : Commit (.composed post) v₁ v₂) :
    Accounted (Machine.called m [post] ⟨m.memory.session.adopt v₂, v₂.disk, rest⟩) := by
  have hqueued := Commit.queuedPosts_composed hsequence hcomposed
  have htimeline : m.memory.timeline = v.timeline := hshows.timeline
  rw [← htimeline] at hqueued
  refine ⟨h.broadcast, h.failed, ?_, fun _ serial other mtu start hother huntold => ?_⟩
  · obtain ⟨settled, hids, hperm⟩ := h.balance
    refine ⟨settled, hids, ?_⟩
    show (m.durable.record.composed ++ [post]).Perm (settled ++ v₂.timeline.queuedPosts)
    rw [hqueued, ← List.append_assoc]
    exact hperm.append_right [post]
  · show other ∈ v₂.timeline.queuedPosts
    rw [hqueued]
    exact List.mem_append_left _ (h.sending hready serial other mtu start hother huntold)

/-- What a call of `compose` comes to. -/
theorem wp_compose_outcome {inner : Machine Session Disk}
    (hagrees : Agrees inner.memory inner.durable)
    (draft : PostDraft) (random : Option (Vector UInt8 16)) (now : Option Int64) :
    wp (Session.compose draft random now) (fun result inner' => result.messageId = none ∨
        ∃ post evicted v v₁ v₂ rest, inner.memory.status = .ready ∧ Shows inner.memory v ∧
          Commit .sequence v v₁ ∧ Commit (.composed post) v₁ v₂ ∧
          result = { messageId := some post.messageId, evictedMessageId := evicted } ∧
          inner' = ⟨inner.memory.adopt v₂, v₂.disk, rest⟩) (fun _ => True) inner := by
  by_cases hready : inner.memory.status = .ready
  swap
  · exact wp_mono (wp_compose_idle (.inl hready) draft random now) (fun _ _ hnone => .inl hnone)
      (fun _ h => h)
  obtain ⟨v, hshows, hdisk⟩ := hagrees hready
  refine wp_compose hshows hdisk (fun result hstage => .inl (stage_error hstage))
    (fun _ _ => .inl rfl)
    (fun _ _ _ _ _ _ => .inl rfl) (fun _ _ _ _ _ _ _ _ _ => .inl rfl)
      (fun _ _ _ _ _ _ _ => .inl rfl)
    (fun post evicted v₁ v₂ rest _ hsequence hcomposed _ => ?_) (fun _ _ _ _ _ => trivial)
  exact .inr ⟨post, evicted, v, v₁, v₂, rest, hready, hshows, hsequence, hcomposed, rfl, rfl⟩

/-- Out of service, a session stays there. -/
theorem wp_call_status (c : UserCall) :
    wp (Session.call c.call) (fun _ inner => inner.memory.status = .ready →
      m.memory.session.status = .ready)
      (fun _ => True) ⟨m.memory.session, m.durable.disk, m.faults⟩ := by
  by_cases hready : m.memory.session.status = .ready
  · exact wp_true fun _ _ _ => hready
  have hdelete : c.call ≠ .deleteAll := by
    cases c with
    | compose | renameUser | setLocale | setSkipTitle => simp [UserCall.call]
  refine wp_mono (call_idle (.inl hready) hdelete) (fun _ inner hsame hin => ?_)
    (fun _ hfalse => hfalse.elim)
  exact hsame.2.1 ▸ hin

theorem wp_user_accounted (c : UserCall) (hdriven : Driven first earned m) (h : Accounted m) :
    wp (Process.user c) (fun _ m' => Accounted m') (fun _ => True) m := by
  rw [Process.user, wp_bind, Process.onSession, wp_within]
  suffices hcall : wp (Session.call c.call) (fun reply inner =>
      (inner.memory.status = .ready → m.memory.session.status = .ready) →
      Accounted (Machine.called m (composedPosts c reply inner.memory) inner)) (fun _ => True)
      ⟨m.memory.session, m.durable.disk, m.faults⟩ by
    exact wp_mono (wp_and hcall (wp_call_status c)) (fun _ _ hinner => hinner.1 hinner.2)
      (fun _ _ => trivial)
  by_cases hc : c.Settles
  · refine wp_mono (hc.frames _) (fun reply inner hframe hstatus => ?_) (fun _ h => h)
    rw [hc.composedPosts]
    exact h.called_nil (congrArg Prod.snd hframe) hstatus
  simp only [UserCall.Settles, not_forall, not_not] at hc
  obtain ⟨draft, random, now, rfl⟩ := hc
  rw [UserCall.call, Session.call, wp_bind]
  refine wp_mono (wp_and (wp_compose_outcome hdriven.agrees draft random now)
    (Session.wp_compose_timeline draft random now _)) (fun result inner hinner hstatus => ?_)
    (fun _ _ => trivial)
  rcases hinner with ⟨hnone | ⟨post, evicted, v, v₁, v₂, rest, hready, hshows, hsequence,
    hcomposed, rfl, rfl⟩, htimeline⟩
  · rw [composedPosts_of_none hnone]
    exact h.called_nil (htimeline hnone) hstatus
  · rw [composedPosts_of_composed hcomposed]
    exact h.called_composed hready hshows hsequence hcomposed

end Accounted

/-! ### Runs -/

namespace Station

variable {disk : Disk} {draws : List MessageId} {first : ℕ} {station : Station ε}

/-- The balance of the running process. -/
def Balanced (station : Station ε) : Prop :=
  ∀ process, station.process = some process → Accounted ⟨process, station.legacy, []⟩

theorem Balanced.perform {α : Type} (hbalanced : station.Balanced)
    (h : station.Lawful disk draws first)
    {program : RuntimeM ε α} {faults : List Fault}
    (hwp : ∀ {m : Machine (Process ε) Legacy}, station.process = some m.memory →
      Driven first (Earned disk station.past) m → Accounted m →
      wp program (fun _ m' => Accounted m') (fun _ => True) m) :
    (station.perform program faults).Balanced := by
  obtain ⟨legacy, _ | process, past⟩ := station
  · exact hbalanced
  have hresult := hwp (m := ⟨process, legacy, faults⟩) rfl
    ((h.driven process rfl).congr process.radio faults)
      ((hbalanced process rfl).congr rfl rfl id rfl rfl rfl)
  unfold wp at hresult
  unfold Station.perform
  dsimp only
  rcases hrun : program ⟨process, legacy, faults⟩ with ⟨value, m⟩ | left
  · rw [hrun] at hresult
    intro other hother
    obtain rfl := Option.some.inj hother
    exact Accounted.congr hresult rfl rfl id rfl rfl rfl
  · intro other hother
    cases hother

theorem Balanced.tuned (hbalanced : station.Balanced) (state : ε) :
    (station.tuned state).Balanced := by
  intro process hprocess
  obtain ⟨before, hbefore, rfl⟩ := Option.map_eq_some_iff.mp hprocess
  exact (hbalanced before hbefore).congr rfl rfl id rfl rfl rfl

/-- A new process has composed nothing, counted nothing, and nothing waits. -/
theorem balanced_start (radio : Radio ε) (environment : Session.Environment)
    (random : Option (Vector UInt8 16)) (state : ε) (faults : List Fault) :
    (station.start radio environment random state faults).Balanced := by
  have hwp := Session.starts_bootstrap environment random ⟨{}, station.legacy.disk, faults⟩
    ⟨rfl, by simp [Timeline.empty]⟩
  unfold wp at hwp
  unfold Station.start
  rcases hrun : Session.bootstrap environment random ⟨{}, station.legacy.disk, faults⟩ with
    ⟨_, m⟩ | left
  swap
  · intro process hprocess
    cases hprocess
  rw [hrun] at hwp
  intro process hprocess
  obtain rfl := Option.some.inj hprocess
  have hnew : (RadioRuntime.new radio state).1.metrics = {} ∧
      (RadioRuntime.new radio state).1.scheduler = {} := by
    unfold RadioRuntime.new
    dsimp only
    split
    · exact ⟨rfl, rfl⟩
    · exact ⟨rfl, rfl⟩
  refine ⟨?_, ?_, ⟨[], rfl, ?_⟩, fun _ serial post mtu start hpost => ?_⟩
  · exact congrArg RadioRuntimeMetrics.broadcastPosts hnew.1
  · exact congrArg RadioRuntimeMetrics.failedPosts hnew.1
  · show [].Perm ([] ++ m.memory.messenger.timeline.queuedPosts)
    rw [Timeline.queuedPosts_of_quiet hwp.2]
    exact .refl _
  · change .enqueued serial post mtu start ∈ (RadioRuntime.new radio state).1.scheduler.log at hpost
    rw [hnew.2] at hpost
    cases hpost

/-- Each pump that is carried out finds the first post that waits clear. -/
def Clear (radio : Radio ε) (disk : Disk) (events : List (StationEvent ε)) : Prop :=
  ∀ before now state faults after, events = before ++ .pump now state faults :: after →
    ∀ process, ((run radio disk before).tuned state).process = some process → process.Clear radio

theorem Clear.before {radio : Radio ε} {events later : List (StationEvent ε)}
    (h : Clear radio disk (events ++ later)) : Clear radio disk events := by
  intro before now state faults after hsplit
  refine h before now state faults (after ++ later) ?_
  rw [hsplit, List.append_assoc, List.cons_append]

theorem Balanced.step {radio : Radio ε} (hports : radio.Apart) (hbalanced : station.Balanced)
    (h : station.Lawful disk draws first) {event : StationEvent ε}
    (hclear : ∀ now state faults, event = .pump now state faults →
      ∀ process, (station.tuned state).process = some process → process.Clear radio) :
    (station.step radio event).Balanced := by
  cases event with
  | start environment random state faults =>
    exact balanced_start radio environment random state faults
  | user c faults =>
    exact hbalanced.perform h fun _ hdriven haccounted =>
      wp_user_accounted c hdriven haccounted
  | pump now state faults =>
    refine (hbalanced.tuned state).perform (h.tuned state) fun hprocess hdriven haccounted => ?_
    exact wp_mono (wp_pump_accounted hports now hdriven haccounted
      (hclear now state faults rfl _ hprocess)) (fun _ _ hm => hm.1) (fun _ h => h)
  | stop state => exact (hbalanced.tuned state).perform (h.tuned state) fun _ hdriven haccounted =>
      wp_stop_accounted radio hdriven haccounted
  | shutdown state => exact (hbalanced.tuned state).perform (h.tuned state) fun _ hdriven
      haccounted =>
      wp_shutdown_accounted radio hdriven haccounted
  | kill =>
    intro process hprocess
    cases hprocess

theorem run_balanced {radio : Radio ε} (hports : radio.Apart) (disk : Disk)
    {events : List (StationEvent ε)} (hclear : Clear radio disk events) :
    (run radio disk events).Balanced := by
  induction events using List.reverseRecOn with
  | nil =>
    intro process hprocess
    cases hprocess
  | append_singleton events event ih =>
    obtain ⟨first, hlawful⟩ := run_lawful radio disk events
    rw [run_concat]
    refine (ih hclear.before).step hports hlawful fun now state faults hevent => ?_
    exact hclear events now state faults [] (by rw [hevent])

end Station

/-- **Runtime outcomes are counted once.**  If in each pump that is carried out the transport has a
datagram size, or the first post that waits is not being sent by the scheduler, then in every state
of the run the metrics count the outcomes by their states; the posts that were composed are the
posts of the outcomes, one for each, and those that still wait; and a pump that returned true has
changed the timeline. -/
theorem outcomes_counted_once (radio : Radio ε) (hports : radio.Apart) (disk : Disk)
    (events : List (StationEvent ε)) (hclear : Station.Clear radio disk events) :
    (∀ process, (Station.run radio disk events).process = some process →
      process.runtime.metrics.broadcastPosts =
        (Station.run radio disk events).legacy.record.outcomes.countP (·.state = .broadcast) ∧
      process.runtime.metrics.failedPosts =
        (Station.run radio disk events).legacy.record.outcomes.countP (·.state = .failed) ∧
      (∃ settled : List PostPayload, settled.map PostPayload.messageId =
          (Station.run radio disk events).legacy.record.outcomes.map OutboundEvent.messageId ∧
        (Station.run radio disk events).legacy.record.composed.Perm
          (settled ++ process.timeline.queuedPosts)) ∧
      process.runtime.metrics.broadcastPosts + process.runtime.metrics.failedPosts +
          process.timeline.queuedPosts.length =
        (Station.run radio disk events).legacy.record.composed.length) ∧
    (∀ before now state faults after process m',
      events = before ++ .pump now state faults :: after →
      ((Station.run radio disk before).tuned state).process = some process →
      RadioRuntime.pump radio now ⟨process, (Station.run radio disk before).legacy, faults⟩ =
        .done true m' →
      m'.memory.timeline ≠ process.timeline) := by
  refine ⟨fun process hprocess => ?_, ?_⟩
  · have h := Station.run_balanced hports disk hclear process hprocess
    refine ⟨h.broadcast, h.failed, h.balance, ?_⟩
    obtain ⟨settled, hids, hperm⟩ := h.balance
    have hlength := congrArg List.length hids
    have hcomposed := hperm.length_eq
    -- every outcome is one of the two
    have hstates : ∀ outcomes : List OutboundEvent, outcomes.countP (·.state = .broadcast) +
        outcomes.countP (·.state = .failed) = outcomes.length := by
      intro outcomes
      rw [List.length_eq_countP_add_countP (·.state = .broadcast)]
      congr 1
      refine List.countP_congr fun event _ => ?_
      cases event.state with
      | broadcast => simp
      | failed => simp
    have houtcomes := hstates (Station.run radio disk events).legacy.record.outcomes
    rw [List.length_map, List.length_map] at hlength
    rw [List.length_append] at hcomposed
    have hbroadcast := h.broadcast
    have hfailed := h.failed
    change process.runtime.metrics.broadcastPosts = _ at hbroadcast
    change process.runtime.metrics.failedPosts = _ at hfailed
    change (Station.run radio disk events).legacy.record.composed.length = _ at hcomposed
    change settled.length = (Station.run radio disk events).legacy.record.outcomes.length at hlength
    dsimp only at hbroadcast hfailed hcomposed
    omega
  · intro before now state faults after process m' hsplit hprocess hrun
    have hbefore : Station.Clear radio disk before := by
      rw [hsplit] at hclear
      exact hclear.before
    obtain ⟨first, hlawful⟩ := Station.run_lawful radio disk before
    have hdriven : Driven first (Station.Earned disk (Station.run radio disk before).past)
        ⟨process, (Station.run radio disk before).legacy, faults⟩ :=
      ((hlawful.tuned state).driven process hprocess).congr process.radio faults
    have hbalanced : Accounted ⟨process, (Station.run radio disk before).legacy, faults⟩ :=
      (((Station.run_balanced hports disk hbefore).tuned state) process hprocess).congr rfl rfl
        id rfl rfl rfl
    have hwp := wp_pump_accounted hports now hdriven hbalanced
      (hclear before now state faults after hsplit process hprocess)
    unfold wp at hwp
    rw [hrun] at hwp
    exact hwp.2.ne

/-- A post is sent over a link that stays open. -/
def Link.sentHello : List (StationEvent Link) :=
  Link.hello ++ [.pump 0 {} [], .pump 300 {} [], .pump 600 {} []]

theorem hello_counted_once : Link.radio.Apart ∧
    Station.Clear Link.radio ⟨.missing, .missing⟩ Link.sentHello ∧
    ∃ process, (Station.run Link.radio ⟨.missing, .missing⟩ Link.sentHello).process = some process ∧
      process.runtime.metrics.broadcastPosts + process.runtime.metrics.failedPosts +
          process.timeline.queuedPosts.length = 1 ∧ process.timeline.queuedPosts.length = 0 := by
  have hports : Link.radio.Apart := fun _ _ => rfl
  have hclear : Station.Clear Link.radio ⟨.missing, .missing⟩ Link.sentHello := by
    intro before now state faults after hsplit process hprocess _
    obtain ⟨earlier, -, rfl⟩ := Option.map_eq_some_iff.mp hprocess
    have hmem : .pump now state faults ∈ Link.sentHello := by
      rw [hsplit]
      exact List.mem_append_right _ (List.mem_cons_self ..)
    have hopen : state = {} := by
      simp only [Link.sentHello, Link.hello, List.mem_append, List.mem_cons,
        List.not_mem_nil, or_false, reduceCtorEq, false_or, StationEvent.pump.injEq] at hmem
      rcases hmem with ⟨-, rfl, -⟩ | ⟨-, rfl, -⟩ | ⟨-, rfl, -⟩
      · rfl
      · rfl
      · rfl
    refine .inl ?_
    show isSupportedMtu (Link.radio.maximumDatagramSize state)
    rw [hopen]
    decide
  refine ⟨hports, hclear, ?_⟩
  have hrun : ((Station.run Link.radio ⟨.missing, .missing⟩ Link.sentHello).process.map
      fun process =>
      process.timeline.queuedPosts.length) = some 0 := by decide +kernel
  have hcomposed : (Station.run Link.radio ⟨.missing, .missing⟩
    Link.sentHello).legacy.record.composed.length
      = 1 := by decide +kernel
  obtain ⟨process, hprocess, hqueued⟩ := Option.map_eq_some_iff.mp hrun
  have hcounted := (outcomes_counted_once Link.radio hports ⟨.missing, .missing⟩
    Link.sentHello hclear).1
    process hprocess
  exact ⟨process, hprocess, hcounted.2.2.2.trans hcomposed, hqueued⟩

/-- The link is closed while the scheduler is sending the post. -/
def Link.closedHello : List (StationEvent Link) :=
  Link.hello ++ [.pump 0 {} [], .pump 1 { closed := true } []]

/-- A post that is being sent when the transport closes is counted twice: by the runtime, which
cannot enqueue it any more, and once more by the runtime when the scheduler gives it up.  The
second time the pump returns true and the timeline is as before. -/
theorem outcome_counted_twice :
    (∃ process, (Station.run Link.radio ⟨.missing, .missing⟩
          (Link.closedHello ++ [.pump 400 { closed := true } []])).process = some process ∧
      process.runtime.metrics.broadcastPosts + process.runtime.metrics.failedPosts = 2 ∧
      (Station.run Link.radio ⟨.missing, .missing⟩
        (Link.closedHello ++ [.pump 400 { closed := true }
        []])).legacy.record.composed.length = 1) ∧
    ∃ process m', ((Station.run Link.radio ⟨.missing, .missing⟩ Link.closedHello).tuned
        { closed := true }).process = some process ∧
      RadioRuntime.pump Link.radio 400
        ⟨process, (Station.run Link.radio ⟨.missing, .missing⟩ Link.closedHello).legacy, []⟩ =
          .done true m' ∧
      m'.memory.timeline = process.timeline := by
  refine ⟨?_, ?_⟩
  · have hrun : ((Station.run Link.radio ⟨.missing, .missing⟩
        (Link.closedHello ++ [.pump 400 { closed := true } []])).process.map fun process =>
        process.runtime.metrics.broadcastPosts + process.runtime.metrics.failedPosts) = some 2 := by
      decide +kernel
    obtain ⟨process, hprocess, hcounted⟩ := Option.map_eq_some_iff.mp hrun
    exact ⟨process, hprocess, hcounted, by decide +kernel⟩
  · have hpump : (((Station.run Link.radio ⟨.missing, .missing⟩ Link.closedHello).tuned
        { closed := true }).process.elim false fun process =>
        match RadioRuntime.pump Link.radio 400
          ⟨process, (Station.run Link.radio ⟨.missing, .missing⟩ Link.closedHello).legacy, []⟩ with
        | .done true m' => decide (m'.memory.timeline.capacity = process.timeline.capacity) &&
          decide (m'.memory.timeline.lastAssignedOrder = process.timeline.lastAssignedOrder) &&
          decide (m'.memory.timeline.entries = process.timeline.entries)
        | _ => false) = true := by decide +kernel
    rcases hprocess : ((Station.run Link.radio ⟨.missing, .missing⟩ Link.closedHello).tuned
      { closed := true }).process with _ | process
    · rw [hprocess] at hpump
      cases hpump
    rw [hprocess, Option.elim_some] at hpump
    split at hpump
    · rename_i m' hdone
      simp only [Bool.and_eq_true, decide_eq_true_eq] at hpump
      exact ⟨process, m', rfl, hdone, Timeline.ext_data hpump.1.1 hpump.1.2 hpump.2⟩
    · cases hpump

end Lora
