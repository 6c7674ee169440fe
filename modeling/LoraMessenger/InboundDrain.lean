/-
The receive queue of a runtime.

A pump takes at most four datagrams from the radio and then passes on at most four from
the queue.  So what comes in during a pump leaves the queue in the same pump and at the
same tick: the bound of the queue is never met, and nothing grows stale in it.

* `Waiting` — at most so many datagrams wait, all of them received at this tick;
* `KeepsInbound` — programs that do not touch the queue;
* `inbound_drained` — the queue of a process between two events.
-/
import LoraMessenger.RadioRuntime

namespace Lora

open Crash

/-! ### The queue -/

structure Waiting (now waiting : ℕ) (q : InboundFrameQueue) : Prop where
  length : q.queue.length ≤ waiting
  ticks : ∀ queued ∈ q.queue, queued.receivedTick = now
  counted : q.metrics.queuedFrames = q.queue.length
  highWater : q.metrics.queueHighWater ≤ kMaximumRadioWorkPerPump
  fresh : q.metrics.staleFrames = 0
  stopped : q.stopped = true → q.queue = []

section Queue

variable {now waiting : ℕ} {q q' : InboundFrameQueue}

/-- The other fields do not matter. -/
theorem Waiting.congr (h : Waiting now waiting q) (hqueue : q'.queue = q.queue)
    (hstopped : q'.stopped = q.stopped)
    (hcounted : q'.metrics.queuedFrames = q.metrics.queuedFrames)
    (hhigh : q'.metrics.queueHighWater = q.metrics.queueHighWater)
    (hstale : q'.metrics.staleFrames = q.metrics.staleFrames) : Waiting now waiting q' := by
  constructor
  · rw [hqueue]
    exact h.length
  · rw [hqueue]
    exact h.ticks
  · rw [hcounted, hqueue]
    exact h.counted
  · rw [hhigh]
    exact h.highWater
  · rw [hstale]
    exact h.fresh
  · rw [hstopped, hqueue]
    exact h.stopped

/-- With the metrics brought up to date. -/
theorem Waiting.updateMetrics (hlength : q.queue.length ≤ waiting)
    (hwaiting : waiting ≤ kMaximumRadioWorkPerPump)
    (hticks : ∀ queued ∈ q.queue, queued.receivedTick = now)
    (hhigh : q.metrics.queueHighWater ≤ kMaximumRadioWorkPerPump)
    (hfresh : q.metrics.staleFrames = 0) (hstopped : q.stopped = true → q.queue = []) :
    Waiting now waiting q.updateMetrics :=
  ⟨hlength, hticks, rfl, max_le hhigh (le_trans hlength hwaiting), hfresh, hstopped⟩

/-- At another tick, when nothing waits. -/
theorem Waiting.at_tick (h : Waiting now 0 q) (later : ℕ) : Waiting later 0 q := by
  have hempty : q.queue = [] := List.length_eq_zero_iff.mp (Nat.le_zero.mp h.length)
  exact ⟨h.length, by simp [hempty], h.counted, h.highWater, h.fresh, h.stopped⟩

theorem Waiting.mono {more : ℕ} (h : Waiting now waiting q) (hmore : waiting ≤ more) :
    Waiting now more q :=
  ⟨le_trans h.length hmore, h.ticks, h.counted, h.highWater, h.fresh, h.stopped⟩

theorem Waiting.enqueue (h : Waiting now waiting q) (hwaiting : waiting < kMaximumRadioWorkPerPump)
    (data : Bytes) : Waiting now (waiting + 1) (q.enqueue data now).1 ∧
      (q.enqueue data now).2 ≠ .queueFull := by
  have hlength := h.length
  simp only [kMaximumRadioWorkPerPump] at hwaiting
  unfold InboundFrameQueue.enqueue
  split
  · exact ⟨h.mono (Nat.le_succ _), by simp⟩
  rename_i hopen
  split
  · exact ⟨h.mono (Nat.le_succ _), by simp⟩
  split
  · rename_i hfull
    simp only [kMaximumInboundFrames] at hfull
    omega
  · refine ⟨Waiting.updateMetrics ?_ hwaiting ?_ h.highWater h.fresh ?_, by simp⟩
    · rw [List.length_append, List.length_singleton]
      omega
    · intro queued hqueued
      rcases List.mem_append.mp hqueued with hold | hnew
      · exact h.ticks queued hold
      · rw [List.mem_singleton.mp hnew]
    · exact fun hclosed => absurd hclosed hopen

theorem Waiting.recentlyCommitted (h : Waiting now waiting q) (datagram : Bytes) (tick : ℕ) :
    Waiting now waiting (q.recentlyCommitted datagram tick).1 := by
  unfold InboundFrameQueue.recentlyCommitted
  dsimp only
  split
  · exact h.congr rfl rfl rfl rfl rfl
  · exact h.congr rfl rfl rfl rfl rfl

theorem Waiting.reassemble (h : Waiting now waiting q)
    (hwaiting : waiting ≤ kMaximumRadioWorkPerPump) (frame : DataFrame) (receivedTick : ℕ) :
    Waiting now waiting (q.reassemble frame receivedTick).1 := by
  have hupdated : Waiting now waiting
      { q with reassembler := (q.reassembler.accept frame receivedTick).1 }.updateMetrics :=
    .updateMetrics h.length hwaiting h.ticks h.highWater h.fresh h.stopped
  unfold InboundFrameQueue.reassemble
  rcases hstatus : (q.reassembler.accept frame receivedTick).2.status with _ | _ | _ | _ | _ | _ | _
  all_goals
    simp only [hstatus]
    exact hupdated.congr rfl rfl rfl rfl rfl

/-- A datagram that was received at this tick is not stale. -/
theorem Waiting.processFrame (h : Waiting now waiting q)
    (hwaiting : waiting ≤ kMaximumRadioWorkPerPump) {queued : QueuedFrame}
    (htick : queued.receivedTick = now) : Waiting now waiting (q.processFrame queued now).1 := by
  have hrecent := h.recentlyCommitted queued.datagram now
  unfold InboundFrameQueue.processFrame
  rw [if_neg (by simp [htick, kReassemblyTimeoutTicks])]
  dsimp only
  split
  · exact hrecent.congr rfl rfl rfl rfl rfl
  split
  · exact hrecent.congr rfl rfl rfl rfl rfl
  · exact hrecent.reassemble hwaiting _ _

theorem InboundFrameQueue.processFrame_ne_empty (q : InboundFrameQueue) (queued : QueuedFrame)
    (now : ℕ) : (q.processFrame queued now).2.status ≠ .empty := by
  unfold InboundFrameQueue.processFrame
  split
  · simp
  dsimp only
  split
  · simp
  split
  · simp
  · unfold InboundFrameQueue.reassemble
    dsimp only
    split
    all_goals simp

/-- One datagram leaves the queue, unless there is none. -/
theorem Waiting.processNext (h : Waiting now (waiting + 1) q)
    (hwaiting : waiting < kMaximumRadioWorkPerPump) :
    Waiting now waiting (q.processNext now).1 ∧
      ((q.processNext now).2.status = .empty → Waiting now 0 (q.processNext now).1) := by
  unfold InboundFrameQueue.processNext
  split
  · rename_i hstopped
    have hempty := h.stopped hstopped
    exact ⟨⟨by simp [hempty], h.ticks, h.counted, h.highWater, h.fresh, h.stopped⟩, by simp⟩
  rename_i hopen
  rcases hqueue : q.queue with _ | ⟨queued, rest⟩
  · simp only [InboundFrameQueue.count]
    constructor
    · exact .updateMetrics (Nat.zero_le _) (Nat.le_of_lt hwaiting) (by simp) h.highWater h.fresh
        (fun _ => rfl)
    · intro _
      exact .updateMetrics (Nat.zero_le _) (Nat.zero_le _) (by simp) h.highWater h.fresh
        (fun _ => rfl)
  · have hlength := h.length
    have hticks := h.ticks
    rw [hqueue] at hlength hticks
    obtain ⟨htick, hrest⟩ := List.forall_mem_cons.mp hticks
    simp only [InboundFrameQueue.count]
    refine ⟨Waiting.processFrame ?_ (Nat.le_of_lt hwaiting) htick, ?_⟩
    · refine .updateMetrics (Nat.le_of_succ_le_succ hlength) (Nat.le_of_lt hwaiting) hrest
        h.highWater h.fresh ?_
      exact fun hstopped => absurd hstopped hopen
    · exact fun hempty => absurd hempty (InboundFrameQueue.processFrame_ne_empty _ _ now)

end Queue

/-! ### A process -/

/-- Between two events nothing waits, and so far every datagram found room. -/
structure Drained {ε : Type} (process : Process ε) : Prop where
  waiting : Waiting 0 0 process.runtime.inbound
  overflow : process.runtime.metrics.receiveOverflow = 0

section Process

variable {ε : Type} {α β : Type}

/-- The program leaves the queue alone, and the count of what found no room. -/
abbrev KeepsInbound (program : RuntimeM ε α) : Prop :=
  Keeps (fun process => (process.runtime.inbound, process.runtime.metrics.receiveOverflow)) program

namespace KeepsInbound

open RadioRuntime

theorem onSession (program : SessionM α) :
    KeepsInbound (Process.onSession program : RuntimeM ε α) := by
  intro m
  rw [Process.onSession, wp_within]
  exact wp_true fun _ _ => rfl

theorem note (change : Legacy → Legacy) : KeepsInbound (Prog.note change : RuntimeM ε Unit) :=
  fun _ => rfl

theorem setScheduler (t : Tracked) : KeepsInbound (Process.setScheduler t : RuntimeM ε Unit) :=
  .bind (.update fun _ => rfl) fun _ => note _

theorem setRadio (state : ε) : KeepsInbound (Process.setRadio state) := .update fun _ => rfl

theorem mark (event : OutboundEvent) :
    KeepsInbound (RadioRuntime.mark event : RuntimeM ε Bool) := by
  -- only `broadcastPosts` and `failedPosts` are counted here
  have hcount : KeepsInbound (Process.count (countOutcome event.state) : RuntimeM ε Unit) := by
    intro m
    cases event.state with
    | broadcast => rfl
    | failed => rfl
  refine .bind (onSession _) fun result => ?_
  split
  · exact .bind hcount fun _ => .bind (note _) fun _ => .pure _
  · exact .pure _

variable (radio : Radio ε) (now : ℕ)

theorem enqueue (post : PostPayload) : KeepsInbound (RadioRuntime.enqueue radio post now) :=
  .bind .memory fun _ => .bind (setScheduler _) fun _ => .bind (setRadio _) fun _ => .pure _

theorem enqueueEntries (entries : List TimelineEntry) :
    KeepsInbound (RadioRuntime.enqueueEntries radio now entries) := by
  induction entries with
  | nil => exact .pure _
  | cons entry rest ih =>
    rw [RadioRuntime.enqueueEntries]
    split
    · exact ih
    have hmark : KeepsInbound (do
        if ← RadioRuntime.mark ⟨entry.post.messageId, .failed⟩ then pure true
        else RadioRuntime.enqueueEntries radio now rest) := by
      refine .bind (mark _) fun marked => ?_
      split
      · exact .pure _
      · exact ih
    refine .bind (enqueue radio now _) fun error => ?_
    cases error with
    | none | duplicateMessage | queueFull => exact ih
    | invalidMtu | invalidPost | randomUnavailable => exact hmark

theorem pumpOutbound : KeepsInbound (RadioRuntime.pumpOutbound radio now) := by
  refine .bind (.bind .memory fun _ => .bind (setScheduler _) fun _ => .bind (setRadio _) fun _ =>
    .pure _) fun event => ?_
  split
  · exact .pure _
  · exact mark _

end KeepsInbound

variable {m : Machine (Process ε) Legacy}

/-- A process whose queue is being filled and emptied at a tick. -/
structure Busy (now waiting : ℕ) (process : Process ε) : Prop where
  waiting : Waiting now waiting process.runtime.inbound
  overflow : process.runtime.metrics.receiveOverflow = 0

/-- Of the `limit` datagrams of a pump, `work` are still to come. -/
theorem wp_receiveDatagrams_busy (radio : Radio ε) (now : ℕ) {work waiting : ℕ}
    (hwork : waiting + work ≤ kMaximumRadioWorkPerPump) (h : Busy now waiting m.memory) :
    wp (RadioRuntime.receiveDatagrams radio now work)
      (fun _ m' => Busy now (waiting + work) m'.memory) (fun _ => True) m := by
  induction work generalizing waiting m with
  | zero => exact h
  | succ work ih =>
    rw [RadioRuntime.receiveDatagrams]
    simp only [wp_bind, wp_memory, Process.setRadio, wp_update]
    split
    · exact ⟨h.waiting.mono (by omega), h.overflow⟩
    obtain ⟨hwaiting, hroom⟩ := h.waiting.enqueue (by omega)
      (radio.tryReceive kMaximumDatagramBytes m.memory.radio).1.datagram
    rw [show waiting + (work + 1) = waiting + 1 + work by omega]
    refine ih (by omega) ⟨hwaiting, ?_⟩
    dsimp only
    rw [if_neg hroom, h.overflow]

theorem wp_acceptCompleted_busy (completed : CompletedPost) (now : ℕ) {waiting : ℕ}
    (h : Busy now waiting m.memory) :
    wp (RadioRuntime.acceptCompleted completed now)
      (fun _ m' => Busy now waiting m'.memory) (fun _ => True) m := by
  unfold RadioRuntime.acceptCompleted
  rw [wp_bind]
  refine wp_mono (KeepsInbound.onSession _ m) ?_ (fun _ h => h)
  intro status m' hsame
  obtain ⟨hinbound, hoverflow⟩ := Prod.ext_iff.mp hsame
  have h' : Busy now waiting m'.memory := by
    refine ⟨?_, hoverflow.trans h.overflow⟩
    rw [show m'.memory.runtime.inbound = m.memory.runtime.inbound from hinbound]
    exact h.waiting
  -- noting the frames as committed leaves the queue alone
  have hmarked : Waiting now waiting (m'.memory.runtime.inbound.markCommitted
      completed.canonicalFrames now) :=
    h'.waiting.congr rfl rfl rfl rfl rfl
  cases status with
  | accepted => exact ⟨hmarked, h'.overflow⟩
  | duplicate => exact ⟨hmarked, h'.overflow⟩
  | _ => exact ⟨h'.waiting, h'.overflow⟩

theorem wp_processDatagrams_busy (now : ℕ) {work : ℕ} (hwork : work ≤ kMaximumRadioWorkPerPump)
    (h : Busy now work m.memory) :
    wp (RadioRuntime.processDatagrams now work : RuntimeM ε Bool)
      (fun _ m' => Busy now 0 m'.memory) (fun _ => True) m := by
  induction work generalizing m with
  | zero => exact h
  | succ work ih =>
    rw [RadioRuntime.processDatagrams]
    simp only [wp_bind, wp_memory, Process.setRuntime, wp_update]
    obtain ⟨hwaiting, hempty⟩ := h.waiting.processNext hwork
    have hwork' : work ≤ kMaximumRadioWorkPerPump := by omega
    split
    · rename_i hstatus
      exact ⟨hempty hstatus, h.overflow⟩
    split
    · exact ih hwork' ⟨hwaiting, h.overflow⟩
    split
    · exact ih hwork' ⟨hwaiting, h.overflow⟩
    · rw [wp_bind]
      refine wp_mono (wp_acceptCompleted_busy _ now ⟨hwaiting, h.overflow⟩) ?_ (fun _ h => h)
      intro changed m' h'
      rw [wp_bind]
      exact wp_mono (ih hwork' h') (fun _ _ h'' => h'') (fun _ h => h)

theorem Drained.pump (radio : Radio ε) (now : ℕ) :
    Maintains Drained (RadioRuntime.pump radio now) := by
  intro m h
  rw [RadioRuntime.pump, wp_bind, wp_memory]
  split
  · exact h
  split
  · exact h
  rw [wp_bind, RadioRuntime.enqueueQueuedPosts, wp_bind, wp_memory]
  refine wp_mono (KeepsInbound.enqueueEntries radio now _ m) (fun _ m₁ h₁ => ?_) (fun _ h => h)
  rw [wp_bind]
  refine wp_mono (KeepsInbound.pumpOutbound radio now m₁) (fun _ m₂ h₂ => ?_) (fun _ h => h)
  obtain ⟨hinbound, hoverflow⟩ := Prod.ext_iff.mp (h₂.trans h₁)
  have hbusy : Busy now 0 m₂.memory := by
    refine ⟨?_, hoverflow.trans h.overflow⟩
    rw [show m₂.memory.runtime.inbound = m.memory.runtime.inbound from hinbound]
    exact h.waiting.at_tick now
  rw [wp_bind, RadioRuntime.pumpInbound, wp_bind]
  refine wp_mono (wp_receiveDatagrams_busy radio now (by simp) hbusy) (fun _ m₃ h₃ => ?_)
    (fun _ h => h)
  rw [Nat.zero_add] at h₃
  refine wp_mono (wp_processDatagrams_busy now (le_refl _) h₃) (fun _ m₄ h₄ => ?_) (fun _ h => h)
  exact ⟨h₄.waiting.at_tick 0, h₄.overflow⟩

/-- A queue that is stopped is empty. -/
theorem Waiting.stop {now waiting : ℕ} {q : InboundFrameQueue} (h : Waiting now waiting q) :
    Waiting now 0 q.stop :=
  .updateMetrics (Nat.zero_le _) (Nat.zero_le _) (by simp) h.highWater h.fresh fun _ => rfl

theorem Waiting.new (mtu : ℕ) : Waiting 0 0 (InboundFrameQueue.new mtu) :=
  ⟨Nat.zero_le _, by simp [InboundFrameQueue.new], rfl, Nat.zero_le _, rfl, fun _ => rfl⟩

theorem Drained.stop (radio : Radio ε) : Maintains Drained (RadioRuntime.stop radio) := by
  intro m h
  rw [RadioRuntime.stop, wp_bind, wp_memory]
  split
  · exact h
  · exact ⟨h.waiting.stop, h.overflow⟩

theorem Drained.onSession (program : SessionM α) :
    Maintains Drained (Process.onSession program : RuntimeM ε α) := by
  refine .of_keeps (KeepsInbound.onSession program) ?_
  intro process process' hsame h
  obtain ⟨hinbound, hoverflow⟩ := Prod.ext_iff.mp hsame
  refine ⟨?_, hoverflow.trans h.overflow⟩
  rw [show process'.runtime.inbound = process.runtime.inbound from hinbound]
  exact h.waiting

/-! ### Runs -/

theorem Drained.perform {station : Station ε}
    (h : ∀ process, station.process = some process → Drained process) {program : RuntimeM ε α}
    (hkeeps : Maintains Drained program) (faults : List Fault) :
    ∀ process, (station.perform program faults).process = some process → Drained process := by
  intro process hprocess
  unfold Station.perform at hprocess
  split at hprocess
  · exact h process hprocess
  rename_i before hbefore
  have hresult := hkeeps ⟨before, station.legacy, faults⟩ (h before hbefore)
  unfold wp at hresult
  split at hprocess
  · rename_i hrun
    rw [hrun] at hresult
    obtain rfl := Option.some.inj hprocess
    exact hresult
  · cases hprocess

theorem Drained.step {station : Station ε} (radio : Radio ε)
    (h : ∀ process, station.process = some process → Drained process) (event : StationEvent ε) :
    ∀ process, (station.step radio event).process = some process → Drained process := by
  have htuned : ∀ state process, (station.tuned state).process = some process →
      Drained process := by
    intro state process hprocess
    obtain ⟨before, hbefore, rfl⟩ := Option.map_eq_some_iff.mp hprocess
    exact ⟨(h before hbefore).waiting, (h before hbefore).overflow⟩
  cases event with
  | start environment random state faults =>
    intro process hprocess
    unfold Station.step Station.start at hprocess
    dsimp only at hprocess
    split at hprocess
    · obtain rfl := Option.some.inj hprocess
      dsimp only [RadioRuntime.new]
      split
      · exact ⟨Waiting.new _, rfl⟩
      · exact ⟨(Waiting.new _).stop, rfl⟩
    · cases hprocess
  | user c faults =>
    refine Drained.perform h ?_ faults
    exact .bind (Drained.onSession _) fun _ => .bind .memory fun _ => fun _ h => h
  | pump now state faults => exact Drained.perform (htuned state) (Drained.pump radio now) faults
  | stop state => exact Drained.perform (htuned state) (Drained.stop radio) []
  | shutdown state =>
    refine Drained.perform (htuned state) ?_ []
    exact .bind (Drained.stop radio) fun _ => Drained.onSession _
  | kill =>
    intro process hprocess
    cases hprocess

theorem Drained.run (radio : Radio ε) (disk : Disk) (events : List (StationEvent ε)) :
    ∀ process, (Station.run radio disk events).process = some process → Drained process := by
  induction events using List.reverseRecOn with
  | nil =>
    intro process hprocess
    cases hprocess
  | append_singleton events event ih =>
    rw [Station.run_concat]
    exact Drained.step radio ih event

/-- **The receive queue is drained by every pump.**  In any run of a station, with any radio
and any faults, nothing waits in the queue of a process between two events; no datagram was
ever turned away for lack of room, or dropped because it had grown stale in the queue; and at
most four datagrams were ever waiting. -/
theorem inbound_drained (radio : Radio ε) (disk : Disk) (events : List (StationEvent ε))
    (process : Process ε) (hprocess : (Station.run radio disk events).process = some process) :
    process.runtime.inbound.queue = [] ∧
      process.runtime.inbound.metrics.queuedFrames = 0 ∧
      process.runtime.inbound.metrics.queueHighWater ≤ 4 ∧
      process.runtime.inbound.metrics.staleFrames = 0 ∧
      process.runtime.metrics.receiveOverflow = 0 := by
  obtain ⟨hwaiting, hoverflow⟩ := Drained.run radio disk events process hprocess
  have hempty : process.runtime.inbound.queue = [] :=
    List.length_eq_zero_iff.mp (Nat.le_zero.mp hwaiting.length)
  refine ⟨hempty, ?_, hwaiting.highWater, hwaiting.fresh, hoverflow⟩
  rw [hwaiting.counted, hempty, List.length_nil]

/-- A process composes a post and pumps once. -/
def Link.pumpedHello : List (StationEvent Link) := Link.hello ++ [.pump 0 {} []]

theorem inbound_drained_pumpedHello :
    ∃ process,
      (Station.run Link.radio ⟨.missing, .missing⟩ Link.pumpedHello).process = some process ∧
      process.runtime.inbound.queue = [] ∧ process.runtime.metrics.receiveOverflow = 0 := by
  have hsome : (Station.run Link.radio ⟨.missing, .missing⟩
      Link.pumpedHello).process.isSome = true := by decide +kernel
  obtain ⟨process, hprocess⟩ := Option.isSome_iff_exists.mp hsome
  have hdrained := inbound_drained Link.radio ⟨.missing, .missing⟩ Link.pumpedHello process hprocess
  exact ⟨process, hprocess, hdrained.1, hdrained.2.2.2.2⟩

end Process

end Lora
