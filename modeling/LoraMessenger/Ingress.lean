/-
The queue of received datagrams.

A datagram waits in a bounded queue until it is decoded and passed on to the
reassembler.  Datagrams of posts that were committed a short while ago are
known by their bytes and dropped before that; this saves work and is not what
keeps posts from being stored twice.

* `Reassembler.FilledFrom` — all slots are filled from given frames;
* `InboundFrameQueue.FedFrom` — so are the queue and its reassembler;
* `FedFrom.processNext` — a post comes out only if all its frames are given.
-/
import LoraMessenger.ReassemblyComplete
import LoraMessenger.ReassemblySound

namespace Lora

def kMaximumInboundFrames : ℕ := 64
def kMaximumRecentFrames : ℕ := 128

inductive IngressEnqueueStatus where
  | accepted
  | queueFull
  | invalid
  | closed
deriving DecidableEq

inductive IngressProcessStatus where
  | empty
  | stale
  | malformed
  | recentDuplicate
  | fragmentAccepted
  | duplicateFragment
  | complete
  | capacityExceeded
  | conflict
  | quarantined
  | invalidPost
  | closed
deriving DecidableEq

structure IngressProcessResult where
  status : IngressProcessStatus
  completed : Option CompletedPost := none

/-- The counts have 64 bits in the source, and stand here for fewer than 2^64 events. -/
structure IngressMetrics where
  queuedFrames : ℕ := 0
  queueHighWater : ℕ := 0
  activeReassemblies : ℕ := 0
  reassemblyHighWater : ℕ := 0
  malformedFrames : ℕ := 0
  staleFrames : ℕ := 0
  duplicateFrames : ℕ := 0
  capacityRejections : ℕ := 0
  expiredReassemblies : ℕ := 0
  completedPosts : ℕ := 0

structure QueuedFrame where
  datagram : Bytes
  receivedTick : ℕ

structure RecentFrame where
  datagram : Bytes
  deadline : ℕ

structure InboundFrameQueue where
  mtu : ℕ
  queue : List QueuedFrame := []
  recent : List RecentFrame := []
  reassembler : Reassembler
  metrics : IngressMetrics := {}
  stopped : Bool := false

namespace InboundFrameQueue

/-- The constructor. -/
def new (mtu : ℕ) : InboundFrameQueue := { mtu := mtu, reassembler := .new mtu }

variable (q : InboundFrameQueue)

def updateMetrics : InboundFrameQueue :=
  { q with
    metrics := { q.metrics with
      queuedFrames := q.queue.length
      queueHighWater := max q.metrics.queueHighWater q.queue.length
      activeReassemblies := q.reassembler.activeCount
      reassemblyHighWater := max q.metrics.reassemblyHighWater q.reassembler.highWaterCount } }

/-- Counts something. -/
def count (change : IngressMetrics → IngressMetrics) : InboundFrameQueue :=
  { q with metrics := change q.metrics }

def enqueue (data : Bytes) (receivedTick : ℕ) : InboundFrameQueue × IngressEnqueueStatus :=
  if q.stopped then (q, .closed)
  else if data.length < kFrameHeaderBytes ∨ data.length > q.mtu ∨
      data.length > kMaximumTransportMtu then (q, .invalid)
  else if q.queue.length ≥ kMaximumInboundFrames then (q, .queueFull)
  else
    let queued : QueuedFrame := ⟨data, receivedTick⟩
    ({ q with queue := q.queue ++ [queued] }.updateMetrics, .accepted)

def expireRecent (now : ℕ) : InboundFrameQueue :=
  { q with recent := q.recent.filter fun frame => !deadlineReached now frame.deadline }

/-- A datagram that is found moves to the end, its deadline stays. -/
def recentlyCommitted (datagram : Bytes) (now : ℕ) : InboundFrameQueue × Bool :=
  let q := q.expireRecent now
  match q.recent.find? fun frame => frame.datagram = datagram with
  | none => (q, false)
  | some retained =>
    let others := q.recent.eraseP fun frame => frame.datagram = datagram
    ({ q with recent := others ++ [retained] }, true)

/-- The end of `process_next`. -/
def reassemble (frame : DataFrame) (receivedTick : ℕ) : InboundFrameQueue × IngressProcessResult :=
  let (reassembler, reassembled) := q.reassembler.accept frame receivedTick
  let q := { q with reassembler := reassembler }.updateMetrics
  match reassembled.status with
  | .fragmentAccepted => (q, ⟨.fragmentAccepted, none⟩)
  | .duplicateFragment =>
    (q.count fun metrics => { metrics with duplicateFrames := metrics.duplicateFrames + 1 },
      ⟨.duplicateFragment, none⟩)
  | .capacityExceeded =>
    (q.count fun metrics => { metrics with capacityRejections := metrics.capacityRejections + 1 },
      ⟨.capacityExceeded, none⟩)
  | .conflict => (q, ⟨.conflict, none⟩)
  | .quarantined => (q, ⟨.quarantined, none⟩)
  | .invalidPost => (q, ⟨.invalidPost, none⟩)
  | .complete =>
    (q.count fun metrics => { metrics with completedPosts := metrics.completedPosts + 1 },
      ⟨.complete, reassembled.completed⟩)

/-- The part of `process_next` once a datagram has left the queue. -/
def processFrame (queued : QueuedFrame) (now : ℕ) : InboundFrameQueue × IngressProcessResult :=
  if queued.receivedTick > now ∨ now - queued.receivedTick ≥ kReassemblyTimeoutTicks then
    (q.count fun metrics => { metrics with staleFrames := metrics.staleFrames + 1 }, ⟨.stale, none⟩)
  else
    let (q, recent) := q.recentlyCommitted queued.datagram now
    if recent then
      (q.count fun metrics => { metrics with duplicateFrames := metrics.duplicateFrames + 1 },
        ⟨.recentDuplicate, none⟩)
    else match decodeFrame queued.datagram q.mtu with
      | .error _ =>
        (q.count fun metrics => { metrics with malformedFrames := metrics.malformedFrames + 1 },
          ⟨.malformed, none⟩)
      | .ok frame => q.reassemble frame queued.receivedTick

def processNext (now : ℕ) : InboundFrameQueue × IngressProcessResult :=
  if q.stopped then (q, ⟨.closed, none⟩)
  else
    let (reassembler, expired) := q.reassembler.expire now
    let q := { q with reassembler := reassembler }.count fun metrics =>
      { metrics with expiredReassemblies := metrics.expiredReassemblies + expired }
    match q.queue with
    | [] => (q.updateMetrics, ⟨.empty, none⟩)
    | queued :: queue => { q with queue := queue }.updateMetrics.processFrame queued now

/-- The loop of `mark_committed`. -/
def rememberFrames (mtu deadline : ℕ) : List RecentFrame → List Bytes → List RecentFrame
  | recent, [] => recent
  | recent, datagram :: datagrams =>
    if datagram.length < kFrameHeaderBytes ∨ datagram.length > mtu then
      rememberFrames mtu deadline recent datagrams
    else if recent.any fun frame => frame.datagram = datagram then
      rememberFrames mtu deadline recent datagrams
    else
      let kept := if recent.length ≥ kMaximumRecentFrames then recent.tail else recent
      rememberFrames mtu deadline (kept ++ [⟨datagram, deadline⟩]) datagrams

def markCommitted (canonicalFrames : List Bytes) (committedTick : ℕ) : InboundFrameQueue :=
  let q := q.expireRecent committedTick
  let deadline := saturatingDeadline committedTick kReassemblyTimeoutTicks
  { q with recent := rememberFrames q.mtu deadline q.recent canonicalFrames }

def stop : InboundFrameQueue :=
  { q with
    stopped := true
    queue := []
    recent := []
    reassembler := q.reassembler.clear }.updateMetrics

end InboundFrameQueue

/-! ### Where a completed post comes from -/

section Filled

variable {mtu : ℕ} {source : DataFrame → Prop}

/-- All slots of a reassembler are filled from frames in `source`. -/
structure Reassembler.FilledFrom (r : Reassembler) (mtu : ℕ)
    (source : DataFrame → Prop) : Prop where
  wf : r.Wf
  mtu_eq : r.mtu = mtu
  filled : ∀ key slot, r.active key = some slot → slot.Filled mtu source

/-- A post all of whose frames are in `source`. -/
def SpeltFrom (mtu : ℕ) (source : DataFrame → Prop) (completed : CompletedPost) : Prop :=
  isSupportedMtu mtu ∧ completed = completedPost completed.post mtu ∧
    ∀ part ∈ postFrames completed.post mtu, source part

namespace Reassembler.FilledFrom

variable {r : Reassembler}

theorem new : (Reassembler.new mtu).FilledFrom mtu source := by
  refine ⟨new_wf mtu, rfl, ?_⟩
  intro key slot hactive
  have hnone : (Reassembler.new mtu).active key = none := by
    rw [active, SlotTable.lookup_eq_none]
    intro slot hslot
    rw [List.eq_of_mem_replicate hslot]
    simp
  rw [hnone] at hactive
  cases hactive

theorem expire (h : r.FilledFrom mtu source) (now : ℕ) :
    (r.expire now).1.FilledFrom mtu source := by
  refine ⟨expire_wf h.wf now, h.mtu_eq, ?_⟩
  intro key slot hactive
  rw [active_expire h.wf, Option.filter_eq_some_iff] at hactive
  exact h.filled key slot hactive.1

theorem clear (h : r.FilledFrom mtu source) : r.clear.FilledFrom mtu source := by
  refine ⟨clear_wf, h.mtu_eq, ?_⟩
  intro key slot hactive
  rw [active_clear] at hactive
  cases hactive

/-- The slot a frame is put into. -/
theorem target (h : r.FilledFrom mtu source) {frame : DataFrame} {receivedTick : ℕ} {slot : Slot}
    (htarget : r.target frame receivedTick = some slot) :
    slot.key = frame.key ∧ slot.Filled mtu source := by
  rw [Reassembler.target] at htarget
  rcases hactive : r.active frame.key with _ | found
  · rw [hactive] at htarget
    obtain ⟨-, -, rfl⟩ := Option.map_eq_some_iff.mp htarget
    exact ⟨rfl, Slot.fresh_filled _ _⟩
  · rw [hactive] at htarget
    obtain rfl : found = slot := by simpa using htarget
    exact ⟨(active_eq_some hactive).2, h.filled _ _ hactive⟩

theorem accept (h : r.FilledFrom mtu source) {frame : DataFrame} (hsource : source frame)
    (receivedTick : ℕ) :
    (r.accept frame receivedTick).1.FilledFrom mtu source ∧
      ((r.accept frame receivedTick).2.status = .complete →
        ∀ completed, (r.accept frame receivedTick).2.completed = some completed →
          SpeltFrom mtu source completed) := by
  have hexpired := h.expire receivedTick
  by_cases hlet : (r.expire receivedTick).1.accepts frame ∧
      ¬(r.expire receivedTick).1.inQuarantine frame.key ∧
      ((r.expire receivedTick).1.target frame receivedTick).isSome
  swap
  · obtain ⟨hsame, hstatus⟩ := accept_refused hlet
    rw [hsame]
    exact ⟨hexpired, fun hcomplete => absurd hcomplete hstatus⟩
  obtain ⟨haccepts, hquarantine, hsome⟩ := hlet
  obtain ⟨slot, htarget⟩ := Option.isSome_iff_exists.mp hsome
  obtain ⟨hresult, hupdated⟩ := accept_target h.wf haccepts hquarantine htarget
  obtain ⟨hkey, hfilled⟩ := hexpired.target htarget
  have hvalid : FrameValid mtu frame := by
    rw [← hexpired.mtu_eq]
    exact accepts_iff.mp haccepts
  have hcapacity : r.fragmentCapacity = framePayloadCapacity mtu := by
    rw [fragmentCapacity_eq (by rw [h.mtu_eq]; exact hvalid.1), h.mtu_eq]
  rw [h.mtu_eq, hcapacity] at hresult hupdated
  refine ⟨⟨hupdated.wf, hupdated.mtu.trans h.mtu_eq, ?_⟩, ?_⟩
  · intro key next hactive
    rw [hupdated.active] at hactive
    split at hactive
    swap
    · exact hexpired.filled key next hactive
    rcases hanswer : slot.answer mtu (framePayloadCapacity mtu) frame with
      _ | _ | accepted | _ | completed
    all_goals
      rw [hanswer] at hactive
      simp only [SlotOutcome.next, Option.some.injEq, reduceCtorEq] at hactive
    · exact hactive ▸ hfilled
    · exact hactive ▸ Slot.answer_accepted hfilled hvalid hsource hkey.symm hanswer
  · intro hstatus completed hcompleted
    rw [hresult] at hstatus hcompleted
    rcases hanswer : slot.answer mtu (framePayloadCapacity mtu) frame with
      _ | _ | accepted | _ | finished
    all_goals
      rw [hanswer] at hstatus hcompleted
      simp only [SlotOutcome.result, Option.some.injEq, reduceCtorEq] at hstatus hcompleted
    subst hcompleted
    obtain ⟨hcanonical, -, hparts⟩ :=
      Slot.answer_complete hfilled hvalid hsource hkey.symm hanswer
    exact ⟨hvalid.1, hcanonical, fun part hpart => (hparts part hpart).1⟩

end Reassembler.FilledFrom

/-- What waits in the queue and what is under way comes from `source`. -/
structure InboundFrameQueue.FedFrom (q : InboundFrameQueue) (mtu : ℕ)
    (source : DataFrame → Prop) : Prop where
  mtu_eq : q.mtu = mtu
  reassembler : q.reassembler.FilledFrom mtu source
  queue : ∀ queued ∈ q.queue, ∀ frame, decodeFrame queued.datagram mtu = .ok frame → source frame

namespace InboundFrameQueue.FedFrom

variable {q : InboundFrameQueue}

theorem new : (InboundFrameQueue.new mtu).FedFrom mtu source :=
    ⟨rfl, .new, by simp [InboundFrameQueue.new]⟩

theorem enqueue (h : q.FedFrom mtu source) {data : Bytes} (receivedTick : ℕ)
    (hdata : ∀ frame, decodeFrame data mtu = .ok frame → source frame) :
    (q.enqueue data receivedTick).1.FedFrom mtu source := by
  unfold InboundFrameQueue.enqueue
  repeat' split
  · exact h
  · exact h
  · exact h
  · refine ⟨h.mtu_eq, h.reassembler, ?_⟩
    intro queued hqueued
    rcases List.mem_append.mp hqueued with hold | hnew
    · exact h.queue queued hold
    · obtain rfl := List.mem_singleton.mp hnew
      exact hdata

theorem recentlyCommitted (h : q.FedFrom mtu source) (datagram : Bytes) (now : ℕ) :
    (q.recentlyCommitted datagram now).1.FedFrom mtu source := by
  unfold InboundFrameQueue.recentlyCommitted
  dsimp only
  split
  · exact ⟨h.mtu_eq, h.reassembler, h.queue⟩
  · exact ⟨h.mtu_eq, h.reassembler, h.queue⟩

/-- A post that completes is spelt by frames of `source`. -/
def Yields (mtu : ℕ) (source : DataFrame → Prop)
    (outcome : InboundFrameQueue × IngressProcessResult) : Prop :=
  outcome.1.FedFrom mtu source ∧
    ∀ completed, outcome.2.completed = some completed → SpeltFrom mtu source completed

theorem nothing {outcome : InboundFrameQueue × IngressProcessResult}
    (h : outcome.1.FedFrom mtu source) (hnone : outcome.2.completed = none) :
    Yields mtu source outcome := ⟨h, by simp [hnone]⟩

/-- The counters and the recent frames do not matter. -/
theorem same {q' : InboundFrameQueue} (h : q.FedFrom mtu source) (hmtu : q'.mtu = q.mtu)
    (hreassembler : q'.reassembler = q.reassembler) (hqueue : q'.queue = q.queue) :
    q'.FedFrom mtu source :=
  ⟨hmtu.trans h.mtu_eq, hreassembler ▸ h.reassembler, hqueue ▸ h.queue⟩

theorem reassemble (h : q.FedFrom mtu source) {frame : DataFrame} (hsource : source frame)
    (receivedTick : ℕ) : Yields mtu source (q.reassemble frame receivedTick) := by
  obtain ⟨hfilled, hcomplete⟩ := h.reassembler.accept hsource receivedTick
  have hfed : FedFrom { q with reassembler := (q.reassembler.accept frame receivedTick).1 } mtu
      source := ⟨h.mtu_eq, hfilled, h.queue⟩
  unfold InboundFrameQueue.reassemble
  rcases hstatus : (q.reassembler.accept frame receivedTick).2.status with _ | _ | _ | _ | _ | _ | _
  all_goals
    simp only [hstatus]
  · exact nothing (hfed.same rfl rfl rfl) rfl
  · exact nothing (hfed.same rfl rfl rfl) rfl
  · exact ⟨hfed.same rfl rfl rfl, hcomplete hstatus⟩
  · exact nothing (hfed.same rfl rfl rfl) rfl
  · exact nothing (hfed.same rfl rfl rfl) rfl
  · exact nothing (hfed.same rfl rfl rfl) rfl
  · exact nothing (hfed.same rfl rfl rfl) rfl

theorem processFrame (h : q.FedFrom mtu source) {queued : QueuedFrame} (now : ℕ)
    (hqueued : ∀ frame, decodeFrame queued.datagram mtu = .ok frame → source frame) :
    Yields mtu source (q.processFrame queued now) := by
  unfold InboundFrameQueue.processFrame
  have hrecent := h.recentlyCommitted queued.datagram now
  split
  · exact nothing (h.same rfl rfl rfl) rfl
  dsimp only
  split
  · exact nothing (hrecent.same rfl rfl rfl) rfl
  rw [hrecent.mtu_eq]
  rcases hdecode : decodeFrame queued.datagram mtu with error | frame
  · exact nothing (hrecent.same rfl rfl rfl) rfl
  · exact hrecent.reassemble (hqueued frame hdecode) queued.receivedTick

theorem processNext (h : q.FedFrom mtu source) (now : ℕ) :
    Yields mtu source (q.processNext now) := by
  unfold InboundFrameQueue.processNext
  split
  · exact nothing h rfl
  have hexpired := h.reassembler.expire now
  rcases hqueue : q.queue with _ | ⟨queued, queue⟩
  · simp only [count]
    exact nothing ⟨h.mtu_eq, hexpired, by simp [updateMetrics]⟩ rfl
  · obtain ⟨hqueued, hrest⟩ := List.forall_mem_cons.mp (hqueue ▸ h.queue)
    simp only [count]
    refine processFrame ?_ now hqueued
    exact ⟨h.mtu_eq, hexpired, hrest⟩

theorem markCommitted (h : q.FedFrom mtu source) (canonicalFrames : List Bytes) (tick : ℕ) :
    (q.markCommitted canonicalFrames tick).FedFrom mtu source :=
  ⟨h.mtu_eq, h.reassembler, h.queue⟩

theorem stop (h : q.FedFrom mtu source) : q.stop.FedFrom mtu source :=
  ⟨h.mtu_eq, h.reassembler.clear, by simp [InboundFrameQueue.stop, InboundFrameQueue.updateMetrics]⟩

end InboundFrameQueue.FedFrom

end Filled

end Lora
