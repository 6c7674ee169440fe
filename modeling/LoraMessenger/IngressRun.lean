/-
Any number of calls to the queue of received datagrams.

Two clocks drive the queue: a datagram is too old by the tick at which it
arrived, all the rest goes out of date by the tick at which it is taken out.  The
reassembler is told only of the first, which is never ahead of the second, so that
all slots that time out do so under the eyes of the queue.

* `IngressCall`, `run` — the calls;
* `Processes` — what one call of `processNext` can do;
* `history` — what happens to the committed datagrams in the calls;
* `Accounted` — the invariant, kept by `Accounted.call`;
* `ingress_accounting` — the counters, the gauges and the cache after any calls.
-/
import LoraMessenger.RecentFrames
import LoraMessenger.ReassemblerState

namespace Lora

inductive IngressCall where
  | enqueue (data : Bytes) (receivedTick : ℕ)
  | processNext (now : ℕ)
  | markCommitted (canonicalFrames : List Bytes) (committedTick : ℕ)
  | stop

def IngressCall.tick : IngressCall → Option ℕ
  | .enqueue _ receivedTick => some receivedTick
  | .processNext now => some now
  | .markCommitted _ committedTick => some committedTick
  | .stop => none

/-- Too old, or from the future. -/
def QueuedFrame.stale (queued : QueuedFrame) (now : ℕ) : Prop :=
  queued.receivedTick > now ∨ now - queued.receivedTick ≥ kReassemblyTimeoutTicks

namespace InboundFrameQueue

def call (q : InboundFrameQueue) : IngressCall → InboundFrameQueue
  | .enqueue data receivedTick => (q.enqueue data receivedTick).1
  | .processNext now => (q.processNext now).1
  | .markCommitted canonicalFrames committedTick => q.markCommitted canonicalFrames committedTick
  | .stop => q.stop

def run (mtu : ℕ) (calls : List IngressCall) : InboundFrameQueue := calls.foldl call (new mtu)

/-- A number that each call adds to, over a sequence of calls. -/
def total (amount : InboundFrameQueue → IngressCall → ℕ) (q : InboundFrameQueue) :
    List IngressCall → ℕ
  | [] => 0
  | c :: calls => amount q c + total amount (q.call c) calls

def accepted (q : InboundFrameQueue) : IngressCall → ℕ
  | .enqueue data receivedTick => if (q.enqueue data receivedTick).2 = .accepted then 1 else 0
  | _ => 0

/-- The call takes a datagram out of the queue. -/
def processed (q : InboundFrameQueue) : IngressCall → ℕ
  | .processNext now => if (q.processNext now).2.status ≠ .empty then 1 else 0
  | _ => 0

variable {q : InboundFrameQueue}

theorem run_concat (mtu : ℕ) (calls : List IngressCall) (c : IngressCall) :
    run mtu (calls ++ [c]) = (run mtu calls).call c :=
  List.foldl_append ..

theorem total_concat (amount : InboundFrameQueue → IngressCall → ℕ) (q : InboundFrameQueue)
    (calls : List IngressCall) (c : IngressCall) :
    total amount q (calls ++ [c]) = total amount q calls + amount (calls.foldl call q) c := by
  induction calls generalizing q with
  | nil => simp [total]
  | cons first calls ih =>
    rw [List.cons_append, total, total, ih, List.foldl_cons]
    omega

/-! ### One call -/

/-- The state but for the counters of things that went by. -/
structure Matches (q q' : InboundFrameQueue) : Prop where
  mtu : q'.mtu = q.mtu
  queue : q'.queue = q.queue
  recent : q'.recent = q.recent
  reassembler : q'.reassembler = q.reassembler
  stopped : q'.stopped = q.stopped
  queuedFrames : q'.metrics.queuedFrames = q.metrics.queuedFrames
  activeReassemblies : q'.metrics.activeReassemblies = q.metrics.activeReassemblies
  expiredReassemblies : q'.metrics.expiredReassemblies = q.metrics.expiredReassemblies

theorem Matches.refl (q : InboundFrameQueue) : Matches q q :=
    ⟨rfl, rfl, rfl, rfl, rfl, rfl, rfl, rfl⟩

theorem reassemble_matches (q : InboundFrameQueue) (frame : DataFrame) (receivedTick : ℕ) :
    Matches { q with reassembler := (q.reassembler.accept frame receivedTick).1 }.updateMetrics
      (q.reassemble frame receivedTick).1 ∧
    (q.reassemble frame receivedTick).2.status ∉
      [.empty, .stale, .recentDuplicate, .malformed, .closed] := by
  unfold reassemble
  dsimp only
  split <;> exact ⟨⟨rfl, rfl, rfl, rfl, rfl, rfl, rfl, rfl⟩, by simp⟩

theorem enqueue_cases (q : InboundFrameQueue) (data : Bytes) (receivedTick : ℕ) :
    ((q.enqueue data receivedTick).1 = q ∧ (q.enqueue data receivedTick).2 ≠ .accepted) ∨
    (q.queue.length < kMaximumInboundFrames ∧ q.enqueue data receivedTick =
      ({ q with queue := q.queue ++ [(⟨data, receivedTick⟩ : QueuedFrame)] }.updateMetrics,
        .accepted)) := by
  unfold enqueue
  split
  · exact .inl ⟨rfl, by simp⟩
  split
  · exact .inl ⟨rfl, by simp⟩
  split
  · exact .inl ⟨rfl, by simp⟩
  · exact .inr ⟨by omega, rfl⟩

/-- The queue once the reassembler has expired and the first datagram is out. -/
def taken (q : InboundFrameQueue) (now : ℕ) (rest : List QueuedFrame) : InboundFrameQueue :=
  { q with
    queue := rest
    reassembler := (q.reassembler.expire now).1
    metrics := { q.metrics with
      expiredReassemblies := q.metrics.expiredReassemblies +
        (q.reassembler.expire now).2 } }.updateMetrics

theorem processNext_nil (hstopped : q.stopped = false) (hqueue : q.queue = []) (now : ℕ) :
    q.processNext now = (q.taken now [], ⟨.empty, none⟩) := by
  obtain ⟨mtu, queue, recent, reassembler, metrics, stopped⟩ := q
  obtain rfl : stopped = false := hstopped
  obtain rfl : queue = [] := hqueue
  rfl

theorem processNext_cons {queued : QueuedFrame} {rest : List QueuedFrame}
    (hstopped : q.stopped = false) (hqueue : q.queue = queued :: rest) (now : ℕ) :
    q.processNext now = (q.taken now rest).processFrame queued now := by
  obtain ⟨mtu, queue, recent, reassembler, metrics, stopped⟩ := q
  obtain rfl : stopped = false := hstopped
  obtain rfl : queue = queued :: rest := hqueue
  rfl

theorem recentlyCommitted_of_none {datagram : Bytes} {now : ℕ}
    (h : (q.expireRecent now).recent.find? (fun frame => frame.datagram = datagram) = none) :
    q.recentlyCommitted datagram now = (q.expireRecent now, false) := by
  rw [recentlyCommitted]
  dsimp only
  rw [h]

theorem recentlyCommitted_of_some {datagram : Bytes} {now : ℕ} {retained : RecentFrame}
    (h : (q.expireRecent now).recent.find? (fun frame => frame.datagram = datagram) =
      some retained) :
    q.recentlyCommitted datagram now = ({ q with
      recent := (q.expireRecent now).recent.eraseP (fun frame => frame.datagram = datagram) ++
        [retained] }, true) := by
  rw [recentlyCommitted]
  dsimp only
  rw [h]
  rfl

/-- What a call of `process_next` can do. -/
inductive Processes (q : InboundFrameQueue) (now : ℕ) : IngressProcessStatus →
    InboundFrameQueue → Prop
  | closed (hstopped : q.stopped = true) : Processes q now .closed q
  | empty {q' : InboundFrameQueue} (hstopped : q.stopped = false) (hqueue : q.queue = [])
    (hmatches : Matches (q.taken now []) q') : Processes q now .empty q'
  | stale {q' : InboundFrameQueue} {queued : QueuedFrame} {rest : List QueuedFrame}
    (hstopped : q.stopped = false) (hqueue : q.queue = queued :: rest) (hstale : queued.stale now)
    (hmatches : Matches (q.taken now rest) q') : Processes q now .stale q'
  | duplicate {q' : InboundFrameQueue} {queued : QueuedFrame} {rest : List QueuedFrame}
    {retained : RecentFrame} (hstopped : q.stopped = false) (hqueue : q.queue = queued :: rest)
    (hstale : ¬queued.stale now)
    (hfound : (q.expireRecent now).recent.find? (fun frame => frame.datagram = queued.datagram) =
      some retained)
    (hmatches : Matches { q.taken now rest with
      recent := (q.expireRecent now).recent.eraseP
        (fun frame => frame.datagram = queued.datagram) ++
        [retained] } q') : Processes q now .recentDuplicate q'
  | malformed {q' : InboundFrameQueue} {queued : QueuedFrame} {rest : List QueuedFrame}
    (hstopped : q.stopped = false) (hqueue : q.queue = queued :: rest) (hstale : ¬queued.stale now)
    (hfound : (q.expireRecent now).recent.find?
    (fun frame => frame.datagram = queued.datagram) = none)
    (hmatches : Matches { q.taken now rest with recent := (q.expireRecent now).recent } q') :
    Processes q now .malformed q'
  | passed {q' : InboundFrameQueue} {queued : QueuedFrame} {rest : List QueuedFrame}
    {frame : DataFrame} {status : IngressProcessStatus} (hstopped : q.stopped = false)
    (hqueue : q.queue = queued :: rest) (hstale : ¬queued.stale now)
    (hfound : (q.expireRecent now).recent.find?
    (fun frame => frame.datagram = queued.datagram) = none)
    (hdecode : decodeFrame queued.datagram q.mtu = .ok frame)
    (hmatches : Matches { q.taken now rest with
      recent := (q.expireRecent now).recent
      reassembler := ((q.reassembler.expire now).1.accept frame
        queued.receivedTick).1 }.updateMetrics
      q') (hstatus : status ∉ [.empty, .stale, .recentDuplicate, .malformed, .closed]) :
        Processes q now status q'

/-- A call does one of these. -/
theorem processNext_processes (q : InboundFrameQueue) (now : ℕ) :
    Processes q now (q.processNext now).2.status (q.processNext now).1 := by
  rcases hstopped : q.stopped with _ | _
  swap
  · rw [processNext, if_pos hstopped]
    exact .closed hstopped
  rcases hqueue : q.queue with _ | ⟨queued, rest⟩
  · rw [processNext_nil hstopped hqueue]
    exact .empty hstopped hqueue (.refl _)
  rw [processNext_cons hstopped hqueue]
  by_cases hstale : queued.stale now
  · rw [processFrame, if_pos (show queued.receivedTick > now ∨ _ from hstale)]
    exact .stale hstopped hqueue hstale ⟨rfl, rfl, rfl, rfl, rfl, rfl, rfl, rfl⟩
  rw [processFrame, if_neg (show ¬(queued.receivedTick > now ∨ _) from hstale)]
  rcases hfound : (q.expireRecent now).recent.find?
      (fun frame => frame.datagram = queued.datagram) with
    _ | retained
  swap
  · rw [recentlyCommitted_of_some (q := q.taken now rest) hfound]
    exact .duplicate hstopped hqueue hstale hfound ⟨rfl, rfl, rfl, rfl, rfl, rfl, rfl, rfl⟩
  rw [recentlyCommitted_of_none (q := q.taken now rest) hfound]
  dsimp only
  rw [if_neg (by simp)]
  have hmtu : ((q.taken now rest).expireRecent now).mtu = q.mtu := rfl
  rw [hmtu]
  rcases hdecode : decodeFrame queued.datagram q.mtu with error | frame
  · exact .malformed hstopped hqueue hstale hfound ⟨rfl, rfl, rfl, rfl, rfl, rfl, rfl, rfl⟩
  · obtain ⟨hmatches, hstatus⟩ :=
      reassemble_matches ((q.taken now rest).expireRecent now) frame queued.receivedTick
    exact .passed hstopped hqueue hstale hfound hdecode hmatches hstatus

/-! ### Posts given up -/

/-- The calls of `expire` that a call makes, with the state in which each is made. -/
def expiries (q : InboundFrameQueue) : IngressCall → List (Reassembler × ℕ)
  | .processNext now =>
    if q.stopped then []
    else if (q.processNext now).2.status ∈ [.empty, .stale, .recentDuplicate, .malformed] then
      [(q.reassembler, now)]
    else (q.reassembler, now) :: q.queue.head?.toList.map fun queued =>
      ((q.reassembler.expire now).1, queued.receivedTick)
  | _ => []

/-- The slots that time out in a call. -/
def timedOut (q : InboundFrameQueue) (c : IngressCall) : ℕ :=
  ((q.expiries c).map fun (r, now) => r.activeCount - (r.expire now).1.activeCount).sum

end InboundFrameQueue

namespace Reassembler

theorem activeCount_expire (r : Reassembler) (now : ℕ) :
    (r.expire now).1.activeCount + (r.expire now).2 = r.activeCount :=
  SlotTable.countP_sweep rfl (fun _ hover => (Bool.and_eq_true_iff.mp hover).1) r.slots

/-- An earlier tick takes nothing more out. -/
theorem expire_expire (r : Reassembler) {now receivedTick : ℕ} (h : receivedTick ≤ now) :
    (r.expire now).1.expire receivedTick = ((r.expire now).1, 0) := by
  have hslots : ∀ slot ∈ (r.expire now).1.slots,
      (slot.used && deadlineReached receivedTick slot.deadline) = false := by
    intro slot hslot
    rcases SlotTable.mem_sweep hslot with rfl | ⟨-, halive⟩
    · rfl
    · simp only [deadlineReached, Bool.and_eq_false_iff, decide_eq_false_iff_not] at halive ⊢
      exact halive.imp_right (by omega)
  have hquarantined : ∀ entry ∈ (r.expire now).1.quarantined,
      !deadlineReached receivedTick entry.deadline := by
    intro entry hentry
    have hwaits := (List.mem_filter.mp hentry).2
    simp only [deadlineReached, Bool.not_eq_true', decide_eq_false_iff_not] at hwaits ⊢
    omega
  have hcount : (r.expire now).1.slots.countP (fun slot =>
      slot.used && deadlineReached receivedTick slot.deadline) = 0 :=
    List.countP_eq_zero.mpr fun slot hslot => by simp [hslots slot hslot]
  rw [expire, expireSlots, expireQuarantine, hcount, SlotTable.sweep_of_forall hslots]
  dsimp only
  rw [List.filter_eq_self.mpr hquarantined]

end Reassembler

namespace InboundFrameQueue

variable {q : InboundFrameQueue} {events : List CacheEvent} {now : ℕ}

/-! ### The invariant -/

/-- What a call does to the committed datagrams. -/
def cacheEvents (q : InboundFrameQueue) : IngressCall → List CacheEvent
  | .processNext now =>
    if (q.processNext now).2.status = .recentDuplicate then
      q.queue.head?.toList.map fun queued => .hit queued.datagram
    else []
  | .markCommitted canonicalFrames committedTick =>
    rememberEvents q.mtu committedTick (q.expireRecent committedTick).recent canonicalFrames
  | _ => []

def history (q : InboundFrameQueue) : List IngressCall → List CacheEvent
  | [] => []
  | c :: calls => q.cacheEvents c ++ history (q.call c) calls

theorem history_concat (q : InboundFrameQueue) (calls : List IngressCall) (c : IngressCall) :
    q.history (calls ++ [c]) = q.history calls ++ (calls.foldl call q).cacheEvents c := by
  induction calls generalizing q with
  | nil => simp [history]
  | cons first calls ih =>
    rw [List.cons_append, history, history, ih, List.foldl_cons, List.append_assoc]

structure Accounted (q : InboundFrameQueue) (events : List CacheEvent) (now : ℕ) : Prop where
  bounded : q.queue.length ≤ kMaximumInboundFrames
  queuedFrames : q.metrics.queuedFrames = q.queue.length
  activeReassemblies : q.metrics.activeReassemblies = q.reassembler.activeCount
  cached : RecentFrame.Cached q.recent events
  kept : q.stopped = false → RecentFrame.Kept q.recent events now

theorem new_accounted (mtu now : ℕ) : (new mtu).Accounted [] now where
  bounded := Nat.zero_le _
  queuedFrames := rfl
  activeReassemblies := by rfl
  cached := .nil []
  kept _ := .nil [] now

theorem Accounted.enqueue (h : q.Accounted events now) (data : Bytes) (receivedTick : ℕ) :
    (q.enqueue data receivedTick).1.Accounted events now := by
  rcases enqueue_cases q data receivedTick with ⟨hsame, -⟩ | ⟨hroom, haccepted⟩
  · rwa [hsame]
  · rw [haccepted]
    refine ⟨?_, rfl, rfl, h.cached, h.kept⟩
    show (q.queue ++ [_]).length ≤ _
    rw [List.length_append, List.length_singleton]
    exact hroom

theorem Accounted.markCommitted (h : q.Accounted events now) (canonicalFrames : List Bytes) :
    (q.markCommitted canonicalFrames now).Accounted
      (events ++ q.cacheEvents (.markCommitted canonicalFrames now)) now := by
  obtain ⟨hcached, hkept⟩ := rememberFrames_cached q.mtu now canonicalFrames
    (h.cached.filter fun frame => !deadlineReached now frame.deadline)
  exact ⟨h.bounded, h.queuedFrames, h.activeReassemblies, hcached,
    fun hstopped => hkept _ (h.kept hstopped).expire⟩

theorem stop_accounted (q : InboundFrameQueue) (events : List CacheEvent) (now : ℕ) :
    q.stop.Accounted events now where
  bounded := Nat.zero_le _
  queuedFrames := rfl
  activeReassemblies := rfl
  cached := .nil events
  kept hstopped := by simp [InboundFrameQueue.stop, updateMetrics] at hstopped

/-- The counters do not matter. -/
theorem Accounted.of_matches {q' : InboundFrameQueue} (h : q.Accounted events now)
    (hmatches : Matches q q') :
    q'.Accounted events now where
  bounded := hmatches.queue ▸ h.bounded
  queuedFrames := by rw [hmatches.queuedFrames, hmatches.queue, h.queuedFrames]
  activeReassemblies := by
    rw [hmatches.activeReassemblies, hmatches.reassembler, h.activeReassemblies]
  cached := hmatches.recent ▸ h.cached
  kept hstopped := hmatches.recent ▸ h.kept (hmatches.stopped ▸ hstopped)

section Taken

variable {queued : QueuedFrame} {rest : List QueuedFrame} (h : q.Accounted events now)

include h

theorem Accounted.taken (hrest : rest.length ≤ q.queue.length) :
    (q.taken now rest).Accounted events now where
  bounded := Nat.le_trans hrest h.bounded
  queuedFrames := rfl
  activeReassemblies := rfl
  cached := h.cached
  kept := h.kept

theorem Accounted.expireRecent (hrest : rest.length ≤ q.queue.length) :
    { q.taken now rest with recent := (q.expireRecent now).recent }.Accounted events now :=
  { h.taken hrest with
    cached := h.cached.filter _
    kept hstopped := (h.kept hstopped).expire }

theorem Accounted.hit {retained : RecentFrame} (hrest : rest.length ≤ q.queue.length)
    (hfound : (q.expireRecent now).recent.find? (fun frame => frame.datagram = queued.datagram) =
      some retained) :
    Accounted { q.taken now rest with
      recent := (q.expireRecent now).recent.eraseP
        (fun frame => frame.datagram = queued.datagram) ++
        [retained] } (events ++ [.hit queued.datagram]) now :=
  have hbase := h.expireRecent hrest
  { hbase with
    cached := hbase.cached.hit hfound
    kept := fun hstopped => RecentFrame.Kept.hit hfound hbase.cached (hbase.kept hstopped) }

theorem Accounted.processNext :
    (q.processNext now).1.Accounted (events ++ q.cacheEvents (.processNext now)) now := by
  have hprocesses := processNext_processes q now
  rw [cacheEvents]
  generalize (q.processNext now).2.status = status at hprocesses ⊢
  generalize (q.processNext now).1 = q' at hprocesses ⊢
  cases hprocesses with
  | closed hstopped =>
    simp only [reduceCtorEq, if_false, List.append_nil]
    exact ⟨h.bounded, h.queuedFrames, h.activeReassemblies, h.cached, by simp [hstopped]⟩
  | empty hstopped hqueue hmatches =>
    simp only [reduceCtorEq, if_false, List.append_nil]
    exact (h.taken (by simp)).of_matches hmatches
  | stale hstopped hqueue hstale hmatches =>
    simp only [reduceCtorEq, if_false, List.append_nil]
    exact (h.taken (by simp [hqueue])).of_matches hmatches
  | @duplicate _ queued rest retained hstopped hqueue hstale hfound hmatches =>
    rw [if_pos rfl, hqueue]
    exact (h.hit (by simp [hqueue]) hfound).of_matches hmatches
  | @malformed _ queued rest hstopped hqueue hstale hfound hmatches =>
    simp only [reduceCtorEq, if_false, List.append_nil]
    exact (h.expireRecent (by simp [hqueue])).of_matches hmatches
  | @passed _ queued rest frame status hstopped hqueue hstale hfound hdecode hmatches hstatus =>
    have hother : status ≠ .recentDuplicate := by
      rintro rfl
      simp at hstatus
    rw [if_neg hother, List.append_nil]
    have hrest : rest.length ≤ q.queue.length := by simp [hqueue]
    refine Accounted.of_matches ?_ hmatches
    exact { h.expireRecent hrest with queuedFrames := rfl, activeReassemblies := rfl }

end Taken

theorem Accounted.mono {later : ℕ} (h : q.Accounted events now) (hlater : now ≤ later) :
    q.Accounted events later :=
  { h with kept := fun hstopped => (h.kept hstopped).mono hlater }

theorem Accounted.call {c : IngressCall} (h : q.Accounted events now)
    (htick : ∀ tick ∈ c.tick, tick = now) :
    (q.call c).Accounted (events ++ q.cacheEvents c) now := by
  cases c with
  | enqueue data receivedTick =>
    show Accounted _ (events ++ []) now
    rw [List.append_nil]
    exact h.enqueue data receivedTick
  | processNext tick =>
    obtain rfl := htick tick rfl
    exact h.processNext
  | markCommitted canonicalFrames tick =>
    obtain rfl := htick tick rfl
    exact h.markCommitted canonicalFrames
  | stop => exact stop_accounted q _ now

/-- The ticks of a sequence of calls. -/
def ticks (calls : List IngressCall) : List ℕ := calls.filterMap IngressCall.tick

theorem ticks_concat (calls : List IngressCall) (c : IngressCall) :
    ticks (calls ++ [c]) = ticks calls ++ c.tick.toList := by
  rcases htick : c.tick <;> simp [ticks, htick]

theorem run_accounted (mtu : ℕ) (calls : List IngressCall)
    (hsorted : (ticks calls).Pairwise (· ≤ ·))
    (hnow : ∀ tick ∈ ticks calls, tick ≤ now) :
    (run mtu calls).Accounted ((new mtu).history calls) now := by
  induction calls using List.reverseRecOn generalizing now with
  | nil => exact new_accounted mtu now
  | append_singleton calls c ih =>
    rw [ticks_concat] at hsorted hnow
    obtain ⟨hbefore, -, horder⟩ := List.pairwise_append.mp hsorted
    rw [run_concat, history_concat]
    rcases htick : c.tick with _ | tick
    · refine (ih hbefore fun tick hmem => hnow tick ?_).call (by simp [htick])
      exact List.mem_append_left _ hmem
    · -- All calls so far were made at this tick or before.
      rw [htick] at horder hnow
      have hcall := (ih hbefore fun earlier hmem => horder earlier hmem tick (by simp)).call
        (c := c) (by simp [htick])
      exact hcall.mono (hnow tick (by simp))

/-! ### The counters -/

/-- What all outcomes of `process_next` but a closed queue have in common. -/
theorem Processes.counters {status : IngressProcessStatus} {q' : InboundFrameQueue}
    (h : Processes q now status q') (hstopped : q.stopped = false) :
    q'.stopped = false ∧ q'.queue = q.queue.tail ∧ (status = .empty ↔ q.queue = []) ∧
      q'.metrics.expiredReassemblies =
        q.metrics.expiredReassemblies + (q.reassembler.expire now).2 := by
  cases h with
  | closed hclosed => simp [hclosed] at hstopped
  | empty hstopped hqueue hmatches =>
    exact ⟨hmatches.stopped.trans hstopped, by rw [hmatches.queue, hqueue]; rfl, by simp [hqueue],
      hmatches.expiredReassemblies⟩
  | stale hstopped hqueue hstale hmatches =>
    exact ⟨hmatches.stopped.trans hstopped, by rw [hmatches.queue, hqueue]; rfl, by simp [hqueue],
      hmatches.expiredReassemblies⟩
  | duplicate hstopped hqueue hstale hfound hmatches =>
    exact ⟨hmatches.stopped.trans hstopped, by rw [hmatches.queue, hqueue]; rfl, by simp [hqueue],
      hmatches.expiredReassemblies⟩
  | malformed hstopped hqueue hstale hfound hmatches =>
    exact ⟨hmatches.stopped.trans hstopped, by rw [hmatches.queue, hqueue]; rfl, by simp [hqueue],
      hmatches.expiredReassemblies⟩
  | passed hstopped hqueue hstale hfound hdecode hmatches hstatus =>
    refine ⟨hmatches.stopped.trans hstopped, by rw [hmatches.queue, hqueue]; rfl, ?_,
      hmatches.expiredReassemblies⟩
    simp only [hqueue, reduceCtorEq, iff_false]
    rintro rfl
    simp at hstatus

theorem Processes.passes {status : IngressProcessStatus} {q' : InboundFrameQueue}
    (h : Processes q now status q') (hstopped : q.stopped = false)
    (hstatus : status ∉ [.empty, .stale, .recentDuplicate, .malformed]) :
    ∃ queued rest, q.queue = queued :: rest ∧ ¬queued.stale now := by
  cases h with
  | closed hclosed => simp [hclosed] at hstopped
  | passed _ hqueue hstale => exact ⟨_, _, hqueue, hstale⟩
  | _ => simp at hstatus

/-- A call that is not `stop` moves a datagram in or out. -/
theorem call_length {c : IngressCall} (hstopped : q.stopped = false) (hstop : c ≠ .stop) :
    (q.call c).queue.length + q.processed c = q.queue.length + q.accepted c ∧
      (q.call c).stopped = false := by
  cases c with
  | enqueue data receivedTick =>
    rw [call, accepted]
    rcases enqueue_cases q data receivedTick with ⟨hsame, hstatus⟩ | ⟨-, haccepted⟩
    · rw [hsame, if_neg hstatus]
      exact ⟨rfl, hstopped⟩
    · rw [haccepted, if_pos rfl]
      exact ⟨by simp [updateMetrics, processed], hstopped⟩
  | processNext now =>
    obtain ⟨hstill, hqueue, hempty, -⟩ := (processNext_processes q now).counters hstopped
    refine ⟨?_, hstill⟩
    show (q.processNext now).1.queue.length + (if _ then 1 else 0) = _ + 0
    rw [hqueue]
    rcases hhead : q.queue with _ | ⟨queued, rest⟩
    · rw [if_neg (not_not.mpr (hempty.mpr hhead))]
      rfl
    · rw [if_pos (fun hnone => by simp [hempty.mp hnone] at hhead)]
      rfl
  | markCommitted canonicalFrames committedTick => exact ⟨rfl, hstopped⟩
  | stop => exact absurd rfl hstop

theorem run_length {mtu : ℕ} (calls : List IngressCall) (hstop : .stop ∉ calls) :
    (run mtu calls).stopped = false ∧ total accepted (new mtu) calls =
      (run mtu calls).queue.length + total processed (new mtu) calls := by
  induction calls using List.reverseRecOn with
  | nil => exact ⟨rfl, rfl⟩
  | append_singleton calls c ih =>
    obtain ⟨hstopped, hcount⟩ := ih fun hmem => hstop (List.mem_append_left _ hmem)
    have hother : c ≠ .stop := by
      rintro rfl
      simp at hstop
    obtain ⟨hlength, hstill⟩ := call_length hstopped hother
    rw [run_concat, total_concat, total_concat]
    refine ⟨hstill, ?_⟩
    change _ + (run mtu calls).accepted c = _ + (_ + (run mtu calls).processed c)
    omega

/-- Only the first call of `expire` in a call gives up posts, and it counts them. -/
theorem call_expiredReassemblies (q : InboundFrameQueue) (c : IngressCall) :
    (q.call c).metrics.expiredReassemblies = q.metrics.expiredReassemblies + q.timedOut c := by
  cases c with
  | enqueue data receivedTick =>
    rw [call]
    rcases enqueue_cases q data receivedTick with ⟨hsame, -⟩ | ⟨-, haccepted⟩
    · rw [hsame]
      rfl
    · rw [haccepted]
      rfl
  | processNext now =>
    rcases hstopped : q.stopped with _ | _
    swap
    · have hclosed : q.processNext now = (q, ⟨.closed, none⟩) :=
        by rw [InboundFrameQueue.processNext, if_pos hstopped]
      rw [call, hclosed, timedOut, expiries, if_pos hstopped]
      rfl
    obtain ⟨-, -, -, hcount⟩ := (processNext_processes q now).counters hstopped
    have hfirst : q.reassembler.activeCount - (q.reassembler.expire now).1.activeCount =
        (q.reassembler.expire now).2 := by
      have hactive := q.reassembler.activeCount_expire now
      omega
    rw [call, hcount, timedOut, expiries, if_neg (by simp [hstopped])]
    by_cases hstatus : (q.processNext now).2.status ∈ [.empty, .stale, .recentDuplicate, .malformed]
    · rw [if_pos hstatus]
      simp [hfirst]
    · obtain ⟨queued, rest, hqueue, hstale⟩ := (processNext_processes q now).passes hstopped hstatus
      have hsecond := q.reassembler.expire_expire (Nat.le_of_not_lt fun hlt => hstale (.inl hlt))
      rw [if_neg hstatus, hqueue]
      simp [hfirst, hsecond]
  | markCommitted canonicalFrames committedTick => rfl
  | stop => rfl

theorem run_expiredReassemblies (mtu : ℕ) (calls : List IngressCall) :
    (run mtu calls).metrics.expiredReassemblies = total timedOut (new mtu) calls := by
  induction calls using List.reverseRecOn with
  | nil => rfl
  | append_singleton calls c ih =>
    rw [run_concat, call_expiredReassemblies, ih, total_concat]
    rfl

/-! ### Datagrams that come in again -/

section Duplicate

variable {queued : QueuedFrame} {rest : List QueuedFrame} (hstopped : q.stopped = false)
  (hqueue : q.queue = queued :: rest) (hstale : ¬queued.stale now)

include hstopped hqueue hstale

theorem recentDuplicate_iff : (q.processNext now).2.status = .recentDuplicate ↔
    ∃ frame ∈ q.recent, frame.datagram = queued.datagram ∧ now < frame.deadline := by
  have hfound : (∃ retained, (q.expireRecent now).recent.find?
      (fun frame => frame.datagram = queued.datagram) = some retained) ↔
      ∃ frame ∈ q.recent, frame.datagram = queued.datagram ∧ now < frame.deadline := by
    rw [← Option.isSome_iff_exists, List.find?_isSome]
    simp [expireRecent, deadlineReached, and_assoc, and_comm]
  rw [← hfound]
  have hprocesses := processNext_processes q now
  generalize (q.processNext now).2.status = status at hprocesses ⊢
  generalize (q.processNext now).1 = q' at hprocesses
  cases hprocesses with
  | closed hclosed => simp [hclosed] at hstopped
  | empty _ hempty => simp [hempty] at hqueue
  | stale _ hsame hold =>
    obtain ⟨rfl, rfl⟩ := List.cons.inj (hqueue.symm.trans hsame)
    exact absurd hold hstale
  | duplicate _ hsame _ hretained =>
    obtain ⟨rfl, rfl⟩ := List.cons.inj (hqueue.symm.trans hsame)
    exact ⟨fun _ => ⟨_, hretained⟩, fun _ => rfl⟩
  | malformed _ hsame _ hnone =>
    obtain ⟨rfl, rfl⟩ := List.cons.inj (hqueue.symm.trans hsame)
    simp [hnone]
  | passed _ hsame _ hnone _ _ hstatus =>
    obtain ⟨rfl, rfl⟩ := List.cons.inj (hqueue.symm.trans hsame)
    refine ⟨?_, by simp [hnone]⟩
    rintro rfl
    simp at hstatus

/-- A committed datagram is known until its deadline, while few others come. -/
theorem Accounted.recentDuplicate (h : q.Accounted events now) {committedTick : ℕ}
    {since : List CacheEvent}
    (hlast : CacheEvent.LastInserted events queued.datagram committedTick since)
    (hearly : now < RecentFrame.deadlineOf committedTick)
    (hfew : (CacheEvent.others queued.datagram since).length < kMaximumRecentFrames) :
    (q.processNext now).2.status = .recentDuplicate := by
  rcases h.kept hstopped queued.datagram committedTick since hlast hearly with hheld | hmany
  · exact (recentDuplicate_iff hstopped hqueue hstale).mpr ⟨_, hheld.mem, rfl, hearly⟩
  · exact absurd hmany (CacheEvent.not_outnumbered hfew)

end Duplicate

/-- The state after any calls at ticks that do not go back. -/
theorem ingress_accounting (mtu : ℕ) (calls : List IngressCall)
    (hsorted : (ticks calls).Pairwise (· ≤ ·)) :
    (run mtu calls).queue.length ≤ 64 ∧
    (run mtu calls).recent.length ≤ 128 ∧
    ((run mtu calls).recent.map RecentFrame.datagram).Nodup ∧
    (.stop ∉ calls → total accepted (new mtu) calls =
      (run mtu calls).queue.length + total processed (new mtu) calls) ∧
    (∀ frame ∈ (run mtu calls).recent, ∃ committedTick since,
      CacheEvent.LastInserted ((new mtu).history calls) frame.datagram committedTick since ∧
      frame.deadline = saturatingDeadline committedTick 60000) ∧
    (∀ now queued rest, (∀ tick ∈ ticks calls, tick ≤ now) → (run mtu calls).stopped = false →
      (run mtu calls).queue = queued :: rest → ¬queued.stale now →
      (∀ committedTick since,
        CacheEvent.LastInserted ((new mtu).history calls) queued.datagram committedTick since →
        now < saturatingDeadline committedTick 60000 →
        (CacheEvent.others queued.datagram since).length < 128 →
        ((run mtu calls).processNext now).2.status = .recentDuplicate) ∧
      (((run mtu calls).processNext now).2.status = .recentDuplicate → ∃ committedTick since,
        CacheEvent.LastInserted ((new mtu).history calls) queued.datagram committedTick since ∧
        now < saturatingDeadline committedTick 60000) ∧
      ((run mtu calls).reassembler.expire now).1.expire queued.receivedTick =
        (((run mtu calls).reassembler.expire now).1, 0)) ∧
    (run mtu calls).metrics.expiredReassemblies = total timedOut (new mtu) calls ∧
    (run mtu calls).metrics.queuedFrames = (run mtu calls).queue.length ∧
    (run mtu calls).metrics.activeReassemblies = (run mtu calls).reassembler.activeCount := by
  have hall : (run mtu calls).Accounted ((new mtu).history calls) ((ticks calls).max?.getD 0) :=
    run_accounted mtu calls hsorted fun _ => List.le_max?_getD_of_mem
  refine ⟨hall.bounded, hall.cached.bounded, hall.cached.distinct,
    fun hstop => (run_length calls hstop).2, hall.cached.dated, ?_,
      run_expiredReassemblies mtu calls,
    hall.queuedFrames, hall.activeReassemblies⟩
  intro now queued rest hnow hstopped hqueue hstale
  have haccounted := run_accounted mtu calls hsorted hnow
  refine ⟨fun committedTick since hlast hearly hfew =>
    haccounted.recentDuplicate hstopped hqueue hstale hlast hearly hfew, ?_,
    Reassembler.expire_expire _ (Nat.le_of_not_lt fun hlt => hstale (.inl hlt))⟩
  intro hstatus
  obtain ⟨frame, hframe, hdatagram, hearly⟩ :=
    (recentDuplicate_iff hstopped hqueue hstale).mp hstatus
  obtain ⟨committedTick, since, hlast, hdeadline⟩ := haccounted.cached.dated frame hframe
  rw [hdeadline] at hearly
  exact ⟨committedTick, since, hdatagram ▸ hlast, hearly⟩

def committedDatagram : Bytes := List.replicate kFrameHeaderBytes 0

/-- A datagram is committed and comes in again. -/
def commitAgain : List IngressCall :=
  [.enqueue committedDatagram 3, .processNext 4, .markCommitted [committedDatagram] 5,
    .enqueue committedDatagram 6]

theorem ingress_accounting_commitAgain : (ticks commitAgain).Pairwise (· ≤ ·) ∧
    ((run 255 commitAgain).processNext 7).2.status = .recentDuplicate := by
  have hsorted : (ticks commitAgain).Pairwise (· ≤ ·) := by decide
  obtain ⟨-, -, -, -, -, hprocess, -⟩ := ingress_accounting 255 commitAgain hsorted
  have hstale : ¬(QueuedFrame.mk committedDatagram 6).stale 7 := by
    rintro (hfuture | hold)
    · simp at hfuture
    · simp [kReassemblyTimeoutTicks] at hold
  have hhistory : (new 255).history commitAgain = [.inserted committedDatagram 5] :=
    by decide +kernel
  obtain ⟨hknown, -, -⟩ := hprocess 7 ⟨committedDatagram, 6⟩ [] (by decide) (by decide +kernel)
    (by rfl) hstale
  exact ⟨hsorted, hknown 5 [] ⟨⟨[], hhistory⟩, by simp⟩ (by decide +kernel) (by decide +kernel)⟩

end InboundFrameQueue

end Lora
