/-
What a process makes of what it hears.

During a pump a process asks its radio for datagrams.  If each of them is known, or is no
frame, then a post that gets into the timeline is spelt by known datagrams, in whatever
way the saves fail and wherever the process ends.

* `Radio.Calls` — the states that calls of the ports lead to;
* `IsFrameOf.at_mtu` — frames at two datagram sizes;
* `Hearing` — what holds during a pump, kept by `wp_pump_hearing`.
-/
import LoraMessenger.RadioLifetimes
import LoraMessenger.ReceivePipeline

namespace Lora

open Crash

/-! ### Frames and datagram sizes -/

section Sizes

variable {datagram : Bytes} {frame : DataFrame} {post : PostPayload} {mtu mtu' : ℕ}

/-- What a datagram is read as does not depend on the datagram size. -/
theorem decodeFrame_unique {other : DataFrame} (h : decodeFrame datagram mtu = .ok frame)
    (h' : decodeFrame datagram mtu' = .ok other) : frame = other := by
  simp only [decodeFrame, Guard.ite_error_eq_ok, Except.ok.injEq] at h h'
  obtain ⟨-, -, -, -, -, -, -, -, -, rfl⟩ := h
  obtain ⟨-, -, -, -, -, -, -, -, -, rfl⟩ := h'
  rfl

/-- A frame that is valid at two datagram sizes carries its post alone. -/
theorem FrameValid.count_eq_one (h : FrameValid mtu frame) (h' : FrameValid mtu' frame)
    (hmtu : mtu ≠ mtu') : frame.fragmentCount.toNat = 1 := by
  obtain ⟨hcapacity, hlow, -⟩ := capacity_bounds h.1
  obtain ⟨hcapacity', hlow', -⟩ := capacity_bounds h'.1
  have hshape := (frameValid_iff_shape h.1).mp h
  have hshape' := (frameValid_iff_shape h'.1).mp h'
  obtain ⟨hpos, -⟩ := hshape.payload_bounds (by omega)
  have hindex := hshape.fragmentIndex
  have hpayload := hshape.payload
  rw [hshape'.payload] at hpayload hpos
  by_contra hcount
  obtain ⟨count, hcount⟩ : ∃ count, frame.fragmentCount.toNat = count + 2 :=
    ⟨frame.fragmentCount.toNat - 2, by omega⟩
  rw [hcount] at hpayload hpos
  split at hpayload
  · -- a fragment before the last one is as long as the capacity
    omega
  · -- the last one is what the others have left
    rename_i hlast
    rw [if_neg hlast] at hpos
    have hpos' := (hshape.payload_bounds (by omega)).1
    rw [hshape.payload, hcount, if_neg hlast] at hpos'
    have hproduct : framePayloadCapacity mtu * (count + 1) =
        framePayloadCapacity mtu' * (count + 1) := by
      rw [show count + 2 - 1 = count + 1 from rfl] at hpayload hpos hpos'
      omega
    have hsame := Nat.eq_of_mul_eq_mul_right (Nat.succ_pos count) hproduct
    omega

/-- A post that fits into one frame has the same frame at all sizes into which it fits. -/
theorem postFrames_of_single (hmtu : isSupportedMtu mtu) (hcount : postFragmentCount post mtu = 1) :
    postFrames post mtu = [fragmentFrame post (postBytes post) (postBytes post).length 1 0] := by
  obtain ⟨-, hlow, -⟩ := capacity_bounds hmtu
  obtain ⟨hmin, -⟩ := length_postBytes_bounds post
  obtain ⟨-, -, hhigh⟩ := fragmentCountOf_bounds (postBytes post).length
    (framePayloadCapacity mtu) (by omega) (by omega)
  rw [show fragmentCountOf (postBytes post).length (framePayloadCapacity mtu) = 1 from hcount,
    Nat.mul_one] at hhigh
  rw [postFrames, hcount]
  simp only [List.range_one, List.map_cons, List.map_nil, postFrame, hcount, fragmentFrame,
    Nat.zero_mul, Nat.sub_zero, List.drop_zero, Nat.min_self]
  rw [Nat.min_eq_right hhigh]

/-- A frame that can be read at another datagram size is one of the frames of its post there,
and the post has no others. -/
theorem IsFrameOf.at_mtu (hmtu' : isSupportedMtu mtu') (h : IsFrameOf post mtu' frame)
    (hvalid : FrameValid mtu frame) : postFrames post mtu' = postFrames post mtu := by
  by_cases hsame : mtu = mtu'
  · rw [hsame]
  obtain ⟨index, hindex, rfl⟩ := (isFrameOf_iff hmtu').mp h
  have hone := hvalid.count_eq_one (postFrame_valid post hmtu' hindex) hsame
  have hone' : postFragmentCount post mtu' = 1 := by
    rw [← postFrame_count index hmtu', hone]
  have hshape := (frameValid_iff_shape hvalid.1).mp hvalid
  have hcount := hshape.fragmentCount
  rw [hone, postFrame_total] at hcount
  rw [postFrames_of_single hmtu' hone', postFrames_of_single hvalid.1 hcount.symm]

end Sizes

/-! ### Calls of the ports -/

/-- The states that calls of the ports lead to from a state. -/
inductive Radio.Calls {ε : Type} (radio : Radio ε) (start : ε) : ε → Prop where
  | refl : Calls radio start start
  | trySend {state : ε} (datagram : Bytes) (h : Calls radio start state) :
      Calls radio start (radio.trySend datagram state).2
  | tryReceive {state : ε} (capacity : ℕ) (h : Calls radio start state) :
      Calls radio start (radio.tryReceive capacity state).2
  | evaluateTransmit {state : ε} (now size : ℕ) (h : Calls radio start state) :
      Calls radio start (radio.evaluateTransmit now size state).2
  | recordTransmit {state : ε} (now size : ℕ) (h : Calls radio start state) :
      Calls radio start (radio.recordTransmit now size state)
  | fill {state : ε} (size : ℕ) (h : Calls radio start state) :
      Calls radio start (radio.fill size state).2
  | close {state : ε} (h : Calls radio start state) : Calls radio start (radio.close state)

section Calls

variable {ε : Type} {radio : Radio ε} {start state : ε}

theorem Radio.Calls.trans {last : ε} (h : radio.Calls start state) (h' : radio.Calls state last) :
    radio.Calls start last := by
  induction h' with
  | refl => exact h
  | trySend datagram _ ih => exact .trySend datagram ih
  | tryReceive capacity _ ih => exact .tryReceive capacity ih
  | evaluateTransmit now size _ ih => exact .evaluateTransmit now size ih
  | recordTransmit now size _ ih => exact .recordTransmit now size ih
  | fill size _ ih => exact .fill size ih
  | close _ ih => exact .close ih

/-- A radio with a record takes the same calls. -/
theorem Radio.Calls.of_recording {first last : ε × List Offer}
    (h : radio.recording.Calls first last) : radio.Calls first.1 last.1 := by
  induction h with
  | refl => exact .refl
  | trySend datagram _ ih => exact .trySend datagram ih
  | tryReceive capacity _ ih => exact .tryReceive capacity ih
  | evaluateTransmit now size _ ih => exact .evaluateTransmit now size ih
  | recordTransmit now size _ ih => exact .recordTransmit now size ih
  | fill size _ ih => exact .fill size ih
  | close _ ih => exact .close ih

theorem Scheduler.enqueue_calls (h : radio.Calls start state) (post : PostPayload) (mtu now : ℕ)
    (scheduler : Scheduler) :
    radio.Calls start (Scheduler.enqueue radio post mtu now scheduler state).2 := by
  rw [Scheduler.enqueue]
  split
  · exact h
  split
  · exact h
  split
  · exact h
  split
  · exact h
  rename_i fragmented _
  have hfill := Radio.Calls.fill (2 * fragmented.length + 2) h
  split
  · rename_i next heq
    rw [heq] at hfill
    exact hfill
  · rename_i jitter next heq
    rw [heq] at hfill
    exact hfill

theorem Scheduler.offer_calls (h : radio.Calls start state) (now : ℕ) (scheduler : Scheduler)
    (pending : PendingMessage) :
    radio.Calls start (Scheduler.offer radio now scheduler pending state).2 := by
  have hsend := Radio.Calls.trySend pending.frame h
  simp only [Scheduler.offer]
  split
  · exact hsend
  · exact hsend
  · exact hsend
  · exact hsend
  · exact .recordTransmit now _ hsend

theorem Scheduler.pump_calls (h : radio.Calls start state) (now : ℕ) (scheduler : Scheduler) :
    radio.Calls start (Scheduler.pump radio now scheduler state).2 := by
  rw [Scheduler.pump]
  split
  · exact h
  rename_i pending _ _
  split
  · exact h
  split
  · exact h
  split
  · exact h
  split
  · exact h
  have hevaluate := Radio.Calls.evaluateTransmit now pending.frame.length h
  dsimp only
  split
  · exact hevaluate
  · exact hevaluate
  · exact hevaluate
  · exact Scheduler.offer_calls hevaluate now scheduler pending

end Calls

/-! ### Posts spelt by known datagrams -/

/-- All frames of the post, at some datagram size, are known. -/
def SpeltBy (known : Bytes → Prop) (post : PostPayload) : Prop :=
  ∃ mtu, isSupportedMtu mtu ∧ ∀ frame ∈ postFrames post mtu, known (frameBytes frame)

/-- A received post of the disk was received on the old disk, or is spelt by known datagrams. -/
def Disk.HeardFrom (disk : Disk) (known : Bytes → Prop) (old : Disk) : Prop :=
  ∀ entry ∈ disk.entries, entry.origin = .receivedOrigin →
    (∃ before ∈ old.entries, before.post = entry.post ∧ before.origin = .receivedOrigin) ∨
      SpeltBy known entry.post

section Spelt

variable {known known' : Bytes → Prop} {old disk disk' : Disk}

theorem SpeltBy.mono (hknown : ∀ datagram, known datagram → known' datagram) {post : PostPayload}
    (h : SpeltBy known post) : SpeltBy known' post := by
  obtain ⟨mtu, hmtu, hframes⟩ := h
  exact ⟨mtu, hmtu, fun frame hframe => hknown _ (hframes frame hframe)⟩

theorem Disk.HeardFrom.mono (h : disk.HeardFrom known old)
    (hknown : ∀ datagram, known datagram → known' datagram) : disk.HeardFrom known' old := by
  intro entry hentry horigin
  exact (h entry hentry horigin).imp_right (SpeltBy.mono hknown)

/-- Only a received post that is spelt by known datagrams may be added. -/
theorem Disk.HeardFrom.reaches (h : disk.HeardFrom known old) {allowed : Cause → Prop}
    (hreach : Reaches allowed disk disk')
    (hallowed : ∀ post, allowed (.commit (.received post)) → SpeltBy known post) :
    disk'.HeardFrom known old := by
  have hkeeps : ∀ cause before after, allowed cause → DiskStep cause before after →
      before.HeardFrom known old → after.HeardFrom known old := by
    intro cause before after hcause hstep hbefore entry hentry horigin
    cases hstep.mem_entries hentry with
    | kept hkept => exact hbefore entry hkept horigin
    | settled _ _ _ horigin' =>
      rw [horigin] at horigin'
      cases horigin'
    | received hreceived =>
      subst hreceived
      exact .inr (hallowed entry.post hcause)
    | composed _ horigin' =>
      rw [horigin] at horigin'
      cases horigin'
  exact hreach.keeps hkeeps h

/-- A post that the reassembler has put together from known frames. -/
theorem SpeltFrom.speltBy {mtu : ℕ} {completed : CompletedPost}
    (h : SpeltFrom mtu (fun frame => known (frameBytes frame)) completed) :
    completed.canonicalPost = postBytes completed.post ∧ SpeltBy known completed.post := by
  obtain ⟨hmtu, hcanonical, hparts⟩ := h
  refine ⟨?_, mtu, hmtu, hparts⟩
  rw [hcanonical]
  rfl

end Spelt

/-! ### A process -/

namespace InboundFrameQueue

theorem enqueue_stopped (q : InboundFrameQueue) (data : Bytes) (receivedTick : ℕ) :
    (q.enqueue data receivedTick).1.stopped = q.stopped := by
  unfold enqueue
  split
  · rfl
  split
  · rfl
  split
  · rfl
  · rfl

theorem processFrame_stopped (q : InboundFrameQueue) (queued : QueuedFrame) (now : ℕ) :
    (q.processFrame queued now).1.stopped = q.stopped := by
  have hrecent : (q.recentlyCommitted queued.datagram now).1.stopped = q.stopped := by
    unfold recentlyCommitted
    dsimp only
    split
    · rfl
    · rfl
  unfold processFrame
  split
  · rfl
  dsimp only
  split
  · exact hrecent
  split
  · exact hrecent
  · -- every answer of the reassembler is only counted
    refine Eq.trans ?_ hrecent
    unfold reassemble
    dsimp only
    split
    all_goals rfl

/-- Only `stop` stops a queue. -/
theorem processNext_stopped (q : InboundFrameQueue) (now : ℕ) :
    (q.processNext now).1.stopped = q.stopped := by
  unfold processNext
  split
  · rfl
  dsimp only
  split
  · rfl
  · exact processFrame_stopped ..

end InboundFrameQueue

/-- What a process leaves behind at any time. -/
structure Legacy.Heard (known : Bytes → Prop) (old : Disk) (base : List SchedulerEvent)
    (legacy : Legacy) : Prop where
  heard : legacy.disk.HeardFrom known old
  behind : old.LedgerBehind → legacy.disk.LedgerBehind
  grown : base <+: legacy.record.log

/-- The process has heard only what is known, and its record has only grown. -/
structure Hearing {ε : Type} (radio : Radio ε) (known : Bytes → Prop) (old : Disk)
    (base : List SchedulerEvent) (mtu : ℕ) (start : ε) (m : Machine (Process ε) Legacy) : Prop
    extends Legacy.Heard known old base m.durable where
  agrees : Agrees m.memory.session m.durable.disk
  log : m.durable.record.log = m.memory.runtime.scheduler.log
  calls : radio.Calls start m.memory.radio
  fed : m.memory.runtime.inbound.FedFrom mtu fun frame => known (frameBytes frame)
  sized : m.memory.runtime.valid = true → isSupportedMtu mtu
  alike : m.memory.runtime.inbound.stopped = m.memory.runtime.stopped

section Hearing

variable {ε : Type} {radio : Radio ε} {known : Bytes → Prop} {old : Disk}
  {base : List SchedulerEvent} {mtu : ℕ} {start : ε} {m : Machine (Process ε) Legacy}

/-- Calls of the session whose causes bring no other posts. -/
theorem Hearing.wp_onSession (h : Hearing radio known old base mtu start m) {α : Type}
    {program : SessionM α} {causes : Cause → Prop}
    (hwp : wp program (fun _ inner => Settled causes m.durable.disk inner)
      (Reaches causes m.durable.disk) ⟨m.memory.session, m.durable.disk, m.faults⟩)
    (hcauses : ∀ post, causes (.commit (.received post)) → SpeltBy known post) :
    wp (Process.onSession program : RuntimeM ε α)
      (fun _ m' => Hearing radio known old base mtu start m') (Legacy.Heard known old base) m := by
  rw [Process.onSession, wp_within]
  refine wp_mono hwp ?_ ?_
  · intro value inner hinner
    obtain ⟨hreach, hagrees⟩ := hinner
    exact ⟨⟨h.heard.reaches hreach hcauses, fun hold => hreach.ledgerBehind (h.behind hold),
      h.grown⟩, hagrees, h.log, h.calls, h.fed, h.sized, h.alike⟩
  · intro disk hreach
    exact ⟨h.heard.reaches hreach hcauses, fun hold => hreach.ledgerBehind (h.behind hold), h.grown⟩

theorem Hearing.count (h : Hearing radio known old base mtu start m)
    (change : RadioRuntimeMetrics → RadioRuntimeMetrics) :
    wp (Process.count change : RuntimeM ε Unit)
      (fun _ m' => Hearing radio known old base mtu start m') (Legacy.Heard known old base) m :=
  ⟨h.toHeard, h.agrees, h.log, h.calls, h.fed, h.sized, h.alike⟩

/-- The scheduler moves on, and nothing is taken off its record. -/
theorem Hearing.rescheduled (h : Hearing radio known old base mtu start m) {t : Tracked} {state : ε}
    (hlog : m.memory.runtime.scheduler.log <+: t.log) (hcalls : radio.Calls start state) :
    Hearing radio known old base mtu start (Machine.rescheduled m t state) where
  heard := h.heard
  behind := h.behind
  grown := h.grown.trans (h.log ▸ hlog)
  agrees := h.agrees
  log := rfl
  calls := hcalls
  fed := h.fed
  sized := h.sized
  alike := h.alike

/-! ### The outbound half of a pump -/

theorem wp_mark_hearing (h : Hearing radio known old base mtu start m) (event : OutboundEvent) :
    wp (RadioRuntime.mark event) (fun _ m' => Hearing radio known old base mtu start m')
      (Legacy.Heard known old base) m := by
  have hdeliver : wp (RadioRuntime.deliver event)
      (fun _ inner => Settled (· = .commit (.delivered event.messageId event.state.delivery))
        m.durable.disk inner)
      (Reaches (· = .commit (.delivered event.messageId event.state.delivery)) m.durable.disk)
      ⟨m.memory.session, m.durable.disk, m.faults⟩ := by
    obtain ⟨messageId, state⟩ := event
    cases state with
    | broadcast =>
      have hcall := Lora.wp_call (m := ⟨m.memory.session, m.durable.disk, m.faults⟩) h.agrees
        (.markBroadcast messageId)
      rwa [Session.call, wp_bind] at hcall
    | failed =>
      have hcall := Lora.wp_call (m := ⟨m.memory.session, m.durable.disk, m.faults⟩) h.agrees
        (.markFailed messageId)
      rwa [Session.call, wp_bind] at hcall
  rw [RadioRuntime.mark, wp_bind]
  refine wp_mono (h.wp_onSession hdeliver (by simp)) ?_ (fun _ hheard => hheard)
  intro result m' h'
  split
  · rw [wp_bind]
    refine wp_mono (h'.count _) (fun _ m'' h'' => ?_) (fun _ hheard => hheard)
    -- the outcome goes into the record, and the log stays
    exact ⟨⟨h''.heard, h''.behind, h''.grown⟩, h''.agrees, h''.log, h''.calls, h''.fed, h''.sized,
      h''.alike⟩
  · exact h'

theorem wp_enqueue_hearing (h : Hearing radio known old base mtu start m) (post : PostPayload)
    (now : ℕ) :
    wp (RadioRuntime.enqueue radio post now)
      (fun _ m' => Hearing radio known old base mtu start m') (Legacy.Heard known old base) m := by
  have hlog : m.memory.runtime.scheduler.log <+: (m.memory.runtime.scheduler.enqueue radio post
      (radio.maximumDatagramSize m.memory.radio) now m.memory.radio).log := by
    rcases Tracked.enqueue_cases (t := m.memory.runtime.scheduler) radio post
        (radio.maximumDatagramSize m.memory.radio) now m.memory.radio with ⟨-, hlog, -⟩ | ⟨-, hsame⟩
    · rw [hlog]
      exact List.prefix_append _ _
    · exact ⟨[], by rw [hsame, List.append_nil]⟩
  exact h.rescheduled hlog (Scheduler.enqueue_calls h.calls post _ now _)

theorem wp_enqueueEntries_hearing (h : Hearing radio known old base mtu start m) (now : ℕ)
    (entries : List TimelineEntry) :
    wp (RadioRuntime.enqueueEntries radio now entries)
      (fun _ m' => Hearing radio known old base mtu start m') (Legacy.Heard known old base) m := by
  induction entries generalizing m with
  | nil => exact h
  | cons entry rest ih =>
    rw [RadioRuntime.enqueueEntries]
    split
    · exact ih h
    rw [wp_bind]
    refine wp_mono (wp_enqueue_hearing h entry.post now) ?_ (fun _ hheard => hheard)
    intro error m' h'
    have hmarked : wp (do
          if ← RadioRuntime.mark ⟨entry.post.messageId, .failed⟩ then pure true
          else RadioRuntime.enqueueEntries radio now rest)
        (fun _ m' => Hearing radio known old base mtu start m')
        (Legacy.Heard known old base) m' := by
      rw [wp_bind]
      refine wp_mono (wp_mark_hearing h' _) (fun result m'' h'' => ?_) (fun _ hheard => hheard)
      cases result with
      | true => exact h''
      | false => exact ih h''
    cases error with
    | none => exact ih h'
    | duplicateMessage => exact ih h'
    | queueFull => exact ih h'
    | invalidMtu => exact hmarked
    | invalidPost => exact hmarked
    | randomUnavailable => exact hmarked

theorem wp_pumpOutbound_hearing (h : Hearing radio known old base mtu start m) (now : ℕ) :
    wp (RadioRuntime.pumpOutbound radio now)
      (fun _ m' => Hearing radio known old base mtu start m') (Legacy.Heard known old base) m := by
  have hpumped : Hearing radio known old base mtu start (Machine.rescheduled m
      (m.memory.runtime.scheduler.pump radio now m.memory.radio)
      (Scheduler.pump radio.recording now m.memory.runtime.scheduler.scheduler
        (m.memory.radio, [])).2.1) := by
    refine h.rescheduled ?_ ?_
    · simp only [Tracked.pump, List.append_assoc]
      exact List.prefix_append _ _
    · have hcalls : radio.recording.Calls (m.memory.radio, []) (Scheduler.pump radio.recording now
          m.memory.runtime.scheduler.scheduler (m.memory.radio, [])).2 :=
        Scheduler.pump_calls .refl now m.memory.runtime.scheduler.scheduler
      exact h.calls.trans hcalls.of_recording
  rw [RadioRuntime.pumpOutbound, wp_bind]
  show wp (RadioRuntime.markReported (Scheduler.pump radio.recording now
    m.memory.runtime.scheduler.scheduler (m.memory.radio, [])).1.2) _ _ (Machine.rescheduled m _ _)
  cases (Scheduler.pump radio.recording now m.memory.runtime.scheduler.scheduler
    (m.memory.radio, [])).1.2 with
  | none => exact hpumped
  | some event => exact wp_mark_hearing hpumped event

/-! ### The inbound half of a pump -/

/-- Wherever calls of the ports lead, the radio hands over what is known, or no frame. -/
def Radio.Hears (radio : Radio ε) (known : Bytes → Prop) (mtu : ℕ) (start : ε) : Prop :=
  ∀ state, radio.Calls start state →
    (radio.tryReceive kMaximumDatagramBytes state).1.status = .received →
      known (radio.tryReceive kMaximumDatagramBytes state).1.datagram ∨
        ∃ error, decodeFrame (radio.tryReceive kMaximumDatagramBytes state).1.datagram mtu =
          .error error

theorem wp_receiveDatagrams_hearing (h : Hearing radio known old base mtu start m)
    (hhears : radio.Hears known mtu start) (now work : ℕ) :
    wp (RadioRuntime.receiveDatagrams radio now work)
      (fun _ m' => Hearing radio known old base mtu start m') (Legacy.Heard known old base) m := by
  induction work generalizing m with
  | zero => exact h
  | succ work ih =>
    rw [RadioRuntime.receiveDatagrams]
    simp only [wp_bind, wp_memory, Process.setRadio, wp_update]
    have hcalls := h.calls.tryReceive kMaximumDatagramBytes
    split
    · exact ⟨h.toHeard, h.agrees, h.log, hcalls, h.fed, h.sized, h.alike⟩
    rename_i hreceived
    have hdata : ∀ frame, decodeFrame (radio.tryReceive kMaximumDatagramBytes
        m.memory.radio).1.datagram mtu = .ok frame → known (frameBytes frame) := by
      intro frame hdecode
      rcases hhears m.memory.radio h.calls (not_not.mp hreceived) with hknown | ⟨error, herror⟩
      · rw [(frameBytes_of_decodeFrame hdecode).2]
        exact hknown
      · rw [herror] at hdecode
        cases hdecode
    exact ih ⟨h.toHeard, h.agrees, h.log, hcalls, h.fed.enqueue now hdata, h.sized,
      (InboundFrameQueue.enqueue_stopped ..).trans h.alike⟩

theorem wp_acceptCompleted_hearing (h : Hearing radio known old base mtu start m)
    {completed : CompletedPost}
    (hspelt : SpeltFrom mtu (fun frame => known (frameBytes frame)) completed) (now : ℕ) :
    wp (RadioRuntime.acceptCompleted completed now)
      (fun _ m' => Hearing radio known old base mtu start m') (Legacy.Heard known old base) m := by
  obtain ⟨hcanonical, hknown⟩ := hspelt.speltBy
  have hcall := Lora.wp_call (m := ⟨m.memory.session, m.durable.disk, m.faults⟩) h.agrees
    (.acceptReceivedPost completed.canonicalPost)
  rw [Session.call, wp_bind] at hcall
  have hcauses : ∀ post, (SessionCall.acceptReceivedPost completed.canonicalPost).causes
      (.commit (.received post)) → SpeltBy known post := by
    rintro post ⟨other, hother, hcause⟩
    cases hcause
    -- the session decodes the post that has been put together
    have hdecode := decodePost_postBytes completed.post
    rw [← hcanonical, hother, decodePost_postBytes, Except.ok.injEq] at hdecode
    rw [hdecode]
    exact hknown
  show wp (Process.onSession (Session.acceptReceivedPost completed.canonicalPost) >>=
    RadioRuntime.countCompleted completed now) _ _ m
  rw [wp_bind]
  refine wp_mono (h.wp_onSession hcall hcauses) ?_ (fun _ hheard => hheard)
  intro status m' h'
  -- whatever the session says, the rest of the function only counts
  have hmarked := h'.fed.markCommitted completed.canonicalFrames now
  cases status with
  | accepted => exact ⟨h'.toHeard, h'.agrees, h'.log, h'.calls, hmarked, h'.sized, h'.alike⟩
  | duplicate => exact ⟨h'.toHeard, h'.agrees, h'.log, h'.calls, hmarked, h'.sized, h'.alike⟩
  | _ => exact ⟨h'.toHeard, h'.agrees, h'.log, h'.calls, h'.fed, h'.sized, h'.alike⟩

theorem wp_processDatagrams_hearing (h : Hearing radio known old base mtu start m) (now work : ℕ) :
    wp (RadioRuntime.processDatagrams now work)
      (fun _ m' => Hearing radio known old base mtu start m') (Legacy.Heard known old base) m := by
  induction work generalizing m with
  | zero => exact h
  | succ work ih =>
    rw [RadioRuntime.processDatagrams]
    simp only [wp_bind, wp_memory, Process.setRuntime, wp_update]
    obtain ⟨hfed, hyields⟩ := h.fed.processNext now
    have hnext : Hearing radio known old base mtu start
        ⟨⟨m.memory.session, { m.memory.runtime with
            inbound := (m.memory.runtime.inbound.processNext now).1 }, m.memory.radio⟩,
          m.durable, m.faults⟩ := ⟨h.toHeard, h.agrees, h.log, h.calls, hfed, h.sized,
            (InboundFrameQueue.processNext_stopped ..).trans h.alike⟩
    split
    · exact hnext
    split
    · exact ih hnext
    split
    · exact ih hnext
    · rename_i completed hcompleted
      rw [wp_bind]
      refine wp_mono (wp_acceptCompleted_hearing hnext (hyields completed hcompleted) now)
        ?_ (fun _ hheard => hheard)
      intro changed m' h'
      rw [wp_bind]
      exact wp_mono (ih h') (fun _ _ h'' => h'') (fun _ hheard => hheard)

theorem wp_pump_hearing (h : Hearing radio known old base mtu start m)
    (hhears : radio.Hears known mtu start) (now : ℕ) :
    wp (RadioRuntime.pump radio now)
      (fun _ m' => Hearing radio known old base mtu start m') (Legacy.Heard known old base) m := by
  rw [RadioRuntime.pump, wp_bind, wp_memory]
  split
  · exact h
  split
  · exact h
  rw [wp_bind, RadioRuntime.enqueueQueuedPosts, wp_bind, wp_memory]
  refine wp_mono (wp_enqueueEntries_hearing h now _) (fun _ m₁ h₁ => ?_) (fun _ hheard => hheard)
  rw [wp_bind]
  refine wp_mono (wp_pumpOutbound_hearing h₁ now) (fun _ m₂ h₂ => ?_) (fun _ hheard => hheard)
  rw [wp_bind, RadioRuntime.pumpInbound, wp_bind]
  refine wp_mono (wp_receiveDatagrams_hearing h₂ hhears now _) (fun _ m₃ h₃ => ?_)
    (fun _ hheard => hheard)
  exact wp_mono (wp_processDatagrams_hearing h₃ now _) (fun _ _ h₄ => h₄) (fun _ hheard => hheard)

/-! ### The other calls -/

theorem wp_stop_hearing (h : Hearing radio known old base mtu start m) :
    wp (RadioRuntime.stop radio)
      (fun _ m' => Hearing radio known old base mtu start m') (Legacy.Heard known old base) m := by
  rw [RadioRuntime.stop, wp_bind, wp_memory]
  split
  · exact h
  · have hlog : m.memory.runtime.scheduler.log <+: m.memory.runtime.scheduler.cancelAll.log :=
      List.prefix_append _ _
    exact ⟨⟨h.heard, h.behind, h.grown.trans (h.log ▸ hlog)⟩, h.agrees, rfl, h.calls.close,
      h.fed.stop, h.sized, rfl⟩

theorem wp_shutdown_hearing (h : Hearing radio known old base mtu start m) :
    wp (Process.shutdown radio)
      (fun _ m' => Hearing radio known old base mtu start m') (Legacy.Heard known old base) m := by
  rw [Process.shutdown, wp_bind]
  refine wp_mono (wp_stop_hearing h) (fun _ m' h' => ?_) (fun _ hheard => hheard)
  have hcall := Lora.wp_call (m := ⟨m'.memory.session, m'.durable.disk, m'.faults⟩) h'.agrees
    .shutdown
  rw [Session.call, wp_bind] at hcall
  exact h'.wp_onSession hcall (by simp [SessionCall.causes])

theorem wp_user_hearing (h : Hearing radio known old base mtu start m) (c : UserCall) :
    wp (Process.user c)
      (fun _ m' => Hearing radio known old base mtu start m') (Legacy.Heard known old base) m := by
  have hcauses : ∀ post, c.call.causes (.commit (.received post)) → SpeltBy known post := by
    intro post hcause
    cases c with
    | compose | renameUser | setLocale | setSkipTitle =>
      simp [UserCall.call, SessionCall.causes] at hcause
  rw [Process.user, wp_bind]
  refine wp_mono (h.wp_onSession (Lora.wp_call h.agrees c.call) hcauses) (fun _ m' h' => ?_)
    (fun _ hheard => hheard)
  exact ⟨⟨h'.heard, h'.behind, h'.grown⟩, h'.agrees, h'.log, h'.calls, h'.fed, h'.sized, h'.alike⟩

end Hearing

end Lora
