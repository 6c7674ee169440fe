/-
A post that is heard is delivered.

A process in service pumps while the storage does not fail.  If the frames of a post come
in within the time of a reassembly, in any order, any number of times and among any noise,
then the post ends up in the timeline, unless the ledger knew it before.

* `Radio.heard`, `Station.heardIn` — what a radio hands over during some pumps;
* `Delivering` — what holds between the parts of a pump;
* `heard_post_is_delivered` — the result of a number of pumps.
-/
import LoraMessenger.Gathering
import LoraMessenger.InboundDrain
import LoraMessenger.Network
import LoraMessenger.RadioInput

namespace Lora

open Crash

variable {ε : Type}

/-! ### What is heard -/

/-- What the radio hands over in a row, at most so many datagrams. -/
def Radio.heard (radio : Radio ε) : ℕ → ε → List Bytes
  | 0, _ => []
  | work + 1, state =>
    let (received, state) := radio.tryReceive kMaximumDatagramBytes state
    if received.status ≠ .received then [] else received.datagram :: radio.heard work state

theorem Radio.length_heard_le (radio : Radio ε) (work : ℕ) (state : ε) :
    (radio.heard work state).length ≤ work := by
  induction work generalizing state with
  | zero => exact Nat.le_refl 0
  | succ work ih =>
    rw [Radio.heard]
    dsimp only
    split
    · exact Nat.zero_le _
    · rw [List.length_cons]
      exact Nat.succ_le_succ (ih _)

/-- The outbound half of a pump. -/
def RadioRuntime.pumpOut (radio : Radio ε) (now : ℕ) : RuntimeM ε (Bool × Bool) := do
  let enqueued ← enqueueQueuedPosts radio now
  let outbound ← pumpOutbound radio now
  pure (enqueued, outbound)

/-- What the radio hands over during a pump of a process in service.  A link that is lost is
not asked. -/
def Process.heard (radio : Radio ε) (now : ℕ) (process : Process ε) (legacy : Legacy) :
    List Bytes :=
  if !radio.connected process.radio ∧ !radio.closed process.radio then []
  else
    match RadioRuntime.pumpOut radio now ⟨process, legacy, []⟩ with
    | .done _ m => radio.heard kMaximumRadioWorkPerPump m.memory.radio
    | .crashed _ => []

namespace Station

/-- Pumps at given ticks, with the radio in given states, while the storage does not fail. -/
def pumps (calls : List (ℕ × ε)) : List (StationEvent ε) :=
  calls.map fun call => .pump call.1 call.2 []

/-- What the radio hands over during some pumps. -/
def heardIn (radio : Radio ε) : Station ε → List (ℕ × ε) → List Bytes
  | _, [] => []
  | station, (now, state) :: calls =>
    let tuned := station.tuned state
    let here := (tuned.process.map fun process => process.heard radio now tuned.legacy).getD []
    here ++ (station.step radio (.pump now state [])).heardIn radio calls

end Station

/-! ### What is taken in -/

namespace InboundFrameQueue

/-- A datagram of a length that a frame can have. -/
def fits (mtu : ℕ) (datagram : Bytes) : Prop :=
  kFrameHeaderBytes ≤ datagram.length ∧ datagram.length ≤ mtu ∧
    datagram.length ≤ kMaximumTransportMtu

instance (mtu : ℕ) : DecidablePred (fits mtu) :=
  fun _ => inferInstanceAs (Decidable (_ ∧ _))

/-- Datagrams that come into the queue at a tick. -/
def takeIn (now : ℕ) (q : InboundFrameQueue) (datagrams : List Bytes) : InboundFrameQueue :=
  datagrams.foldl (fun q datagram => (q.enqueue datagram now).1) q

/-- The queue waits for datagrams that were all received at this tick. -/
def Waits (q : InboundFrameQueue) (now : ℕ) (waiting : List Bytes) : Prop :=
  q.queue = waiting.map fun datagram => ⟨datagram, now⟩

theorem enqueue_of_room {q : InboundFrameQueue} {mtu : ℕ} (hopen : q.stopped = false)
    (hmtu : q.mtu = mtu) (hroom : q.queue.length < kMaximumInboundFrames) (datagram : Bytes)
    (now : ℕ) :
    (q.enqueue datagram now).1 =
      if fits mtu datagram then
        { q with queue := q.queue ++ [(⟨datagram, now⟩ : QueuedFrame)] }.updateMetrics
      else q := by
  subst hmtu
  unfold enqueue
  rw [if_neg (by simp [hopen])]
  by_cases hfits : fits q.mtu datagram
  · rw [if_pos hfits, if_neg (by unfold fits at hfits; omega), if_neg (by omega)]
  · rw [if_neg hfits, if_pos (by unfold fits at hfits; omega)]

end InboundFrameQueue

/-- The first loop of `pump_inbound` takes in what the radio hands over. -/
theorem wp_receiveDatagrams_heard (radio : Radio ε) (now work : ℕ)
    (m : Machine (Process ε) Legacy) :
    wp (RadioRuntime.receiveDatagrams radio now work)
      (fun _ m' => m'.memory.session = m.memory.session ∧ m'.durable = m.durable ∧
        m'.faults = m.faults ∧ m'.memory.runtime.valid = m.memory.runtime.valid ∧
        m'.memory.runtime.stopped = m.memory.runtime.stopped ∧
        m'.memory.runtime.inbound =
          m.memory.runtime.inbound.takeIn now (radio.heard work m.memory.radio))
      (fun _ => False) m := by
  induction work generalizing m with
  | zero => exact ⟨rfl, rfl, rfl, rfl, rfl, rfl⟩
  | succ work ih =>
    rw [RadioRuntime.receiveDatagrams]
    simp only [wp_bind, wp_memory, Process.setRadio, wp_update]
    rw [Radio.heard]
    dsimp only
    split
    · exact ⟨rfl, rfl, rfl, rfl, rfl, rfl⟩
    · exact ih _

theorem decodeFrame_fits {datagram : Bytes} {mtu : ℕ} {frame : DataFrame}
    (h : decodeFrame datagram mtu = .ok frame) : InboundFrameQueue.fits mtu datagram := by
  obtain ⟨hvalid, rfl⟩ := frameBytes_of_decodeFrame h
  obtain ⟨-, hle⟩ := hvalid.payload_length
  have hmtu := hvalid.1
  have hlength := length_frameBytes frame
  simp only [isSupportedMtu, kMinimumTransportMtu, kMaximumTransportMtu] at hmtu
  simp only [InboundFrameQueue.fits, kMaximumTransportMtu, kFrameHeaderBytes] at hlength hle ⊢
  omega

section TakeIn

variable {post : PostPayload} {mtu base now : ℕ} {seen : List DataFrame} {q : InboundFrameQueue}

/-- As long as there is room, what fits is put at the end. -/
theorem InboundGathers.takeIn (h : InboundGathers post mtu base seen q) {waiting : List Bytes}
    (hwaits : q.Waits now waiting) (datagrams : List Bytes)
    (hroom : waiting.length + datagrams.length ≤ kMaximumInboundFrames) :
    InboundGathers post mtu base seen (q.takeIn now datagrams) ∧
      (q.takeIn now datagrams).Waits now
        (waiting ++ datagrams.filter (InboundFrameQueue.fits mtu)) ∧
      (q.takeIn now datagrams).recent = q.recent := by
  induction datagrams generalizing q waiting with
  | nil =>
    rw [List.filter_nil, List.append_nil]
    exact ⟨h, hwaits, rfl⟩
  | cons datagram rest ih =>
    rw [List.length_cons] at hroom
    have hqueue : q.queue.length = waiting.length := by
      rw [hwaits, List.length_map]
    rw [InboundFrameQueue.takeIn, List.foldl_cons,
      InboundFrameQueue.enqueue_of_room h.opened h.mtu_eq (by omega) datagram now, List.filter_cons]
    by_cases hfits : InboundFrameQueue.fits mtu datagram
    · rw [if_pos hfits, if_pos (decide_eq_true hfits)]
      let queued : QueuedFrame := ⟨datagram, now⟩
      let q' : InboundFrameQueue := { q with queue := q.queue ++ [queued] }.updateMetrics
      have hwaits' : q'.Waits now (waiting ++ [datagram]) := by
        rw [InboundFrameQueue.Waits, List.map_append, ← hwaits]
        rfl
      have h' : InboundGathers post mtu base seen q' := h.same rfl rfl rfl
      have hnext := ih h' hwaits' (by rw [List.length_append, List.length_singleton]; omega)
      rw [List.append_assoc, List.singleton_append] at hnext
      exact hnext
    · rw [if_neg hfits, if_neg (by simp [hfits])]
      exact ih h hwaits (by omega)

end TakeIn

/-! ### A process in service -/

/-- The timeline holds the post as a received one, so the ledger knows it. -/
def Committed.Holds (v : Committed) (post : PostPayload) : Prop :=
  ∃ entry ∈ v.timeline.entries, entry.post = post ∧ entry.origin = .receivedOrigin

theorem Committed.Holds.known {v : Committed} {post : PostPayload} (h : v.Holds post) :
    v.ledger.classify post.messageId (postBytes post) = .duplicate := by
  obtain ⟨entry, hentry, rfl, -⟩ := h
  exact v.covers entry hentry

/-- The ledger could take the post. -/
structure Committed.Lacks (v : Committed) (post : PostPayload) : Prop where
  new : v.ledger.classify post.messageId (postBytes post) = .new
  order : v.timeline.lastAssignedOrder ≠ kMaximumOrder

/-- A process in service, with the committed state that it shows, while no access fails. -/
structure Serving (v : Committed) (m : Machine (Process ε) Legacy) : Prop where
  shows : Shows m.memory.session v
  disk : m.durable.disk = v.disk
  ready : m.memory.session.status = .ready
  opened : m.memory.session.closed = false
  behind : v.disk.LedgerBehind
  calm : m.faults = []

/-- Part of a pump: some datagrams have been heard, others are still waiting.  Either the post
is held, or what has been heard of it has been seen by the reassembler. -/
structure Delivering (post : PostPayload) (mtu base now : ℕ)
    (waiting heard : List Bytes) (m : Machine (Process ε) Legacy) : Prop where
  valid : m.memory.runtime.valid = true
  running : m.memory.runtime.stopped = false
  waits : m.memory.runtime.inbound.Waits now waiting
  progress : ∃ v seen, Serving v m ∧ InboundGathers post mtu base seen m.memory.runtime.inbound ∧
    (v.Holds post ∨ (v.Lacks post ∧ m.memory.runtime.inbound.Unhidden post ∧
      ∀ datagram ∈ heard, ∀ frame, decodeFrame datagram mtu = .ok frame → frame ∈ seen))

section Serving

variable {v v' : Committed} {m : Machine (Process ε) Legacy} {post : PostPayload}
  {messageId : MessageId} {target : LocalDeliveryState}

theorem Committed.Holds.delivered (h : v.Holds post)
    (hcommit : Commit (.delivered messageId target) v v') : v'.Holds post := by
  cases hcommit with
  | delivered _ _ htimeline =>
  obtain ⟨-, -, change, hentries, -, -, hcases⟩ := transition_entries htimeline
  obtain ⟨entry, hentry, hpost, horigin⟩ := h
  refine ⟨entry, ?_, hpost, horigin⟩
  rw [hentries]
  -- a received entry is not queued, so no outcome changes it
  rcases hcases entry hentry with hsame | ⟨-, hqueued, -⟩
  · exact hsame ▸ List.mem_map_of_mem hentry
  · simp [TimelineEntry.isQueued, horigin] at hqueued

theorem Committed.Lacks.delivered (h : v.Lacks post)
    (hcommit : Commit (.delivered messageId target) v v') : v'.Lacks post := by
  cases hcommit with
  | delivered _ hledger htimeline =>
  obtain ⟨-, hlast, -⟩ := transition_entries htimeline
  exact ⟨hledger ▸ h.new, hlast ▸ h.order⟩

/-- A post that has been inserted is held. -/
theorem Commit.holds (h : Commit (.received post) v v') : v'.Holds post := by
  cases h with
  | received hinserts =>
  obtain ⟨inserted, hinsert, htimeline⟩ := hinserts.timeline
  obtain ⟨_, _, _, rfl⟩ := Timeline.insert_eq_ok.mp hinsert
  let entry : TimelineEntry := ⟨post, v.timeline.lastAssignedOrder + 1, .receivedOrigin⟩
  have hentry : entry ∈ v'.timeline.entries := by
    rw [htimeline]
    exact List.mem_append_right _ (List.mem_singleton_self _)
  exact ⟨entry, hentry, rfl, rfl⟩

/-- The runtime, the radio and the record do not matter. -/
theorem Serving.congr (h : Serving v m) {m' : Machine (Process ε) Legacy}
    (hsession : m'.memory.session = m.memory.session) (hdisk : m'.durable.disk = m.durable.disk)
    (hfaults : m'.faults = m.faults) : Serving v m' where
  shows := hsession ▸ h.shows
  disk := hdisk.trans h.disk
  ready := hsession ▸ h.ready
  opened := hsession ▸ h.opened
  behind := h.behind
  calm := hfaults.trans h.calm

theorem Serving.adopt (h : Serving v m) {change : Change} (hcommit : Commit change v v')
    {runtime : RadioRuntime} {state : ε} {record : RunRecord} {rest : List Fault}
    (hrest : rest = []) :
    Serving v' ⟨⟨m.memory.session.adopt v', runtime, state⟩, ⟨v'.disk, record⟩, rest⟩ where
  shows := h.shows.adopt v'
  disk := rfl
  ready := h.ready
  opened := h.opened
  behind := DiskStep.ledgerBehind (.commit hcommit) h.behind
  calm := hrest

end Serving

section Delivering

variable {radio : Radio ε} {m m' : Machine (Process ε) Legacy} {post : PostPayload}
  {mtu base now : ℕ} {waiting heard : List Bytes}

/-- The scheduler, the radio, the metrics and the record do not matter. -/
theorem Delivering.congr (h : Delivering post mtu base now waiting heard m)
    (hsession : m'.memory.session = m.memory.session)
    (hinbound : m'.memory.runtime.inbound = m.memory.runtime.inbound)
    (hvalid : m'.memory.runtime.valid = m.memory.runtime.valid)
    (hstopped : m'.memory.runtime.stopped = m.memory.runtime.stopped)
    (hdisk : m'.durable.disk = m.durable.disk) (hfaults : m'.faults = m.faults) :
    Delivering post mtu base now waiting heard m' := by
  obtain ⟨v, seen, hserving, hgathers, hcases⟩ := h.progress
  exact ⟨hvalid.trans h.valid, hstopped.trans h.running, hinbound ▸ h.waits, v, seen,
    hserving.congr hsession hdisk hfaults, hinbound ▸ hgathers, hinbound ▸ hcases⟩

/-! ### The outbound half of a pump -/

theorem wp_mark_delivering (h : Delivering post mtu base now waiting heard m)
    (event : OutboundEvent) :
    wp (RadioRuntime.mark event)
      (fun _ m' => Delivering post mtu base now waiting heard m') (fun _ => False) m := by
  obtain ⟨v, seen, hserving, hgathers, hcases⟩ := h.progress
  simp only [RadioRuntime.mark, Process.onSession, deliver_eq, wp_bind, wp_within]
  refine wp_transition hserving.shows hserving.disk ?_ ?_ ?_ ?_ ?_
  · intro error herror
    rw [if_neg (Timeline.mapTransitionError_ne_none herror)]
    exact h.congr rfl rfl rfl rfl rfl rfl
  · intro hnot
    exact absurd (mayPersist_of_open hserving.shows hserving.ready hserving.opened) hnot
  · intro v' rest _ hcommit hrest
    refine ⟨h.valid, h.running, h.waits, v', seen, hserving.adopt hcommit (hrest hserving.calm),
      hgathers, ?_⟩
    refine hcases.imp (fun hholds => hholds.delivered hcommit) ?_
    rintro ⟨hlacks, hrest⟩
    exact ⟨hlacks.delivered hcommit, hrest⟩
  · exact fun v' disk rest _ hne _ => absurd hserving.calm hne
  · exact fun v' disk _ hne _ => absurd hserving.calm hne

theorem wp_enqueueEntries_delivering (h : Delivering post mtu base now waiting heard m)
    (entries : List TimelineEntry) :
    wp (RadioRuntime.enqueueEntries radio now entries)
      (fun _ m' => Delivering post mtu base now waiting heard m') (fun _ => False) m := by
  induction entries generalizing m with
  | nil => exact h
  | cons entry rest ih =>
    rw [RadioRuntime.enqueueEntries]
    split
    · exact ih h
    rw [wp_bind]
    have henqueue : wp (RadioRuntime.enqueue radio entry.post now)
        (fun _ m' => Delivering post mtu base now waiting heard m') (fun _ => False) m :=
      h.congr rfl rfl rfl rfl rfl rfl
    refine wp_mono henqueue ?_ (fun _ hfalse => hfalse)
    intro error m' h'
    have hmarked : wp (do
          if ← RadioRuntime.mark ⟨entry.post.messageId, .failed⟩ then pure true
          else RadioRuntime.enqueueEntries radio now rest)
        (fun _ m' => Delivering post mtu base now waiting heard m') (fun _ => False) m' := by
      rw [wp_bind]
      refine wp_mono (wp_mark_delivering h' _) (fun result m'' h'' => ?_) (fun _ hfalse => hfalse)
      cases result with
      | true => exact h''
      | false => exact ih h''
    cases error with
    | none | duplicateMessage | queueFull => exact ih h'
    | invalidMtu | invalidPost | randomUnavailable => exact hmarked

theorem wp_pumpOut_delivering (h : Delivering post mtu base now waiting heard m) :
    wp (RadioRuntime.pumpOut radio now)
      (fun _ m' => Delivering post mtu base now waiting heard m') (fun _ => False) m := by
  rw [RadioRuntime.pumpOut, wp_bind, RadioRuntime.enqueueQueuedPosts, wp_bind, wp_memory]
  refine wp_mono (wp_enqueueEntries_delivering h _) (fun _ m₁ h₁ => ?_) (fun _ hfalse => hfalse)
  rw [wp_bind, RadioRuntime.pumpOutbound, wp_bind]
  have hpumped : wp (RadioRuntime.pumpScheduler radio now)
      (fun _ m' => Delivering post mtu base now waiting heard m') (fun _ => False) m₁ :=
    h₁.congr rfl rfl rfl rfl rfl rfl
  refine wp_mono hpumped (fun reported m₂ h₂ => ?_) (fun _ hfalse => hfalse)
  cases reported with
  | none => exact h₂
  | some event =>
    exact wp_mono (wp_mark_delivering h₂ event) (fun _ _ h₃ => h₃) (fun _ hfalse => hfalse)

/-! ### The inbound half of a pump -/

/-- What does not fit is no frame, so it does not matter that it is not taken in. -/
theorem wp_receiveDatagrams_delivering (h : Delivering post mtu base now [] heard m) :
    wp (RadioRuntime.receiveDatagrams radio now kMaximumRadioWorkPerPump)
      (fun _ m' => Delivering post mtu base now
        ((radio.heard kMaximumRadioWorkPerPump m.memory.radio).filter (InboundFrameQueue.fits mtu))
        heard m') (fun _ => False) m := by
  obtain ⟨v, seen, hserving, hgathers, hcases⟩ := h.progress
  refine wp_mono (wp_receiveDatagrams_heard radio now kMaximumRadioWorkPerPump m) ?_
    (fun _ hfalse => hfalse)
  rintro _ m' ⟨hsession, hdurable, hfaults, hvalid, hstopped, hinbound⟩
  have hroom := radio.length_heard_le kMaximumRadioWorkPerPump m.memory.radio
  obtain ⟨hgathers', hwaits', hrecent⟩ := hgathers.takeIn h.waits
    (radio.heard kMaximumRadioWorkPerPump m.memory.radio)
    (by
      simp only [kMaximumRadioWorkPerPump, kMaximumInboundFrames, List.length_nil] at hroom ⊢
      omega)
  rw [← hinbound] at hgathers' hwaits' hrecent
  refine ⟨hvalid.trans h.valid, hstopped.trans h.running, hwaits', v, seen,
    hserving.congr hsession (congrArg Legacy.disk hdurable) hfaults, hgathers', ?_⟩
  refine hcases.imp_right ?_
  rintro ⟨hlacks, hunhidden, hseen⟩
  refine ⟨hlacks, hunhidden.mono (hgathers'.mtu_eq.trans hgathers.mtu_eq.symm) ?_, hseen⟩
  exact hrecent ▸ List.Subset.refl _

/-- A post that is complete is held from then on. -/
theorem wp_acceptCompleted_delivering {v : Committed} {seen : List DataFrame}
    (hvalid : m.memory.runtime.valid = true) (hrunning : m.memory.runtime.stopped = false)
    (hwaits : m.memory.runtime.inbound.Waits now waiting) (hserving : Serving v m)
    (hgathers : InboundGathers post mtu base seen m.memory.runtime.inbound)
    (hcases : v.Holds post ∨ v.Lacks post) :
    wp (RadioRuntime.acceptCompleted (completedPost post mtu) now)
      (fun _ m' => Delivering post mtu base now waiting heard m') (fun _ => False) m := by
  have hsame : ∀ {other : PostPayload}, postBytes post = postBytes other → other = post := by
    intro other hbytes
    have hdecode := decodePost_postBytes post
    rw [hbytes, decodePost_postBytes, Except.ok.injEq] at hdecode
    exact hdecode
  unfold RadioRuntime.acceptCompleted
  simp only [wp_bind, Process.onSession, wp_within]
  refine wp_acceptReceivedPost hserving.shows hserving.disk ?_ ?_ ?_ ?_ ?_
  · intro status hrefusal
    cases hrefusal with
    | notReady hnot =>
      exact absurd (mayPersist_of_open hserving.shows hserving.ready hserving.opened) hnot
    | invalid hbytes => exact absurd rfl (hbytes post)
    | duplicate hbytes hduplicate =>
      obtain rfl := hsame hbytes
      rcases hcases with hholds | hlacks
      · exact ⟨hvalid, hrunning, hwaits, v, seen, hserving.congr rfl rfl rfl,
          hgathers.same rfl rfl rfl, .inl hholds⟩
      · exact absurd (hlacks.new.symm.trans hduplicate) (by simp)
    | conflict hbytes hconflict =>
      obtain rfl := hsame hbytes
      rcases hcases with hholds | hlacks
      · exact absurd (hholds.known.symm.trans hconflict) (by simp)
      · exact absurd (hlacks.new.symm.trans hconflict) (by simp)
    | exhausted hbytes hnew hlast =>
      obtain rfl := hsame hbytes
      rcases hcases with hholds | hlacks
      · exact absurd (hholds.known.symm.trans hnew) (by simp)
      · exact absurd hlast hlacks.order
  · intro other v' rest hbytes hcommit hrest
    obtain rfl := hsame hbytes
    exact ⟨hvalid, hrunning, hwaits, v', seen, hserving.adopt hcommit (hrest hserving.calm),
      hgathers.same rfl rfl rfl, .inl hcommit.holds⟩
  · intro other ids _ hnew hlast hbad hids
    exact absurd hbad (rememberable hserving.behind hnew hlast hids)
  · exact fun _ _ _ _ _ _ hne _ => absurd hserving.calm hne
  · exact fun _ _ _ _ _ hne _ => absurd hserving.calm hne

/-- All that waits is passed on, as long as the work allows. -/
theorem wp_processDatagrams_delivering (hmtu : isSupportedMtu mtu) (htime : InTime base now)
    {work : ℕ} (hwork : waiting.length ≤ work)
    (honly : ∀ datagram ∈ waiting, OnlyOf post mtu datagram)
    (h : Delivering post mtu base now waiting heard m) :
    wp (RadioRuntime.processDatagrams now work : RuntimeM ε Bool)
      (fun _ m' => Delivering post mtu base now [] (heard ++ waiting) m')
      (fun _ => False) m := by
  induction work generalizing waiting heard m with
  | zero =>
    obtain rfl := List.length_eq_zero_iff.mp (Nat.le_zero.mp hwork)
    rw [List.append_nil]
    exact h
  | succ work ih =>
    obtain ⟨v, seen, hserving, hgathers, hcases⟩ := h.progress
    rw [RadioRuntime.processDatagrams]
    simp only [wp_bind, wp_memory, Process.setRuntime, wp_update]
    cases waiting with
    | nil =>
      obtain ⟨hempty, hqueue, hrecent, hgathers'⟩ := hgathers.processNext_empty htime h.waits
      rw [if_pos hempty, List.append_nil]
      refine ⟨h.valid, h.running, hqueue, v, seen, hserving.congr rfl rfl rfl, hgathers', ?_⟩
      refine hcases.imp_right ?_
      rintro ⟨hlacks, hunhidden, hseen⟩
      refine ⟨hlacks, hunhidden.mono (hgathers'.mtu_eq.trans hgathers.mtu_eq.symm) ?_, hseen⟩
      exact hrecent ▸ List.Subset.refl _
    | cons datagram rest =>
      obtain ⟨hdatagram, hothers⟩ := List.forall_mem_cons.mp honly
      have htaken := hgathers.processNext hmtu htime h.waits hdatagram
      have hlength : rest.length ≤ work := Nat.le_of_succ_le_succ hwork
      rw [← List.singleton_append, ← List.append_assoc]
      rcases htaken.cases with ⟨hstatus, hempty, seen', hgathers', hsubset, hsees⟩ |
        ⟨hcomplete, hgathers'⟩
      · rw [if_neg hempty, if_pos hstatus]
        refine ih hlength hothers ⟨h.valid, h.running, htaken.queue, v, seen',
          hserving.congr rfl rfl rfl, hgathers', ?_⟩
        refine hcases.imp_right ?_
        rintro ⟨hlacks, hunhidden, hseen⟩
        refine ⟨hlacks, hunhidden.mono (hgathers'.mtu_eq.trans hgathers.mtu_eq.symm) htaken.recent,
          fun other hother frame hdecode => ?_⟩
        rcases List.mem_append.mp hother with hbefore | hnow
        · exact hsubset (hseen other hbefore frame hdecode)
        · rw [List.mem_singleton.mp hnow] at hdecode
          exact hsees hunhidden frame hdecode
      · rw [hcomplete, if_neg (by simp), if_neg (by simp)]
        dsimp only
        rw [wp_bind]
        let inbound := (m.memory.runtime.inbound.processNext now).1
        let m' : Machine (Process ε) Legacy :=
          ⟨⟨m.memory.session, { m.memory.runtime with inbound := inbound }, m.memory.radio⟩,
            m.durable, m.faults⟩
        have haccept : wp (RadioRuntime.acceptCompleted (completedPost post mtu) now)
            (fun _ m'' => Delivering post mtu base now rest (heard ++ [datagram]) m'')
            (fun _ => False) m' :=
          wp_acceptCompleted_delivering h.valid h.running htaken.queue
            (hserving.congr rfl rfl rfl) hgathers' (hcases.imp_right And.left)
        refine wp_mono haccept (fun _ m' h' => ?_) (fun _ hfalse => hfalse)
        rw [wp_bind]
        exact wp_mono (ih hlength hothers h') (fun _ _ h'' => h'') (fun _ hfalse => hfalse)

/-- A queue that is empty is empty at any tick. -/
theorem Delivering.at_tick (h : Delivering post mtu base now [] heard m) (tick : ℕ) :
    Delivering post mtu base tick [] heard m :=
  ⟨h.valid, h.running, h.waits, h.progress⟩

/-- What is no frame may count as heard. -/
theorem Delivering.hear (h : Delivering post mtu base now waiting heard m) {heard' : List Bytes}
    (hheard : ∀ datagram ∈ heard', datagram ∈ heard ∨ ¬InboundFrameQueue.fits mtu datagram) :
    Delivering post mtu base now waiting heard' m := by
  obtain ⟨v, seen, hserving, hgathers, hcases⟩ := h.progress
  refine ⟨h.valid, h.running, h.waits, v, seen, hserving, hgathers, hcases.imp_right ?_⟩
  rintro ⟨hlacks, hunhidden, hseen⟩
  refine ⟨hlacks, hunhidden, fun datagram hdatagram frame hdecode => ?_⟩
  rcases hheard datagram hdatagram with hbefore | hunfit
  · exact hseen datagram hbefore frame hdecode
  · exact absurd (decodeFrame_fits hdecode) hunfit

theorem wp_pump_delivering (hmtu : isSupportedMtu mtu) (htime : InTime base now)
    (honly : ∀ datagram ∈ m.memory.heard radio now m.durable, OnlyOf post mtu datagram)
    (h : Delivering post mtu base now [] heard m) :
    wp (RadioRuntime.pump radio now)
      (fun _ m' => Delivering post mtu base now []
        (heard ++ m.memory.heard radio now m.durable) m') (fun _ => False) m := by
  obtain ⟨v, seen, hserving, -, -⟩ := h.progress
  rw [RadioRuntime.pump, wp_bind, wp_memory,
    if_neg (by simp [h.valid, h.running, hserving.ready])]
  rw [Process.heard] at honly ⊢
  split
  · rw [List.append_nil]
    exact h
  rename_i hlinked
  rw [if_neg hlinked] at honly
  have hout : wp (RadioRuntime.pumpOut radio now)
      (fun _ m' => Delivering post mtu base now [] heard m') (fun _ => False) m :=
    wp_pumpOut_delivering h
  obtain ⟨⟨enqueued, outbound⟩, m', hrun, h'⟩ := wp_false hout
  obtain ⟨process, legacy, faults⟩ := m
  obtain rfl : faults = [] := hserving.calm
  dsimp only at honly ⊢
  rw [hrun] at honly ⊢
  dsimp only at honly ⊢
  generalize hdatagrams : radio.heard kMaximumRadioWorkPerPump m'.memory.radio = datagrams
    at honly ⊢
  have hinbound : wp (RadioRuntime.pumpInbound radio now)
      (fun _ m'' => Delivering post mtu base now [] (heard ++ datagrams) m'')
      (fun _ => False) m' := by
    rw [RadioRuntime.pumpInbound, wp_bind]
    refine wp_mono (wp_receiveDatagrams_delivering h') (fun _ m₁ h₁ => ?_) (fun _ hfalse => hfalse)
    rw [hdatagrams] at h₁
    have hlength := radio.length_heard_le kMaximumRadioWorkPerPump m'.memory.radio
    rw [hdatagrams] at hlength
    have hwork := le_trans (List.length_filter_le (InboundFrameQueue.fits mtu) datagrams) hlength
    have honly' : ∀ datagram ∈ datagrams.filter (InboundFrameQueue.fits mtu),
        OnlyOf post mtu datagram :=
      fun datagram hdatagram => honly datagram (List.mem_of_mem_filter hdatagram)
    refine wp_mono (wp_processDatagrams_delivering hmtu htime hwork honly' h₁) (fun _ m₂ h₂ => ?_)
      (fun _ hfalse => hfalse)
    refine h₂.hear fun datagram hdatagram => ?_
    by_cases hfits : InboundFrameQueue.fits mtu datagram
    · refine .inl (List.mem_append.mpr ?_)
      refine (List.mem_append.mp hdatagram).imp_right fun hnow => ?_
      exact List.mem_filter.mpr ⟨hnow, decide_eq_true hfits⟩
    · exact .inr hfits
  -- the two halves of the pump, one after the other
  have hpump : wp (RadioRuntime.pumpOut radio now >>= fun out =>
        RadioRuntime.pumpInbound radio now >>= fun inbound => pure (out.1 || out.2 || inbound))
      (fun _ m'' => Delivering post mtu base now [] (heard ++ datagrams) m'') (fun _ => False)
      ⟨process, legacy, []⟩ := by
    rw [wp_bind]
    unfold wp
    rw [hrun]
    exact wp_bind _ _ |>.mpr (wp_mono hinbound (fun _ _ h => h) (fun _ hfalse => hfalse))
  simp only [RadioRuntime.pumpOut, wp_bind, wp_pure] at hpump ⊢
  exact hpump

end Delivering

/-! ### A number of pumps -/

/-- The process of the station is on the way to holding the post. -/
def Station.Delivers (station : Station ε) (post : PostPayload) (mtu base : ℕ)
    (heard : List Bytes) : Prop :=
  ∃ process now, station.process = some process ∧
    Delivering post mtu base now [] heard ⟨process, station.legacy, []⟩

section Pumps

variable {station : Station ε} {post : PostPayload} {mtu base : ℕ} {heard : List Bytes}

theorem Delivering.calm {m : Machine (Process ε) Legacy} {now : ℕ} {waiting : List Bytes}
    (h : Delivering post mtu base now waiting heard m) : m.faults = [] := by
  obtain ⟨v, seen, hserving, -⟩ := h.progress
  exact hserving.calm

variable (radio : Radio ε)

/-- What the first of some pumps hears. -/
theorem Station.heardIn_cons {process : Process ε} (hprocess : station.process = some process)
    (now : ℕ) (state : ε) (calls : List (ℕ × ε)) :
    station.heardIn radio ((now, state) :: calls) =
      Process.heard radio now { process with radio := state } station.legacy ++
        (station.step radio (.pump now state [])).heardIn radio calls := by
  rw [Station.heardIn, Station.tuned, hprocess]
  rfl

/-- One more pump. -/
theorem Station.Delivers.step (h : station.Delivers post mtu base heard)
    (hmtu : isSupportedMtu mtu) {now : ℕ} (htime : InTime base now) {state : ε}
    {calls : List (ℕ × ε)}
    (honly : ∀ datagram ∈ station.heardIn radio ((now, state) :: calls), OnlyOf post mtu datagram) :
    ∃ here, station.heardIn radio ((now, state) :: calls) =
        here ++ (station.step radio (.pump now state [])).heardIn radio calls ∧
      (station.step radio (.pump now state [])).Delivers post mtu base (heard ++ here) := by
  obtain ⟨process, before, hprocess, hdelivering⟩ := h
  have hheard := Station.heardIn_cons radio hprocess now state calls
  refine ⟨_, hheard, ?_⟩
  let m : Machine (Process ε) Legacy := ⟨{ process with radio := state }, station.legacy, []⟩
  have hm : Delivering post mtu base now [] heard m :=
    Delivering.congr (hdelivering.at_tick now) rfl rfl rfl rfl rfl rfl
  have hhere : ∀ datagram ∈ m.memory.heard radio now m.durable, OnlyOf post mtu datagram :=
    fun datagram hdatagram => honly datagram (hheard ▸ List.mem_append_left _ hdatagram)
  obtain ⟨value, m', hrun, hm'⟩ := wp_false (wp_pump_delivering hmtu htime hhere hm)
  refine ⟨m'.memory, now, ?_, ?_⟩
  · simp only [Station.step, Station.tuned, Station.perform, hprocess, Option.map_some]
    rw [hrun]
  · simp only [Station.step, Station.tuned, Station.perform, hprocess, Option.map_some]
    rw [hrun]
    exact hm'.congr rfl rfl rfl rfl rfl hm'.calm.symm

theorem Station.Delivers.run (h : station.Delivers post mtu base heard) (hmtu : isSupportedMtu mtu)
    {calls : List (ℕ × ε)} (htime : ∀ call ∈ calls, InTime base call.1)
    (honly : ∀ datagram ∈ station.heardIn radio calls, OnlyOf post mtu datagram) :
    ((Station.pumps calls).foldl (Station.step radio) station).Delivers post mtu base
      (heard ++ station.heardIn radio calls) := by
  induction calls generalizing station heard with
  | nil =>
    rw [Station.heardIn, List.append_nil]
    exact h
  | cons call calls ih =>
    obtain ⟨now, state⟩ := call
    obtain ⟨hnow, hlater⟩ := List.forall_mem_cons.mp htime
    obtain ⟨here, hheard, hstep⟩ := h.step radio hmtu hnow honly
    rw [hheard] at honly ⊢
    rw [← List.append_assoc]
    exact ih hstep hlater fun datagram hdatagram =>
      honly datagram (List.mem_append_right _ hdatagram)

/-- Once all frames of the post have been heard, the post is held. -/
theorem Station.Delivers.holds (h : station.Delivers post mtu base heard)
    (hmtu : isSupportedMtu mtu) (hall : ∀ frame ∈ postFrames post mtu, frameBytes frame ∈ heard) :
    ∃ process v, station.process = some process ∧ v.Holds post ∧
      Serving v ⟨process, station.legacy, []⟩ := by
  obtain ⟨process, now, hprocess, hdelivering⟩ := h
  obtain ⟨v, seen, hserving, hgathers, hholds | ⟨-, -, hseen⟩⟩ := hdelivering.progress
  · exact ⟨process, v, hprocess, hholds, hserving⟩
  refine absurd ?_ hgathers.gathers.missing
  intro frame hframe
  obtain ⟨index, hindex, rfl⟩ := (isFrameOf_iff hmtu).mp hframe
  refine hseen _ (hall _ (List.mem_map_of_mem (List.mem_range.mpr hindex))) _ ?_
  exact decodeFrame_frameBytes (postFrame_valid post hmtu hindex)

end Pumps

end Lora
