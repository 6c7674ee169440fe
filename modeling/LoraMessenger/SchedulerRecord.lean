/-
The record of a scheduler.

A message counts the offers of each of its datagrams, and the record counts them as
well.  As the datagrams of a message are all different, the two agree, and so no
datagram of a message is offered more than twice.  A message that leaves the queue
without a report is one that was reported before.

* `MessageFile` — a message and its record, kept by `MessageFile.step`;
* `Tracked.Filed` — the same for the whole queue;
* `Filed.pump_told` — a message about which the record says something new is the one
  that the call reports.
-/
import LoraMessenger.SchedulerBounds
import Mathlib.Data.List.Nodup

namespace Lora

def SchedulerEvent.isOfferOf (serial : ℕ) (datagram : Bytes) : SchedulerEvent → Bool
  | .offered other offer _ => other = serial && offer.datagram = datagram
  | _ => false

/-- How often a datagram was offered for a message. -/
def offersFor (serial : ℕ) (datagram : Bytes) (log : List SchedulerEvent) : ℕ :=
  log.countP (SchedulerEvent.isOfferOf serial datagram)

/-- A message that has been neither reported nor removed. -/
structure Untold (log : List SchedulerEvent) (serial : ℕ) : Prop where
  kept : .removed serial ∉ log
  quiet : ∀ event ∈ log, event.isReportOf serial = false

theorem Untold.of_append {log added : List SchedulerEvent} {serial : ℕ}
    (h : Untold (log ++ added) serial) :
    Untold log serial :=
  ⟨fun hmem => h.kept (List.mem_append_left _ hmem),
    fun event hmem => h.quiet event (List.mem_append_left _ hmem)⟩

/-- The scheduler has a post with this id, and has not reported it. -/
def SentUnder (log : List SchedulerEvent) (messageId : MessageId) : Prop :=
  ∃ serial post mtu start, .enqueued serial post mtu start ∈ log ∧ Untold log serial ∧
    post.messageId = messageId

/-! ### What a step does to the tables -/

namespace MessageStep

variable {now : ℕ} {message kept : PendingMessage} {next : Option PendingMessage}
  {ending : Option OutboundTerminalState} {offers : List Offer}

theorem frames_skipped {source : PendingMessage} (h : source.skipped now = some kept) :
    kept.frames = source.frames ∧ kept.offerCounts = source.offerCounts ∧
      kept.repeatPass = source.repeatPass := by
  rw [PendingMessage.skipped] at h
  split at h
  · cases h
  · obtain rfl := Option.some.inj h
    exact ⟨rfl, rfl, rfl⟩

/-- A message keeps its frames, counts what is offered, and comes to its repeat pass
with a report. -/
theorem kept_tables (h : MessageStep now message next ending offers) (hkept : next = some kept) :
    kept.frames = message.frames ∧
    ((offers = [] ∧ kept.offerCounts = message.offerCounts) ∨
      (∃ status, offers = [⟨message.frame, status⟩]) ∧
        kept.offerCounts = message.countOffer.offerCounts) ∧
    (kept.repeatPass = true → message.repeatPass = true ∨ ending = some .broadcast) := by
  cases h with
  | wait due =>
    obtain rfl := Option.some.inj hkept
    exact ⟨rfl, .inl ⟨rfl, rfl⟩, .inl⟩
  | giveUp => cases hkept
  | skip hrepeat =>
    obtain ⟨hframes, hcounts, -⟩ := frames_skipped hkept
    exact ⟨hframes, .inl ⟨rfl, hcounts⟩, fun _ => .inl hrepeat⟩
  | refused => cases hkept
  | retry status =>
    obtain rfl := Option.some.inj hkept
    exact ⟨rfl, .inr ⟨⟨status, rfl⟩, rfl⟩, .inl⟩
  | fail => cases hkept
  | pass status htime hoffers hstatus hrepeat =>
    obtain ⟨hframes, hcounts, -⟩ := frames_skipped hkept
    exact ⟨hframes, .inr ⟨⟨status, rfl⟩, hcounts⟩, fun _ => .inl hrepeat⟩
  | next =>
    obtain rfl := Option.some.inj hkept
    exact ⟨rfl, .inr ⟨⟨_, rfl⟩, rfl⟩, .inl⟩
  | broadcast =>
    obtain rfl := Option.some.inj hkept
    exact ⟨rfl, .inr ⟨⟨_, rfl⟩, rfl⟩, fun _ => .inr rfl⟩
  | finish => cases hkept

/-- What is offered is the datagram that the message is at, which has been offered at
most once before. -/
theorem offers_cases (h : MessageStep now message next ending offers) (hbounded : message.Bounded) :
    offers = [] ∨ (message.offers ≤ 1 ∧ ∃ status, offers = [⟨message.frame, status⟩]) := by
  cases h with
  | wait | giveUp | skip => exact .inl rfl
  | refused status htime hoffers => exact .inr ⟨hbounded.offers_le_one hoffers, status, rfl⟩
  | retry status due htime hoffers => exact .inr ⟨hbounded.offers_le_one hoffers, status, rfl⟩
  | fail status htime hstatus hretry hrepeat => exact .inr ⟨hbounded.once hrepeat, status, rfl⟩
  | pass status htime hoffers => exact .inr ⟨hbounded.offers_le_one hoffers, status, rfl⟩
  | next due htime hoffers => exact .inr ⟨hbounded.offers_le_one hoffers, _, rfl⟩
  | broadcast due htime hrepeat => exact .inr ⟨hbounded.once hrepeat, _, rfl⟩
  | finish htime hrepeat hoffers => exact .inr ⟨hbounded.offers_le_one hoffers, _, rfl⟩

/-- Only a message that is being repeated leaves the queue in silence. -/
theorem repeatPass_of_silent (h : MessageStep now message none none offers) :
    message.repeatPass = true := by
  have hending : message.ending = none → message.repeatPass = true := by
    intro hnone
    rw [PendingMessage.ending] at hnone
    split at hnone
    · assumption
    · cases hnone
  generalize hnext : (none : Option PendingMessage) = next at h
  generalize hsilent : (none : Option OutboundTerminalState) = ending at h
  cases h with
  | wait => cases hnext
  | giveUp => exact hending hsilent.symm
  | skip hrepeat => exact hrepeat
  | refused => exact hending hsilent.symm
  | retry => cases hnext
  | fail => cases hsilent
  | pass status htime hoffers hstatus hrepeat => exact hrepeat
  | next => cases hnext
  | broadcast => cases hnext
  | finish htime hrepeat => exact hrepeat

end MessageStep

/-! ### A message and its record -/

/-- The message counts as the record does, and is repeated only after a report. -/
structure MessageFile (log : List SchedulerEvent) (serial : ℕ)
    (message : PendingMessage) : Prop where
  bounded : message.Bounded
  distinct : message.frames.Nodup
  counts : ∀ index < message.frames.length,
    offersFor serial (message.frames.getD index []) log = message.offerCounts.getD index 0
  told : message.repeatPass = true → ∃ event ∈ log, event.isReportOf serial = true

section File

variable {log added : List SchedulerEvent} {serial now : ℕ} {message : PendingMessage}
  {next : Option PendingMessage} {ending : Option OutboundTerminalState} {offers : List Offer}

theorem offersFor_append (serial : ℕ) (datagram : Bytes) (log added : List SchedulerEvent) :
    offersFor serial datagram (log ++ added) =
      offersFor serial datagram log + offersFor serial datagram added :=
  List.countP_append

theorem offersFor_of_ne {datagram : Bytes} (h : ∀ event ∈ added, event.serial ≠ serial) :
    offersFor serial datagram added = 0 := by
  rw [offersFor, List.countP_eq_zero]
  intro event hevent
  have hne := h event hevent
  cases event with
  | offered other offer now =>
    have hother : other ≠ serial := hne
    simp [SchedulerEvent.isOfferOf, hother]
  | enqueued | reported | removed => simp [SchedulerEvent.isOfferOf]

theorem offersFor_stepEvents (datagram : Bytes) :
    offersFor serial datagram (stepEvents serial now message ending offers) =
      offers.countP fun offer => offer.datagram = datagram := by
  rw [stepEvents, offersFor_append]
  have hreport : offersFor serial datagram
      (ending.map fun ending => .reported serial ⟨message.messageId, ending⟩ now).toList = 0 := by
    rcases ending with _ | state
    · rfl
    · rfl
  rw [hreport, Nat.add_zero, offersFor, List.countP_map]
  congr 1
  funext offer
  simp [SchedulerEvent.isOfferOf]

theorem MessageFile.append (h : MessageFile log serial message)
    (hadded : ∀ event ∈ added, event.serial ≠ serial) :
    MessageFile (log ++ added) serial message where
  bounded := h.bounded
  distinct := h.distinct
  counts index hindex := by
    rw [offersFor_append, offersFor_of_ne hadded, Nat.add_zero]
    exact h.counts index hindex
  told hrepeat := by
    obtain ⟨event, hevent, hreport⟩ := h.told hrepeat
    exact ⟨event, List.mem_append_left _ hevent, hreport⟩

/-- The datagrams of a message differ, so an offer counts for one of them. -/
theorem MessageFile.counts_offer (h : MessageFile log serial message) (status : DatagramSendStatus)
    {index : ℕ} (hindex : index < message.frames.length) :
    offersFor serial (message.frames.getD index []) log +
        [(⟨message.frame, status⟩ : Offer)].countP (fun offer =>
          offer.datagram = message.frames.getD index []) =
      message.countOffer.offerCounts.getD index 0 := by
  have hcurrent := h.bounded.index
  have hcount := h.counts index hindex
  rw [List.countP_singleton, hcount]
  by_cases hsame : message.fragmentIndex = index
  · subst hsame
    rw [if_pos (by simp [PendingMessage.frame])]
    simp [PendingMessage.countOffer, PendingMessage.offers, h.bounded.counts, hindex]
  · have hne : message.frame ≠ message.frames.getD index [] := by
      intro heq
      rw [PendingMessage.frame, List.getD_eq_getElem _ _ hcurrent,
        List.getD_eq_getElem _ _ hindex] at heq
      exact hsame (h.distinct.getElem_inj_iff.mp heq)
    rw [if_neg (by simpa using hne), Nat.add_zero]
    simp [PendingMessage.countOffer, hsame]

theorem MessageFile.step (h : MessageFile log serial message)
    (hstep : MessageStep now message next ending offers) {kept : PendingMessage}
    (hkept : next = some kept) :
    MessageFile (log ++ stepEvents serial now message ending offers) serial kept := by
  obtain ⟨hframes, hcounts, hrepeat⟩ := hstep.kept_tables hkept
  subst hkept
  refine ⟨h.bounded.step hstep, hframes ▸ h.distinct, ?_, ?_⟩
  · intro index hindex
    rw [hframes] at hindex ⊢
    rw [offersFor_append, offersFor_stepEvents]
    rcases hcounts with ⟨rfl, hsame⟩ | ⟨⟨status, rfl⟩, hcounted⟩
    · rw [List.countP_nil, Nat.add_zero, hsame]
      exact h.counts index hindex
    · rw [h.counts_offer status hindex, hcounted]
  · intro hpass
    rcases hrepeat hpass with hbefore | rfl
    · obtain ⟨event, hevent, hreport⟩ := h.told hbefore
      exact ⟨event, List.mem_append_left _ hevent, hreport⟩
    · refine ⟨.reported serial ⟨message.messageId, .broadcast⟩ now,
        List.mem_append_right _ (List.mem_append_right _ ?_), ?_⟩
      · exact List.mem_singleton_self _
      · simp [SchedulerEvent.isReportOf]

/-- The second offer is the last one. -/
theorem MessageFile.offers_le (h : MessageFile log serial message)
    (hstep : MessageStep now message next ending offers) {datagram : Bytes}
    (hbefore : offersFor serial datagram log ≤ 2) :
    offersFor serial datagram (log ++ stepEvents serial now message ending offers) ≤ 2 := by
  rw [offersFor_append, offersFor_stepEvents]
  rcases hstep.offers_cases h.bounded with rfl | ⟨hoffers, status, rfl⟩
  · rwa [List.countP_nil, Nat.add_zero]
  · rw [List.countP_singleton]
    by_cases hdatagram : message.frame = datagram
    · have hcount := h.counts message.fragmentIndex h.bounded.index
      rw [show message.frames.getD message.fragmentIndex [] = message.frame from rfl, hdatagram,
        show message.offerCounts.getD message.fragmentIndex 0 = message.offers from rfl] at hcount
      rw [if_pos (by simpa using hdatagram)]
      omega
    · rwa [if_neg (by simpa using hdatagram), Nat.add_zero]

end File

theorem nodup_frames {post : PostPayload} {mtu : ℕ} {frames : List Bytes}
    (hmtu : isSupportedMtu mtu)
    (h : fragmentPost post mtu = .ok frames) : frames.Nodup := by
  rw [fragmentPost_eq hmtu, Except.ok.injEq] at h
  rw [← h, postFrames, List.map_map]
  refine List.Nodup.map_on ?_ List.nodup_range
  intro index hindex other hother hsame
  rw [List.mem_range] at hindex hother
  have hframe := frameBytes_inj (postFrame_valid post hmtu hindex)
    (postFrame_valid post hmtu hother) hsame
  rw [← postFrame_index hmtu hindex, hframe, postFrame_index hmtu hother]

/-! ### The events of a call -/

section Events

variable {serial now : ℕ} {message : PendingMessage} {next : Option PendingMessage}
  {ending : Option OutboundTerminalState} {offers : List Offer} {event : SchedulerEvent}

/-- The events of a step, and of the end of the message if it comes to that. -/
def pumpEvents (serial now : ℕ) (message : PendingMessage) (next : Option PendingMessage)
    (ending : Option OutboundTerminalState) (offers : List Offer) : List SchedulerEvent :=
  stepEvents serial now message ending offers ++ if next.isNone then [.removed serial] else []

theorem mem_pumpEvents (h : event ∈ pumpEvents serial now message next ending offers) :
    (∃ offer ∈ offers, event = .offered serial offer now) ∨
    (∃ state, ending = some state ∧ event = .reported serial ⟨message.messageId, state⟩ now) ∨
    (next = none ∧ event = .removed serial) := by
  rcases List.mem_append.mp h with hstep | hremoved
  · rcases List.mem_append.mp hstep with hoffer | hreport
    · obtain ⟨offer, hmem, rfl⟩ := List.mem_map.mp hoffer
      exact .inl ⟨offer, hmem, rfl⟩
    · obtain ⟨state, hstate, rfl⟩ := Option.map_eq_some_iff.mp (Option.mem_toList.mp hreport)
      exact .inr (.inl ⟨state, hstate, rfl⟩)
  · split at hremoved
    · exact .inr (.inr ⟨Option.isNone_iff_eq_none.mp ‹_›, List.mem_singleton.mp hremoved⟩)
    · cases hremoved

theorem serial_pumpEvents (h : event ∈ pumpEvents serial now message next ending offers) :
    event.serial = serial := by
  rcases mem_pumpEvents h with ⟨offer, -, rfl⟩ | ⟨state, -, rfl⟩ | ⟨-, rfl⟩
  · rfl
  · rfl
  · rfl

theorem enqueued_notMem_pumpEvents {number mtu start : ℕ} {post : PostPayload} :
    .enqueued number post mtu start ∉ pumpEvents serial now message next ending offers := by
  intro h
  rcases mem_pumpEvents h with ⟨offer, -, heq⟩ | ⟨state, -, heq⟩ | ⟨-, heq⟩
  · cases heq
  · cases heq
  · cases heq

theorem offersFor_pumpEvents (number : ℕ) (datagram : Bytes) :
    offersFor number datagram (pumpEvents serial now message next ending offers) =
      offersFor number datagram (stepEvents serial now message ending offers) := by
  rw [pumpEvents, offersFor_append]
  split
  · rfl
  · rfl

/-- An entry of the record under a new number says nothing about the others. -/
theorem Untold.enqueued {log : List SchedulerEvent} {serial number mtu start : ℕ}
    {post : PostPayload}
    (h : Untold log serial) : Untold (log ++ [.enqueued number post mtu start]) serial where
  kept hmem := by
    rcases List.mem_append.mp hmem with hold | hnew
    · exact h.kept hold
    · cases List.mem_singleton.mp hnew
  quiet event hmem := by
    rcases List.mem_append.mp hmem with hold | hnew
    · exact h.quiet event hold
    · rw [List.mem_singleton.mp hnew]
      rfl

end Events

/-! ### The whole queue -/

/-- The datagram is a frame of the post under a number. -/
def FrameOf (log : List SchedulerEvent) (serial : ℕ) (datagram : Bytes) : Prop :=
  ∃ post mtu start frames, .enqueued serial post mtu start ∈ log ∧
    fragmentPost post mtu = .ok frames ∧ datagram ∈ frames

theorem FrameOf.append {log : List SchedulerEvent} {serial : ℕ} {datagram : Bytes}
    (h : FrameOf log serial datagram) (added : List SchedulerEvent) :
    FrameOf (log ++ added) serial datagram := by
  obtain ⟨post, mtu, start, frames, hpost, hframes, hmem⟩ := h
  exact ⟨post, mtu, start, frames, List.mem_append_left _ hpost, hframes, hmem⟩

/-- A message in the queue is at a frame of its post. -/
theorem MessageTrace.frameOf {log : List SchedulerEvent} {serial : ℕ} {message : PendingMessage}
    (h : MessageTrace log serial message) : FrameOf log serial message.frame := by
  obtain ⟨post, start, hpost, -, hframes, -⟩ := h.origin
  refine ⟨post, message.mtu, start, message.frames, hpost, hframes, ?_⟩
  rw [PendingMessage.frame, List.getD_eq_getElem _ _ h.index]
  exact List.getElem_mem h.index

namespace Tracked

/-- All messages agree with the record, each number stands for one post, only its frames
are offered under the number, and none of them more than twice. -/
structure Filed (t : Tracked) : Prop where
  inv : t.Inv
  files : List.Forall₂ (MessageFile t.log) t.serials t.scheduler.pending
  unique : ∀ {serial post mtu start post' mtu' start'}, .enqueued serial post mtu start ∈ t.log →
    .enqueued serial post' mtu' start' ∈ t.log → post = post'
  known : ∀ event ∈ t.log, ∃ post mtu start, .enqueued event.serial post mtu start ∈ t.log
  live : ∀ serial ∈ t.serials, .removed serial ∉ t.log
  framed : ∀ {serial offer now}, .offered serial offer now ∈ t.log →
    FrameOf t.log serial offer.datagram
  twice : ∀ serial datagram, offersFor serial datagram t.log ≤ 2

variable {ε : Type} {t : Tracked}

theorem files_append {log added : List SchedulerEvent} {serials : List ℕ}
    {pending : List PendingMessage} (h : List.Forall₂ (MessageFile log) serials pending)
    (hadded : ∀ event ∈ added, event.serial ∉ serials) :
    List.Forall₂ (MessageFile (log ++ added)) serials pending := by
  induction h with
  | nil => exact .nil
  | cons hfile _ ih =>
    refine .cons (hfile.append fun event hevent hsame => ?_) (ih fun event hevent hmem => ?_)
    · exact hadded event hevent (by rw [hsame]; exact List.mem_cons_self ..)
    · exact hadded event hevent (List.mem_cons_of_mem _ hmem)

/-- The message under a number of the queue. -/
theorem exists_of_forall₂ {rel : ℕ → PendingMessage → Prop} {serials : List ℕ}
    {pending : List PendingMessage} (h : List.Forall₂ rel serials pending) {serial : ℕ}
    (hserial : serial ∈ serials) : ∃ message ∈ pending, rel serial message := by
  induction h with
  | nil => cases hserial
  | @cons number message _ _ hrel _ ih =>
    rcases List.mem_cons.mp hserial with rfl | hrest
    · exact ⟨message, List.mem_cons_self .., hrel⟩
    · obtain ⟨other, hother, hrel⟩ := ih hrest
      exact ⟨other, List.mem_cons_of_mem _ hother, hrel⟩

theorem Inv.exists_message (h : t.Inv) {serial : ℕ} (hserial : serial ∈ t.serials) :
    ∃ message ∈ t.scheduler.pending, MessageTrace t.log serial message :=
  exists_of_forall₂ h.traces hserial

theorem init_filed : ({} : Tracked).Filed where
  inv := init_inv
  files := .nil
  unique h := by cases h
  known _ h := by cases h
  live _ h := by cases h
  framed h := by cases h
  twice _ _ := Nat.zero_le 2

/-- What an enqueued post does to the record: nothing, or one entry under a new number. -/
theorem enqueue_cases (radio : Radio ε) (post : PostPayload) (mtu now : ℕ) (state : ε) :
    ((Scheduler.enqueue radio post mtu now t.scheduler state).1.1 = .none ∧
      (t.enqueue radio post mtu now state).log = t.log ++ [.enqueued t.nextSerial post mtu now] ∧
      (t.enqueue radio post mtu now state).serials = t.serials ++ [t.nextSerial] ∧
      (∀ message ∈ t.scheduler.pending, message.messageId ≠ post.messageId) ∧
      ∃ frames jitter, isSupportedMtu mtu ∧ fragmentPost post mtu = .ok frames ∧
        jitter.length = 2 * frames.length + 2 ∧
        (t.enqueue radio post mtu now state).scheduler.pending =
          t.scheduler.pending ++ [.new post mtu now frames jitter]) ∨
    ((Scheduler.enqueue radio post mtu now t.scheduler state).1.1 ≠ .none ∧
      t.enqueue radio post mtu now state = t) := by
  rcases Scheduler.enqueue_step radio post mtu now t.scheduler state with
    ⟨hok, hnew, hmtu, frames, jitter, hframes, hjitter, hpending⟩ | ⟨herror, hsame⟩
  · refine .inl ⟨hok, ?_, ?_, hnew, frames, jitter, hmtu, hframes, hjitter, ?_⟩
    · simp only [enqueue, if_pos hok]
    · simp only [enqueue, if_pos hok]
    · simp only [enqueue, if_pos hok]
      exact hpending
  · refine .inr ⟨herror, ?_⟩
    simp only [enqueue, if_neg herror, hsame]

theorem Filed.enqueue (h : t.Filed) (radio : Radio ε) (post : PostPayload) (mtu now : ℕ)
    (state : ε) :
    (t.enqueue radio post mtu now state).Filed := by
  -- a refused post changes neither the log nor the pending list
  rcases enqueue_cases (t := t) radio post mtu now state with
    ⟨-, hlog, hserials, -, frames, jitter, hmtu, hframes, hjitter, hpending⟩ | ⟨-, hsame⟩
  swap
  · rw [hsame]
    exact h
  -- the new number has no offers yet, so its file starts empty
  have hnothing : ∀ datagram, offersFor t.nextSerial datagram t.log = 0 :=
    fun _ => offersFor_of_ne fun event hevent => Nat.ne_of_lt (h.inv.logged event hevent)
  have hquiet : ∀ serial datagram,
      offersFor serial datagram [.enqueued t.nextSerial post mtu now] = 0 := fun _ _ => rfl
  have hnonempty : frames ≠ [] := by
    rw [fragmentPost_eq hmtu, Except.ok.injEq] at hframes
    obtain ⟨hpos, -⟩ := postFragmentCount_bounds post hmtu
    rw [← List.length_pos_iff, ← hframes, List.length_map, postFrames, List.length_map,
      List.length_range]
    exact hpos
  have hnew : MessageFile (t.log ++ [.enqueued t.nextSerial post mtu now]) t.nextSerial
      (.new post mtu now frames jitter) := by
    refine ⟨PendingMessage.new_bounded hjitter hnonempty, nodup_frames hmtu hframes, ?_, ?_⟩
    · intro index hindex
      rw [offersFor_append, hnothing, hquiet]
      simp [PendingMessage.new]
    · intro hrepeat
      cases hrepeat
  refine ⟨enqueue_inv radio post mtu now state h.inv, ?_, ?_, ?_, ?_, ?_, ?_⟩
  · rw [hlog, hserials, hpending]
    refine List.rel_append (files_append h.files ?_) (.cons hnew .nil)
    intro event hevent hmem
    rw [List.mem_singleton.mp hevent] at hmem
    exact Nat.lt_irrefl _ (h.inv.below _ hmem)
  · rw [hlog]
    intro serial first _ _ second _ _ hfirst hsecond
    -- a number below the next one is an old one
    rcases List.mem_append.mp hfirst with hfirst | hfirst <;>
      rcases List.mem_append.mp hsecond with hsecond | hsecond
    · exact h.unique hfirst hsecond
    · obtain ⟨rfl, -⟩ := SchedulerEvent.enqueued.inj (List.mem_singleton.mp hsecond)
      exact absurd (h.inv.logged _ hfirst) (Nat.lt_irrefl _)
    · obtain ⟨rfl, -⟩ := SchedulerEvent.enqueued.inj (List.mem_singleton.mp hfirst)
      exact absurd (h.inv.logged _ hsecond) (Nat.lt_irrefl _)
    · obtain ⟨-, rfl, -⟩ := SchedulerEvent.enqueued.inj (List.mem_singleton.mp hfirst)
      obtain ⟨-, rfl, -⟩ := SchedulerEvent.enqueued.inj (List.mem_singleton.mp hsecond)
      rfl
  · rw [hlog]
    intro event hevent
    rcases List.mem_append.mp hevent with hold | hnew
    · obtain ⟨known, mtu', start, hknown⟩ := h.known event hold
      exact ⟨known, mtu', start, List.mem_append_left _ hknown⟩
    · rw [List.mem_singleton.mp hnew]
      exact ⟨post, mtu, now, List.mem_append_right _ (List.mem_singleton_self _)⟩
  · rw [hlog, hserials]
    intro serial hserial hremoved
    rcases List.mem_append.mp hremoved with hold | hnew
    · rcases List.mem_append.mp hserial with hqueue | hlast
      · exact h.live serial hqueue hold
      · rw [List.mem_singleton.mp hlast] at hold
        exact Nat.lt_irrefl _ (h.inv.logged _ hold)
    · cases List.mem_singleton.mp hnew
  · rw [hlog]
    intro serial offer start hoffer
    rcases List.mem_append.mp hoffer with hold | hnew
    · exact (h.framed hold).append _
    · cases List.mem_singleton.mp hnew
  · intro serial datagram
    rw [hlog, offersFor_append, hquiet, Nat.add_zero]
    exact h.twice serial datagram

/-- A post that is not in the queue, and of which nothing has been said, is new. -/
theorem Filed.not_enqueued (h : t.Filed) {post : PostPayload}
    (huntold : ∀ serial mtu start, .enqueued serial post mtu start ∈ t.log → Untold t.log serial)
    (hnew : ∀ message ∈ t.scheduler.pending, message.messageId ≠ post.messageId)
    (serial mtu start : ℕ) : .enqueued serial post mtu start ∉ t.log := by
  intro hpost
  have hbelow : serial < t.nextSerial := h.inv.logged _ hpost
  by_cases hserial : serial ∈ t.serials
  · obtain ⟨message, hmessage, htrace⟩ := h.inv.exists_message hserial
    obtain ⟨other, start', hother, hid, -⟩ := htrace.origin
    obtain rfl := h.unique hpost hother
    exact hnew message hmessage hid
  · exact (huntold serial mtu start hpost).kept (h.inv.gone serial hbelow hserial)

/-- Nothing has been said about the next number. -/
theorem Inv.untold_nextSerial (h : t.Inv) : Untold t.log t.nextSerial where
  kept hmem := Nat.lt_irrefl _ (h.logged _ hmem)
  quiet event hmem := isReportOf_of_ne (Nat.ne_of_lt (h.logged event hmem))

/-- Everything a call of `pump` can do, on the record. -/
theorem Filed.pump_cases (h : t.Filed) (radio : Radio ε) (now : ℕ) (state : ε) :
    (t.pump radio now state = t ∧
      (Scheduler.pump radio.recording now t.scheduler (state, [])).1.2 = none) ∨
    ∃ serial serials message rest next ending offers,
      t.serials = serial :: serials ∧ t.scheduler.pending = message :: rest ∧
      MessageTrace t.log serial message ∧ MessageFile t.log serial message ∧
      List.Forall₂ (MessageFile t.log) serials rest ∧
      MessageStep now message next ending offers ∧
      (t.pump radio now state).scheduler.pending = next.toList ++ rest ∧
      (t.pump radio now state).serials = (next.map fun _ => serial).toList ++ serials ∧
      (t.pump radio now state).log = t.log ++ pumpEvents serial now message next ending offers ∧
      (Scheduler.pump radio.recording now t.scheduler (state, [])).1.2 =
        ending.map fun ending => ⟨message.messageId, ending⟩ := by
  obtain ⟨inv, files, -⟩ := h
  have traces := inv.traces
  rcases hpending : t.scheduler.pending with _ | ⟨message, rest⟩
  · refine .inl ⟨pump_nil radio now state hpending, ?_⟩
    rw [Scheduler.pump, hpending]
  rcases hserials : t.serials with _ | ⟨serial, serials⟩
  · rw [hpending, hserials] at files
    cases files
  rw [hserials, hpending] at files traces
  obtain ⟨hfile, hfiles⟩ := List.forall₂_cons.mp files
  obtain ⟨htrace, -⟩ := List.forall₂_cons.mp traces
  obtain ⟨next, ending, offers, hstep, hpending', -, hserials', hlog', hevent⟩ :=
    pump_eq radio now state hpending hserials
  exact .inr ⟨serial, serials, message, rest, next, ending, offers, rfl, rfl, htrace, hfile, hfiles,
    hstep, hpending', hserials', by rw [hlog', pumpEvents, List.append_assoc], hevent⟩

theorem Filed.pump (h : t.Filed) (radio : Radio ε) (now : ℕ) (state : ε) :
    (t.pump radio now state).Filed := by
  rcases h.pump_cases radio now state with
    ⟨hsame, -⟩ | ⟨serial, serials, message, rest, next, ending,
    offers, hserials, hpending, htrace, hfile, hfiles, hstep, hpending', hserials', hlog', -⟩
  · rw [hsame]
    exact h
  have hsorted := h.inv.sorted
  rw [hserials, List.pairwise_cons] at hsorted
  -- the pump logs events of the front number only, and the numbers ascend
  have hothers : List.Forall₂
    (MessageFile (t.log ++ pumpEvents serial now message next ending offers))
      serials rest := by
    refine files_append hfiles fun event hevent hmem => ?_
    rw [serial_pumpEvents hevent] at hmem
    exact Nat.lt_irrefl _ (hsorted.1 serial hmem)
  refine ⟨pump_inv radio now state h.inv, ?_, ?_, ?_, ?_, ?_, ?_⟩
  · rw [hpending', hserials', hlog']
    rcases next with _ | kept
    · exact hothers
    · refine .cons ?_ hothers
      rw [show pumpEvents serial now message (some kept) ending offers =
        stepEvents serial now message ending offers from List.append_nil _]
      exact hfile.step hstep rfl
  · intro number first _ _ second _ _ hfirst hsecond
    rw [hlog', List.mem_append] at hfirst hsecond
    exact h.unique (hfirst.resolve_right enqueued_notMem_pumpEvents)
      (hsecond.resolve_right enqueued_notMem_pumpEvents)
  · rw [hlog']
    intro event hevent
    rcases List.mem_append.mp hevent with hold | hnew
    · obtain ⟨known, mtu, start, hknown⟩ := h.known event hold
      exact ⟨known, mtu, start, List.mem_append_left _ hknown⟩
    · obtain ⟨post, start, hpost, -⟩ := htrace.origin
      rw [serial_pumpEvents hnew]
      exact ⟨post, message.mtu, start, List.mem_append_left _ hpost⟩
  · rw [hlog', hserials']
    intro number hnumber hremoved
    rcases List.mem_append.mp hremoved with hold | hnew
    · refine h.live number ?_ hold
      rw [hserials]
      rcases List.mem_append.mp hnumber with hfront | hrest
      · obtain ⟨_, -, rfl⟩ := Option.map_eq_some_iff.mp (Option.mem_toList.mp hfront)
        exact List.mem_cons_self ..
      · exact List.mem_cons_of_mem _ hrest
    -- the front is removed only if it is no longer there
    rcases mem_pumpEvents hnew with ⟨_, -, heq⟩ | ⟨_, -, heq⟩ | ⟨rfl, heq⟩
    · cases heq
    · cases heq
    · obtain rfl := SchedulerEvent.removed.inj heq
      exact Nat.lt_irrefl _ (hsorted.1 number hnumber)
  · rw [hlog']
    intro number offer start hoffer
    rcases List.mem_append.mp hoffer with hold | hnew
    · exact (h.framed hold).append _
    rcases mem_pumpEvents hnew with ⟨other, hother, heq⟩ | ⟨_, -, heq⟩ | ⟨-, heq⟩
    · obtain ⟨rfl, rfl, -⟩ := SchedulerEvent.offered.inj heq
      rcases hstep.offers_cases hfile.bounded with hnone | ⟨-, status, hsome⟩
      · rw [hnone] at hother
        cases hother
      · rw [hsome, List.mem_singleton] at hother
        rw [hother]
        exact htrace.frameOf.append _
    · cases heq
    · cases heq
  · intro number datagram
    rw [hlog', offersFor_append, offersFor_pumpEvents, ← offersFor_append]
    by_cases hsame : number = serial
    · subst hsame
      exact hfile.offers_le hstep (h.twice number datagram)
    · have hnone : offersFor number datagram (stepEvents serial now message ending offers) = 0 := by
        refine offersFor_of_ne fun event hevent hother => hsame ?_
        rw [← hother, serial_stepEvents hevent]
      rw [offersFor_append, hnone, Nat.add_zero]
      exact h.twice number datagram

theorem Filed.cancelAll (h : t.Filed) : t.cancelAll.Filed where
  inv := cancelAll_inv h.inv
  files := .nil
  unique hfirst hsecond := by
    have hold : ∀ {serial post mtu start}, SchedulerEvent.enqueued serial post mtu start ∈
        t.cancelAll.log → SchedulerEvent.enqueued serial post mtu start ∈ t.log := by
      intro serial post mtu start hmem
      rcases List.mem_append.mp hmem with hmem | hmem
      · exact hmem
      · obtain ⟨number, -, hremoved⟩ := List.mem_map.mp hmem
        cases hremoved
    exact h.unique (hold hfirst) (hold hsecond)
  known event hevent := by
    rcases List.mem_append.mp hevent with hold | hnew
    · obtain ⟨known, mtu, start, hknown⟩ := h.known event hold
      exact ⟨known, mtu, start, List.mem_append_left _ hknown⟩
    · obtain ⟨serial, hserial, rfl⟩ := List.mem_map.mp hnew
      obtain ⟨message, -, htrace⟩ := h.inv.exists_message hserial
      obtain ⟨post, start, hpost, -⟩ := htrace.origin
      exact ⟨post, message.mtu, start, List.mem_append_left _ hpost⟩
  live _ hserial := by cases hserial
  framed hoffer := by
    rcases List.mem_append.mp hoffer with hold | hnew
    · exact (h.framed hold).append _
    · obtain ⟨number, -, hremoved⟩ := List.mem_map.mp hnew
      cases hremoved
  twice serial datagram := by
    have hnone : offersFor serial datagram (t.serials.map .removed) = 0 := by
      rw [offersFor, List.countP_map, List.countP_eq_zero]
      intro number _
      simp [SchedulerEvent.isOfferOf]
    show offersFor serial datagram (t.log ++ t.serials.map .removed) ≤ 2
    rw [offersFor_append, hnone, Nat.add_zero]
    exact h.twice serial datagram

/-- A call of `pump` enqueues nothing. -/
theorem Filed.mem_pump_log (h : t.Filed) (radio : Radio ε) (now : ℕ) (state : ε)
    {serial mtu start : ℕ} {post : PostPayload} :
    .enqueued serial post mtu start ∈ (t.pump radio now state).log ↔
      .enqueued serial post mtu start ∈ t.log := by
  rcases h.pump_cases radio now state with
    ⟨hsame, -⟩ | ⟨front, serials, message, rest, next, ending,
    offers, -, -, -, -, -, -, -, -, hlog', -⟩
  · rw [hsame]
  · rw [hlog', List.mem_append]
    exact or_iff_left enqueued_notMem_pumpEvents

/-- If the record says something new about a message, this is what the call reports. -/
theorem Filed.pump_told (h : t.Filed) (radio : Radio ε) (now : ℕ) (state : ε) {serial mtu start : ℕ}
    {post : PostPayload} (hpost : .enqueued serial post mtu start ∈ t.log)
    (huntold : Untold t.log serial) :
    Untold (t.pump radio now state).log serial ∨
      ∃ ending, (Scheduler.pump radio.recording now t.scheduler (state, [])).1.2 =
        some ⟨post.messageId, ending⟩ := by
  rcases h.pump_cases radio now state with
    ⟨hsame, -⟩ | ⟨front, serials, message, rest, next, ending,
    offers, -, -, htrace, hfile, -, hstep, -, -, hlog', hevent⟩
  · rw [hsame]
    exact .inl huntold
  rw [hlog']
  by_cases hfront : front = serial
  swap
  · refine .inl ⟨?_, fun event hmem => ?_⟩
    · intro hmem
      rcases List.mem_append.mp hmem with hold | hnew
      · exact huntold.kept hold
      · exact hfront (serial_pumpEvents hnew).symm
    · rcases List.mem_append.mp hmem with hold | hnew
      · exact huntold.quiet event hold
      · exact isReportOf_of_ne (by rwa [serial_pumpEvents hnew])
  subst hfront
  rcases ending with _ | ending
  swap
  · obtain ⟨other, start', hother, hid, -⟩ := htrace.origin
    obtain rfl := h.unique hpost hother
    exact .inr ⟨ending, by rw [hevent, hid]; rfl⟩
  -- In silence, only a message that was reported before leaves.
  left
  refine ⟨?_, fun event hmem => ?_⟩
  · intro hmem
    rcases List.mem_append.mp hmem with hold | hnew
    · exact huntold.kept hold
    rcases mem_pumpEvents hnew with ⟨offer, -, heq⟩ | ⟨state, -, heq⟩ | ⟨rfl, -⟩
    · cases heq
    · cases heq
    · obtain ⟨event, hevent, hreport⟩ := hfile.told hstep.repeatPass_of_silent
      rw [huntold.quiet event hevent] at hreport
      cases hreport
  · rcases List.mem_append.mp hmem with hold | hnew
    · exact huntold.quiet event hold
    · rcases mem_pumpEvents hnew with ⟨offer, -, rfl⟩ | ⟨state, hnone, -⟩ | ⟨-, rfl⟩
      · rfl
      · cases hnone
      · rfl

/-- A message in the queue that has not been reported yet. -/
theorem Filed.untold_of_mem (h : t.Filed) {serial : ℕ} {message : PendingMessage}
    (hserial : serial ∈ t.serials) (htrace : MessageTrace t.log serial message)
    (hprimary : message.repeatPass = false) : Untold t.log serial :=
  ⟨h.live serial hserial, (htrace.primary hprimary).2.2⟩

/-- What is reported has been sent under its id until then, and goes on the record. -/
theorem Filed.pump_sent (h : t.Filed) (radio : Radio ε) (now : ℕ) (state : ε)
    {event : OutboundEvent}
    (hevent : (Scheduler.pump radio.recording now t.scheduler (state, [])).1.2 = some event) :
    ∃ serial post mtu start, .enqueued serial post mtu start ∈ t.log ∧ Untold t.log serial ∧
      post.messageId = event.messageId ∧
        .reported serial event now ∈ (t.pump radio now state).log := by
  rcases h.pump_cases radio now state with
    ⟨-, hnone⟩ | ⟨serial, serials, message, rest, next, ending,
    offers, hserials, -, htrace, -, -, hstep, -, -, hlog', hending⟩
  · rw [hnone] at hevent
    cases hevent
  rw [hending] at hevent
  obtain ⟨state, rfl, rfl⟩ := Option.map_eq_some_iff.mp hevent
  obtain ⟨post, start, hpost, hid, -⟩ := htrace.origin
  have hprimary := ((htrace.step hstep).2 state rfl).1
  have hserial : serial ∈ t.serials := by rw [hserials]; exact List.mem_cons_self ..
  refine ⟨serial, post, message.mtu, start, hpost, h.untold_of_mem hserial htrace hprimary,
    hid.symm, ?_⟩
  rw [hlog', pumpEvents, stepEvents]
  simp

/-- An id under which the queue has nothing that is not being repeated. -/
theorem Filed.not_sentUnder (h : t.Filed) {messageId : MessageId}
    (hnone : ∀ message ∈ t.scheduler.pending, message.repeatPass = false →
      message.messageId ≠ messageId) :
    ¬SentUnder t.log messageId := by
  rintro ⟨serial, post, mtu, start, hpost, huntold, rfl⟩
  have hserial : serial ∈ t.serials := by
    by_contra hgone
    exact huntold.kept (h.inv.gone serial (h.inv.logged _ hpost) hgone)
  obtain ⟨message, hmessage, htrace, hfile⟩ :=
    exists_of_forall₂ (List.Forall₂.mp (fun _ _ htrace hfile => And.intro htrace hfile)
      h.inv.traces h.files) hserial
  obtain ⟨other, _, hother, hid, -⟩ := htrace.origin
  obtain rfl := h.unique hpost hother
  refine hnone message hmessage ?_ hid
  by_contra hrepeat
  obtain ⟨event, hevent, hreport⟩ := hfile.told (by simpa using hrepeat)
  rw [huntold.quiet event hevent] at hreport
  cases hreport

end Tracked

end Lora
