/-
The transmission scheduler.

A queue of messages, of which only the first is on the air.  Each message is
sent fragment by fragment in a primary pass, reported as broadcast, and sent
once more in a repeat pass that reports nothing.  A fragment that the
transport refuses is offered once more after a short wait; a second refusal
fails the message, or skips the fragment if it is being repeated.

* `Scheduler.pump` — one call, with at most one offer to the transport;
* `MessageStep`, `pump_step` — everything such a call can do to the message at
  the front of the queue.
-/
import LoraMessenger.Fragmenter
import LoraMessenger.Radio

namespace Lora

def kMaximumOutboundMessages : ℕ := 16
def kOutboundDeadlineTicks : ℕ := 60000

inductive SchedulerError where
  | none
  | invalidMtu
  | invalidPost
  | duplicateMessage
  | queueFull
  | randomUnavailable
deriving DecidableEq

inductive OutboundTerminalState where
  | broadcast
  | failed
deriving DecidableEq

structure OutboundEvent where
  messageId : MessageId
  state : OutboundTerminalState
deriving DecidableEq

/-- The counts have 64 bits in the source, and stand here for fewer than 2^64 events. -/
structure SchedulerMetrics where
  pendingMessages : ℕ := 0
  highWaterMessages : ℕ := 0
  transportOffers : ℕ := 0
  acceptedDatagrams : ℕ := 0
  backpressureEvents : ℕ := 0
  policyDeferrals : ℕ := 0
  failedMessages : ℕ := 0
  broadcastMessages : ℕ := 0

structure PendingMessage where
  messageId : MessageId
  mtu : ℕ
  frames : List Bytes
  jitter : List UInt8
  offerCounts : List ℕ
  fragmentIndex : ℕ
  jitterIndex : ℕ
  due : ℕ
  deadline : ℕ
  repeatPass : Bool

structure Scheduler where
  pending : List PendingMessage := []
  metrics : SchedulerMetrics := {}

/-- The largest 64-bit tick. -/
def kMaximumRadioTick : ℕ := 2 ^ 64 - 1

def saturatingAdd (value increment : ℕ) : ℕ :=
  if value > kMaximumRadioTick - increment then kMaximumRadioTick else value + increment

def scaledJitter (value : UInt8) (inclusiveMaximum : ℕ) : ℕ :=
  value.toNat * (inclusiveMaximum + 1) / 256

namespace PendingMessage

/-- The datagram the message is at. -/
def frame (message : PendingMessage) : Bytes := message.frames.getD message.fragmentIndex []

/-- How often this datagram has been offered. -/
def offers (message : PendingMessage) : ℕ := message.offerCounts.getD message.fragmentIndex 0

/-- `jitter[jitter_index++]`, scaled. -/
def nextJitter (message : PendingMessage) (inclusiveMaximum : ℕ) : ℕ :=
  scaledJitter (message.jitter.getD message.jitterIndex 0) inclusiveMaximum

/-- A message as it enters the queue. -/
def new (post : PostPayload) (mtu now : ℕ) (frames : List Bytes) (jitter : List UInt8) :
    PendingMessage where
  messageId := post.messageId
  mtu := mtu
  frames := frames
  jitter := jitter
  offerCounts := List.replicate frames.length 0
  fragmentIndex := 0
  jitterIndex := 1
  due := saturatingAdd now (scaledJitter (jitter.getD 0 0) 250)
  deadline := saturatingAdd now kOutboundDeadlineTicks
  repeatPass := false

/-- `++offer_counts[fragment_index]`. -/
def countOffer (message : PendingMessage) : PendingMessage :=
  { message with
    offerCounts := message.offerCounts.set message.fragmentIndex (message.offers + 1) }

end PendingMessage

namespace Scheduler

/-- Change the metrics alone. -/
def tally (scheduler : Scheduler) (update : SchedulerMetrics → SchedulerMetrics) : Scheduler :=
  { scheduler with metrics := update scheduler.metrics }

/-- `update_pending_metric`. -/
def updatePendingMetric (scheduler : Scheduler) : Scheduler :=
  scheduler.tally fun metrics =>
    { metrics with
      pendingMessages := scheduler.pending.length
      highWaterMessages := max metrics.highWaterMessages scheduler.pending.length }

variable {ε : Type}

def enqueue (radio : Radio ε) (post : PostPayload) (mtu now : ℕ) (scheduler : Scheduler)
    (state : ε) :
    (SchedulerError × Scheduler) × ε :=
  if mtu < kMinimumTransportMtu ∨ mtu > kMaximumTransportMtu then ((.invalidMtu, scheduler), state)
  else if scheduler.pending.length ≥ kMaximumOutboundMessages then ((.queueFull, scheduler), state)
  else if scheduler.pending.any (·.messageId = post.messageId) then
    ((.duplicateMessage, scheduler), state)
  else
    match fragmentPost post mtu with
    | .error _ => ((.invalidPost, scheduler), state)
    | .ok fragmented =>
      match radio.fill (2 * fragmented.length + 2) state with
      | (none, state) => ((.randomUnavailable, scheduler), state)
      | (some jitter, state) =>
        let pending := PendingMessage.new post mtu now fragmented jitter.toList
        ((.none, updatePendingMetric { scheduler with pending := scheduler.pending ++ [pending] }),
          state)

/-- Erase the front of the queue. -/
def eraseFront (scheduler : Scheduler) : Scheduler :=
  updatePendingMetric { scheduler with pending := scheduler.pending.tail }

/-- `fail_front`. -/
def failFront (scheduler : Scheduler) (pending : PendingMessage) :
    Scheduler × Option OutboundEvent :=
  let scheduler := scheduler.tally fun metrics =>
    { metrics with failedMessages := metrics.failedMessages + 1 }
  (scheduler.eraseFront, some ⟨pending.messageId, .failed⟩)

/-- End a message: it has failed, unless it is only being repeated. -/
def giveUp (scheduler : Scheduler) (pending : PendingMessage) : Scheduler × Option OutboundEvent :=
  if !pending.repeatPass then scheduler.failFront pending else (scheduler.eraseFront, none)

/-- Replace the front of the queue. -/
def setFront (scheduler : Scheduler) (pending : PendingMessage) : Scheduler :=
  { scheduler with pending := pending :: scheduler.pending.tail }

/-- Go on to the next fragment of a message that is being repeated. -/
def skipFragment (scheduler : Scheduler) (pending : PendingMessage) (now : ℕ) : Scheduler :=
  let index := pending.fragmentIndex + 1
  if index = pending.frames.length then scheduler.eraseFront
  else scheduler.setFront { pending with fragmentIndex := index, due := now }

/-- The transport could not take the datagram now. -/
def backOff (scheduler : Scheduler) (pending : PendingMessage) (now : ℕ) :
    Scheduler × Option OutboundEvent :=
  let scheduler := scheduler.tally fun metrics =>
    { metrics with backpressureEvents := metrics.backpressureEvents + 1 }
  if pending.offers ≥ 2 then
    if !pending.repeatPass then scheduler.failFront pending
    else (scheduler.skipFragment pending now, none)
  else
    (scheduler.setFront
      { pending with
        jitterIndex := pending.jitterIndex + 1
        due := saturatingAdd now (100 + pending.nextJitter 100) }, none)

/-- The transport took the datagram. -/
def advance (scheduler : Scheduler) (pending : PendingMessage) (now : ℕ) :
    Scheduler × Option OutboundEvent :=
  let scheduler := scheduler.tally fun metrics =>
    { metrics with acceptedDatagrams := metrics.acceptedDatagrams + 1 }
  let index := pending.fragmentIndex + 1
  if index < pending.frames.length then
    (scheduler.setFront
      { pending with
        fragmentIndex := index
        jitterIndex := pending.jitterIndex + 1
        due := saturatingAdd now (pending.nextJitter 50) }, none)
  else if !pending.repeatPass then
    let scheduler := scheduler.tally fun metrics =>
      { metrics with broadcastMessages := metrics.broadcastMessages + 1 }
    (scheduler.setFront
      { pending with
        repeatPass := true
        fragmentIndex := 0
        jitterIndex := pending.jitterIndex + 1
        due := saturatingAdd now (1000 + pending.nextJitter 250) },
      some ⟨pending.messageId, .broadcast⟩)
  else (scheduler.eraseFront, none)

/-- The policy has allowed a transmission: offer the datagram. -/
def offer (radio : Radio ε) (now : ℕ) (scheduler : Scheduler) (pending : PendingMessage)
    (state : ε) : (Scheduler × Option OutboundEvent) × ε :=
  let scheduler := scheduler.tally fun metrics =>
    { metrics with transportOffers := metrics.transportOffers + 1 }
  let (sendStatus, state) := radio.trySend pending.frame state
  let pending := pending.countOffer
  match sendStatus with
  | .wouldBlock => (scheduler.backOff pending now, state)
  | .disconnected => (scheduler.backOff pending now, state)
  | .closed => (scheduler.giveUp pending, state)
  | .invalid => (scheduler.giveUp pending, state)
  | .accepted =>
    (scheduler.advance pending now, radio.recordTransmit now pending.frame.length state)

def pump (radio : Radio ε) (now : ℕ) (scheduler : Scheduler) (state : ε) :
    (Scheduler × Option OutboundEvent) × ε :=
  match scheduler.pending with
  | [] => ((scheduler, none), state)
  | pending :: _ =>
    if now ≥ pending.deadline then (scheduler.giveUp pending, state)
    else if now < pending.due then ((scheduler, none), state)
    else if radio.maximumDatagramSize state ≠ pending.mtu ∨ radio.closed state then
      (scheduler.giveUp pending, state)
    else if pending.repeatPass ∧ pending.offers ≥ 2 then
      ((scheduler.skipFragment pending now, none), state)
    else
      let (decision, state) := radio.evaluateTransmit now pending.frame.length state
      match decision.status with
      | .deferred =>
        let scheduler := scheduler.tally fun metrics =>
          { metrics with policyDeferrals := metrics.policyDeferrals + 1 }
        let due := if decision.notBeforeTick > now then decision.notBeforeTick
          else saturatingAdd now 100
        ((scheduler.setFront { pending with due := due }, none), state)
      | .locked => (scheduler.giveUp pending, state)
      | .invalid => (scheduler.giveUp pending, state)
      | .allowed => offer radio now scheduler pending state

/-- `cancel_all`. -/
def cancelAll (scheduler : Scheduler) : Scheduler :=
  updatePendingMetric { scheduler with pending := [] }

end Scheduler

/-! ### What a call of `pump` can do -/

/-- The transport asks to try again later. -/
def DatagramSendStatus.busy (status : DatagramSendStatus) : Prop :=
  status = .wouldBlock ∨ status = .disconnected

/-- The next fragment of a message that is being repeated, if there is one. -/
def PendingMessage.skipped (message : PendingMessage) (now : ℕ) : Option PendingMessage :=
  if message.fragmentIndex + 1 = message.frames.length then none
  else some { message with fragmentIndex := message.fragmentIndex + 1, due := now }

/-- How the end of a message is reported. -/
def PendingMessage.ending (message : PendingMessage) : Option OutboundTerminalState :=
  if message.repeatPass then none else some .failed

/-- What a call at a tick does to the message at the front: what becomes of
it, what is reported and what is offered to the transport. -/
inductive MessageStep (now : ℕ) (message : PendingMessage) :
    Option PendingMessage → Option OutboundTerminalState → List Offer → Prop
  | wait (due : ℕ) : MessageStep now message (some { message with due := due }) none []
  | giveUp : MessageStep now message none message.ending []
  | skip (hrepeat : message.repeatPass = true) :
      MessageStep now message (message.skipped now) none []
  | refused (status : DatagramSendStatus) (htime : now < message.deadline)
      (hoffers : ¬(message.repeatPass = true ∧ message.offers ≥ 2))
      (hstatus : status = .closed ∨ status = .invalid) :
      MessageStep now message none message.ending [⟨message.frame, status⟩]
  | retry (status : DatagramSendStatus) (due : ℕ) (htime : now < message.deadline)
      (hoffers : ¬(message.repeatPass = true ∧ message.offers ≥ 2))
      (hstatus : status.busy) (hretry : message.countOffer.offers < 2) :
      MessageStep now message
        (some { message.countOffer with jitterIndex := message.jitterIndex + 1, due := due })
        none [⟨message.frame, status⟩]
  | fail (status : DatagramSendStatus) (htime : now < message.deadline)
      (hstatus : status.busy) (hretry : ¬message.countOffer.offers < 2)
      (hrepeat : message.repeatPass = false) :
      MessageStep now message none (some .failed) [⟨message.frame, status⟩]
  | pass (status : DatagramSendStatus) (htime : now < message.deadline)
      (hoffers : ¬(message.repeatPass = true ∧ message.offers ≥ 2))
      (hstatus : status.busy) (hrepeat : message.repeatPass = true) :
      MessageStep now message (message.countOffer.skipped now) none [⟨message.frame, status⟩]
  | next (due : ℕ) (htime : now < message.deadline)
      (hoffers : ¬(message.repeatPass = true ∧ message.offers ≥ 2))
      (hindex : message.fragmentIndex + 1 < message.frames.length) :
      MessageStep now message
        (some { message.countOffer with
          fragmentIndex := message.fragmentIndex + 1
          jitterIndex := message.jitterIndex + 1
          due := due })
        none [⟨message.frame, .accepted⟩]
  | broadcast (due : ℕ) (htime : now < message.deadline) (hrepeat : message.repeatPass = false)
      (hindex : ¬message.fragmentIndex + 1 < message.frames.length) :
      MessageStep now message
        (some { message.countOffer with
          repeatPass := true
          fragmentIndex := 0
          jitterIndex := message.jitterIndex + 1
          due := due })
        (some .broadcast) [⟨message.frame, .accepted⟩]
  | finish (htime : now < message.deadline) (hrepeat : message.repeatPass = true)
      (hoffers : ¬(message.repeatPass = true ∧ message.offers ≥ 2))
      (hindex : ¬message.fragmentIndex + 1 < message.frames.length) :
      MessageStep now message none none [⟨message.frame, .accepted⟩]

namespace Scheduler

variable {ε : Type} {now : ℕ} {scheduler : Scheduler} {message : PendingMessage}
  {rest : List PendingMessage}

/-- **Everything a call of `enqueue` can do.** -/
theorem enqueue_step (radio : Radio ε) (post : PostPayload) (mtu now : ℕ) (scheduler : Scheduler)
    (state : ε) :
    ((enqueue radio post mtu now scheduler state).1.1 = .none ∧
      (∀ message ∈ scheduler.pending, message.messageId ≠ post.messageId) ∧
      isSupportedMtu mtu ∧ ∃ frames jitter, fragmentPost post mtu = .ok frames ∧
        jitter.length = 2 * frames.length + 2 ∧
        (enqueue radio post mtu now scheduler state).1.2.pending =
          scheduler.pending ++ [.new post mtu now frames jitter]) ∨
    ((enqueue radio post mtu now scheduler state).1.1 ≠ .none ∧
      (enqueue radio post mtu now scheduler state).1.2 = scheduler) := by
  rw [enqueue]
  split
  · exact Or.inr ⟨by simp, rfl⟩
  rename_i hmtu
  split
  · exact Or.inr ⟨by simp, rfl⟩
  split
  · exact Or.inr ⟨by simp, rfl⟩
  rename_i hduplicate
  split
  · exact Or.inr ⟨by simp, rfl⟩
  rename_i frames hframes
  split
  · exact Or.inr ⟨by simp, rfl⟩
  rename_i jitter _ _
  refine Or.inl ⟨rfl, ?_, ?_, frames, jitter.toList, hframes, by simp, rfl⟩
  · simpa using hduplicate
  · simp only [isSupportedMtu]
    omega

@[simp] theorem pending_tally (scheduler : Scheduler)
    (update : SchedulerMetrics → SchedulerMetrics) : (scheduler.tally update).pending =
      scheduler.pending := rfl

@[simp] theorem pending_eraseFront : scheduler.eraseFront.pending = scheduler.pending.tail := rfl

@[simp] theorem pending_setFront (other : PendingMessage) :
    (scheduler.setFront other).pending = other :: scheduler.pending.tail := rfl

theorem pending_giveUp (h : scheduler.pending = message :: rest) (other : PendingMessage) :
    (scheduler.giveUp other).1.pending = rest := by
  rw [giveUp]
  split
  · simp [failFront, h]
  · simp [h]

theorem event_giveUp (other : PendingMessage) :
    (scheduler.giveUp other).2 = other.ending.map fun ending => ⟨other.messageId, ending⟩ := by
  rw [giveUp, PendingMessage.ending]
  cases other.repeatPass
  · rfl
  · rfl

theorem pending_skipFragment (h : scheduler.pending = message :: rest) (other : PendingMessage)
    (now : ℕ) :
    (scheduler.skipFragment other now).pending = (other.skipped now).toList ++ rest := by
  rw [skipFragment, PendingMessage.skipped]
  split
  · simp [h]
  · simp [h]

theorem backOff_step {status : DatagramSendStatus} (h : scheduler.pending = message :: rest)
    (htime : now < message.deadline) (hoffers : ¬(message.repeatPass = true ∧ message.offers ≥ 2))
    (hstatus : status.busy) :
    ∃ next ending, MessageStep now message next ending [⟨message.frame, status⟩] ∧
      (scheduler.backOff message.countOffer now).1.pending = next.toList ++ rest ∧
      (scheduler.backOff message.countOffer now).2 =
        ending.map fun ending => ⟨message.messageId, ending⟩ := by
  simp only [backOff]
  by_cases hretry : message.countOffer.offers ≥ 2
  · rw [if_pos hretry]
    rcases hrepeat : message.repeatPass with _ | _
    · refine ⟨none, some .failed, .fail status htime hstatus (by omega) hrepeat, ?_, ?_⟩
      · simp [PendingMessage.countOffer, hrepeat, failFront, h]
      · simp [PendingMessage.countOffer, hrepeat, failFront]
    · have hrepeat' : message.countOffer.repeatPass = true := hrepeat
      refine ⟨message.countOffer.skipped now, none, .pass status htime hoffers hstatus hrepeat,
        ?_, ?_⟩
      · rw [if_neg (by simp [hrepeat'])]
        exact pending_skipFragment ((pending_tally scheduler _).trans h) message.countOffer now
      · rw [if_neg (by simp [hrepeat'])]
        rfl
  · rw [if_neg hretry]
    refine ⟨_, none, .retry status
      (saturatingAdd now (100 + message.countOffer.nextJitter 100)) htime
      hoffers hstatus (by omega), ?_, rfl⟩
    rw [pending_setFront, pending_tally, h]
    rfl

theorem advance_step (h : scheduler.pending = message :: rest) (htime : now < message.deadline)
    (hoffers : ¬(message.repeatPass = true ∧ message.offers ≥ 2)) :
    ∃ next ending, MessageStep now message next ending [⟨message.frame, .accepted⟩] ∧
      (scheduler.advance message.countOffer now).1.pending = next.toList ++ rest ∧
      (scheduler.advance message.countOffer now).2 =
        ending.map fun ending => ⟨message.messageId, ending⟩ := by
  simp only [advance]
  by_cases hindex : message.countOffer.fragmentIndex + 1 < message.countOffer.frames.length
  · rw [if_pos hindex]
    refine ⟨_, none, .next (saturatingAdd now (message.countOffer.nextJitter 50)) htime
      hoffers hindex,
      ?_, rfl⟩
    rw [pending_setFront, pending_tally, h]
    rfl
  · rw [if_neg hindex]
    rcases hrepeat : message.repeatPass with _ | _
    · have hrepeat' : message.countOffer.repeatPass = false := hrepeat
      rw [if_pos (by simp [hrepeat'])]
      refine ⟨_, some .broadcast,
        .broadcast (saturatingAdd now (1000 + message.countOffer.nextJitter 250)) htime
          hrepeat hindex,
        ?_, rfl⟩
      rw [pending_setFront, pending_tally, pending_tally, h]
      rfl
    · have hrepeat' : message.countOffer.repeatPass = true := hrepeat
      rw [if_neg (by simp [hrepeat'])]
      refine ⟨none, none, .finish htime hrepeat hoffers hindex, ?_, rfl⟩
      rw [pending_eraseFront, pending_tally, h]
      rfl

/-- An offer to the transport. -/
theorem offer_step (radio : Radio ε) (state : ε) (log : List Offer)
    (h : scheduler.pending = message :: rest) (htime : now < message.deadline)
    (hoffers : ¬(message.repeatPass = true ∧ message.offers ≥ 2)) :
    ∃ next ending offers, MessageStep now message next ending offers ∧
      (offer radio.recording now scheduler message (state, log)).2.2 = log ++ offers ∧
      (offer radio.recording now scheduler message (state, log)).1.1.pending =
        next.toList ++ rest ∧
      (offer radio.recording now scheduler message (state, log)).1.2 =
        ending.map fun ending => ⟨message.messageId, ending⟩ := by
  have htally := fun update => (pending_tally scheduler update).trans h
  simp only [offer, Radio.recording]
  rcases hsend : (radio.trySend message.frame state).1 with _ | _ | _ | _ | _
  · obtain ⟨next, ending, hstep, hpending, hevent⟩ := advance_step (htally _) htime hoffers
    exact ⟨next, ending, _, hstep, rfl, hpending, hevent⟩
  · obtain ⟨next, ending, hstep, hpending, hevent⟩ :=
      backOff_step (htally _) htime hoffers (.inl rfl)
    exact ⟨next, ending, _, hstep, rfl, hpending, hevent⟩
  · obtain ⟨next, ending, hstep, hpending, hevent⟩ :=
      backOff_step (htally _) htime hoffers (.inr rfl)
    exact ⟨next, ending, _, hstep, rfl, hpending, hevent⟩
  · exact ⟨none, _, _, .refused .closed htime hoffers (.inl rfl), rfl,
      pending_giveUp (htally _) message.countOffer, event_giveUp _⟩
  · exact ⟨none, _, _, .refused .invalid htime hoffers (.inr rfl), rfl,
      pending_giveUp (htally _) message.countOffer, event_giveUp _⟩

/-- **Everything a call of `pump` can do.** -/
theorem pump_step (radio : Radio ε) (now : ℕ) (state : ε) (log : List Offer)
    (h : scheduler.pending = message :: rest) :
    ∃ next ending offers, MessageStep now message next ending offers ∧
      (pump radio.recording now scheduler (state, log)).2.2 = log ++ offers ∧
      (pump radio.recording now scheduler (state, log)).1.1.pending = next.toList ++ rest ∧
      (pump radio.recording now scheduler (state, log)).1.2 =
        ending.map fun ending => ⟨message.messageId, ending⟩ := by
  have hgiveUp : ∃ next ending offers, MessageStep now message next ending offers ∧
      log = log ++ offers ∧ (scheduler.giveUp message).1.pending = next.toList ++ rest ∧
      (scheduler.giveUp message).2 = ending.map fun ending => ⟨message.messageId, ending⟩ :=
    ⟨none, _, [], .giveUp, by simp, pending_giveUp h message, event_giveUp message⟩
  rw [pump, h]
  by_cases htime : now ≥ message.deadline
  · simp only [if_pos htime]
    exact hgiveUp
  by_cases hdue : now < message.due
  · simp only [if_neg htime, if_pos hdue]
    exact ⟨_, none, [], .wait message.due, by simp, by rw [h]; rfl, rfl⟩
  by_cases hmtu : radio.recording.maximumDatagramSize (state, log) ≠ message.mtu ∨
      radio.recording.closed (state, log) = true
  · simp only [if_neg htime, if_neg hdue, if_pos hmtu]
    exact hgiveUp
  by_cases hoffers : message.repeatPass = true ∧ message.offers ≥ 2
  · simp only [if_neg htime, if_neg hdue, if_neg hmtu, if_pos hoffers]
    exact ⟨_, none, [], .skip hoffers.1, by simp, pending_skipFragment h message now, rfl⟩
  simp only [if_neg htime, if_neg hdue, if_neg hmtu, if_neg hoffers]
  have hevaluate : (radio.recording.evaluateTransmit now message.frame.length (state, log)).2 =
    ((radio.evaluateTransmit now message.frame.length state).2, log) := rfl
  generalize (radio.evaluateTransmit now message.frame.length state).2 = evaluated at hevaluate
  rw [hevaluate]
  generalize (radio.recording.evaluateTransmit now message.frame.length (state, log)).1 = decision
  rcases decision.status with _ | _ | _ | _
  · exact offer_step radio evaluated log h (by omega) hoffers
  · refine ⟨_, none, [], .wait (if decision.notBeforeTick > now then decision.notBeforeTick
      else saturatingAdd now 100), by simp, ?_, rfl⟩
    rw [pending_setFront, pending_tally, h]
    rfl
  · exact hgiveUp
  · exact hgiveUp

end Scheduler

end Lora
