/-
The scheduler on a radio that transmits.

While the radio is sending a datagram it takes no other.  The policy asks for a gap of
100 ms between two transmissions, the scheduler offers a datagram that was refused once
more within 200 ms, and the shortest frame that is followed by another one is on the air
for more than 400 ms.  So whatever follows a frame is offered twice while the radio is busy.

* `Transmitter`, `Transmitter.radio` — the default policy with such a transport;
* `Stocked` — what the policy answers while there are tokens in its bucket;
* `Due` — one call of `pump` for a message that is due;
* `FailsEarly`, `failsEarly_blocked` — a message that waits for a frame on the air fails.
-/
import LoraMessenger.PolicyDeferral
import LoraMessenger.SchedulerBounds

namespace Lora

/-- The airtime that the default policy estimates. -/
def airtime (datagramSize : ℕ) : ℕ :=
  Japan920PolicyConfig.standard.profile.estimatedAirtimeMs datagramSize

def defaultRules : BucketRules :=
  Japan920RadioPolicy.rules .standard Japan920PolicyConfig.standard.profile.estimatedAirtimeMs

/-- The default policy, a transport that is busy with its last datagram until a tick, and the
bytes that the jitter tables are filled with. -/
structure Transmitter where
  mtu : ℕ
  random : ℕ → UInt8
  policy : BucketPolicy := Japan920RadioPolicy.create .standard
  busyUntil : ℕ := 0

namespace Transmitter

/-- The radio at a tick. -/
def radio (now : ℕ) : Radio Transmitter where
  maximumDatagramSize transmitter := transmitter.mtu
  connected _ := true
  closed _ := false
  trySend datagram transmitter :=
    if now < transmitter.busyUntil then (.wouldBlock, transmitter)
    else (.accepted, { transmitter with busyUntil := now + airtime datagram.length })
  tryReceive _ transmitter := (⟨.wouldBlock, []⟩, transmitter)
  close transmitter := transmitter
  evaluateTransmit now datagramSize transmitter :=
    let answer := defaultRules.evaluateTransmit now datagramSize transmitter.policy
    (answer.1, { transmitter with policy := answer.2 })
  recordTransmit now datagramSize transmitter :=
    { transmitter with policy := defaultRules.recordTransmit now datagramSize transmitter.policy }
  fill size transmitter :=
    (some (Vector.ofFn fun index => transmitter.random index),
      { transmitter with random := fun index => transmitter.random (size + index) })

end Transmitter

/-- What is reported when the scheduler is pumped at every tick from `now` on. -/
def reports (now : ℕ) : ℕ → Scheduler × Transmitter → List (ℕ × OutboundEvent)
  | 0, _ => []
  | count + 1, state =>
    let answer := state.1.pump (Transmitter.radio now) now state.2
    answer.1.2.toList.map (now, ·) ++ reports (now + 1) count (answer.1.1, answer.2)

theorem saturatingAdd_of_le {value increment : ℕ} (h : value + increment ≤ kMaximumRadioTick) :
    saturatingAdd value increment = value + increment := by
  rw [saturatingAdd, if_neg (by omega)]

theorem scaledJitter_le (value : UInt8) (inclusiveMaximum : ℕ) :
    scaledJitter value inclusiveMaximum ≤ inclusiveMaximum := by
  have hvalue := value.toNat_lt
  rw [scaledJitter, Nat.div_le_iff_le_mul_add_pred (by decide)]
  have hle : value.toNat * (inclusiveMaximum + 1) ≤ 255 * (inclusiveMaximum + 1) :=
    Nat.mul_le_mul_right _ (by omega)
  omega

/-! ### Airtimes -/

theorem airtime_bounds {size : ℕ} (hmin : 29 ≤ size) (hmax : size ≤ 255) :
    301 ≤ airtime size ∧ airtime size ≤ 1734 ∧ (48 ≤ size → 415 ≤ airtime size) ∧
      (74 ≤ size → 587 ≤ airtime size) := by
  have hall : ∀ size < 256, 29 ≤ size → 301 ≤ airtime size ∧ airtime size ≤ 1734 ∧
      (48 ≤ size → 415 ≤ airtime size) ∧ (74 ≤ size → 587 ≤ airtime size) := by decide +kernel
  exact hall size (by omega) hmin

/-! ### The policy -/

/-- A policy that has not been called after `now` and holds at least `tokens`. -/
structure Stocked (tokens next now : ℕ) (policy : BucketPolicy) : Prop where
  valid : policy.valid
  clock : policy.clockStarted → policy.lastRefillTick ≤ now
  next : policy.nextTransmitTick = next
  tokens : tokens ≤ policy.tokens
  capacity : policy.tokens ≤ 6000

theorem Stocked.create : Stocked 6000 0 0 (Japan920RadioPolicy.create .standard) :=
  ⟨by decide, nofun, rfl, by decide, by decide⟩

/-- A refill takes nothing out of the bucket. -/
theorem tokens_le_refill {policy : BucketPolicy} {now : ℕ} (hcapacity : policy.tokens ≤ 6000) :
    policy.tokens ≤ (defaultRules.refill now policy).tokens ∧
      (defaultRules.refill now policy).tokens ≤ 6000 := by
  unfold BucketRules.refill
  split
  · exact ⟨Nat.le_refl _, hcapacity⟩
  split
  · exact ⟨Nat.le_refl _, hcapacity⟩
  rename_i tokens hsome
  have hrefilled : (if wrappingSub now policy.lastRefillTick / 10 > 0 then some (min 6000
      (saturatingAdd policy.tokens (wrappingSub now policy.lastRefillTick / 10))) else none) =
        some tokens := hsome
  split at hrefilled
  · have htokens := Option.some.inj hrefilled
    have hadded : policy.tokens ≤
        saturatingAdd policy.tokens (wrappingSub now policy.lastRefillTick / 10) := by
      have hmax : kMaximumRadioTick = 2 ^ 64 - 1 := rfl
      unfold saturatingAdd
      split <;> omega
    dsimp only
    omega
  · cases hrefilled

variable {tokens next now later size : ℕ} {policy : BucketPolicy}

theorem Stocked.refill (h : Stocked tokens next now policy) (hlater : now ≤ later) :
    Stocked tokens next later (defaultRules.refill later policy) := by
  have hclock : policy.clockStarted → policy.lastRefillTick ≤ later :=
    fun hstarted => (h.clock hstarted).trans hlater
  obtain ⟨hkeeps, hcapacity⟩ := @tokens_le_refill policy later h.capacity
  exact {
    valid := by rw [BucketRules.refill_valid, h.valid]
    clock := fun _ => (BucketRules.lastRefillTick_refill hclock).2
    next := by rw [BucketRules.nextTransmitTick_refill, h.next]
    tokens := h.tokens.trans hkeeps
    capacity := hcapacity }

theorem Stocked.serves (h : Stocked tokens next now policy) (hlater : now ≤ later)
    (hmin : 29 ≤ size)
    (hmax : size ≤ 255) : defaultRules.Serves later size policy where
  valid := h.valid
  size := by
    show ¬(size = 0 ∨ size > 255)
    omega
  clock hstarted := (h.clock hstarted).trans hlater
  supported := by
    obtain ⟨hlow, hhigh, -⟩ := airtime_bounds hmin hmax
    show (!(decide (airtime size = 0) || decide (airtime size > 6000))) = true
    rw [decide_eq_false (by omega), decide_eq_false (by omega)]
    rfl

/-- During the gap the policy says when it is over. -/
theorem Stocked.deferred (h : Stocked tokens next now policy) (hlater : now ≤ later)
    (hmin : 29 ≤ size)
    (hmax : size ≤ 255) (hgap : later < next) : defaultRules.evaluateTransmit later size policy =
      (⟨.deferred, next⟩, defaultRules.refill later policy) := by
  rw [BucketRules.evaluateTransmit_of_serves (h.serves hlater hmin hmax), (h.refill hlater).next,
    if_pos hgap]

theorem Stocked.allowed (h : Stocked tokens next now policy) (hlater : now ≤ later)
    (hmin : 29 ≤ size)
    (hmax : size ≤ 255) (hgap : next ≤ later) (hcost : airtime size ≤ tokens) :
    defaultRules.evaluateTransmit later size policy =
      (⟨.allowed, later⟩, defaultRules.refill later policy) := by
  have htokens := (h.refill hlater).tokens
  have hcost' : defaultRules.cost size = airtime size := rfl
  rw [BucketRules.evaluateTransmit_of_serves (h.serves hlater hmin hmax), (h.refill hlater).next,
    if_neg (by omega), if_neg (by omega)]

/-- What was just allowed is taken from the bucket, and the gap begins. -/
theorem Stocked.recordTransmit (h : Stocked tokens next now policy) (hmin : 29 ≤ size)
    (hmax : size ≤ 255)
    (hgap : next ≤ now) (hcost : airtime size ≤ tokens) (htick : now + 100 ≤ kMaximumRadioTick) :
    Stocked (tokens - airtime size)
      (now + 100) now (defaultRules.recordTransmit now size policy) := by
  have hallowed := h.allowed (Nat.le_refl now) hmin hmax hgap hcost
  have hrefilled := h.refill (Nat.le_refl now)
  have hsum : saturatingAdd now defaultRules.minimumGap = now + 100 := saturatingAdd_of_le htick
  have hprice : defaultRules.cost size = airtime size := rfl
  have hcapacity := hrefilled.capacity
  have htokens := hrefilled.tokens
  have hleft : wrappingSub (defaultRules.refill now policy).tokens (defaultRules.cost size) =
      (defaultRules.refill now policy).tokens - airtime size := by
    have hmaximum : 6000 ≤ kMaximumRadioTick := by decide
    rw [hprice]
    exact wrappingSub_eq (hcost.trans htokens) (hcapacity.trans hmaximum)
  have hrecord : defaultRules.recordTransmit now size policy = { defaultRules.refill now policy with
      tokens := (defaultRules.refill now policy).tokens - airtime size
      nextTransmitTick := now + 100 } := by
    rw [BucketRules.recordTransmit, if_neg (by simp [h.valid]), hallowed]
    dsimp only
    rw [if_neg (by simp), hleft, hsum]
  rw [hrecord]
  exact ⟨hrefilled.valid, hrefilled.clock, rfl, Nat.sub_le_sub_right htokens _,
    (Nat.sub_le _ _).trans hcapacity⟩

/-! ### One call -/

section Pump

variable {scheduler : Scheduler} {transmitter : Transmitter} {message : PendingMessage}
  {rest : List PendingMessage} {asked : BucketPolicy}

/-- The message at the front may be offered: it is due, and it was not offered twice. -/
structure Due (now : ℕ) (scheduler : Scheduler) (transmitter : Transmitter)
    (message : PendingMessage)
    (rest : List PendingMessage) : Prop where
  front : scheduler.pending = message :: rest
  time : now < message.deadline
  due : message.due ≤ now
  mtu : transmitter.mtu = message.mtu
  offers : ¬(message.repeatPass = true ∧ message.offers ≥ 2)

theorem Due.not_closed (h : Due now scheduler transmitter message rest) :
    ¬((Transmitter.radio now).maximumDatagramSize transmitter ≠ message.mtu ∨
      (Transmitter.radio now).closed transmitter = true) := by
  rintro (hother | hclosed)
  · exact hother h.mtu
  · exact Bool.false_ne_true hclosed

theorem Due.pump_deferred (h : Due now scheduler transmitter message rest) (hnext : now < next)
    (hevaluate : defaultRules.evaluateTransmit now message.frame.length transmitter.policy =
      (⟨.deferred, next⟩, asked)) :
    scheduler.pump (Transmitter.radio now) now transmitter =
      (((scheduler.tally fun metrics =>
        { metrics with policyDeferrals := metrics.policyDeferrals + 1 }).setFront
          { message with due := next }, none), { transmitter with policy := asked }) := by
  have hanswer : (Transmitter.radio now).evaluateTransmit now message.frame.length transmitter =
      (⟨.deferred, next⟩, { transmitter with policy := asked }) := by
    show ((defaultRules.evaluateTransmit now message.frame.length transmitter.policy).1,
      { transmitter with policy :=
        (defaultRules.evaluateTransmit now message.frame.length transmitter.policy).2 }) = _
    rw [hevaluate]
  rw [Scheduler.pump, h.front]
  simp only [if_neg (Nat.not_le.mpr h.time), if_neg (Nat.not_lt.mpr h.due), if_neg h.not_closed,
    if_neg h.offers, hanswer, if_pos hnext, ge_iff_le, gt_iff_lt]

theorem Due.pump_allowed (h : Due now scheduler transmitter message rest)
    (hevaluate : defaultRules.evaluateTransmit now message.frame.length transmitter.policy =
      (⟨.allowed, next⟩, asked)) :
    scheduler.pump (Transmitter.radio now) now transmitter =
      Scheduler.offer (Transmitter.radio now) now scheduler message
        { transmitter with policy := asked } := by
  have hanswer : (Transmitter.radio now).evaluateTransmit now message.frame.length transmitter =
      (⟨.allowed, next⟩, { transmitter with policy := asked }) := by
    show ((defaultRules.evaluateTransmit now message.frame.length transmitter.policy).1,
      { transmitter with policy :=
        (defaultRules.evaluateTransmit now message.frame.length transmitter.policy).2 }) = _
    rw [hevaluate]
  rw [Scheduler.pump, h.front]
  simp only [if_neg (Nat.not_le.mpr h.time), if_neg (Nat.not_lt.mpr h.due), if_neg h.not_closed,
    if_neg h.offers, hanswer, ge_iff_le]

/-- The radio is sending, and the datagram is refused. -/
theorem Due.pump_busy (h : Due now scheduler transmitter message rest)
    (hevaluate : defaultRules.evaluateTransmit now message.frame.length transmitter.policy =
      (⟨.allowed, next⟩, asked)) (hbusy : now < transmitter.busyUntil) :
    scheduler.pump (Transmitter.radio now) now transmitter =
      ((scheduler.tally fun metrics =>
        { metrics with transportOffers := metrics.transportOffers + 1 }).backOff
          message.countOffer now,
        { transmitter with policy := asked }) := by
  have hsend : (Transmitter.radio now).trySend message.frame { transmitter with policy := asked } =
      (.wouldBlock, { transmitter with policy := asked }) := if_pos hbusy
  rw [h.pump_allowed hevaluate, Scheduler.offer, hsend]

/-- The radio takes the datagram. -/
theorem Due.pump_free (h : Due now scheduler transmitter message rest)
    (hevaluate : defaultRules.evaluateTransmit now message.frame.length transmitter.policy =
      (⟨.allowed, next⟩, asked)) (hfree : transmitter.busyUntil ≤ now) :
    scheduler.pump (Transmitter.radio now) now transmitter =
      ((scheduler.tally fun metrics =>
        { metrics with transportOffers := metrics.transportOffers + 1 }).advance
          message.countOffer now,
        { transmitter with
          busyUntil := now + airtime message.frame.length
          policy := defaultRules.recordTransmit now message.frame.length asked }) := by
  have hsend : (Transmitter.radio now).trySend message.frame { transmitter with policy := asked } =
      (.accepted, { transmitter with
        policy := asked
        busyUntil := now + airtime message.frame.length }) :=
    if_neg (Nat.not_lt.mpr hfree)
  rw [h.pump_allowed hevaluate, Scheduler.offer, hsend]
  rfl

/-- There are enough tokens for the frame that a message is at. -/
structure Affords (tokens next now : ℕ) (transmitter : Transmitter)
    (message : PendingMessage) : Prop where
  min : 29 ≤ message.frame.length
  max : message.frame.length ≤ 255
  stocked : Stocked tokens next now transmitter.policy
  cost : airtime message.frame.length ≤ tokens

theorem Affords.allowed (h : Affords tokens next later transmitter message) (hlater : later ≤ now)
    (hgap : next ≤ now) : defaultRules.evaluateTransmit now message.frame.length
      transmitter.policy =
      (⟨.allowed, now⟩, defaultRules.refill now transmitter.policy) :=
  h.stocked.allowed hlater h.min h.max hgap h.cost

/-- A frame that is sent takes its airtime from the bucket and keeps the radio busy. -/
theorem Due.pump_sent (h : Due now scheduler transmitter message rest)
    (haffords : Affords tokens next later transmitter message) (hlater : later ≤ now)
    (hgap : next ≤ now)
    (hfree : transmitter.busyUntil ≤ now) (htick : now + 100 ≤ kMaximumRadioTick) :
    ∃ policy, Stocked (tokens - airtime message.frame.length) (now + 100) now policy ∧
      scheduler.pump (Transmitter.radio now) now transmitter =
        ((scheduler.tally fun metrics =>
          { metrics with transportOffers := metrics.transportOffers + 1 }).advance
            message.countOffer now,
          { transmitter with busyUntil := now + airtime message.frame.length, policy := policy }) :=
  ⟨_, (haffords.stocked.refill hlater).recordTransmit haffords.min haffords.max hgap
    haffords.cost htick,
    h.pump_free (haffords.allowed hlater hgap) hfree⟩

end Pump

/-! ### Early failures -/

/-- A message is reported as failed before the deadline. -/
def FailsEarly (deadline now : ℕ) (state : Scheduler × Transmitter) : Prop :=
  ∃ count, now + count ≤ deadline ∧
    ∃ report ∈ reports now count state, report.2.state = .failed ∧ report.1 < deadline

section FailsEarly

variable {deadline : ℕ} {scheduler : Scheduler} {transmitter : Transmitter}
    {message : PendingMessage}
  {rest : List PendingMessage}

theorem failsEarly_now {event : OutboundEvent}
    (h : (scheduler.pump (Transmitter.radio now) now transmitter).1.2 = some event)
    (hfailed : event.state = .failed) (hdeadline : now < deadline) :
    FailsEarly deadline now (scheduler, transmitter) := by
  refine ⟨1, hdeadline, (now, event), ?_, hfailed, hdeadline⟩
  rw [reports]
  dsimp only
  rw [h]
  exact List.mem_append_left _ List.mem_cons_self

theorem failsEarly_step {answer : (Scheduler × Option OutboundEvent) × Transmitter}
    (hanswer : scheduler.pump (Transmitter.radio now) now transmitter = answer)
    (h : FailsEarly deadline (now + 1) (answer.1.1, answer.2)) :
    FailsEarly deadline now (scheduler, transmitter) := by
  obtain ⟨count, hcount, report, hreport, hfailed⟩ := h
  refine ⟨count + 1, by omega, report, ?_, hfailed⟩
  rw [reports]
  dsimp only
  rw [hanswer]
  exact List.mem_append_right _ hreport

/-- Nothing happens until the message at the front is due. -/
theorem failsEarly_wait (hfront : scheduler.pending = message :: rest) (hle : now ≤ later)
    (hdue : later ≤ message.due) (hdeadline : later ≤ message.deadline)
    (h : FailsEarly deadline later (scheduler, transmitter)) :
    FailsEarly deadline now (scheduler, transmitter) := by
  induction hle using Nat.decreasingInduction with
  | self => exact h
  | of_succ tick hlt ih =>
    exact failsEarly_step (Scheduler.pump_early _ _ hfront (by omega) (by omega)) ih

/-- A message in its primary pass, for which there are enough tokens. -/
structure Offered (tokens next now : ℕ) (transmitter : Transmitter)
    (message : PendingMessage) : Prop
    extends Affords tokens next now transmitter message where
  primary : message.repeatPass = false
  index : message.fragmentIndex < message.offerCounts.length

theorem offers_countOffer (h : message.fragmentIndex < message.offerCounts.length) :
    message.countOffer.offers = message.offers + 1 := by
  show (message.offerCounts.set message.fragmentIndex (message.offers + 1)).getD
    message.fragmentIndex 0 = _
  rw [List.getD_eq_getElem?_getD, List.getElem?_set_self h]
  rfl

/-- The second refusal fails the message. -/
theorem failsEarly_second (h : Due now scheduler transmitter message rest)
    (hoffered : Offered tokens next later transmitter message) (hlater : later ≤ now)
    (hoffers : message.offers = 1) (hgap : next ≤ now) (hbusy : now < transmitter.busyUntil)
    (hdeadline : now < deadline) : FailsEarly deadline now (scheduler, transmitter) := by
  have hevaluate := hoffered.allowed hlater hgap
  have hcount : message.countOffer.offers ≥ 2 := by
    rw [offers_countOffer hoffered.index, hoffers]
  refine @failsEarly_now now deadline scheduler transmitter ⟨message.messageId, .failed⟩ ?_
    rfl hdeadline
  rw [h.pump_busy hevaluate hbusy, Scheduler.backOff]
  dsimp only
  rw [if_pos hcount, if_pos (by show (!message.repeatPass) = true; rw [hoffered.primary]; rfl)]
  rfl

/-- After the first refusal the message is due again within 200 ticks. -/
theorem backOff_retry (h : message.offers < 2) (htick : now + 200 ≤ kMaximumRadioTick) :
    ∃ scheduler' due, scheduler.backOff message now = (scheduler', none) ∧
      scheduler'.pending = { message with jitterIndex := message.jitterIndex + 1, due := due } ::
        scheduler.pending.tail ∧ now + 100 ≤ due ∧ due ≤ now + 200 := by
  have hjitter : message.nextJitter 100 ≤ 100 := scaledJitter_le _ _
  have hdue : saturatingAdd now (100 + message.nextJitter 100) =
      now + (100 + message.nextJitter 100) :=
    saturatingAdd_of_le (by omega)
  have hbackOff : scheduler.backOff message now = ((scheduler.tally fun metrics =>
      { metrics with backpressureEvents := metrics.backpressureEvents + 1 }).setFront { message with
        jitterIndex := message.jitterIndex + 1
        due := now + (100 + message.nextJitter 100) }, none) := by
    rw [Scheduler.backOff, if_neg (by omega), hdue]
  exact ⟨_, _, hbackOff, rfl, by omega, by omega⟩

/-- The first refusal is followed by another offer, while the radio is still busy. -/
theorem failsEarly_first (h : Due now scheduler transmitter message rest)
    (hoffered : Offered tokens next later transmitter message) (hlater : later ≤ now)
    (hoffers : message.offers = 0) (hgap : next ≤ now) (hbusy : now + 200 < transmitter.busyUntil)
    (hend : now + 200 < message.deadline) (hdeadline : now + 200 < deadline)
    (htick : now + 200 ≤ kMaximumRadioTick) : FailsEarly deadline now (scheduler, transmitter) := by
  have hevaluate := hoffered.allowed hlater hgap
  have hcount := offers_countOffer hoffered.index
  -- the frame on the air refuses the first offer, and the message backs off
  have hpump := h.pump_busy hevaluate (by omega)
  obtain ⟨scheduler', due, hbackOff, hfront, hdueMin, hdueMax⟩ := @backOff_retry now
    (scheduler.tally fun metrics => { metrics with transportOffers := metrics.transportOffers + 1 })
    message.countOffer (by omega) htick
  rw [hbackOff] at hpump
  refine failsEarly_step hpump ?_
  have hwait : due ≤ message.deadline := by omega
  refine failsEarly_wait hfront (by omega) (Nat.le_refl due) hwait ?_
  -- the retry falls due while the same frame is still on the air
  have hdue : Due due scheduler'
    { transmitter with policy := defaultRules.refill now transmitter.policy }
      { message.countOffer with jitterIndex := message.countOffer.jitterIndex + 1, due := due }
      (scheduler.tally fun metrics =>
        { metrics with transportOffers := metrics.transportOffers + 1 }).pending.tail := {
    front := hfront
    time := by show due < message.deadline; omega
    due := Nat.le_refl due
    mtu := h.mtu
    offers := fun hrepeat => Bool.false_ne_true (hoffered.primary.symm.trans hrepeat.1) }
  have hoffered' : Offered tokens next now
      { transmitter with policy := defaultRules.refill now transmitter.policy }
      { message.countOffer with jitterIndex := message.countOffer.jitterIndex + 1, due := due } := {
    primary := hoffered.primary
    index := by
      show message.fragmentIndex < (message.offerCounts.set _ _).length
      rw [List.length_set]
      exact hoffered.index
    min := hoffered.min
    max := hoffered.max
    stocked := hoffered.stocked.refill hlater
    cost := hoffered.cost }
  exact failsEarly_second hdue hoffered' (by omega) (hcount.trans (by rw [hoffers])) (by omega)
    (by show due < transmitter.busyUntil; omega) (by omega)

/-- A message that comes behind a frame on the air waits for the gap and is then offered twice. -/
theorem failsEarly_blocked (h : Due now scheduler transmitter message rest)
    (hoffered : Offered tokens next later transmitter message) (hlater : later ≤ now)
    (hoffers : message.offers = 0) (hgap : now < next) (hbusy : next + 200 < transmitter.busyUntil)
    (hend : next + 200 < message.deadline) (hdeadline : next + 200 < deadline)
    (htick : next + 200 ≤ kMaximumRadioTick) :
    FailsEarly deadline now (scheduler, transmitter) := by
  have hevaluate := hoffered.stocked.deferred hlater hoffered.min hoffered.max hgap
  refine failsEarly_step (h.pump_deferred hgap hevaluate) ?_
  have hwait : next ≤ message.deadline := by omega
  refine failsEarly_wait (Scheduler.pending_setFront _) (by omega) (Nat.le_refl next) hwait ?_
  have hdue : Due next ((scheduler.tally fun metrics =>
        { metrics with policyDeferrals := metrics.policyDeferrals + 1 }).setFront
        { message with due := next })
      { transmitter with policy := defaultRules.refill now transmitter.policy }
      { message with due := next } scheduler.pending.tail := {
    front := rfl
    time := by show next < message.deadline; omega
    due := Nat.le_refl next
    mtu := h.mtu
    offers := h.offers }
  have hoffered' : Offered tokens next now
      { transmitter with policy := defaultRules.refill now transmitter.policy }
      { message with due := next } :=
    { hoffered with stocked := hoffered.stocked.refill hlater }
  exact failsEarly_first hdue hoffered' hgap.le hoffers (Nat.le_refl next) hbusy hend
    hdeadline htick

end FailsEarly

end Lora
