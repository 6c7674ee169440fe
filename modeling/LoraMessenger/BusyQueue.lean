/-
Queues of posts on a radio that transmits.

A queue is filled at one tick and the scheduler is called at every tick from then on.

* `PostQueue`, `FailsOnlyLate` — no message of a queue is reported as failed before its deadline;
* `queuedMessages`, `PostQueue.start_eq` — the messages that the posts become;
* `failsEarly_fragments` — the second frame of a post fails it;
* `failsEarly_behind` — so does a post in front of it, for some jitter table;
* `failsOnlyLate_iff` — a post of one frame that is alone in the queue never fails early, and
  there is no other such queue.
-/
import LoraMessenger.BusyRadio

namespace Lora

/-- A queue of posts, as the scheduler takes it. -/
structure PostQueue where
  posts : List PostPayload
  mtu : ℕ
  supported : isSupportedMtu mtu
  distinct : (posts.map PostPayload.messageId).Nodup
  room : posts.length ≤ kMaximumOutboundMessages

/-- The scheduler and the radio after the posts were queued at a tick. -/
def enqueueAll (mtu now : ℕ) (state : Scheduler × Transmitter) (posts : List PostPayload) :
    Scheduler × Transmitter :=
  posts.foldl (fun state post =>
    let answer := state.1.enqueue (Transmitter.radio now) post mtu now state.2
    (answer.1.2, answer.2)) state

def PostQueue.start (queue : PostQueue) (now : ℕ) (random : ℕ → UInt8) : Scheduler × Transmitter :=
  enqueueAll queue.mtu now ({}, { mtu := queue.mtu, random := random }) queue.posts

/-- However the jitter tables are filled, no message is reported as failed before its deadline. -/
def PostQueue.FailsOnlyLate (queue : PostQueue) : Prop :=
  ∀ (now : ℕ) (random : ℕ → UInt8) (count : ℕ), now + count ≤ kMaximumRadioTick →
    ∀ report ∈ reports now count (queue.start now random), report.2.state = .failed →
      saturatingAdd now kOutboundDeadlineTicks ≤ report.1

variable {tokens next now later : ℕ}

/-! ### Filling the queue -/

/-- The first bytes of a source, as `enqueue` gets them. -/
def jitterTable (count : ℕ) (random : ℕ → UInt8) : List UInt8 :=
  (Vector.ofFn fun index : Fin count => random index).toList

/-- The message that a post becomes when it is queued at a tick. -/
def queuedMessage (mtu now : ℕ) (random : ℕ → UInt8) (post : PostPayload) : PendingMessage :=
  .new post mtu now ((postFrames post mtu).map frameBytes)
    (jitterTable (2 * ((postFrames post mtu).map frameBytes).length + 2) random)

def queuedMessages (mtu now : ℕ) : (ℕ → UInt8) → List PostPayload → List PendingMessage
  | _, [] => []
  | random, post :: posts =>
    queuedMessage mtu now random post ::
      queuedMessages mtu now (fun index =>
        random (2 * (postFrames post mtu).length + 2 + index)) posts

theorem messageId_queuedMessages (mtu now : ℕ) (random : ℕ → UInt8) (posts : List PostPayload) :
    (queuedMessages mtu now random posts).map PendingMessage.messageId =
      posts.map PostPayload.messageId := by
  induction posts generalizing random with
  | nil => rfl
  | cons post posts ih => exact congrArg (post.messageId :: ·) (ih _)

/-- A post that is new to a queue with room is queued. -/
theorem enqueue_eq {mtu : ℕ} (hmtu : isSupportedMtu mtu) {scheduler : Scheduler}
    (transmitter : Transmitter) {post : PostPayload}
    (hroom : scheduler.pending.length < kMaximumOutboundMessages)
    (hnew : ∀ message ∈ scheduler.pending, message.messageId ≠ post.messageId) :
    ∃ scheduler', scheduler.enqueue (Transmitter.radio now) post mtu now transmitter =
        ((.none, scheduler'), { transmitter with
          random := fun index => transmitter.random
            (2 * (postFrames post mtu).length + 2 + index) }) ∧
      scheduler'.pending = scheduler.pending ++ queuedMessages mtu now transmitter.random
        [post] := by
  have hsupported : ¬(mtu < kMinimumTransportMtu ∨ mtu > kMaximumTransportMtu) := by
    obtain ⟨hmin, hmax⟩ := hmtu
    omega
  have hunknown : ¬scheduler.pending.any (·.messageId = post.messageId) = true := by
    simpa using hnew
  have hsize : ((postFrames post mtu).map frameBytes).length = (postFrames post mtu).length :=
    List.length_map _
  rw [Scheduler.enqueue, if_neg hsupported, if_neg (Nat.not_le.mpr hroom), if_neg hunknown,
    fragmentPost_eq hmtu]
  refine ⟨Scheduler.updatePendingMetric { scheduler with
    pending := scheduler.pending ++ queuedMessages mtu now transmitter.random [post] }, ?_, rfl⟩
  rw [← hsize]
  rfl

theorem enqueueAll_eq {mtu : ℕ} (hmtu : isSupportedMtu mtu) {scheduler : Scheduler}
    {transmitter : Transmitter} {posts : List PostPayload}
    (hroom : scheduler.pending.length + posts.length ≤ kMaximumOutboundMessages)
    (hdistinct : (scheduler.pending.map PendingMessage.messageId ++
      posts.map PostPayload.messageId).Nodup) :
    ∃ scheduler' random, enqueueAll mtu now (scheduler, transmitter) posts =
        (scheduler', { transmitter with random := random }) ∧
      scheduler'.pending = scheduler.pending ++ queuedMessages mtu now
        transmitter.random posts := by
  induction posts generalizing scheduler transmitter with
  | nil => exact ⟨scheduler, transmitter.random, rfl, (List.append_nil _).symm⟩
  | cons post posts ih =>
    have hnew : ∀ message ∈ scheduler.pending, message.messageId ≠ post.messageId := by
      intro message hmessage
      exact (List.nodup_append.mp hdistinct).2.2 _ (List.mem_map_of_mem hmessage) _
        List.mem_cons_self
    rw [List.length_cons] at hroom
    obtain ⟨scheduler', henqueue, hpending⟩ := @enqueue_eq now mtu hmtu scheduler transmitter post
      (by omega) hnew
    have hids : scheduler'.pending.map PendingMessage.messageId =
        scheduler.pending.map PendingMessage.messageId ++ [post.messageId] := by
      rw [hpending, List.map_append, messageId_queuedMessages]
      rfl
    obtain ⟨last, random, hrest, hlast⟩ := @ih scheduler' { transmitter with
        random := fun index => transmitter.random (2 * (postFrames post mtu).length + 2 + index) }
      (by rw [hpending, List.length_append]; show _ + 1 + _ ≤ _; omega)
      (by rwa [hids, List.append_assoc])
    refine ⟨last, random, ?_, ?_⟩
    · rw [enqueueAll, List.foldl_cons]
      dsimp only
      rw [henqueue]
      exact hrest
    · rw [hlast, hpending, List.append_assoc]
      rfl

theorem PostQueue.start_eq (queue : PostQueue) (now : ℕ) (random : ℕ → UInt8) :
    ∃ scheduler random', queue.start now random =
        (scheduler, { mtu := queue.mtu, random := random' }) ∧
      scheduler.pending = queuedMessages queue.mtu now random queue.posts :=
  enqueueAll_eq queue.supported (by simpa using queue.room) (by simpa using queue.distinct)

/-! ### The messages -/

theorem jitterTable_getD {count index : ℕ} (h : index < count) (random : ℕ → UInt8) :
    (jitterTable count random).getD index 0 = random index := by
  simp [jitterTable, List.getD_eq_getElem?_getD, h]

section Messages

variable {mtu : ℕ} {post : PostPayload} {message : PendingMessage}

theorem length_postFrames : ((postFrames post mtu).map frameBytes).length =
    postFragmentCount post mtu := by
  simp [postFrames]

theorem length_frame (hframes : message.frames = (postFrames post mtu).map frameBytes)
    (hindex : message.fragmentIndex < postFragmentCount post mtu) :
    message.frame.length = 28 + min (framePayloadCapacity mtu)
      ((postBytes post).length - message.fragmentIndex * framePayloadCapacity mtu) := by
  have hframe : message.frame = frameBytes (postFrame post mtu message.fragmentIndex) := by
    rw [PendingMessage.frame, hframes, postFrames]
    simp [List.getD_eq_getElem?_getD, hindex]
  rw [hframe, length_frameBytes, length_postFrame_payload]
  rfl

/-- No frame is empty, and none is larger than a datagram. -/
theorem frame_bounds (hmtu : isSupportedMtu mtu)
    (hframes : message.frames = (postFrames post mtu).map frameBytes)
    (hindex : message.fragmentIndex < postFragmentCount post mtu) :
    29 ≤ message.frame.length ∧ message.frame.length ≤ 255 := by
  obtain ⟨-, hlow, hhigh⟩ := capacity_bounds hmtu
  obtain ⟨hmin, -⟩ := length_postBytes_bounds post
  have hpos := fragmentSize_pos (postBytes post).length (framePayloadCapacity mtu) (by omega)
    (by omega) hindex
  rw [length_frame hframes hindex]
  omega

/-- The first frame is full, or it holds the whole post. -/
theorem firstFrame_bounds (hmtu : isSupportedMtu mtu)
    (hframes : message.frames = (postFrames post mtu).map frameBytes)
    (hindex : message.fragmentIndex = 0) :
    48 ≤ message.frame.length ∧ (postFragmentCount post mtu ≤ 1 → 74 ≤ message.frame.length) := by
  obtain ⟨-, hlow, hhigh⟩ := capacity_bounds hmtu
  obtain ⟨hmin, -⟩ := length_postBytes_bounds post
  obtain ⟨hpos, -, hsize⟩ := fragmentCountOf_bounds (postBytes post).length
    (framePayloadCapacity mtu)
    (by omega) (by omega)
  have hlength := length_frame hframes (by rw [hindex]; exact hpos)
  rw [hindex, Nat.zero_mul, Nat.sub_zero] at hlength
  refine ⟨by omega, fun hone => ?_⟩
  have hwhole : framePayloadCapacity mtu * postFragmentCount post mtu ≤
      framePayloadCapacity mtu * 1 :=
    Nat.mul_le_mul_left _ hone
  have hsize' : (postBytes post).length ≤
    framePayloadCapacity mtu * postFragmentCount post mtu := hsize
  omega

/-- A message that is at a fragment of its post for the first time. -/
structure Unoffered (mtu : ℕ) (post : PostPayload) (limit index : ℕ)
    (message : PendingMessage) : Prop where
  port : message.mtu = mtu
  frames : message.frames = (postFrames post mtu).map frameBytes
  place : message.fragmentIndex = index
  count : index < postFragmentCount post mtu
  counts : message.offerCounts.length = message.frames.length
  ahead : ∀ other, index ≤ other → message.offerCounts.getD other 0 = 0
  deadline : message.deadline = limit
  primary : message.repeatPass = false

namespace Unoffered

variable {limit index : ℕ} {transmitter : Transmitter} {scheduler : Scheduler}
    {rest : List PendingMessage}

theorem queued (hmtu : isSupportedMtu mtu) (random : ℕ → UInt8) (post : PostPayload) :
    Unoffered mtu post (saturatingAdd now kOutboundDeadlineTicks) 0
      (queuedMessage mtu now random post) where
  port := rfl
  frames := rfl
  place := rfl
  count := (postFragmentCount_bounds post hmtu).1
  counts := List.length_replicate
  ahead _ _ := by simp [queuedMessage, PendingMessage.new]
  deadline := rfl
  primary := rfl

theorem queued_zero (hmtu : isSupportedMtu mtu) (random : ℕ → UInt8) (post : PostPayload) :
    Unoffered mtu post 60000 0 (queuedMessage mtu 0 random post) := by
  have hlimit : saturatingAdd 0 kOutboundDeadlineTicks = 60000 := by decide
  rw [← hlimit]
  exact queued hmtu random post

/-- After a fragment was offered, the next one has not been. -/
theorem next_fragment (h : Unoffered mtu post limit index message)
    (hcount : index + 1 < postFragmentCount post mtu)
    (jitterIndex due : ℕ) : Unoffered mtu post limit (index + 1) { message.countOffer with
      fragmentIndex := message.fragmentIndex + 1, jitterIndex := jitterIndex, due := due } :=
  { h with
    place := congrArg (· + 1) h.place
    count := hcount
    counts := List.length_set.trans h.counts
    ahead := by
      intro other hother
      show (message.offerCounts.set message.fragmentIndex (message.offers + 1)).getD other 0 = 0
      rw [List.getD_eq_getElem?_getD, List.getElem?_set_ne (by rw [h.place]; omega),
        ← List.getD_eq_getElem?_getD]
      exact h.ahead other (by omega) }

theorem offers_eq (h : Unoffered mtu post limit index message) : message.offers = 0 := by
  rw [PendingMessage.offers, h.place]
  exact h.ahead index (Nat.le_refl index)

theorem offered (h : Unoffered mtu post limit index message) (hmtu : isSupportedMtu mtu)
    (hstocked : Stocked tokens next now transmitter.policy) (htokens : 1734 ≤ tokens) :
    Offered tokens next now transmitter message := by
  have hindex : message.fragmentIndex < postFragmentCount post mtu := by
    rw [h.place]
    exact h.count
  obtain ⟨hmin, hmax⟩ := frame_bounds hmtu h.frames hindex
  exact {
    min := hmin
    max := hmax
    stocked := hstocked
    cost := (airtime_bounds hmin hmax).2.1.trans htokens
    primary := h.primary
    index := by rwa [h.counts, h.frames, length_postFrames] }

theorem due (h : Unoffered mtu post limit index message)
    (hfront : scheduler.pending = message :: rest)
    (hmtu : transmitter.mtu = mtu) (hdue : message.due ≤ now) (htime : now < limit) :
    Due now scheduler transmitter message rest where
  front := hfront
  time := by rwa [h.deadline]
  due := hdue
  mtu := hmtu.trans h.port.symm
  offers hrepeat := Bool.false_ne_true (h.primary.symm.trans hrepeat.1)

end Unoffered

/-- The message at the front fails if it comes up while the radio is busy for long enough. -/
theorem failsEarly_waiting {index : ℕ} (h : Unoffered mtu post 60000 index message)
    (hmtu : isSupportedMtu mtu)
    {scheduler : Scheduler} {transmitter : Transmitter} {rest : List PendingMessage}
    (hfront : scheduler.pending = message :: rest) (hport : transmitter.mtu = mtu)
    (hstocked : Stocked tokens next later transmitter.policy) (hlater : later ≤ now)
    (htokens : 1734 ≤ tokens) (hdue : message.due ≤ now)
    (hbusy : max now next + 200 < transmitter.busyUntil)
    (htime : max now next + 200 < 60000) : FailsEarly 60000 now (scheduler, transmitter) := by
  have hready := h.due hfront hport hdue (by omega)
  have hoffered := h.offered hmtu hstocked htokens
  have hdeadline := h.deadline
  have hrange : 60000 ≤ kMaximumRadioTick := by decide
  rcases Nat.lt_or_ge now next with hgap | hgap
  · exact failsEarly_blocked hready hoffered hlater h.offers_eq hgap (by omega) (by omega)
      (by omega) (by omega)
  · exact failsEarly_first hready hoffered hlater h.offers_eq hgap (by omega) (by omega)
      (by omega) (by omega)

theorem due_queuedMessage (random : ℕ → UInt8) (post : PostPayload) :
    (queuedMessage mtu 0 random post).due = scaledJitter (random 0) 250 := by
  have htable : (jitterTable (2 * ((postFrames post mtu).map frameBytes).length + 2)
    random).getD 0 0 =
      random 0 := jitterTable_getD (by omega) random
  have hjitter := scaledJitter_le (random 0) 250
  have hmax : 250 ≤ kMaximumRadioTick := by decide
  show saturatingAdd 0 (scaledJitter _ 250) = _
  rw [htable, saturatingAdd_of_le (by omega), Nat.zero_add]

theorem nextJitter_queuedMessage (random : ℕ → UInt8) (post : PostPayload) (inclusiveMaximum : ℕ) :
    (queuedMessage mtu 0 random post).countOffer.nextJitter inclusiveMaximum =
      scaledJitter (random 1) inclusiveMaximum := by
  have htable : (jitterTable (2 * ((postFrames post mtu).map frameBytes).length + 2)
    random).getD 1 0 =
      random 1 := jitterTable_getD (by omega) random
  rw [← htable]
  rfl

end Messages

/-! ### Queues that fail -/

section Advance

variable {scheduler : Scheduler} {message : PendingMessage}

theorem pending_advance_more (h : message.fragmentIndex + 1 < message.frames.length) :
    (scheduler.advance message now).1.pending = { message with
      fragmentIndex := message.fragmentIndex + 1
      jitterIndex := message.jitterIndex + 1
      due := saturatingAdd now (message.nextJitter 50) } :: scheduler.pending.tail := by
  rw [Scheduler.advance, if_pos h]
  rfl

theorem pending_advance_broadcast (h : ¬message.fragmentIndex + 1 < message.frames.length)
    (hprimary : message.repeatPass = false) :
    (scheduler.advance message now).1.pending = { message with
      repeatPass := true
      fragmentIndex := 0
      jitterIndex := message.jitterIndex + 1
      due := saturatingAdd now (1000 + message.nextJitter 250) } :: scheduler.pending.tail := by
  rw [Scheduler.advance, if_neg h, if_pos (by rw [hprimary]; rfl)]
  rfl

theorem event_advance_broadcast (h : ¬message.fragmentIndex + 1 < message.frames.length)
    (hprimary : message.repeatPass = false) :
    (scheduler.advance message now).2 = some ⟨message.messageId, .broadcast⟩ := by
  rw [Scheduler.advance, if_neg h, if_pos (by rw [hprimary]; rfl)]

theorem pending_advance_finish (h : ¬message.fragmentIndex + 1 < message.frames.length)
    (hrepeat : message.repeatPass = true) :
    (scheduler.advance message now).1.pending = scheduler.pending.tail := by
  rw [Scheduler.advance, if_neg h, if_neg (by simp [hrepeat])]
  rfl

theorem pending_backOff_finish (h : message.fragmentIndex + 1 = message.frames.length)
    (hrepeat : message.repeatPass = true) (hoffers : message.offers ≥ 2) :
    (scheduler.backOff message now).1.pending = scheduler.pending.tail := by
  rw [Scheduler.backOff, if_pos hoffers, if_neg (by simp [hrepeat]),
    Scheduler.skipFragment, if_pos h]
  rfl

end Advance

section Failing

variable {queue : PostQueue} {post : PostPayload} {posts : List PostPayload} {random : ℕ → UInt8}

/-- The radio after the first frame of a queue was sent at tick 0. -/
structure FirstSent (queue : PostQueue) (size : ℕ) (transmitter : Transmitter) : Prop where
  mtu : transmitter.mtu = queue.mtu
  busyUntil : transmitter.busyUntil = airtime size
  stocked : Stocked (6000 - airtime size) 100 0 transmitter.policy

/-- The first post of a queue is sent at once if its jitter is zero. -/
theorem failsEarly_start (hposts : queue.posts = post :: posts) (hrandom : random 0 = 0)
    (h : ∀ (scheduler : Scheduler) (transmitter : Transmitter),
      scheduler.pending = queuedMessages queue.mtu 0 random (post :: posts) →
      FirstSent queue (queuedMessage queue.mtu 0 random post).frame.length transmitter →
      FailsEarly 60000 1
        ((scheduler.advance (queuedMessage queue.mtu 0 random post).countOffer 0).1, transmitter)) :
    FailsEarly 60000 0 (queue.start 0 random) := by
  obtain ⟨scheduler, random', hstart, hpending⟩ := queue.start_eq 0 random
  have hunoffered := Unoffered.queued_zero queue.supported random post
  rw [hposts] at hpending
  have hdue := @Unoffered.due 0 queue.mtu post _ 60000 0 { mtu := queue.mtu, random := random' }
    scheduler _ hunoffered
    hpending rfl (by rw [due_queuedMessage, hrandom]; decide) (by decide)
  have hoffered := @Unoffered.offered 6000 0 0 queue.mtu post _ 60000 0
    { mtu := queue.mtu, random := random' } hunoffered
    queue.supported Stocked.create (by decide)
  obtain ⟨policy, hstocked, hpump⟩ := hdue.pump_sent hoffered.toAffords (Nat.le_refl 0)
    (Nat.le_refl 0)
    (Nat.le_refl 0) (by decide)
  rw [hstart]
  refine failsEarly_step hpump (h _ _ hpending ?_)
  exact ⟨rfl, Nat.zero_add _, hstocked⟩

/-- The second fragment is offered twice while the first one is on the air. -/
theorem failsEarly_fragments (hposts : queue.posts = post :: posts)
    (hcount : 1 < postFragmentCount post queue.mtu) :
    FailsEarly 60000 0 (queue.start 0 fun _ => 0) := by
  have hunoffered := Unoffered.queued_zero queue.supported (fun _ => 0) post
  have hlength : (queuedMessage queue.mtu 0 (fun _ => 0) post).frames.length =
      postFragmentCount post queue.mtu := length_postFrames
  have hfull := (firstFrame_bounds queue.supported hunoffered.frames hunoffered.place).1
  have hmax := (frame_bounds queue.supported hunoffered.frames hunoffered.count).2
  obtain ⟨-, hmost, hleast, -⟩ := airtime_bounds (by omega) hmax
  have hbusy := hleast hfull
  have hjitter := @nextJitter_queuedMessage queue.mtu (fun _ => 0) post 50
  have hmore : (queuedMessage queue.mtu 0 (fun _ => 0) post).countOffer.fragmentIndex + 1 <
      (queuedMessage queue.mtu 0 (fun _ => 0) post).countOffer.frames.length :=
        hcount.trans_eq hlength.symm
  refine failsEarly_start hposts rfl fun scheduler transmitter hpending hsent => ?_
  have hfront := @pending_advance_more 0 scheduler _ hmore
  rw [hjitter] at hfront
  refine failsEarly_waiting (hunoffered.next_fragment hcount _ _) queue.supported hfront hsent.mtu
    hsent.stocked (Nat.zero_le 1) (by omega) ?_ ?_ (by decide)
  · show saturatingAdd 0 (scaledJitter 0 50) ≤ 1
    decide
  rw [hsent.busyUntil]
  omega

/-- A message of one frame of some size that was sent and is to be repeated. -/
structure RepeatsOne (mtu size : ℕ) (message : PendingMessage) : Prop where
  port : message.mtu = mtu
  repeating : message.repeatPass = true
  place : message.fragmentIndex = 0
  single : message.frames.length = 1
  counts : message.offerCounts.length = 1
  once : message.offers = 1
  size : message.frame.length = size
  deadline : message.deadline = 60000

theorem RepeatsOne.due {mtu size : ℕ} {scheduler : Scheduler} {transmitter : Transmitter}
    {message : PendingMessage} {rest : List PendingMessage} (h : RepeatsOne mtu size message)
    (hfront : scheduler.pending = message :: rest) (hport : transmitter.mtu = mtu)
    (hdue : message.due = now) (htime : now < 60000) :
    Due now scheduler transmitter message rest where
  front := hfront
  time := by rwa [h.deadline]
  due := hdue.le
  mtu := hport.trans h.port.symm
  offers hrepeat := by
    have htwice := hrepeat.2
    rw [h.once] at htwice
    omega

theorem RepeatsOne.affords {size : ℕ} {transmitter : Transmitter} {message : PendingMessage}
    (h : RepeatsOne queue.mtu size message) (hsent : FirstSent queue size transmitter)
    (hmin : 29 ≤ size)
    (hmax : size ≤ 255) : Affords (6000 - airtime size) 100 0 transmitter message where
  min := by rwa [h.size]
  max := by rwa [h.size]
  stocked := hsent.stocked
  cost := by
    have hcost := (airtime_bounds hmin hmax).2.1
    rw [h.size]
    omega

/-- A jitter table that delays the repetition of the first message alone. -/
def delayRepeat (byte : UInt8) : ℕ → UInt8 := fun index => if index = 1 then byte else 0

/-- A post of one frame is broadcast and waits for its repetition. -/
theorem failsEarly_single {size due : ℕ} (hposts : queue.posts = post :: posts)
    (hcount : postFragmentCount post queue.mtu ≤ 1) {byte : UInt8}
    (hbyte : 1000 + scaledJitter byte 250 = due)
    (hsize : (queuedMessage queue.mtu 0 (delayRepeat byte) post).frame.length = size)
    (h : ∀ (scheduler : Scheduler) (transmitter : Transmitter) (message : PendingMessage),
      scheduler.pending = message :: queuedMessages queue.mtu 0
        (fun index => delayRepeat byte (2 * (postFrames post queue.mtu).length + 2 + index)) posts →
      RepeatsOne queue.mtu size message → message.due = due → FirstSent queue size transmitter →
      FailsEarly 60000 due (scheduler, transmitter)) :
    FailsEarly 60000 0 (queue.start 0 (delayRepeat byte)) := by
  have hunoffered := Unoffered.queued_zero queue.supported (delayRepeat byte) post
  have hlength : (queuedMessage queue.mtu 0 (delayRepeat byte) post).frames.length = 1 := by
    have hpos := hunoffered.count
    show ((postFrames post queue.mtu).map frameBytes).length = 1
    rw [length_postFrames]
    omega
  have hlast : ¬(queuedMessage queue.mtu 0 (delayRepeat byte) post).countOffer.fragmentIndex + 1 <
      (queuedMessage queue.mtu 0 (delayRepeat byte) post).countOffer.frames.length := by
    show ¬0 + 1 < (queuedMessage queue.mtu 0 (delayRepeat byte) post).frames.length
    omega
  have hjitter := @nextJitter_queuedMessage queue.mtu (delayRepeat byte) post 250
  have hbound := scaledJitter_le byte 250
  have hrange : 60000 ≤ kMaximumRadioTick := by decide
  have hdue : saturatingAdd 0 (1000 + scaledJitter (delayRepeat byte 1) 250) = due := by
    show saturatingAdd 0 (1000 + scaledJitter byte 250) = _
    rw [hbyte, saturatingAdd_of_le (by omega), Nat.zero_add]
  -- the only fragment is sent at once, and the repetition is due after its jitter
  refine failsEarly_start hposts rfl fun scheduler transmitter hpending hsent => ?_
  have hfront := @pending_advance_broadcast 0 scheduler _ hlast rfl
  rw [hjitter, hdue, hpending] at hfront
  rw [hsize] at hsent
  -- counting the offer leaves the message as the hypothesis wants it
  have hrepeats : RepeatsOne queue.mtu size
      { (queuedMessage queue.mtu 0 (delayRepeat byte) post).countOffer with
      repeatPass := true
      fragmentIndex := 0
      jitterIndex := (queuedMessage queue.mtu 0 (delayRepeat byte) post).countOffer.jitterIndex + 1
      due := due } := {
    port := rfl
    repeating := rfl
    place := rfl
    single := hlength
    counts := (List.length_set.trans hunoffered.counts).trans hlength
    once := (offers_countOffer (by rw [hunoffered.counts, hlength, hunoffered.place]; decide)).trans
      (congrArg (· + 1) hunoffered.offers_eq)
    size := hsize
    deadline := hunoffered.deadline }
  have htime : due ≤ 60000 := by omega
  exact failsEarly_wait hfront (show 1 ≤ due by omega) (Nat.le_refl due)
    (htime.trans_eq hunoffered.deadline.symm) (h _ _ _ hfront hrepeats rfl hsent)

/-- If the repetition is sent, the next message is offered twice while it is on the air. -/
theorem failsEarly_repeat_sent {size : ℕ} {scheduler : Scheduler} {transmitter : Transmitter}
    {message : PendingMessage} (hmin : 74 ≤ size) (hmax : size ≤ 255) (hshort : airtime size ≤ 1250)
    (hpending : scheduler.pending = message :: queuedMessages queue.mtu 0 random (post :: posts))
    (hrepeats : RepeatsOne queue.mtu size message) (hdue : message.due = 1250)
    (hsent : FirstSent queue size transmitter) :
    FailsEarly 60000 1250 (scheduler, transmitter) := by
  have hleast := (airtime_bounds (by omega) hmax).2.2.2 hmin
  have hready := hrepeats.due hpending hsent.mtu hdue (by decide)
  obtain ⟨policy, hstocked, hpump⟩ := hready.pump_sent (hrepeats.affords hsent (by omega) hmax)
    (Nat.zero_le _)
    (by decide) (by rw [hsent.busyUntil]; exact hshort) (by decide)
  have hlast : ¬message.countOffer.fragmentIndex + 1 < message.countOffer.frames.length := by
    show ¬message.fragmentIndex + 1 < message.frames.length
    rw [hrepeats.place, hrepeats.single]
    decide
  refine failsEarly_step hpump ?_
  have hfront := @pending_advance_finish 1250 (scheduler.tally fun metrics =>
    { metrics with transportOffers := metrics.transportOffers + 1 }) message.countOffer hlast
      hrepeats.repeating
  rw [Scheduler.pending_tally, hpending, List.tail_cons] at hfront
  rw [hrepeats.size] at hstocked ⊢
  have hjitter := scaledJitter_le (random 0) 250
  refine failsEarly_waiting (Unoffered.queued_zero queue.supported random post) queue.supported
    hfront hsent.mtu
    hstocked (Nat.le_succ _) (by omega) ?_ ?_ (by decide)
  · rw [due_queuedMessage]
    omega
  · show max (1250 + 1) (1250 + 100) + 200 < 1250 + airtime size
    omega

/-- If the repetition is refused, the next message is offered twice behind the first transmission.
-/
theorem failsEarly_repeat_refused {size : ℕ} {scheduler : Scheduler} {transmitter : Transmitter}
    {message : PendingMessage} (hmin : 74 ≤ size) (hmax : size ≤ 255) (hlong : 1250 < airtime size)
    (hpending : scheduler.pending = message :: queuedMessages queue.mtu 0 random (post :: posts))
    (hrepeats : RepeatsOne queue.mtu size message) (hdue : message.due = 1000)
    (hsent : FirstSent queue size transmitter) :
    FailsEarly 60000 1000 (scheduler, transmitter) := by
  have hmost := (airtime_bounds (by omega) hmax).2.1
  have hready := hrepeats.due hpending hsent.mtu hdue (by decide)
  have haffords := hrepeats.affords hsent (by omega) hmax
  have hpump := hready.pump_busy (haffords.allowed (Nat.zero_le 1000) (by decide))
    (by rw [hsent.busyUntil]; omega)
  have hlast : message.countOffer.fragmentIndex + 1 = message.countOffer.frames.length := by
    show message.fragmentIndex + 1 = message.frames.length
    rw [hrepeats.place, hrepeats.single]
  have htwice : message.countOffer.offers ≥ 2 := by
    rw [offers_countOffer (by rw [hrepeats.place, hrepeats.counts]; decide), hrepeats.once]
  refine failsEarly_step hpump ?_
  have hfront := @pending_backOff_finish 1000 (scheduler.tally fun metrics =>
    { metrics with transportOffers := metrics.transportOffers + 1 }) message.countOffer hlast
    hrepeats.repeating htwice
  rw [Scheduler.pending_tally, hpending, List.tail_cons] at hfront
  have hjitter := scaledJitter_le (random 0) 250
  refine failsEarly_waiting (Unoffered.queued_zero queue.supported random post) queue.supported
    hfront hsent.mtu
    (hsent.stocked.refill (Nat.zero_le 1000)) (Nat.le_succ _) (by omega) ?_ ?_ (by decide)
  · rw [due_queuedMessage]
    omega
  · show max (1000 + 1) 100 + 200 < transmitter.busyUntil
    rw [hsent.busyUntil]
    omega

/-- A post behind a post of one frame fails, if the repetition of that frame comes at a bad time. -/
theorem failsEarly_behind {other : PostPayload} (hposts : queue.posts = post :: other :: posts)
    (hcount : postFragmentCount post queue.mtu ≤ 1) :
    ∃ random, FailsEarly 60000 0 (queue.start 0 random) := by
  have hunoffered := Unoffered.queued_zero queue.supported (delayRepeat 0) post
  have hmin := (firstFrame_bounds queue.supported hunoffered.frames hunoffered.place).2 hcount
  have hmax := (frame_bounds queue.supported hunoffered.frames hunoffered.count).2
  rcases Nat.lt_or_ge 1250 (airtime (queuedMessage queue.mtu 0 (delayRepeat 0) post).frame.length)
    with hlong | hshort
  · have hsoon : 1000 + scaledJitter 0 250 = 1000 := by decide
    refine ⟨delayRepeat 0, failsEarly_single hposts hcount hsoon rfl ?_⟩
    intro scheduler transmitter message hpending hrepeats hdue hsent
    exact failsEarly_repeat_refused hmin hmax hlong hpending hrepeats hdue hsent
  · have hlate : 1000 + scaledJitter 255 250 = 1250 := by decide
    refine ⟨delayRepeat 255, failsEarly_single hposts hcount hlate rfl ?_⟩
    intro scheduler transmitter message hpending hrepeats hdue hsent
    exact failsEarly_repeat_sent hmin hmax hshort hpending hrepeats hdue hsent

end Failing

/-! ### Queues that do not fail -/

section Quiet

variable {ε : Type} {scheduler : Scheduler} {message : PendingMessage} {rest : List PendingMessage}

/-- The record of the offers changes nothing that the scheduler does. -/
theorem Scheduler.pump_recording (radio : Radio ε) (now : ℕ) (scheduler : Scheduler) (state : ε)
    (log : List Offer) :
    (pump radio.recording now scheduler (state, log)).1 = (pump radio now scheduler state).1 := by
  have hoffer : ∀ message state, (offer radio.recording now scheduler message (state, log)).1 =
      (offer radio now scheduler message state).1 := by
    intro message state
    simp only [offer, Radio.recording]
    rcases (radio.trySend message.frame state).1 with _ | _ | _ | _ | _
    · rfl
    · rfl
    · rfl
    · rfl
    · rfl
  rw [pump, pump]
  rcases scheduler.pending with _ | ⟨message, rest⟩
  · rfl
  by_cases htime : now ≥ message.deadline
  · simp only [if_pos htime]
  by_cases hdue : now < message.due
  · simp only [if_neg htime, if_pos hdue]
  by_cases hclosed : radio.maximumDatagramSize state ≠ message.mtu ∨ radio.closed state = true
  · have hclosed' : radio.recording.maximumDatagramSize (state, log) ≠ message.mtu ∨
      radio.recording.closed (state, log) = true := hclosed
    simp only [if_neg htime, if_neg hdue, if_pos hclosed, if_pos hclosed']
  have hclosed' : ¬(radio.recording.maximumDatagramSize (state, log) ≠ message.mtu ∨
    radio.recording.closed (state, log) = true) := hclosed
  by_cases hoffers : message.repeatPass = true ∧ message.offers ≥ 2
  · simp only [if_neg htime, if_neg hdue, if_neg hclosed, if_neg hclosed', if_pos hoffers]
  have hevaluate : radio.recording.evaluateTransmit now message.frame.length (state, log) =
    ((radio.evaluateTransmit now message.frame.length state).1,
      (radio.evaluateTransmit now message.frame.length state).2, log) := rfl
  simp only [if_neg htime, if_neg hdue, if_neg hclosed, if_neg hclosed', if_neg hoffers, hevaluate]
  rcases (radio.evaluateTransmit now message.frame.length state).1.status with _ | _ | _ | _
  · exact hoffer message _
  · rfl
  · rfl
  · rfl

theorem MessageStep.quiet {next : Option PendingMessage} {ending : Option OutboundTerminalState}
    {offers : List Offer} (h : MessageStep now message next ending offers)
    (hrepeat : message.repeatPass = true) :
    ending = none ∧ ∀ kept ∈ next, kept.repeatPass = true := by
  have hending : message.ending = none := if_pos hrepeat
  have hskipped : ∀ source : PendingMessage, source.repeatPass = true →
      ∀ kept ∈ source.skipped now, kept.repeatPass = true := by
    intro source hsource kept hkept
    rw [PendingMessage.skipped] at hkept
    split at hkept
    · cases hkept
    · obtain rfl := Option.some.inj hkept
      exact hsource
  have hsome : ∀ source : PendingMessage, source.repeatPass = true →
      ∀ kept ∈ some source, kept.repeatPass = true := by
    rintro source hsource kept ⟨⟩
    exact hsource
  have hnone : ∀ kept ∈ (none : Option PendingMessage), kept.repeatPass = true := by
    intro kept hkept
    cases hkept
  cases h with
  | wait due => exact ⟨rfl, hsome _ hrepeat⟩
  | giveUp => exact ⟨hending, hnone⟩
  | skip => exact ⟨rfl, hskipped message hrepeat⟩
  | refused => exact ⟨hending, hnone⟩
  | retry => exact ⟨rfl, hsome _ hrepeat⟩
  | fail status htime hstatus hretry hprimary => cases hprimary.symm.trans hrepeat
  | pass => exact ⟨rfl, hskipped message.countOffer hrepeat⟩
  | next => exact ⟨rfl, hsome _ hrepeat⟩
  | broadcast due htime hprimary => cases hprimary.symm.trans hrepeat
  | finish => exact ⟨rfl, hnone⟩

/-- Messages that are only repeated are not reported. -/
theorem Scheduler.pump_quiet (radio : Radio ε) (now : ℕ) (state : ε)
    (h : ∀ message ∈ scheduler.pending, message.repeatPass = true) :
    (pump radio now scheduler state).1.2 = none ∧
      ∀ message ∈ (pump radio now scheduler state).1.1.pending, message.repeatPass = true := by
  rcases hpending : scheduler.pending with _ | ⟨message, rest⟩
  · have hidle : pump radio now scheduler state = ((scheduler, none), state) := by
      rw [pump, hpending]
    rw [hidle]
    exact ⟨rfl, h⟩
  rw [hpending] at h
  obtain ⟨next, ending, offers, hstep, -, hnext, hevent⟩ := pump_step radio now state [] hpending
  obtain ⟨rfl, hkept⟩ := hstep.quiet (h message List.mem_cons_self)
  rw [← pump_recording radio now scheduler state []]
  refine ⟨hevent, fun other hother => ?_⟩
  rw [hnext, List.mem_append] at hother
  rcases hother with hother | hother
  · exact hkept other (Option.mem_toList.mp hother)
  · exact h other (List.mem_cons_of_mem message hother)

theorem reports_quiet {count : ℕ} {scheduler : Scheduler} {transmitter : Transmitter}
    (h : ∀ message ∈ scheduler.pending, message.repeatPass = true) :
    reports now count (scheduler, transmitter) = [] := by
  induction count generalizing now scheduler transmitter with
  | zero => rfl
  | succ count ih =>
    obtain ⟨hevent, hquiet⟩ := Scheduler.pump_quiet (Transmitter.radio now) now transmitter h
    rw [reports]
    dsimp only
    rw [hevent]
    exact ih hquiet

end Quiet

section Single

variable {mtu limit : ℕ} {post : PostPayload} {scheduler : Scheduler} {transmitter : Transmitter}
  {message : PendingMessage}

/-- A post of one frame that is alone waits, or it is broadcast, or its deadline has passed. -/
theorem pump_single (h : Unoffered mtu post limit 0 message) (hmtu : isSupportedMtu mtu)
    (hcount : postFragmentCount post mtu ≤ 1) (hpending : scheduler.pending = [message])
    (hport : transmitter.mtu = mtu)
    (hpolicy : transmitter.policy = Japan920RadioPolicy.create .standard)
    (hfree : transmitter.busyUntil = 0) (now : ℕ) :
    scheduler.pump (Transmitter.radio now) now transmitter = ((scheduler, none), transmitter) ∨
      (∀ kept ∈ (scheduler.pump (Transmitter.radio now) now transmitter).1.1.pending,
        kept.repeatPass = true) ∧
      ∀ event ∈ (scheduler.pump (Transmitter.radio now) now transmitter).1.2,
        event.state = .failed → limit ≤ now := by
  rcases Nat.lt_or_ge now limit with htime | htime
  · rcases Nat.lt_or_ge now message.due with hdue | hdue
    · exact Or.inl (Scheduler.pump_early _ _ hpending (by rwa [h.deadline]) hdue)
    · have hstocked : Stocked 6000 0 0 transmitter.policy := by
        rw [hpolicy]
        exact Stocked.create
      have hready := h.due hpending hport hdue htime
      have hallowed := (h.offered hmtu hstocked (by decide)).allowed (Nat.zero_le now)
        (Nat.zero_le now)
      have hlast : ¬message.countOffer.fragmentIndex + 1 < message.countOffer.frames.length := by
        show ¬message.fragmentIndex + 1 < message.frames.length
        rw [h.place, h.frames, length_postFrames]
        omega
      -- its only fragment goes out, so the message turns to its repetition
      rw [hready.pump_free hallowed (by rw [hfree]; exact Nat.zero_le now)]
      refine Or.inr ⟨?_, ?_⟩
      · intro kept hkept
        dsimp only at hkept
        rw [pending_advance_broadcast hlast h.primary, Scheduler.pending_tally, hpending,
          List.tail_cons, List.mem_singleton] at hkept
        rw [hkept]
      · intro event hevent hfailed
        dsimp only at hevent
        rw [event_advance_broadcast hlast h.primary] at hevent
        obtain rfl := Option.some.inj hevent
        cases hfailed
  · have hexpired : message.deadline ≤ now := by rwa [h.deadline]
    have hempty := (Scheduler.pump_expired (Transmitter.radio now) transmitter hpending hexpired).1
    refine Or.inr ⟨?_, fun _ _ _ => htime⟩
    rw [hempty]
    intro kept hkept
    cases hkept

theorem reports_single (h : Unoffered mtu post limit 0 message) (hmtu : isSupportedMtu mtu)
    (hcount : postFragmentCount post mtu ≤ 1) (hpending : scheduler.pending = [message])
    (hport : transmitter.mtu = mtu)
    (hpolicy : transmitter.policy = Japan920RadioPolicy.create .standard)
    (hfree : transmitter.busyUntil = 0) {count : ℕ} {report : ℕ × OutboundEvent}
    (hreport : report ∈ reports now count (scheduler, transmitter))
    (hfailed : report.2.state = .failed) :
    limit ≤ report.1 := by
  induction count generalizing now with
  | zero => cases hreport
  | succ count ih =>
    rw [reports, List.mem_append] at hreport
    dsimp only at hreport
    rcases pump_single h hmtu hcount hpending hport hpolicy hfree now with hwait | ⟨hquiet, hlate⟩
    · rw [hwait] at hreport
      exact ih (hreport.resolve_left List.not_mem_nil)
    · rw [reports_quiet hquiet] at hreport
      obtain ⟨event, hevent, rfl⟩ := List.mem_map.mp (hreport.resolve_right List.not_mem_nil)
      exact hlate event (Option.mem_toList.mp hevent) hfailed

end Single

/-! ### Which queues fail only late -/

theorem PostQueue.FailsOnlyLate.not_failsEarly {queue : PostQueue} (h : queue.FailsOnlyLate)
    (random : ℕ → UInt8) : ¬FailsEarly 60000 0 (queue.start 0 random) := by
  rintro ⟨count, hcount, report, hreport, hfailed, hearly⟩
  have hrange : 60000 ≤ kMaximumRadioTick := by decide
  have hlimit : saturatingAdd 0 kOutboundDeadlineTicks = 60000 := by decide
  have hlate := h 0 random count (by omega) report hreport hfailed
  omega

/-- A post can fail before its deadline exactly if it needs several frames or comes behind another
one. -/
theorem PostQueue.failsOnlyLate_iff (queue : PostQueue) :
    queue.FailsOnlyLate ↔
      queue.posts.length ≤ 1 ∧ ∀ post ∈ queue.posts, postFragmentCount post queue.mtu ≤ 1 := by
  constructor
  · intro h
    rcases hposts : queue.posts with _ | ⟨post, _ | ⟨other, posts⟩⟩
    · exact ⟨Nat.zero_le 1, fun post hpost => absurd hpost List.not_mem_nil⟩
    · refine ⟨Nat.le_refl 1, fun single hsingle => Nat.le_of_not_lt fun hcount => ?_⟩
      obtain rfl := List.mem_singleton.mp hsingle
      exact h.not_failsEarly _ (failsEarly_fragments hposts hcount)
    · rcases Nat.lt_or_ge 1 (postFragmentCount post queue.mtu) with hcount | hcount
      · exact absurd (failsEarly_fragments hposts hcount) (h.not_failsEarly _)
      · obtain ⟨random, hearly⟩ := failsEarly_behind hposts hcount
        exact absurd hearly (h.not_failsEarly random)
  · rintro ⟨hlength, hsingle⟩ now random count - report hreport hfailed
    obtain ⟨scheduler, random', hstart, hpending⟩ := queue.start_eq now random
    rw [hstart] at hreport
    rcases hposts : queue.posts with _ | ⟨post, _ | ⟨other, posts⟩⟩
    · rw [hposts] at hpending
      have hquiet : ∀ message ∈ scheduler.pending, message.repeatPass = true := by
        intro message hmessage
        rw [hpending] at hmessage
        cases hmessage
      rw [reports_quiet hquiet] at hreport
      cases hreport
    · rw [hposts] at hpending hsingle
      exact reports_single (Unoffered.queued queue.supported random post) queue.supported
        (hsingle post List.mem_cons_self) hpending rfl rfl rfl hreport hfailed
    · rw [hposts] at hlength
      exact absurd hlength (by simp)

/-- A post of a few dozen bytes at the smallest size of a datagram. -/
def fragmentedQueue : PostQueue where
  posts := [samplePost]
  mtu := 48
  supported := by decide
  distinct := by decide
  room := by decide

/-- Its second fragment is given up while the first one is still being sent. -/
theorem fragmentedQueue_fails : ¬fragmentedQueue.FailsOnlyLate := by
  intro h
  have hcount : 1 < postFragmentCount samplePost fragmentedQueue.mtu := by decide
  exact h.not_failsEarly _ (failsEarly_fragments rfl hcount)

end Lora
