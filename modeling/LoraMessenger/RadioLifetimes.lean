/-
Posts over all lifetimes.

Processes start, compose, pump and end in the middle of anything, and the records that
they leave behind add up: no post is in two of them, since each has a sequence that was
never given out before.

* `Station.Lawful` — what holds of all records, kept by `Station.Lawful.step`;
* `offers_bounded_and_delivery_honest` — no frame is offered more than twice, a post is
  broadcast only if all its frames were accepted, and only in the run that composed it.
-/
import LoraMessenger.RadioDelivery

namespace Lora

open Crash

variable {ε : Type}

/-! ### Runs -/

/-- The id that a call draws for its post. -/
def StationEvent.drawn : StationEvent ε → Option MessageId
  | .user (.compose _ random _) _ => (MessageId.generate random).toOption
  | _ => none

/-- The posts that were broadcast before. -/
def Station.Earned (disk : Disk) (past : List RunRecord) (post : PostPayload) : Prop :=
  (∃ entry ∈ disk.entries, entry.post = post ∧ entry.origin = .localDelivery .broadcast) ∨
    ∃ record ∈ past, record.Tells post

/-- The records of all runs are sound, and their posts have growing sequences and ids that
were drawn for them. -/
structure Station.Lawful (disk : Disk) (draws : List MessageId) (first : ℕ) (station : Station ε) :
    Prop where
  sound : ∀ record ∈ station.past, record.Sound
  sorted : (station.past.flatMap RunRecord.composed).Pairwise fun post later =>
    post.senderSequence.toNat < later.senderSequence.toNat
  below : ∀ post ∈ station.past.flatMap RunRecord.composed, post.senderSequence.toNat ≤ first
  kept : station.legacy.Kept first (Station.Earned disk station.past)
  driven : ∀ process, station.process = some process →
    Driven first (Station.Earned disk station.past) ⟨process, station.legacy, []⟩
  drawn : ((station.records.flatMap RunRecord.composed).map PostPayload.messageId).Sublist draws

namespace Station

variable {disk : Disk} {draws : List MessageId} {first : ℕ} {station : Station ε}

theorem init_lawful (disk : Disk) : Station.Lawful disk [] disk.watermark
    ({ legacy := { disk := disk } } : Station ε) where
  sound _ h := by cases h
  sorted := .nil
  below _ h := by cases h
  kept :=
    { sound := ⟨⟨{}, Tracked.init_filed, rfl⟩, by simp, by simp⟩
      sorted := .nil
      issued := by simp
      first_le := le_refl _
      broadcast := fun entry hentry horigin => .inl (.inl ⟨entry, hentry, rfl, horigin⟩) }
  driven _ h := by cases h
  drawn := by simp [records]

/-- A program that keeps what holds between two calls. -/
theorem Lawful.perform {α : Type} (h : station.Lawful disk draws first) {program : RuntimeM ε α}
    {faults : List Fault} {draws' : List MessageId}
    (hwp : ∀ process, Driven first (Earned disk station.past) ⟨process, station.legacy, faults⟩ →
      wp program (fun _ m => Driven first (Earned disk station.past) m ∧
          (((station.past ++ [m.durable.record]).flatMap RunRecord.composed).map
            PostPayload.messageId).Sublist draws')
        (fun legacy => legacy.Kept first (Earned disk station.past) ∧
          (((station.past ++ [legacy.record]).flatMap RunRecord.composed).map
            PostPayload.messageId).Sublist draws') ⟨process, station.legacy, faults⟩)
    (hdraws : draws.Sublist draws') :
    (station.perform program faults).Lawful disk draws' first := by
  obtain ⟨legacy, _ | process, past⟩ := station
  · exact ⟨h.sound, h.sorted, h.below, h.kept, h.driven, h.drawn.trans hdraws⟩
  have hresult := hwp process ((h.driven process rfl).congr process.radio faults)
  unfold wp at hresult
  unfold Station.perform
  dsimp only at hresult ⊢
  rcases hrun : program ⟨process, legacy, faults⟩ with ⟨value, m⟩ | left
  · rw [hrun] at hresult
    obtain ⟨hdriven, hdrawn⟩ := hresult
    refine ⟨h.sound, h.sorted, h.below, hdriven.kept, fun other hother => ?_, hdrawn⟩
    obtain rfl := Option.some.inj hother
    exact hdriven.congr m.memory.radio []
  · rw [hrun] at hresult
    obtain ⟨hkept, hdrawn⟩ := hresult
    exact ⟨h.sound, h.sorted, h.below, hkept, fun other hother => (by cases hother), hdrawn⟩

theorem Lawful.tuned (h : station.Lawful disk draws first) (state : ε) :
    (station.tuned state).Lawful disk draws first := by
  refine ⟨h.sound, h.sorted, h.below, h.kept, fun process hprocess => ?_, h.drawn⟩
  obtain ⟨before, hbefore, rfl⟩ := Option.map_eq_some_iff.mp hprocess
  exact (h.driven before hbefore).congr state []

/-- All posts, those of the current run last. -/
theorem flatMap_records (past : List RunRecord) (record : RunRecord) :
    (past ++ [record]).flatMap RunRecord.composed =
      past.flatMap RunRecord.composed ++ record.composed := by
  rw [List.flatMap_append, List.flatMap_singleton]

/-- A program that composes nothing. -/
theorem Lawful.perform_nothing {α : Type} (h : station.Lawful disk draws first)
    {program : RuntimeM ε α} {faults : List Fault} (hnothing : ComposesNothing program)
    (hwp : ∀ {m : Machine (Process ε) Legacy}, Driven first (Earned disk station.past) m →
      wp program (fun _ m' => Driven first (Earned disk station.past) m')
        (Legacy.Kept first (Earned disk station.past)) m) :
    (station.perform program faults).Lawful disk draws first := by
  have hdrawn := h.drawn
  rw [records, flatMap_records] at hdrawn
  refine h.perform (fun process hprocess => ?_) (.refl _)
  refine wp_mono (wp_and (hwp hprocess) (hnothing _)) (fun _ m hm => ⟨hm.1, ?_⟩)
    (fun legacy hlegacy => ⟨hlegacy.1, ?_⟩)
  · have hsame : m.durable.record.composed = station.legacy.record.composed := hm.2
    rw [flatMap_records, hsame]
    exact hdrawn
  · have hsame : legacy.record.composed = station.legacy.record.composed := hlegacy.2
    rw [flatMap_records, hsame]
    exact hdrawn

/-- A call of the user draws at most one id. -/
theorem Lawful.user (h : station.Lawful disk draws first) (c : UserCall) (faults : List Fault) :
    (station.perform (Process.user c) faults).Lawful disk
      (draws ++ (StationEvent.drawn (.user c faults : StationEvent ε)).toList) first := by
  have hdrawn := h.drawn
  rw [records, flatMap_records, List.map_append] at hdrawn
  refine h.perform (fun process hprocess => ?_) (List.sublist_append_left ..)
  refine wp_mono (wp_user c hprocess) (fun _ m hm => ⟨hm.1, ?_⟩)
    (fun legacy hlegacy => ⟨hlegacy.1, ?_⟩)
  · obtain ⟨-, added, hcomposes, hcomposed⟩ := hm
    rw [flatMap_records, hcomposed, List.map_append, List.map_append, ← List.append_assoc]
    refine hdrawn.append ?_
    rcases hcomposes with rfl | ⟨draft, random, now, post, rfl, hgenerate, rfl⟩
    · exact List.nil_sublist _
    · simp [StationEvent.drawn, hgenerate, Except.toOption]
  · rw [flatMap_records, hlegacy.2, List.map_append]
    exact hdrawn.trans (List.sublist_append_left ..)

/-! ### Starts -/

/-- A process starts with no post of another one in its timeline. -/
theorem driven_new (radio : Radio ε) (state : ε) {session : Session} {disk : Disk}
    {earned : PostPayload → Prop} {before : Disk} (hstarted : Started before ⟨session, disk, []⟩)
    (hopened : session.closed = false)
    (hkept : Legacy.Kept disk.watermark earned { disk := disk }) :
    Driven disk.watermark earned
      ⟨⟨session, (RadioRuntime.new radio state).1, (RadioRuntime.new radio state).2⟩,
        { disk := disk }, []⟩ := by
  have hscheduler : (RadioRuntime.new radio state).1.scheduler = {} := by
    unfold RadioRuntime.new
    dsimp only
    split
    · rfl
    · rfl
  have hquiet : session.status = .ready →
      ∀ entry ∈ session.messenger.timeline.entries, ¬entry.isQueued := by
    intro hready entry hentry
    obtain ⟨v, hshows, -, hnone⟩ := hstarted.2 hready
    rw [hshows.timeline] at hentry
    simp [hnone entry hentry]
  have hbased : Based disk.watermark earned
      ⟨⟨session, (RadioRuntime.new radio state).1, (RadioRuntime.new radio state).2⟩,
        { disk := disk }, []⟩ := by
    refine ⟨hkept, fun hready => ?_, ?_, ?_, fun hready entry hentry hqueued => ?_⟩
    · obtain ⟨v, hshows, hdisk, -⟩ := hstarted.2 hready
      exact ⟨v, hshows, hdisk⟩
    · dsimp only
      rw [hscheduler]
    · dsimp only
      rw [hscheduler]
      exact Tracked.init_filed
    · exact absurd hqueued (hquiet hready entry hentry)
  refine ⟨hbased, fun hrunning => ⟨hbased, hrunning, hopened, ?_⟩⟩
  exact fun hready entry hentry hqueued => absurd hqueued (hquiet hready entry hentry)

/-- The record of a run is closed, and what it tells has been earned. -/
theorem Lawful.closed (h : station.Lawful disk draws first) {left : Disk}
    (hreach : StartReaches station.legacy.disk left) {process : Option (Process ε)}
    (hdriven : Legacy.Kept left.watermark (Earned disk station.records) { disk := left } →
      ∀ p, process = some p → Driven left.watermark (Earned disk station.records)
        ⟨p, { disk := left }, []⟩) :
    Station.Lawful disk draws left.watermark
      { legacy := { disk := left }, process := process, past := station.records } := by
  have hwatermark : station.legacy.disk.watermark ≤ left.watermark := hreach.watermark_le (by simp)
  have hkept := h.kept.reaches hreach (by simp) (by simp)
  have hcomposed : station.records.flatMap RunRecord.composed =
      station.past.flatMap RunRecord.composed ++ station.legacy.record.composed :=
        flatMap_records ..
  have hnew : Legacy.Kept left.watermark (Earned disk station.records) { disk := left } := by
    refine ⟨⟨⟨{}, Tracked.init_filed, rfl⟩, by simp, by simp⟩, .nil, by simp, le_refl _, ?_⟩
    intro entry hentry horigin
    refine .inl ?_
    rcases hkept.broadcast entry hentry horigin with (hbefore | ⟨record, hrecord, htells⟩) | htells
    · exact .inl hbefore
    · exact .inr ⟨record, List.mem_append_left _ hrecord, htells⟩
    · exact .inr ⟨_, List.mem_append_right _ (List.mem_singleton_self _), htells⟩
  refine ⟨?_, ?_, ?_, hnew, hdriven hnew, ?_⟩
  · intro record hrecord
    rcases List.mem_append.mp hrecord with hpast | hlast
    · exact h.sound record hpast
    · rw [List.mem_singleton.mp hlast]
      exact h.kept.sound
  · dsimp only
    rw [hcomposed]
    refine List.pairwise_append.mpr ⟨h.sorted, h.kept.sorted, fun post hpost later hlater => ?_⟩
    exact Nat.lt_of_le_of_lt (h.below post hpost) (h.kept.issued later hlater).1
  · dsimp only
    rw [hcomposed]
    intro post hpost
    rcases List.mem_append.mp hpost with hpast | hlast
    · exact le_trans (le_trans (h.below post hpast) h.kept.first_le) hwatermark
    · exact le_trans (h.kept.issued post hlast).2 hwatermark
  · have hdrawn := h.drawn
    rw [records, flatMap_records, List.append_nil]
    exact hdrawn

theorem Lawful.start (h : station.Lawful disk draws first) (radio : Radio ε)
    (environment : Session.Environment) (random : Option (Vector UInt8 16)) (state : ε)
    (faults : List Fault) :
    ∃ first', (station.start radio environment random state faults).Lawful disk draws first' := by
  have hwp := wp_and (wp_bootstrap environment random station.legacy.disk faults)
    (Session.starts_bootstrap environment random _ ⟨rfl, by simp [Timeline.empty]⟩)
  unfold wp at hwp
  unfold Station.start
  rcases hrun : Session.bootstrap environment random ⟨{}, station.legacy.disk, faults⟩ with
    ⟨_, m⟩ | left
  · rw [hrun] at hwp
    obtain ⟨hstarted, hopened⟩ := hwp
    refine ⟨_, h.closed hstarted.1 fun hkept process hprocess => ?_⟩
    obtain rfl := Option.some.inj hprocess
    exact driven_new radio state hstarted hopened.1 hkept
  · rw [hrun] at hwp
    exact ⟨_, h.closed hwp.1 fun _ process hprocess => by cases hprocess⟩

/-! ### Runs of events -/

theorem Lawful.step (h : station.Lawful disk draws first) (radio : Radio ε)
    (event : StationEvent ε) :
    ∃ first', (station.step radio event).Lawful disk (draws ++ event.drawn.toList) first' := by
  -- all but the calls of the user draw nothing
  have hnothing : draws ++ (none : Option MessageId).toList = draws := List.append_nil draws
  cases event with
  | start environment random state faults =>
    rw [show (StationEvent.start environment random state faults).drawn = none from rfl, hnothing]
    exact h.start radio environment random state faults
  | user c faults => exact ⟨first, h.user c faults⟩
  | pump now state faults =>
    rw [show (StationEvent.pump now state faults).drawn = none from rfl, hnothing]
    exact ⟨first, (h.tuned state).perform_nothing (ComposesNothing.pump radio now)
      (fun hm => wp_pump radio now hm)⟩
  | stop state =>
    rw [show (StationEvent.stop state).drawn = none from rfl, hnothing]
    exact ⟨first, (h.tuned state).perform_nothing (ComposesNothing.stop radio)
      (fun hm => wp_mono (wp_stop radio hm) (fun _ _ hm' => hm'.1) (fun _ hkept => hkept))⟩
  | shutdown state =>
    rw [show (StationEvent.shutdown state).drawn = none from rfl, hnothing]
    exact ⟨first, (h.tuned state).perform_nothing (ComposesNothing.shutdown radio)
      (fun hm => wp_shutdown radio hm)⟩
  | kill =>
    rw [show (StationEvent.kill : StationEvent ε).drawn = none from rfl, hnothing]
    refine ⟨first, h.sound, h.sorted, h.below, h.kept, fun process hprocess => ?_, h.drawn⟩
    cases hprocess

theorem run_lawful (radio : Radio ε) (disk : Disk) (events : List (StationEvent ε)) :
    ∃ first, (run radio disk events).Lawful disk (events.filterMap StationEvent.drawn) first := by
  induction events using List.reverseRecOn with
  | nil => exact ⟨_, init_lawful disk⟩
  | append_singleton events event ih =>
    obtain ⟨first, hlawful⟩ := ih
    have hdraws : [event].filterMap StationEvent.drawn = event.drawn.toList := by
      cases hdrawn : event.drawn with
      | none => simp [hdrawn]
      | some messageId => simp [hdrawn]
    rw [run_concat, List.filterMap_append, hdraws]
    exact hlawful.step radio event

end Station

/-! ### Offers -/

/-- The post that was enqueued under a number. -/
def postOf (log : List SchedulerEvent) (serial : ℕ) : Option PostPayload :=
  log.findSome? fun
    | .enqueued number post _ _ => if number = serial then some post else none
    | _ => none

/-- How often a datagram was offered for a post. -/
def RunRecord.offersOf (record : RunRecord) (post : PostPayload) (datagram : Bytes) : ℕ :=
  record.log.countP fun
    | .offered serial offer _ =>
      decide (postOf record.log serial = some post) && decide (offer.datagram = datagram)
    | _ => false

theorem enqueued_of_postOf {log : List SchedulerEvent} {serial : ℕ} {post : PostPayload}
    (h : postOf log serial = some post) : ∃ mtu start, .enqueued serial post mtu start ∈ log := by
  obtain ⟨event, hevent, hpost⟩ := List.exists_of_findSome?_eq_some h
  cases event with
  | enqueued number other mtu start =>
    by_cases hnumber : number = serial
    · subst hnumber
      obtain rfl : other = post := by simpa using hpost
      exact ⟨mtu, start, hevent⟩
    · simp [hnumber] at hpost
  | offered | reported | removed => cases hpost

section Offers

variable {record : RunRecord}

theorem RunRecord.Sound.postOf_eq (h : record.Sound) {serial mtu start : ℕ} {post : PostPayload}
    (hpost : .enqueued serial post mtu start ∈ record.log) : postOf record.log serial =
      some post := by
  obtain ⟨t, hfiled, hlog⟩ := h.filed
  rcases hfound : postOf record.log serial with _ | other
  · rw [postOf, List.findSome?_eq_none_iff] at hfound
    have hnone := hfound _ hpost
    simp at hnone
  · obtain ⟨mtu', start', hother⟩ := enqueued_of_postOf hfound
    rw [← hlog] at hpost hother
    rw [hfiled.unique hpost hother]

/-- The offers for a post are those under its number. -/
theorem RunRecord.Sound.offersOf_le (h : record.Sound) (post : PostPayload) (datagram : Bytes) :
    record.offersOf post datagram ≤ 2 := by
  obtain ⟨t, hfiled, hlog⟩ := h.filed
  by_cases hnone : ∀ serial, postOf record.log serial ≠ some post
  · have hzero : record.offersOf post datagram = 0 := by
      rw [offersOf, List.countP_eq_zero]
      intro event _ hcounted
      cases event with
      | offered serial offer now =>
        rw [Bool.and_eq_true, decide_eq_true_eq] at hcounted
        exact hnone serial hcounted.1
      | enqueued | reported | removed => cases hcounted
    rw [hzero]
    exact Nat.zero_le 2
  · simp only [not_forall, not_not] at hnone
    obtain ⟨serial, hserial⟩ := hnone
    obtain ⟨mtu, start, hpost⟩ := enqueued_of_postOf hserial
    have hle : record.offersOf post datagram ≤ offersFor serial datagram record.log := by
      refine List.countP_mono_left fun event _ hcounted => ?_
      cases event with
      | offered number offer now =>
        rw [Bool.and_eq_true, decide_eq_true_eq, decide_eq_true_eq] at hcounted
        obtain ⟨mtu', start', hother⟩ := enqueued_of_postOf hcounted.1
        simp [SchedulerEvent.isOfferOf, h.once hpost hother, hcounted.2]
      | enqueued | reported | removed => cases hcounted
    rw [← hlog] at hle
    exact le_trans hle (hfiled.twice serial datagram)

theorem RunRecord.Sound.offersOf_eq_zero (h : record.Sound) {post : PostPayload}
    (hother : post ∉ record.composed) (datagram : Bytes) : record.offersOf post datagram = 0 := by
  rw [offersOf, List.countP_eq_zero]
  intro event _ hcounted
  cases event with
  | offered serial offer now =>
    rw [Bool.and_eq_true, decide_eq_true_eq] at hcounted
    obtain ⟨mtu, start, hpost⟩ := enqueued_of_postOf hcounted.1
    exact hother (h.origin hpost)
  | enqueued | reported | removed => cases hcounted

/-- A post is in the record of one run only. -/
theorem sum_offersOf_le {records : List RunRecord} (hsound : ∀ record ∈ records, record.Sound)
    (hsorted : (records.flatMap RunRecord.composed).Pairwise fun post later =>
      post.senderSequence.toNat < later.senderSequence.toNat) (post : PostPayload)
        (datagram : Bytes) :
    (records.map fun record => record.offersOf post datagram).sum ≤ 2 := by
  induction records with
  | nil => exact Nat.zero_le 2
  | cons record rest ih =>
    rw [List.flatMap_cons, List.pairwise_append] at hsorted
    obtain ⟨-, hrest, hcross⟩ := hsorted
    rw [List.forall_mem_cons] at hsound
    rw [List.map_cons, List.sum_cons]
    by_cases hmem : post ∈ record.composed
    · have hzero : (rest.map fun record => record.offersOf post datagram).sum = 0 := by
        refine List.sum_eq_zero_iff_forall_eq_nat.mpr fun count hcount => ?_
        obtain ⟨later, hlater, rfl⟩ := List.mem_map.mp hcount
        refine (hsound.2 later hlater).offersOf_eq_zero (fun hagain => ?_) datagram
        exact Nat.lt_irrefl _ (hcross post hmem post (List.mem_flatMap.mpr ⟨later, hlater, hagain⟩))
      rw [hzero]
      exact hsound.1.offersOf_le post datagram
    · rw [hsound.1.offersOf_eq_zero hmem, Nat.zero_add]
      exact ih hsound.2 hrest

end Offers

namespace Station

variable {disk : Disk} {draws : List MessageId} {first : ℕ} {station : Station ε}

theorem Lawful.records_sound (h : station.Lawful disk draws first) :
    ∀ record ∈ station.records, record.Sound := by
  intro record hrecord
  rcases List.mem_append.mp hrecord with hpast | hlast
  · exact h.sound record hpast
  · rw [List.mem_singleton.mp hlast]
    exact h.kept.sound

theorem Lawful.records_sorted (h : station.Lawful disk draws first) :
    (station.records.flatMap RunRecord.composed).Pairwise fun post later =>
      post.senderSequence.toNat < later.senderSequence.toNat := by
  rw [records, flatMap_records]
  refine List.pairwise_append.mpr ⟨h.sorted, h.kept.sorted, fun post hpost later hlater => ?_⟩
  exact Nat.lt_of_le_of_lt (h.below post hpost) (h.kept.issued later hlater).1

/-- A broadcast on the disk is old, or its record is at hand. -/
theorem Lawful.tells (h : station.Lawful disk draws first) {entry : TimelineEntry}
    (hentry : entry ∈ station.legacy.disk.entries)
    (horigin : entry.origin = .localDelivery .broadcast) :
    (∃ old ∈ disk.entries, old.post = entry.post ∧ old.origin = .localDelivery .broadcast) ∨
      ∃ record ∈ station.records, record.Tells entry.post := by
  rcases h.kept.broadcast entry hentry horigin with (hold | ⟨record, hrecord, htells⟩) | htells
  · exact .inl hold
  · exact .inr ⟨record, List.mem_append_left _ hrecord, htells⟩
  · exact .inr ⟨_, List.mem_append_right _ (List.mem_singleton_self _), htells⟩

end Station

/-- A broadcast on record stands for the post with its id, if the id stands for no other. -/
theorem RunRecord.Sound.earned {record : RunRecord} (h : record.Sound) {post : PostPayload}
    (htells : record.Tells post) (hids : (record.composed.map PostPayload.messageId).Nodup) :
    ∃ before serial now after mtu start frames,
      record.log = before ++ .reported serial ⟨post.messageId, .broadcast⟩ now :: after ∧
      .enqueued serial post mtu start ∈ before ∧ fragmentPost post mtu = .ok frames ∧
      (acceptedFor serial before).map Prod.fst = frames := by
  obtain ⟨hcomposed, serial, now, hreported⟩ := htells
  obtain ⟨t, hfiled, hlog⟩ := h.filed
  obtain ⟨before, after, hsplit⟩ := List.append_of_mem hreported
  have hrule := hfiled.inv.rules before _ after (by rw [hlog, hsplit])
  obtain ⟨other, mtu, start, frames, hother, hid, hframes, haccepted, -⟩ := hrule.2 rfl
  have hlogged : .enqueued serial other mtu start ∈ record.log := by
    rw [hsplit]
    exact List.mem_append_left _ hother
  have hmem : other ∈ record.composed := h.origin hlogged
  obtain rfl : post = other := List.inj_on_of_nodup_map hids hcomposed hmem hid
  exact ⟨before, serial, now, after, mtu, start, frames, hsplit, hother, hframes, haccepted⟩

/-- **Offers and delivery states over all lifetimes.**  Processes start on one disk, compose,
pump, stop and end in the middle of anything, with any answers of the transport, the policy and
the storage.  No frame of a post is offered more than twice in total.  What is offered is a frame
of a post that was composed in the same run and in none before it.  And if no id is drawn twice,
a post is broadcast on the disk only if it was before, or if all its frames were accepted in the
run that composed it before the broadcast was reported. -/
theorem offers_bounded_and_delivery_honest (radio : Radio ε) (disk : Disk)
    (events : List (StationEvent ε)) :
    (∀ post datagram, ((Station.run radio disk events).records.map fun record =>
      record.offersOf post datagram).sum ≤ 2) ∧
    (∀ before record after serial offer now,
      (Station.run radio disk events).records = before ++ record :: after →
      .offered serial offer now ∈ record.log →
      ∃ post mtu start frames, .enqueued serial post mtu start ∈ record.log ∧
        postOf record.log serial = some post ∧ fragmentPost post mtu = .ok frames ∧
        offer.datagram ∈ frames ∧ post ∈ record.composed ∧
        ∀ earlier ∈ before, post ∉ earlier.composed) ∧
    ((events.filterMap StationEvent.drawn).Nodup →
      ∀ entry ∈ (Station.run radio disk events).legacy.disk.entries,
      entry.origin = .localDelivery .broadcast →
      (∃ old ∈ disk.entries, old.post = entry.post ∧ old.origin = .localDelivery .broadcast) ∨
      ∃ record ∈ (Station.run radio disk events).records, entry.post ∈ record.composed ∧
        ∃ before serial now after mtu start frames,
          record.log = before ++ .reported serial ⟨entry.messageId, .broadcast⟩ now :: after ∧
          .enqueued serial entry.post mtu start ∈ before ∧ fragmentPost entry.post mtu =
            .ok frames ∧
          (acceptedFor serial before).map Prod.fst = frames) := by
  obtain ⟨first, hlawful⟩ := Station.run_lawful radio disk events
  generalize Station.run radio disk events = station at hlawful
  refine ⟨fun post datagram => ?_, ?_, ?_⟩
  · exact sum_offersOf_le hlawful.records_sound hlawful.records_sorted post datagram
  · intro before record after serial offer now hsplit hoffer
    have hsorted := hlawful.records_sorted
    rw [hsplit, List.flatMap_append, List.flatMap_cons, List.pairwise_append] at hsorted
    have hsound : record.Sound := hlawful.records_sound record (by rw [hsplit]; simp)
    obtain ⟨t, hfiled, hlog⟩ := hsound.filed
    have hframe : FrameOf record.log serial offer.datagram := by
      rw [← hlog] at hoffer ⊢
      exact hfiled.framed hoffer
    obtain ⟨post, mtu, start, frames, hpost, hframes, hmem⟩ := hframe
    have hcomposed : post ∈ record.composed := hsound.origin hpost
    refine ⟨post, mtu, start, frames, hpost, hsound.postOf_eq hpost, hframes, hmem, hcomposed, ?_⟩
    intro earlier hearlier hagain
    exact Nat.lt_irrefl _ (hsorted.2.2 post (List.mem_flatMap.mpr ⟨earlier, hearlier, hagain⟩) post
      (List.mem_append_left _ hcomposed))
  · intro hdraws entry hentry horigin
    refine (hlawful.tells hentry horigin).imp_right fun ⟨record, hrecord, htells⟩ => ?_
    have hids : (record.composed.map PostPayload.messageId).Nodup := by
      have hall := hdraws.sublist hlawful.drawn
      rw [List.map_flatMap] at hall
      exact (List.nodup_flatMap.mp hall).1 record hrecord
    exact ⟨record, hrecord, htells.1, (hlawful.records_sound record hrecord).earned htells hids⟩

/-- A post of one process that the next one finds broadcast. -/
def Link.broadcastHello : List (StationEvent Link) :=
  Link.hello ++ [.pump 0 {} [], .pump 300 {} [], .pump 600 {} [], .kill,
    .start .available none {} []]

theorem hello_delivery_honest :
    (Link.broadcastHello.filterMap StationEvent.drawn).Nodup ∧
    ∃ entry ∈ (Station.run Link.radio ⟨.missing, .missing⟩ Link.broadcastHello).legacy.disk.entries,
      entry.origin = .localDelivery .broadcast ∧
      ∃ record ∈ (Station.run Link.radio ⟨.missing, .missing⟩ Link.broadcastHello).records,
        entry.post ∈ record.composed ∧
        ∃ before serial now after mtu start frames,
          record.log = before ++ .reported serial ⟨entry.messageId, .broadcast⟩ now :: after ∧
          .enqueued serial entry.post mtu start ∈ before ∧ fragmentPost entry.post mtu =
            .ok frames ∧
          (acceptedFor serial before).map Prod.fst = frames := by
  have hdraws : (Link.broadcastHello.filterMap StationEvent.drawn).Nodup := by decide +kernel
  have hany : (Station.run Link.radio ⟨.missing, .missing⟩
    Link.broadcastHello).legacy.disk.entries.any
      (fun entry => entry.origin = .localDelivery .broadcast) = true := by decide +kernel
  obtain ⟨entry, hentry, horigin⟩ := List.any_eq_true.mp hany
  have horigin := of_decide_eq_true horigin
  refine ⟨hdraws, entry, hentry, horigin, ?_⟩
  exact ((offers_bounded_and_delivery_honest Link.radio ⟨.missing, .missing⟩
    Link.broadcastHello).2.2
    hdraws entry hentry horigin).resolve_left (fun ⟨old, hold, _⟩ => by cases hold)

end Lora
