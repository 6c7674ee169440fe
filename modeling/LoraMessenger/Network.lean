/-
A network of stations.

Stations compose, pump, crash and start again in any interleaving, each on its own disk
and with its own radio.  A radio hands over what some link has taken, or something that
is no frame; datagrams may get lost, come late, come twice, or come to a station with
another datagram size.

* `Station.Honest` — what a station has received is spelt by known datagrams;
* `SpeltBy.genuine` — what is spelt by taken datagrams was composed and sent;
* `received_posts_are_genuine` — so is all that is received, in any run of the network.
-/
import LoraMessenger.Hearing
import LoraMessenger.Interleaving
import Mathlib.Data.List.Pairwise

namespace Lora

open Crash

variable {ε : Type}

/-- A link has taken the datagram. -/
def RunRecord.Sends (record : RunRecord) (datagram : Bytes) : Prop :=
  ∃ serial now, .offered serial ⟨datagram, .accepted⟩ now ∈ record.log

/-- A runtime that is valid has a datagram size that frames can have. -/
theorem RadioRuntime.new_sized (radio : Radio ε) (state : ε)
    (hvalid : (RadioRuntime.new radio state).1.valid = true) :
    isSupportedMtu (RadioRuntime.new radio state).1.inbound.mtu := by
  unfold RadioRuntime.new at hvalid ⊢
  dsimp only at hvalid ⊢
  split at hvalid
  · rename_i hchecked
    rw [if_pos hchecked]
    simp only [Bool.and_eq_true, decide_eq_true_eq] at hchecked
    exact ⟨hchecked.1.2, hchecked.2⟩
  · rename_i hchecked
    exact absurd hvalid hchecked

namespace Station

def Sent (station : Station ε) (datagram : Bytes) : Prop :=
  ∃ record ∈ station.records, record.Sends datagram

/-- The event lets the station hear only what is known, and what is no frame. -/
def Hears (radio : Radio ε) (known : Bytes → Prop) (station : Station ε) : StationEvent ε → Prop
  | .pump _ state _ => ∀ process, station.process = some process →
      radio.Hears known process.runtime.inbound.mtu state
  | _ => True

/-- Where the received posts of a station come from, and what its process has under way. -/
structure Traced (disk : Disk) (known : Bytes → Prop) (station : Station ε) : Prop where
  heard : station.legacy.disk.HeardFrom known disk
  behind : disk.LedgerBehind → station.legacy.disk.LedgerBehind
  fed : ∀ process, station.process = some process →
    process.runtime.inbound.FedFrom process.runtime.inbound.mtu fun frame =>
      known (frameBytes frame)
  sized : ∀ process, station.process = some process → process.runtime.valid = true →
    isSupportedMtu process.runtime.inbound.mtu
  alike : ∀ process, station.process = some process →
    process.runtime.inbound.stopped = process.runtime.stopped

structure Honest (disk : Disk) (known : Bytes → Prop) (station : Station ε) : Prop
    extends Traced disk known station where
  lawful : ∃ draws first, station.Lawful disk draws first

section Honest

variable {disk : Disk} {known known' : Bytes → Prop} {station : Station ε} {radio : Radio ε}

theorem init_honest (disk : Disk) (known : Bytes → Prop) :
    Honest disk known ({ legacy := { disk := disk } } : Station ε) where
  heard entry hentry horigin := .inl ⟨entry, hentry, rfl, horigin⟩
  behind h := h
  fed _ h := by cases h
  sized _ h := by cases h
  alike _ h := by cases h
  lawful := ⟨[], disk.watermark, init_lawful disk⟩

theorem Honest.mono (h : station.Honest disk known)
    (hknown : ∀ datagram, known datagram → known' datagram) : station.Honest disk known' where
  heard := h.heard.mono hknown
  behind := h.behind
  fed process hprocess := by
    obtain ⟨hmtu, ⟨hwf, hreassembler, hfilled⟩, hqueue⟩ := h.fed process hprocess
    refine ⟨hmtu, ⟨hwf, hreassembler, ?_⟩, ?_⟩
    · intro key slot hactive
      exact (hfilled key slot hactive).mono fun frame => hknown (frameBytes frame)
    · intro queued hqueued frame hdecode
      exact hknown _ (hqueue queued hqueued frame hdecode)
  sized := h.sized
  alike := h.alike
  lawful := h.lawful

/-- What a program of the process does, and that nothing is taken back. -/
theorem Honest.perform (h : station.Honest disk known) (radio : Radio ε) {α : Type}
    {program : RuntimeM ε α} {faults : List Fault}
    (hwp : ∀ process, station.process = some process →
      Hearing radio known disk station.legacy.record.log process.runtime.inbound.mtu process.radio
        ⟨process, station.legacy, faults⟩ →
      wp program
        (fun _ m' => Hearing radio known disk station.legacy.record.log
          process.runtime.inbound.mtu process.radio m')
        (Legacy.Heard known disk station.legacy.record.log) ⟨process, station.legacy, faults⟩) :
    (station.perform program faults).Traced disk known ∧
      ∀ datagram, station.Sent datagram → (station.perform program faults).Sent datagram := by
  obtain ⟨draws, first, hlawful⟩ := h.lawful
  have hsent : ∀ legacy process, station.legacy.record.log <+: legacy.record.log →
      ∀ datagram, station.Sent datagram →
        Station.Sent ({ legacy := legacy, process := process, past := station.past } : Station ε)
          datagram := by
    rintro legacy process hgrown datagram ⟨record, hrecord, serial, now, hoffer⟩
    rcases List.mem_append.mp hrecord with hpast | hlast
    · exact ⟨record, List.mem_append_left _ hpast, serial, now, hoffer⟩
    · rw [List.mem_singleton.mp hlast] at hoffer
      exact ⟨legacy.record, List.mem_append_right _ (List.mem_singleton_self _), serial, now,
        hgrown.subset hoffer⟩
  rcases hprocess : station.process with _ | process
  · simp only [Station.perform, hprocess]
    exact ⟨h.toTraced, fun _ hbefore => hbefore⟩
  have hdriven := hlawful.driven process hprocess
  have hhearing : Hearing radio known disk station.legacy.record.log
      process.runtime.inbound.mtu process.radio ⟨process, station.legacy, faults⟩ :=
    ⟨⟨h.heard, h.behind, List.prefix_refl _⟩, hdriven.agrees, hdriven.log, .refl,
      h.fed process hprocess, h.sized process hprocess, h.alike process hprocess⟩
  have hresult := hwp process hprocess hhearing
  unfold wp at hresult
  simp only [Station.perform, hprocess]
  rcases hrun : program ⟨process, station.legacy, faults⟩ with ⟨value, m⟩ | left
  · rw [hrun] at hresult
    refine ⟨⟨hresult.heard, hresult.behind, ?_, ?_, ?_⟩,
      hsent m.durable (some m.memory) hresult.grown⟩
    · intro other hother
      obtain rfl := Option.some.inj hother
      rw [hresult.fed.mtu_eq]
      exact hresult.fed
    · intro other hother
      obtain rfl := Option.some.inj hother
      rw [hresult.fed.mtu_eq]
      exact hresult.sized
    · intro other hother
      obtain rfl := Option.some.inj hother
      exact hresult.alike
  · rw [hrun] at hresult
    exact ⟨⟨hresult.heard, hresult.behind, fun _ h => (by cases h),
      fun _ h => (by cases h), fun _ h => (by cases h)⟩, hsent left none hresult.grown⟩

theorem Honest.tuned (h : station.Honest disk known) (state : ε) :
    (station.tuned state).Honest disk known := by
  obtain ⟨draws, first, hlawful⟩ := h.lawful
  refine ⟨⟨h.heard, h.behind, ?_, ?_, ?_⟩, draws, first, hlawful.tuned state⟩
  · intro process hprocess
    obtain ⟨before, hbefore, rfl⟩ := Option.map_eq_some_iff.mp hprocess
    exact h.fed before hbefore
  · intro process hprocess
    obtain ⟨before, hbefore, rfl⟩ := Option.map_eq_some_iff.mp hprocess
    exact h.sized before hbefore
  · intro process hprocess
    obtain ⟨before, hbefore, rfl⟩ := Option.map_eq_some_iff.mp hprocess
    exact h.alike before hbefore

/-- A new process has heard nothing, and its start adds no post. -/
theorem Honest.start (h : station.Honest disk known) (radio : Radio ε)
    (environment : Session.Environment) (random : Option (Vector UInt8 16)) (state : ε)
    (faults : List Fault) :
    (station.start radio environment random state faults).Traced disk known ∧
      ∀ datagram, station.Sent datagram →
        (station.start radio environment random state faults).Sent datagram := by
  have hsent : ∀ legacy process datagram, station.Sent datagram → Station.Sent
      ({ legacy := legacy, process := process, past := station.records } : Station ε) datagram := by
    rintro legacy process datagram ⟨record, hrecord, hoffer⟩
    exact ⟨record, List.mem_append_left _ hrecord, hoffer⟩
  have hwp := wp_bootstrap environment random station.legacy.disk faults
  unfold wp at hwp
  unfold Station.start
  rcases hrun : Session.bootstrap environment random ⟨{}, station.legacy.disk, faults⟩ with
    ⟨value, m⟩ | left
  · rw [hrun] at hwp
    refine ⟨⟨h.heard.reaches hwp.1 (by simp), fun hold => hwp.1.ledgerBehind (h.behind hold),
      ?_, ?_, ?_⟩, hsent _ _⟩
    · intro process hprocess
      obtain rfl := Option.some.inj hprocess
      -- the queue of a new runtime is empty, also if the runtime is useless
      dsimp only [RadioRuntime.new]
      split
      · exact .new
      · exact InboundFrameQueue.FedFrom.new.stop
    · intro process hprocess hvalid
      obtain rfl := Option.some.inj hprocess
      exact RadioRuntime.new_sized radio state hvalid
    · intro process hprocess
      obtain rfl := Option.some.inj hprocess
      dsimp only [RadioRuntime.new]
      split
      · rfl
      · rfl
  · rw [hrun] at hwp
    exact ⟨⟨h.heard.reaches hwp (by simp), fun hold => hwp.ledgerBehind (h.behind hold),
      fun _ h => (by cases h), fun _ h => (by cases h), fun _ h => (by cases h)⟩, hsent _ _⟩

theorem Honest.step (h : station.Honest disk known) (event : StationEvent ε)
    (hhears : Hears radio known station event) :
    (station.step radio event).Traced disk known ∧
      ∀ datagram, station.Sent datagram → (station.step radio event).Sent datagram := by
  cases event with
  | start environment random state faults => exact h.start radio environment random state faults
  | user c faults => exact h.perform radio fun process _ hhearing => wp_user_hearing hhearing c
  | pump now state faults =>
    refine (h.tuned state).perform radio fun process hprocess hhearing => ?_
    obtain ⟨before, hbefore, rfl⟩ := Option.map_eq_some_iff.mp hprocess
    exact wp_pump_hearing hhearing (hhears before hbefore) now
  | stop state =>
    exact (h.tuned state).perform radio fun process _ hhearing => wp_stop_hearing hhearing
  | shutdown state =>
    exact (h.tuned state).perform radio fun process _ hhearing => wp_shutdown_hearing hhearing
  | kill =>
    exact ⟨⟨h.heard, h.behind, fun _ h => (by cases h), fun _ h => (by cases h),
      fun _ h => (by cases h)⟩, fun _ hbefore => hbefore⟩

/-- Every radio hands over something. -/
theorem hears_true (radio : Radio ε) (station : Station ε) (event : StationEvent ε) :
    Hears radio (fun _ => True) station event := by
  cases event with
  | pump => exact fun _ _ _ _ _ => .inl trivial
  | start | user | stop | shutdown | kill => trivial

/-- Whatever is known, nothing that a link has taken is taken back. -/
theorem Honest.sent_step (h : station.Honest disk known) (event : StationEvent ε) (datagram : Bytes)
    (hsent : station.Sent datagram) : (station.step radio event).Sent datagram := by
  have hall : station.Honest disk fun _ => True := h.mono fun _ _ => trivial
  exact (hall.step event (hears_true radio station event)).2 datagram hsent

end Honest

end Station

/-! ### What was sent -/

/-- A process of the station composed the post, and a link took all its frames under one
number. -/
def Station.HasSent (station : Station ε) (post : PostPayload) : Prop :=
  ∃ record ∈ station.records, post ∈ record.composed ∧
    ∃ serial mtu start frames, .enqueued serial post mtu start ∈ record.log ∧
      fragmentPost post mtu = .ok frames ∧
      ∀ datagram ∈ frames, ∃ now, .offered serial ⟨datagram, .accepted⟩ now ∈ record.log

/-- The record of a datagram that can be read as a frame. -/
structure RunRecord.FrameSent (record : RunRecord) (mtu : ℕ) (frame : DataFrame)
    (post : PostPayload) : Prop where
  composed : post ∈ record.composed
  isFrame : IsFrameOf post mtu frame
  logged : ∃ serial mtu' start, .enqueued serial post mtu' start ∈ record.log ∧
    isSupportedMtu mtu' ∧ postFrames post mtu' = postFrames post mtu ∧
    ∃ now, .offered serial ⟨frameBytes frame, .accepted⟩ now ∈ record.log

theorem isSupportedMtu_of_fragmentPost {post : PostPayload} {mtu : ℕ} {frames : List Bytes}
    (h : fragmentPost post mtu = .ok frames) : isSupportedMtu mtu := by
  by_contra hmtu
  rw [fragmentPost, if_pos hmtu] at h
  cases h

/-- What a link takes is a frame of a composed post, at whatever datagram size it is read. -/
theorem RunRecord.Sound.frameSent {record : RunRecord} (h : record.Sound) {mtu : ℕ}
    {frame : DataFrame} (hvalid : FrameValid mtu frame) (hsends : record.Sends (frameBytes frame)) :
    ∃ post, record.FrameSent mtu frame post := by
  obtain ⟨serial, now, hoffer⟩ := hsends
  obtain ⟨t, hfiled, hlog⟩ := h.filed
  have hframed : FrameOf record.log serial (frameBytes frame) := by
    rw [← hlog] at hoffer ⊢
    exact hfiled.framed hoffer
  obtain ⟨post, mtu', start, frames, hpost, hframes, hmem⟩ := hframed
  have hmtu' := isSupportedMtu_of_fragmentPost hframes
  -- the sender reads its own datagram as the same frame
  have hsame : decodeFrame (frameBytes frame) mtu' = .ok frame := by
    obtain ⟨original, horiginal, hbytes⟩ : ∃ original ∈ postFrames post mtu',
        frameBytes original = frameBytes frame := by
      rw [fragmentPost_eq hmtu', Except.ok.injEq] at hframes
      rw [← hframes] at hmem
      exact List.mem_map.mp hmem
    obtain ⟨index, hindex, rfl⟩ := List.mem_map.mp horiginal
    have hread := decodeFrame_frameBytes (postFrame_valid post hmtu' (List.mem_range.mp hindex))
    rw [hbytes] at hread
    rw [hread, decodeFrame_unique hread (decodeFrame_frameBytes hvalid)]
  have hframe : IsFrameOf post mtu' frame := ⟨frames, hframes, _, hmem, hsame⟩
  have hsizes := hframe.at_mtu hmtu' hvalid
  refine ⟨post, h.origin hpost, ?_, serial, mtu', start, hpost, hmtu', hsizes, now, hoffer⟩
  refine ⟨frames, ?_, _, hmem, decodeFrame_frameBytes hvalid⟩
  rw [fragmentPost_eq hvalid.1, ← hsizes, ← fragmentPost_eq hmtu']
  exact hframes

/-- A station gives out each sequence once. -/
theorem Station.Lawful.unique {disk : Disk} {draws : List MessageId} {first : ℕ}
    {station : Station ε} (h : station.Lawful disk draws first) {record record' : RunRecord}
    (hrecord : record ∈ station.records) (hrecord' : record' ∈ station.records)
    {post post' : PostPayload} (hpost : post ∈ record.composed) (hpost' : post' ∈ record'.composed)
    (hsequence : post.senderSequence = post'.senderSequence) : record = record' ∧ post = post' := by
  have hsame : post = post' := by
    have hnodup : ((station.records.flatMap RunRecord.composed).map fun post =>
        post.senderSequence.toNat).Nodup :=
      List.pairwise_map.mpr (h.records_sorted.imp Nat.ne_of_lt)
    exact List.inj_on_of_nodup_map hnodup (List.mem_flatMap.mpr ⟨record, hrecord, hpost⟩)
      (List.mem_flatMap.mpr ⟨record', hrecord', hpost'⟩) (congrArg UInt64.toNat hsequence)
  subst hsame
  refine ⟨?_, rfl⟩
  by_contra hne
  let apart : RunRecord → RunRecord → Prop := fun left right =>
    ¬(post ∈ left.composed ∧ post ∈ right.composed)
  have hsymm : Std.Symm apart := ⟨fun left right hleft hright => hleft hright.symm⟩
  have hapart : station.records.Pairwise apart := by
    refine (List.pairwise_flatMap.mp h.records_sorted).2.imp ?_
    intro left right hlt hboth
    exact Nat.lt_irrefl _ (hlt post hboth.1 post hboth.2)
  exact hapart.forall hrecord hrecord' hne ⟨hpost, hpost'⟩

/-- **What is spelt by datagrams on the air was sent.**  If posts of different stations have
different keys, all frames of the post come from one of them. -/
theorem SpeltBy.genuine {ι : Type} {network : ι → Station ε} {disks : ι → Disk}
    (hlawful : ∀ i, ∃ draws first, (network i).Lawful (disks i) draws first)
    (hkeys : ∀ i j, i ≠ j → ∀ left ∈ (network i).records.flatMap RunRecord.composed,
      ∀ right ∈ (network j).records.flatMap RunRecord.composed, left.key ≠ right.key)
    {post : PostPayload} (h : SpeltBy (Interleaving.Said Station.Sent network) post) :
    ∃ i, (network i).HasSent post := by
  obtain ⟨mtu, hmtu, hframes⟩ := h
  -- each frame of the post, with the station that sent it and the post that it was a frame of
  have hsent : ∀ frame ∈ postFrames post mtu, ∃ i, ∃ record ∈ (network i).records,
      ∃ source, record.FrameSent mtu frame source ∧ source.key = post.key := by
    intro frame hframe
    obtain ⟨i, record, hrecord, hsends⟩ := hframes frame hframe
    obtain ⟨draws, first, hlaw⟩ := hlawful i
    obtain ⟨index, hindex, rfl⟩ := List.mem_map.mp hframe
    have hvalid := postFrame_valid post hmtu (List.mem_range.mp hindex)
    obtain ⟨source, hsource⟩ := (hlaw.records_sound record hrecord).frameSent hvalid hsends
    refine ⟨i, record, hrecord, source, hsource, ?_⟩
    obtain ⟨place, -, heq⟩ := (isFrameOf_iff hmtu).mp hsource.isFrame
    rw [← postFrame_key source mtu place, ← heq, postFrame_key]
  obtain ⟨hpos, -⟩ := postFragmentCount_bounds post hmtu
  obtain ⟨i, record, hrecord, source, hsource, hkey⟩ :=
    hsent _ (List.mem_map_of_mem (List.mem_range.mpr hpos))
  obtain ⟨draws, first, hlaw⟩ := hlawful i
  -- the other frames have the same key, so they come from the same post of the same station
  have hall : ∀ frame ∈ postFrames post mtu, record.FrameSent mtu frame source := by
    intro frame hframe
    obtain ⟨j, other, hother, source', hsource', hkey'⟩ := hsent frame hframe
    have hsame : source.key = source'.key := hkey.trans hkey'.symm
    have hmem : source ∈ (network i).records.flatMap RunRecord.composed :=
      List.mem_flatMap.mpr ⟨record, hrecord, hsource.composed⟩
    have hmem' : source' ∈ (network j).records.flatMap RunRecord.composed :=
      List.mem_flatMap.mpr ⟨other, hother, hsource'.composed⟩
    by_cases hij : i = j
    · subst hij
      obtain ⟨hrecords, hposts⟩ := hlaw.unique hrecord hother hsource.composed hsource'.composed
        (congrArg Prod.snd hsame)
      rw [hrecords, hposts]
      exact hsource'
    · exact absurd hsame (hkeys i j hij source hmem source' hmem')
  obtain rfl : post = source := eq_of_forall_isFrameOf hmtu fun frame hframe =>
    (hall frame hframe).isFrame
  obtain ⟨serial, mtu', start, hpost, hmtu', hsizes, -⟩ := hsource.logged
  refine ⟨i, record, hrecord, hsource.composed, serial, mtu', start, _, hpost,
    fragmentPost_eq hmtu', ?_⟩
  intro datagram hdatagram
  obtain ⟨frame, hframe, rfl⟩ := List.mem_map.mp hdatagram
  rw [hsizes] at hframe
  obtain ⟨serial', mtu'', start', hpost', -, -, now, hoffer⟩ := (hall frame hframe).logged
  rw [(hlaw.records_sound record hrecord).once hpost hpost']
  exact ⟨now, hoffer⟩

/-! ### The network -/

section Network

variable {ι : Type} [DecidableEq ι] (radio : ι → Radio ε)

/-- The stations after some events, each of which is an event of one station. -/
def Network.run (disks : ι → Disk) (events : List (ι × StationEvent ε)) : ι → Station ε :=
  Interleaving.run (fun i station event => station.step (radio i) event)
    (fun i => { legacy := { disk := disks i } }) events

/-- Each station runs on its own. -/
theorem Network.run_apply (disks : ι → Disk) (events : List (ι × StationEvent ε)) (i : ι) :
    Network.run radio disks events i =
      Station.run (radio i) (disks i) (Interleaving.eventsOf i events) :=
  Interleaving.run_apply ..

/-- Some link has taken the datagram. -/
def OnAir (network : ι → Station ε) (datagram : Bytes) : Prop :=
  Interleaving.Said Station.Sent network datagram

omit [DecidableEq ι] in
theorem Network.rely (disks : ι → Disk) :
    Interleaving.Rely (fun i (station : Station ε) event => station.step (radio i) event)
      Station.Sent (fun i known station event => station.Hears (radio i) known event)
      (fun i known station => station.Honest (disks i) known) where
  mono hknown h := h.mono hknown
  grows event datagram h := h.sent_step event datagram
  step h hhears := by
    obtain ⟨draws, first, hlawful⟩ := h.lawful
    obtain ⟨first', hlawful'⟩ := hlawful.step _ _
    exact ⟨(h.step _ hhears).1, _, first', hlawful'⟩

/-- The datagrams that a station hears are on the air when it hears them. -/
def Network.Faithful (disks : ι → Disk) (events : List (ι × StationEvent ε)) : Prop :=
  Trace.Each (fun before event =>
    (Network.run radio disks before event.1).Hears (radio event.1)
      (OnAir (Network.run radio disks (before ++ [event]))) event.2) events

/-- **All that is received is genuine.**  Stations compose, pump, crash, stop and start again in
any interleaving, with any faults of the storage and any answers of the policies, and their
radios hand over what some link has taken, in any order and any number of times, or something
that is no frame.  If posts of different stations have different keys, a received post in a
history, or in the timeline of a session in service, was there before the run, or a process of
some station composed just this post and all its frames were taken for it. -/
theorem received_posts_are_genuine (disks : ι → Disk) (events : List (ι × StationEvent ε))
    (hair : Network.Faithful radio disks events)
    (hkeys : ∀ i j, i ≠ j →
      ∀ left ∈ (Network.run radio disks events i).records.flatMap RunRecord.composed,
      ∀ right ∈ (Network.run radio disks events j).records.flatMap RunRecord.composed,
        left.key ≠ right.key) (i : ι) :
    (∀ entry ∈ (Network.run radio disks events i).legacy.disk.entries,
      entry.origin = .receivedOrigin →
      (∃ old ∈ (disks i).entries, old.post = entry.post ∧ old.origin = .receivedOrigin) ∨
        ∃ j, (Network.run radio disks events j).HasSent entry.post) ∧
    ∀ process, (Network.run radio disks events i).process = some process →
      process.session.status = .ready →
      ∀ entry ∈ process.session.messenger.timeline.entries, entry.origin = .receivedOrigin →
      (∃ old ∈ (disks i).entries, old.post = entry.post ∧ old.origin = .receivedOrigin) ∨
        ∃ j, (Network.run radio disks events j).HasSent entry.post := by
  have hhonest := (Network.rely radio disks).run (fun j => Station.init_honest (disks j) _)
    events hair
  have hgenuine : ∀ post, SpeltBy (OnAir (Network.run radio disks events)) post →
      ∃ j, (Network.run radio disks events j).HasSent post :=
    fun post hspelt => hspelt.genuine (fun j => (hhonest j).lawful) hkeys
  have hdisk : ∀ entry ∈ (Network.run radio disks events i).legacy.disk.entries,
      entry.origin = .receivedOrigin →
      (∃ old ∈ (disks i).entries, old.post = entry.post ∧ old.origin = .receivedOrigin) ∨
        ∃ j, (Network.run radio disks events j).HasSent entry.post :=
    fun entry hentry horigin => ((hhonest i).heard entry hentry horigin).imp_right (hgenuine _)
  refine ⟨hdisk, fun process hprocess hready entry hentry => ?_⟩
  -- in service, the timeline is that of the disk
  obtain ⟨draws, first, hlawful⟩ := (hhonest i).lawful
  obtain ⟨v, hshows, hv⟩ := (hlawful.driven process hprocess).agrees hready
  refine hdisk entry ?_
  rw [show (Network.run radio disks events i).legacy.disk = v.disk from hv]
  rw [hshows.timeline] at hentry
  exact hentry

end Network

/-! ### A network of two -/

/-- A link that takes everything, and the datagrams that have come to it. -/
structure Mailbox where
  mtu : ℕ := 64
  inbox : List Bytes := []

namespace Mailbox

def radio : Radio Mailbox where
  maximumDatagramSize box := box.mtu
  connected _ := true
  closed _ := false
  trySend _ box := (.accepted, box)
  tryReceive _ box :=
    match box.inbox with
    | [] => (⟨.wouldBlock, []⟩, box)
    | datagram :: rest => (⟨.received, datagram⟩, { box with inbox := rest })
  close box := box
  evaluateTransmit now _ box := (⟨.allowed, now⟩, box)
  recordTransmit _ _ box := box
  fill size box := (some (Vector.replicate size 255), box)

theorem inbox_subset {start box : Mailbox} (h : radio.Calls start box) :
    box.inbox ⊆ start.inbox := by
  induction h with
  | refl => exact List.Subset.refl _
  | trySend | evaluateTransmit | recordTransmit | fill | close => assumption
  | @tryReceive box _ _ ih =>
    simp only [radio]
    split
    · exact ih
    · rename_i datagram rest hinbox
      rw [hinbox] at ih
      exact List.Subset.trans (List.subset_cons_self _ _) ih

/-- Only what has come to the link is handed over. -/
theorem hears {known : Bytes → Prop} {start : Mailbox}
    (h : ∀ datagram ∈ start.inbox, known datagram) (mtu : ℕ) : radio.Hears known mtu start := by
  intro box hcalls hreceived
  have hsubset := inbox_subset hcalls
  simp only [radio] at hreceived ⊢
  split at hreceived
  · cases hreceived
  · rename_i datagram rest hinbox
    rw [hinbox] at hsubset
    exact .inl (h datagram (hsubset (List.mem_cons_self ..)))

/-- Nothing comes to the link in this event. -/
def quiet : StationEvent Mailbox → Prop
  | .pump _ box _ => box.inbox = []
  | _ => True

/-- The first station composes a post of two letters and sends it; the other one starts. -/
def hello : List (Bool × StationEvent Mailbox) :=
  [(false, .start .available (some (Vector.replicate 16 1)) {} []),
    (false, .user (.compose ⟨[104, 105], [], none⟩ (some (Vector.replicate 16 2)) none) []),
    (false, .pump 0 {} []), (false, .pump 300 {} []), (false, .pump 600 {} []),
    (true, .start .available (some (Vector.replicate 16 3)) {} [])]

def disks (_ : Bool) : Disk := ⟨.missing, .missing⟩

/-- The datagrams that a link has taken. -/
def taken (record : RunRecord) : List Bytes :=
  record.log.filterMap fun
    | .offered _ ⟨datagram, .accepted⟩ _ => some datagram
    | _ => none

theorem sends_of_mem_taken {record : RunRecord} {datagram : Bytes} (h : datagram ∈ taken record) :
    record.Sends datagram := by
  obtain ⟨event, hevent, htaken⟩ := List.mem_filterMap.mp h
  cases event with
  | offered serial offer now =>
    obtain ⟨other, status⟩ := offer
    cases status with
    | accepted =>
      obtain rfl : other = datagram := by simpa using htaken
      exact ⟨serial, now, hevent⟩
    | wouldBlock | disconnected | closed | invalid => cases htaken
  | enqueued | reported | removed => cases htaken

/-- Some datagrams come to the second station. -/
def hearing (inbox : List Bytes) : List (Bool × StationEvent Mailbox) :=
  hello ++ [(true, .pump 700 { inbox := inbox } [])]

theorem hearing_faithful {inbox : List Bytes} (h : ∀ datagram ∈ inbox,
    (Station.run radio (disks false) (Interleaving.eventsOf false hello)).Sent datagram) :
    Network.Faithful (fun _ => radio) disks (hearing inbox) := by
  refine Trace.each_concat.mpr ⟨?_, ?_⟩
  · intro before event after hsplit
    have hquiet : ∀ event ∈ hello, quiet event.2 := by
      simp [hello, quiet]
    have hevent := hquiet event (by rw [hsplit]; simp)
    obtain ⟨i, event⟩ := event
    cases event with
    | pump now box faults =>
      intro process _
      refine hears ?_ _
      rw [show box.inbox = [] from hevent]
      simp
    | start | user | stop | shutdown | kill => trivial
  · intro process _
    refine hears (fun datagram hmem => ⟨false, ?_⟩) _
    -- the first station is as it was before the second one pumped
    have hevents : Interleaving.eventsOf false (hearing inbox) =
        Interleaving.eventsOf false hello := by
      rw [hearing, Interleaving.eventsOf, List.filter_append, List.map_append]
      simp [Interleaving.eventsOf]
    rw [hearing] at hevents
    rw [Network.run_apply, hevents]
    exact h datagram hmem

/-- All that the first station has sent comes to the second one, the last datagram first. -/
def heard : List (Bool × StationEvent Mailbox) :=
  hearing (taken (Station.run radio (disks false)
    (Interleaving.eventsOf false hello)).legacy.record).reverse

theorem heard_faithful : Network.Faithful (fun _ => radio) disks heard := by
  refine hearing_faithful fun datagram hmem => ?_
  exact ⟨_, List.mem_append_right _ (List.mem_singleton_self _),
    sends_of_mem_taken (List.mem_reverse.mp hmem)⟩

end Mailbox

theorem received_posts_are_genuine_heard :
    ∃ entry ∈ (Network.run (fun _ => Mailbox.radio) Mailbox.disks Mailbox.heard
        true).legacy.disk.entries, entry.origin = .receivedOrigin ∧
      ∃ j, (Network.run (fun _ => Mailbox.radio) Mailbox.disks Mailbox.heard j).HasSent
        entry.post := by
  have hany : (Network.run (fun _ => Mailbox.radio) Mailbox.disks Mailbox.heard
      true).legacy.disk.entries.any (fun entry => entry.origin = .receivedOrigin) = true := by
    rw [Network.run_apply]
    decide +kernel
  obtain ⟨entry, hentry, horigin⟩ := List.any_eq_true.mp hany
  have horigin := of_decide_eq_true horigin
  refine ⟨entry, hentry, horigin, ?_⟩
  have hsilent : (Network.run (fun _ => Mailbox.radio) Mailbox.disks Mailbox.heard
      true).records.flatMap RunRecord.composed = [] := by
    rw [Network.run_apply]
    decide +kernel
  refine ((received_posts_are_genuine (fun _ => Mailbox.radio) Mailbox.disks Mailbox.heard
    Mailbox.heard_faithful ?_ true).1 entry hentry horigin).resolve_left ?_
  · intro i j hne left hleft right hright
    -- one of the two stations is the one that has composed nothing
    cases i with
    | true => rw [hsilent] at hleft; cases hleft
    | false =>
      cases j with
      | true => rw [hsilent] at hright; cases hright
      | false => exact absurd rfl hne
  · rintro ⟨old, hold, -⟩
    cases hold

end Lora
