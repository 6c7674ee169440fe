/-
Fragmentation followed by reassembly is the identity.

`SlotProgress` says which frames of a post its slot holds, `Collecting` that a
reassembler is under way with the post.  The frames may come in any order,
more than once, and mixed with the frames of other posts:

* `SlotProgress.answer` — what a slot answers to a frame of its post;
* `Collecting.finishes` — the frame that fills the last gap completes the post;
* `reassembly_complete` — the same from any state in which the key is idle.
-/
import LoraMessenger.SlotContent

namespace Lora

/-- One of the frames of a post, as the frame decoder returns it. -/
def IsFrameOf (post : PostPayload) (mtu : ℕ) (frame : DataFrame) : Prop :=
  ∃ datagrams, fragmentPost post mtu = .ok datagrams ∧
    ∃ datagram ∈ datagrams, decodeFrame datagram mtu = .ok frame

section Complete

variable {post : PostPayload} {mtu : ℕ} {frame : DataFrame} {seen : List DataFrame} {slot : Slot}

theorem isFrameOf_iff (hmtu : isSupportedMtu mtu) :
    IsFrameOf post mtu frame ↔ ∃ index < postFragmentCount post mtu,
      frame = postFrame post mtu index := by
  constructor
  · rintro ⟨datagrams, hfragment, datagram, hmem, hdecode⟩
    rw [fragmentPost_eq hmtu, Except.ok.injEq] at hfragment
    subst hfragment
    obtain ⟨original, horiginal, rfl⟩ := List.mem_map.mp hmem
    obtain ⟨index, hindex, rfl⟩ := List.mem_map.mp horiginal
    rw [List.mem_range] at hindex
    rw [decodeFrame_frameBytes (postFrame_valid post hmtu hindex), Except.ok.injEq] at hdecode
    exact ⟨index, hindex, hdecode.symm⟩
  · rintro ⟨index, hindex, rfl⟩
    refine ⟨_, fragmentPost_eq hmtu, frameBytes (postFrame post mtu index), ?_, ?_⟩
    · exact List.mem_map_of_mem (List.mem_map_of_mem (List.mem_range.mpr hindex))
    · exact decodeFrame_frameBytes (postFrame_valid post hmtu hindex)

/-- All frames of the post have been seen. -/
def Covered (post : PostPayload) (mtu : ℕ) (seen : List DataFrame) : Prop :=
  ∀ frame, IsFrameOf post mtu frame → frame ∈ seen

/-- A slot that holds the fragments of a post seen so far. -/
structure SlotProgress (post : PostPayload) (mtu : ℕ) (seen : List DataFrame) (slot : Slot) :
    Prop extends slot.Filled mtu (IsFrameOf post mtu) where
  key : slot.key = post.key
  total : slot.totalLength = UInt16.ofNat (postBytes post).length
  count : slot.fragmentCount = UInt8.ofNat (postFragmentCount post mtu)
  seen_iff : ∀ index < postFragmentCount post mtu,
    slot.receivedBitmap.testBit index = true ↔ postFrame post mtu index ∈ seen

theorem SlotProgress.fresh (hmtu : isSupportedMtu mtu) (hframe : IsFrameOf post mtu frame)
    (receivedTick : ℕ) : SlotProgress post mtu [] (.fresh frame receivedTick) := by
  obtain ⟨index, -, rfl⟩ := (isFrameOf_iff hmtu).mp hframe
  refine ⟨Slot.fresh_filled _ _, rfl, rfl, rfl, ?_⟩
  intro index _
  simp [Slot.fresh]

/-- Frames of one post with one index are equal. -/
theorem IsFrameOf.eq_of_index (hmtu : isSupportedMtu mtu) (hframe : IsFrameOf post mtu frame)
    {index : ℕ} (hindex : frame.fragmentIndex.toNat = index) :
    index < postFragmentCount post mtu ∧ frame = postFrame post mtu index := by
  obtain ⟨original, horiginal, rfl⟩ := (isFrameOf_iff hmtu).mp hframe
  rw [postFrame_index hmtu horiginal] at hindex
  subst hindex
  exact ⟨horiginal, rfl⟩

theorem SlotProgress.write (hmtu : isSupportedMtu mtu) (h : SlotProgress post mtu seen slot)
    {index : ℕ} (hindex : index < postFragmentCount post mtu)
    (hnew : postFrame post mtu index ∉ seen) :
    SlotProgress post mtu (seen ++ [postFrame post mtu index])
      (slot.write (framePayloadCapacity mtu) (postFrame post mtu index)) := by
  have hbit : slot.receivedBitmap.testBit index = false := by
    rw [Bool.eq_false_iff, ne_eq, h.seen_iff index hindex]
    exact hnew
  have hsame := postFrame_index hmtu hindex
  refine ⟨h.toFilled.write (postFrame_valid post hmtu hindex)
    ((isFrameOf_iff hmtu).mpr ⟨index, hindex, rfl⟩) h.key.symm h.count.symm h.total.symm
    (by rw [hsame]; exact hbit), h.key, h.total, h.count, ?_⟩
  intro other hother
  rw [Slot.write, Chunks.testBit_mark, Bool.or_eq_true, h.seen_iff other hother, hsame,
    decide_eq_true_eq, List.mem_append, List.mem_singleton]
  refine or_congr_right ⟨fun heq => by rw [heq], fun heq => ?_⟩
  have hfragment := congrArg (fun frame => frame.fragmentIndex.toNat) heq
  simp only [postFrame_index hmtu hother, hsame] at hfragment
  exact hfragment.symm

theorem SlotProgress.full_iff (hmtu : isSupportedMtu mtu) (h : SlotProgress post mtu seen slot) :
    slot.receivedBitmap = completeMask slot.fragmentCount ↔ Covered post mtu seen := by
  have hbounds := postFragmentCount_bounds post hmtu
  have hcount : slot.fragmentCount.toNat = postFragmentCount post mtu := by
    rw [h.count, UInt8.toNat_ofNat']
    omega
  rw [completeMask_eq, hcount]
  constructor
  · intro hmask frame hframe
    obtain ⟨index, hindex, rfl⟩ := (isFrameOf_iff hmtu).mp hframe
    exact (h.seen_iff index hindex).mp ((Chunks.bitmap_complete hmask index).mpr hindex)
  · intro hcovered
    refine Chunks.bitmap_eq_complete fun index => ⟨fun hbit => ?_, fun hindex => ?_⟩
    · obtain ⟨frame, hframe, -, hsame, -⟩ := h.marked index hbit
      exact (hframe.eq_of_index hmtu hsame).1
    · rw [h.seen_iff index hindex]
      exact hcovered _ ((isFrameOf_iff hmtu).mpr ⟨index, hindex, rfl⟩)

/-- A slot with all fragments of a post gives the post back. -/
theorem SlotProgress.finish (hmtu : isSupportedMtu mtu) (h : SlotProgress post mtu seen slot)
    (hcovered : Covered post mtu seen) :
    slot.finish mtu (framePayloadCapacity mtu) = .complete (completedPost post mtu) := by
  have hbounds := postFragmentCount_bounds post hmtu
  have hcount : slot.fragmentCount.toNat = postFragmentCount post mtu := by
    rw [h.count, UInt8.toNat_ofNat']
    omega
  have hfull : slot.Full mtu (IsFrameOf post mtu) :=
    ⟨h.toFilled, (h.full_iff hmtu).mpr hcovered, by omega⟩
  have hbytes : slot.bytes.take slot.totalLength.toNat = postBytes post := by
    rw [← hfull.flatMap_payload, ← flatMap_postFrames hmtu, postFrames, List.flatMap_map, hcount]
    refine List.flatMap_congr fun index hindex => ?_
    rw [List.mem_range, ← hcount] at hindex
    obtain ⟨hframe, -, hsame⟩ := hfull.canonicalFrame hindex
    rw [← (hframe.eq_of_index hmtu hsame).2]
  rw [hfull.finish, hbytes, decodePost_postBytes]
  exact if_pos h.key.symm

/-- **The answer of a slot to a frame of its post.** -/
theorem SlotProgress.answer (hmtu : isSupportedMtu mtu) (h : SlotProgress post mtu seen slot)
    (hframe : IsFrameOf post mtu frame) :
    (frame ∈ seen → slot.answer mtu (framePayloadCapacity mtu) frame = .duplicate) ∧
      (frame ∉ seen → ¬Covered post mtu (seen ++ [frame]) →
        ∃ next, slot.answer mtu (framePayloadCapacity mtu) frame = .accepted next ∧
          SlotProgress post mtu (seen ++ [frame]) next) ∧
      (frame ∉ seen → Covered post mtu (seen ++ [frame]) →
        slot.answer mtu (framePayloadCapacity mtu) frame =
          .complete (completedPost post mtu)) := by
  obtain ⟨index, hindex, rfl⟩ := (isFrameOf_iff hmtu).mp hframe
  have hsame := postFrame_index hmtu hindex
  -- the frame agrees with the slot on its count and length
  have hreceive : slot.answer mtu (framePayloadCapacity mtu) (postFrame post mtu index) =
      slot.receive mtu (framePayloadCapacity mtu) (postFrame post mtu index) := by
    rw [Slot.answer, if_neg]
    rw [h.total, h.count]
    simp [postFrame, fragmentFrame]
  rw [hreceive]
  refine ⟨?_, ?_, ?_⟩
  · intro hseen
    have hbit := (h.seen_iff index hindex).mpr hseen
    obtain ⟨original, horiginal, -, hindex', holds⟩ := h.marked index hbit
    obtain rfl := (horiginal.eq_of_index hmtu hindex').2
    have hlength := holds.length
    have hpayload := holds.payload
    rw [hsame] at hlength hpayload
    rw [Slot.receive, hsame, if_pos (Chunks.and_mark_ne_zero.mpr hbit),
      if_pos ⟨hlength, hpayload⟩]
  all_goals
    intro hnew hcovered
    have hbit : ¬slot.receivedBitmap.testBit index = true := by
      rw [h.seen_iff index hindex]
      exact hnew
    have hnext := h.write hmtu hindex hnew
    have hmask := hnext.full_iff hmtu
    have hcount : (slot.write (framePayloadCapacity mtu) (postFrame post mtu index)).fragmentCount =
        (postFrame post mtu index).fragmentCount := hnext.count
    rw [hcount] at hmask
    rw [Slot.receive, hsame, if_neg (mt Chunks.and_mark_ne_zero.mp hbit)]
  · exact ⟨_, if_pos (mt hmask.mp hcovered), hnext⟩
  · simp only [ne_eq, hmask.mpr hcovered, not_true_eq_false, if_false]
    exact hnext.finish hmtu hcovered

/-- A reassembler that is collecting the frames of a post since `start`. -/
structure Collecting (post : PostPayload) (mtu start : ℕ) (seen : List DataFrame)
    (r : Reassembler) : Prop where
  wf : r.Wf
  mtu_eq : r.mtu = mtu
  free : ¬r.inQuarantine post.key
  slot : ∃ slot, r.active post.key = some slot ∧ SlotProgress post mtu seen slot ∧
    slot.deadline = saturatingDeadline start kReassemblyTimeoutTicks

variable {r : Reassembler} {start receivedTick : ℕ}

theorem deadline_of_lt (h : receivedTick < min (start + kReassemblyTimeoutTicks) kMaximumTick) :
    deadlineReached receivedTick (saturatingDeadline start kReassemblyTimeoutTicks) = false := by
  rw [deadlineReached, decide_eq_false_iff_not, saturatingDeadline]
  split
  · omega
  · omega

theorem Collecting.expire (h : Collecting post mtu start seen r)
    (htick : receivedTick < min (start + kReassemblyTimeoutTicks) kMaximumTick) :
    Collecting post mtu start seen (r.expire receivedTick).1 := by
  obtain ⟨slot, hactive, hslot, hdeadline⟩ := h.slot
  refine ⟨Reassembler.expire_wf h.wf receivedTick, h.mtu_eq,
    fun hin => h.free (Reassembler.inQuarantine_expire hin), slot, ?_, hslot, hdeadline⟩
  rw [Reassembler.active_expire h.wf, hactive, Option.filter_some, hdeadline, deadline_of_lt htick]
  rfl

/-- A frame of another key. -/
theorem Collecting.other (h : Collecting post mtu start seen r)
    (htick : receivedTick < min (start + kReassemblyTimeoutTicks) kMaximumTick)
    (hkey : frame.key ≠ post.key) :
    Collecting post mtu start (seen ++ [frame]) (r.accept frame receivedTick).1 := by
  have hexpire := h.expire htick
  obtain ⟨slot, hactive, hslot, hdeadline⟩ := hexpire.slot
  obtain ⟨hsame, hquarantine⟩ :=
    Reassembler.active_accept_of_ne receivedTick h.wf hkey.symm
  obtain ⟨hwf, hmtu'⟩ := Reassembler.accept_wf frame receivedTick h.wf
  refine ⟨hwf, hmtu'.trans h.mtu_eq, fun hin => hexpire.free (hquarantine hin), slot,
    hsame.trans hactive, ⟨hslot.toFilled, hslot.key, hslot.total, hslot.count, ?_⟩, hdeadline⟩
  intro index hindex
  rw [hslot.seen_iff index hindex, List.mem_append, List.mem_singleton]
  refine (or_iff_left ?_).symm
  rintro rfl
  exact hkey rfl

/-- A frame of the post, answered by a slot that holds what has been seen. -/
theorem collect_frame {slot : Slot} (start : ℕ) (hmtu : isSupportedMtu mtu) (hwf : r.Wf)
    (hr : r.mtu = mtu)
    (hfree : ¬(r.expire receivedTick).1.inQuarantine post.key)
    (hframe : IsFrameOf post mtu frame)
    (htarget : (r.expire receivedTick).1.target frame receivedTick = some slot)
    (hslot : SlotProgress post mtu seen slot)
    (hdeadline : slot.deadline = saturatingDeadline start kReassemblyTimeoutTicks) :
    (¬Covered post mtu (seen ++ [frame]) →
      ((r.accept frame receivedTick).2.status = .fragmentAccepted ∨
        (r.accept frame receivedTick).2.status = .duplicateFragment) ∧
      Collecting post mtu start (seen ++ [frame]) (r.accept frame receivedTick).1) ∧
    (¬Covered post mtu seen → Covered post mtu (seen ++ [frame]) →
      (r.accept frame receivedTick).2 = ⟨.complete, some (completedPost post mtu)⟩) := by
  obtain ⟨index, hindex, rfl⟩ := (isFrameOf_iff hmtu).mp hframe
  have haccepts : (r.expire receivedTick).1.accepts (postFrame post mtu index) := by
    rw [accepts_iff, show (r.expire receivedTick).1.mtu = mtu from hr]
    exact postFrame_valid post hmtu hindex
  have hcapacity : r.fragmentCapacity = framePayloadCapacity mtu := by
    rw [fragmentCapacity_eq (hr ▸ hmtu), hr]
  obtain ⟨hresult, hupdated⟩ := Reassembler.accept_target hwf haccepts hfree htarget
  obtain ⟨hduplicate, haccepted, hcomplete⟩ := hslot.answer hmtu hframe
  rw [hr, hcapacity] at hresult hupdated
  refine ⟨?_, ?_⟩
  · intro hmissing
    by_cases hseen : postFrame post mtu index ∈ seen
    · rw [hduplicate hseen] at hresult hupdated
      have hactive := hupdated.active post.key
      rw [if_pos (show post.key = (postFrame post mtu index).key from rfl)] at hactive
      refine ⟨Or.inr (by rw [hresult]; rfl), hupdated.wf, hupdated.mtu.trans hr,
        fun hin => hfree (hupdated.kept rfl hin), slot, hactive,
        ⟨hslot.toFilled, hslot.key, hslot.total, hslot.count, ?_⟩, hdeadline⟩
      intro other hother
      rw [hslot.seen_iff other hother, List.mem_append, List.mem_singleton]
      refine (or_iff_left_of_imp ?_).symm
      intro heq
      rw [heq]
      exact hseen
    · obtain ⟨next, hnext, hprogress⟩ := haccepted hseen hmissing
      have hkept : next.deadline = slot.deadline :=
        (Slot.answer_next (by rw [hnext]; rfl)).2.2
      rw [hnext] at hresult hupdated
      have hactive := hupdated.active post.key
      rw [if_pos (show post.key = (postFrame post mtu index).key from rfl)] at hactive
      exact ⟨Or.inl (by rw [hresult]; rfl), hupdated.wf, hupdated.mtu.trans hr,
        fun hin => hfree (hupdated.kept rfl hin), next, hactive, hprogress,
        hkept.trans hdeadline⟩
  · intro hmissing hcovered
    have hnew : postFrame post mtu index ∉ seen := by
      intro hseen
      -- a frame seen before would have covered the post already
      refine hmissing fun other hother => ?_
      rcases List.mem_append.mp (hcovered other hother) with hmem | hlast
      · exact hmem
      · rw [List.mem_singleton.mp hlast]
        exact hseen
    rw [hresult, hcomplete hnew hcovered]
    rfl

/-- The calls `earlier` leave a post unfinished and the next call finishes it. -/
structure FinishesAfter (post : PostPayload) (mtu : ℕ) (r : Reassembler) (seen : List DataFrame)
    (earlier : List (DataFrame × ℕ)) (last : DataFrame × ℕ) : Prop where
  isFrame : IsFrameOf post mtu last.1
  missing : last.1 ∉ seen ++ earlier.map Prod.fst
  covered : Covered post mtu (seen ++ earlier.map Prod.fst ++ [last.1])
  pending : ∀ before call after, earlier = before ++ call :: after → call.1.key = post.key →
    ((r.acceptAll before).accept call.1 call.2).2.status = .fragmentAccepted ∨
      ((r.acceptAll before).accept call.1 call.2).2.status = .duplicateFragment
  complete : ((r.acceptAll earlier).accept last.1 last.2).2 =
    ⟨.complete, some (completedPost post mtu)⟩

/-- A call in front that leaves the post unfinished. -/
theorem FinishesAfter.cons {earlier : List (DataFrame × ℕ)} {call last : DataFrame × ℕ}
    (h : FinishesAfter post mtu (r.accept call.1 call.2).1 (seen ++ [call.1]) earlier last)
    (hcall : call.1.key = post.key →
      (r.accept call.1 call.2).2.status = .fragmentAccepted ∨
        (r.accept call.1 call.2).2.status = .duplicateFragment) :
    FinishesAfter post mtu r seen (call :: earlier) last := by
  refine ⟨h.isFrame, ?_, ?_, ?_, h.complete⟩
  · have hmissing := h.missing
    rwa [List.append_assoc] at hmissing
  · have hcovered := h.covered
    rwa [List.append_assoc seen] at hcovered
  · intro before other after hsplit hkey
    rcases before with _ | ⟨head, before⟩
    · rw [List.nil_append, List.cons.injEq] at hsplit
      rw [← hsplit.1] at hkey ⊢
      exact hcall hkey
    · rw [List.cons_append, List.cons.injEq] at hsplit
      rw [← hsplit.1]
      exact h.pending before other after hsplit.2 hkey

/-- A call that finishes the post at once. -/
theorem FinishesAfter.nil {call : DataFrame × ℕ} (hframe : IsFrameOf post mtu call.1)
    (hmissing : ¬Covered post mtu seen) (hcovered : Covered post mtu (seen ++ [call.1]))
    (hcomplete : (r.accept call.1 call.2).2 = ⟨.complete, some (completedPost post mtu)⟩) :
    FinishesAfter post mtu r seen [] call := by
  refine ⟨hframe, ?_, ?_, ?_, hcomplete⟩
  · rw [List.map_nil, List.append_nil]
    intro hmem
    refine hmissing fun other hother => ?_
    rcases List.mem_append.mp (hcovered other hother) with hseen | hlast
    · exact hseen
    · rwa [List.mem_singleton.mp hlast]
  · rwa [List.map_nil, List.append_nil]
  · intro before other after hsplit
    exact absurd hsplit (by simp)

/-- A reassembler that is collecting a post finishes it at the frame that fills
the last gap. -/
theorem Collecting.finishes (hmtu : isSupportedMtu mtu) {calls : List (DataFrame × ℕ)}
    (h : Collecting post mtu start seen r) (hmissing : ¬Covered post mtu seen)
    (hcovered : Covered post mtu (seen ++ calls.map Prod.fst))
    (hticks : ∀ call ∈ calls, call.2 < min (start + kReassemblyTimeoutTicks) kMaximumTick)
    (hcontent : ∀ call ∈ calls, call.1.key = post.key → IsFrameOf post mtu call.1) :
    ∃ earlier last later, calls = earlier ++ last :: later ∧
      FinishesAfter post mtu r seen earlier last := by
  induction calls generalizing r seen with
  | nil =>
    rw [List.map_nil, List.append_nil] at hcovered
    exact absurd hcovered hmissing
  | cons call calls ih =>
    have htick := hticks call (List.mem_cons_self ..)
    have hticks' := fun other hother => hticks other (List.mem_cons_of_mem _ hother)
    have hcontent' := fun other hother => hcontent other (List.mem_cons_of_mem _ hother)
    have hcovered' : Covered post mtu ((seen ++ [call.1]) ++ calls.map Prod.fst) := by
      rwa [List.append_assoc]
    by_cases hkey : call.1.key = post.key
    · -- a frame of the post: it fills the last gap or leaves one
      have hframe := hcontent call (List.mem_cons_self ..) hkey
      have hexpire := h.expire htick
      obtain ⟨slot, hactive, hslot, hdeadline⟩ := hexpire.slot
      have htarget : (r.expire call.2).1.target call.1 call.2 = some slot := by
        rw [Reassembler.target, hkey, hactive]
      obtain ⟨hpending, hfinal⟩ := collect_frame start hmtu h.wf h.mtu_eq hexpire.free
        hframe htarget
        hslot hdeadline
      by_cases hlast : Covered post mtu (seen ++ [call.1])
      · exact ⟨[], call, calls, rfl, .nil hframe hmissing hlast (hfinal hmissing hlast)⟩
      · obtain ⟨hstatus, hcollecting⟩ := hpending hlast
        obtain ⟨earlier, last, later, rfl, hfinishes⟩ :=
          ih hcollecting hlast hcovered' hticks' hcontent'
        exact ⟨call :: earlier, last, later, rfl, hfinishes.cons fun _ => hstatus⟩
    · -- a frame of another key changes nothing for the post
      have hlast : ¬Covered post mtu (seen ++ [call.1]) := by
        intro hcovers
        refine hmissing fun other hother => ?_
        rcases List.mem_append.mp (hcovers other hother) with hseen | hother'
        · exact hseen
        · obtain ⟨index, -, rfl⟩ := (isFrameOf_iff hmtu).mp hother
          rw [List.mem_singleton] at hother'
          rw [← hother'] at hkey
          exact absurd rfl hkey
      obtain ⟨earlier, last, later, rfl, hfinishes⟩ :=
        ih (h.other htick hkey) hlast hcovered' hticks' hcontent'
      exact ⟨call :: earlier, last, later, rfl, hfinishes.cons fun hkey' => absurd hkey' hkey⟩

/-- **Fragmentation followed by reassembly is the identity.**  From any
reachable state in which the post's key is idle and a slot is free, let the
frames of the post arrive in any order, with duplicates and mixed with the
frames of other keys, in time and uncontradicted.  The frame that fills the
last gap yields the post, its encoding and its frames; those before it are
accepted or recognised as duplicates. -/
theorem reassembly_complete (post : PostPayload) {mtu : ℕ} (hmtu : isSupportedMtu mtu)
    (history : List ReassemblerCall) (first : DataFrame) (start : ℕ)
    (calls : List (DataFrame × ℕ)) (hfirst : IsFrameOf post mtu first)
    (hidle : ((Reassembler.run mtu history).expire start).1.active post.key = none)
    (hquarantine : ¬((Reassembler.run mtu history).expire start).1.inQuarantine post.key)
    (hroom : ((Reassembler.run mtu history).expire start).1.hasFreeSlot)
    (hticks : ∀ call ∈ calls, call.2 < min (start + 60000) (2 ^ 64 - 1))
    (hcontent : ∀ call ∈ calls, call.1.key = post.key → IsFrameOf post mtu call.1)
    (hall : ∀ frame, IsFrameOf post mtu frame → frame = first ∨ frame ∈ calls.map Prod.fst) :
    ∃ earlier last later, (first, start) :: calls = earlier ++ last :: later ∧
      IsFrameOf post mtu last.1 ∧ last.1 ∉ earlier.map Prod.fst ∧
      (∀ frame, IsFrameOf post mtu frame → frame ∈ earlier.map Prod.fst ∨ frame = last.1) ∧
      (∀ before call after, earlier = before ++ call :: after → call.1.key = post.key →
        (((Reassembler.run mtu history).acceptAll before).accept call.1 call.2).2.status =
            .fragmentAccepted ∨
          (((Reassembler.run mtu history).acceptAll before).accept call.1 call.2).2.status =
            .duplicateFragment) ∧
      ∃ completed,
        (((Reassembler.run mtu history).acceptAll earlier).accept last.1 last.2).2 =
          ⟨.complete, some completed⟩ ∧
        completed.post = post ∧ encodePost post = .ok completed.canonicalPost ∧
        fragmentPost post mtu = .ok completed.canonicalFrames := by
  obtain ⟨hwf, hr⟩ := Reassembler.run_wf mtu history
  generalize Reassembler.run mtu history = r at *
  have hkey : first.key = post.key := by
    obtain ⟨index, -, rfl⟩ := (isFrameOf_iff hmtu).mp hfirst
    rfl
  have htarget : (r.expire start).1.target first start = some (.fresh first start) := by
    rw [Reassembler.target, hkey, hidle]
    rcases hfree : (r.expire start).1.freeSlot with _ | index
    · exact absurd hroom (Reassembler.freeSlot_eq_none.mp hfree)
    · rfl
  obtain ⟨hpending, hfinal⟩ := collect_frame start hmtu hwf hr hquarantine hfirst htarget
    (.fresh hmtu hfirst start) rfl
  have hnone : ¬Covered post mtu [] := fun hcovered => absurd (hcovered first hfirst) (by simp)
  have hfinishes : ∃ earlier last later, (first, start) :: calls = earlier ++ last :: later ∧
      FinishesAfter post mtu r [] earlier last := by
    -- a post of one frame is complete with the first call
    by_cases hone : Covered post mtu ([] ++ [first])
    · exact ⟨[], (first, start), calls, rfl, .nil hfirst hnone hone (hfinal hnone hone)⟩
    · obtain ⟨hstatus, hcollecting⟩ := hpending hone
      obtain ⟨earlier, last, later, rfl, hfinishes⟩ := hcollecting.finishes hmtu hone
        (fun frame hframe => by simpa using hall frame hframe) hticks hcontent
      exact ⟨(first, start) :: earlier, last, later, rfl, hfinishes.cons fun _ => hstatus⟩
  obtain ⟨earlier, last, later, hsplit, hfinishes⟩ := hfinishes
  refine ⟨earlier, last, later, hsplit, hfinishes.isFrame, hfinishes.missing, ?_,
    hfinishes.pending, completedPost post mtu, hfinishes.complete, rfl, encodePost_eq post,
    fragmentPost_eq hmtu⟩
  intro frame hframe
  have hmem := hfinishes.covered frame hframe
  rwa [List.nil_append, List.mem_append, List.mem_singleton] at hmem

/-- Three frames, the last one first and then once more. -/
theorem reassembly_complete_samplePost :
    ∃ earlier last later completed,
      [(postFrame samplePost 48 2, 7), (postFrame samplePost 48 0, 8),
        (postFrame samplePost 48 2, 9), (postFrame samplePost 48 1, 10)] =
        earlier ++ last :: later ∧
      (((Reassembler.run 48 []).acceptAll earlier).accept last.1 last.2).2 =
        ⟨.complete, some completed⟩ ∧ completed.post = samplePost := by
  have hmtu : isSupportedMtu 48 := by decide
  have hcount : postFragmentCount samplePost 48 = 3 := by decide
  have hframe : ∀ index < 3, IsFrameOf samplePost 48 (postFrame samplePost 48 index) := by
    intro index hindex
    exact (isFrameOf_iff hmtu).mpr ⟨index, by omega, rfl⟩
  obtain ⟨earlier, last, later, hsplit, -, -, -, -, completed, hcomplete, hpost, -⟩ :=
    reassembly_complete samplePost hmtu [] (postFrame samplePost 48 2) 7
      [(postFrame samplePost 48 0, 8), (postFrame samplePost 48 2, 9),
        (postFrame samplePost 48 1, 10)]
      (hframe 2 (by decide)) (by decide +kernel) (by rintro ⟨entry, hentry, -⟩; cases hentry)
      ⟨.blank, by simp [Reassembler.run, Reassembler.new, Reassembler.expire,
        Reassembler.expireSlots, Reassembler.expireQuarantine, SlotTable.sweep,
        kMaximumReassemblies], rfl⟩
      (by simp)
      (by
        intro call hcall _
        simp only [List.mem_cons, List.not_mem_nil, or_false] at hcall
        rcases hcall with rfl | rfl | rfl
        · exact hframe 0 (by decide)
        · exact hframe 2 (by decide)
        · exact hframe 1 (by decide))
      (by
        intro frame hisFrame
        obtain ⟨index, hindex, rfl⟩ := (isFrameOf_iff hmtu).mp hisFrame
        rw [hcount] at hindex
        obtain rfl | rfl | rfl : index = 0 ∨ index = 1 ∨ index = 2 := by omega
        · simp
        · simp
        · simp)
  exact ⟨earlier, last, later, completed, hsplit, hcomplete, hpost⟩

end Complete

end Lora
