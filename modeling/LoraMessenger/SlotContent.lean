/-
The content of a reassembly slot.

`Slot.Filled` ties the buffer of a slot to the frames its fragments came from:
each marked fragment is the payload of a frame with the key, the count and the
total length of the slot.

* `accepts_iff` — a frame is let through by `accept` iff it is valid;
* `Slot.Filled.write` — a new fragment keeps the invariant;
* `Slot.Full.finish` — what a slot with all its fragments turns into.
-/
import LoraMessenger.Reassembler

namespace Lora

/-! ### Frames and their place in the buffer -/

section Place

variable {mtu : ℕ} {frame : DataFrame}

/-- Where the payload of a valid frame goes. -/
theorem FrameValid.place (h : FrameValid mtu frame) :
    frame.payload.length = min (framePayloadCapacity mtu)
        (frame.totalLength.toNat - frame.fragmentIndex.toNat * framePayloadCapacity mtu) ∧
      frame.fragmentIndex.toNat * framePayloadCapacity mtu + frame.payload.length ≤
        frame.totalLength.toNat ∧
      frame.fragmentIndex.toNat < frame.fragmentCount.toNat ∧
      frame.fragmentCount.toNat ≤ kMaximumFragments ∧
      frame.fragmentCount.toNat =
        fragmentCountOf frame.totalLength.toNat (framePayloadCapacity mtu) ∧
      frame.totalLength.toNat ≤ kMaximumEncodedPostBytes := by
  obtain ⟨hmtu, hfields⟩ := h
  obtain ⟨-, ⟨hmin, hmax⟩, ⟨-, hle, hindex, hpos, -⟩, hcount, hsize⟩ :=
    validateFrameFields_eq_none.mp hfields
  obtain ⟨-, hlow, -⟩ := capacity_bounds hmtu
  rw [kMinimumEncodedPostBytes] at hmin
  have hcount' : frame.fragmentCount.toNat =
      fragmentCountOf frame.totalLength.toNat (framePayloadCapacity mtu) := hcount
  have hmin' := fragmentSize frame.totalLength.toNat (framePayloadCapacity mtu) (by omega)
    (by omega) (hcount' ▸ hindex)
  rw [← hcount', ← hsize] at hmin'
  exact ⟨hmin'.symm, by omega, hindex, hle, hcount', hmax⟩

theorem fragmentCapacity_eq {r : Reassembler} (h : isSupportedMtu r.mtu) :
    r.fragmentCapacity = framePayloadCapacity r.mtu := by
  rw [Reassembler.fragmentCapacity, framePayloadCapacity, if_pos h, if_pos]
  simp only [isSupportedMtu, kMinimumTransportMtu, kFrameHeaderBytes] at *
  omega

/-- `accept` checks that the frame is valid. -/
theorem accepts_iff {r : Reassembler} : r.accepts frame ↔ FrameValid r.mtu frame := by
  by_cases hmtu : isSupportedMtu r.mtu
  swap
  · simp only [Reassembler.accepts, FrameValid, hmtu, not_false_eq_true, true_or, not_true_eq_false,
      false_and]
  obtain ⟨-, hlow, -⟩ := capacity_bounds hmtu
  have hzero : frame.fragmentCount = 0 ↔ frame.fragmentCount.toNat = 0 := by
    rw [← UInt8.toNat_inj, UInt8.toNat_zero]
  have hindex : frame.fragmentIndex ≥ frame.fragmentCount ↔
      frame.fragmentCount.toNat ≤ frame.fragmentIndex.toNat := UInt8.le_iff_toNat_le
  constructor
  · intro h
    simp only [Reassembler.accepts, fragmentCapacity_eq hmtu, hzero, hindex, not_or, not_not] at h
    obtain ⟨⟨-, hsequence, hcount, hle, hlt, hmin, hmax, -⟩, hexpected, hpayload⟩ := h
    rw [kMinimumEncodedPostBytes] at hmin
    have hpos := fragmentSize_pos frame.totalLength.toNat (framePayloadCapacity r.mtu) (by omega)
      (by omega) (show frame.fragmentIndex.toNat < fragmentCountOf _ _ by
        rw [fragmentCountOf, hexpected]; omega)
    have hsize := fragmentSize frame.totalLength.toNat (framePayloadCapacity r.mtu) (by omega)
      (by omega) (show frame.fragmentIndex.toNat < fragmentCountOf _ _ by
        rw [fragmentCountOf, hexpected]; omega)
    rw [fragmentCountOf, hexpected, ← hpayload] at hsize
    obtain ⟨-, -, hhigh⟩ := capacity_bounds hmtu
    refine ⟨hmtu, validateFrameFields_eq_none.mpr
      ⟨hsequence, ⟨by rw [kMinimumEncodedPostBytes]; omega, by omega⟩,
      ⟨by omega, by omega, by omega, by omega, ?_⟩, hexpected.symm, hpayload⟩⟩
    simp only [kMaximumFramePayloadBytes, kMaximumTransportMtu, kFrameHeaderBytes]
    omega
  · rintro ⟨-, hfields⟩
    obtain ⟨hsequence, ⟨hmin, hmax⟩, ⟨hpos, hle, hlt, -, -⟩, hcount, hsize⟩ :=
      validateFrameFields_eq_none.mp hfields
    simp only [Reassembler.accepts, fragmentCapacity_eq hmtu, hzero, hindex, not_or, not_not]
    exact ⟨⟨hmtu, hsequence, by omega, by omega, by omega, by omega, by omega, by omega⟩,
      hcount.symm, hsize⟩

end Place

/-! ### The invariant of a slot -/

/-- A frame whose payload sits in its place in a slot. -/
structure Slot.Holds (slot : Slot) (capacity : ℕ) (frame : DataFrame) : Prop where
  key : frame.key = slot.key
  count : frame.fragmentCount = slot.fragmentCount
  total : frame.totalLength = slot.totalLength
  length : slot.fragmentLengths.getD frame.fragmentIndex.toNat 0 = frame.payload.length
  payload : Chunks.slice slot.bytes (frame.fragmentIndex.toNat * capacity) frame.payload.length =
    frame.payload

/-- Each marked fragment of a slot comes from a frame in `source`. -/
structure Slot.Filled (slot : Slot) (mtu : ℕ) (source : DataFrame → Prop) : Prop where
  length_bytes : slot.bytes.length = kMaximumEncodedPostBytes
  length_lengths : slot.fragmentLengths.length = kMaximumFragments
  marked : ∀ index, slot.receivedBitmap.testBit index = true →
    ∃ frame, source frame ∧ FrameValid mtu frame ∧ frame.fragmentIndex.toNat = index ∧
      slot.Holds (framePayloadCapacity mtu) frame

section Filled

variable {mtu : ℕ} {slot : Slot} {frame : DataFrame} {source source' : DataFrame → Prop}

theorem Slot.Filled.mono (h : slot.Filled mtu source)
    (hsource : ∀ frame, source frame → source' frame) :
    slot.Filled mtu source' := by
  refine ⟨h.length_bytes, h.length_lengths, ?_⟩
  intro index hindex
  obtain ⟨frame, hframe, hrest⟩ := h.marked index hindex
  exact ⟨frame, hsource frame hframe, hrest⟩

theorem Slot.fresh_filled (frame : DataFrame) (receivedTick : ℕ) :
    (Slot.fresh frame receivedTick).Filled mtu source := by
  refine ⟨by simp [Slot.fresh], by simp [Slot.fresh], ?_⟩
  intro index hindex
  exact absurd hindex (by simp [Slot.fresh])

/-- Writing a fragment keeps the others and adds its own. -/
theorem Slot.Filled.write (h : slot.Filled mtu source) (hvalid : FrameValid mtu frame)
    (hsource : source frame) (hkey : frame.key = slot.key)
    (hcount : frame.fragmentCount = slot.fragmentCount)
    (htotal : frame.totalLength = slot.totalLength)
    (hnew : slot.receivedBitmap.testBit frame.fragmentIndex.toNat = false) :
    (slot.write (framePayloadCapacity mtu) frame).Filled mtu source := by
  obtain ⟨hsize, hfits, hlt, hle, -, hmax⟩ := hvalid.place
  have hroom : frame.fragmentIndex.toNat * framePayloadCapacity mtu + frame.payload.length ≤
      slot.bytes.length := by
    rw [h.length_bytes]
    omega
  refine ⟨?_, ?_, ?_⟩
  · rw [Slot.write, Chunks.length_splice hroom, h.length_bytes]
  · rw [Slot.write, List.length_set, h.length_lengths]
  intro index hindex
  rw [Slot.write, Chunks.testBit_mark, Bool.or_eq_true, decide_eq_true_eq] at hindex
  rcases hindex with hmarked | rfl
  · -- an earlier fragment: it lies in another part of the buffer
    obtain ⟨other, hother, hotherValid, hotherIndex, holds⟩ := h.marked index hmarked
    have hne : frame.fragmentIndex.toNat ≠ index := by
      rintro rfl
      rw [hnew] at hmarked
      exact absurd hmarked (by simp)
    obtain ⟨hotherSize, -⟩ := hotherValid.place
    refine ⟨other, hother, hotherValid, hotherIndex, holds.key, holds.count, holds.total, ?_, ?_⟩
    · simp only [Slot.write, List.getD_eq_getElem?_getD, hotherIndex]
      rw [List.getElem?_set_ne hne, ← List.getD_eq_getElem?_getD, ← hotherIndex, holds.length]
    · rw [hotherIndex]
      have hdisjoint : index * framePayloadCapacity mtu + other.payload.length ≤
            frame.fragmentIndex.toNat * framePayloadCapacity mtu ∨
          frame.fragmentIndex.toNat * framePayloadCapacity mtu + frame.payload.length ≤
            index * framePayloadCapacity mtu := by
        rcases Nat.lt_or_gt_of_ne hne with hlt' | hlt'
        · have hstep := Nat.mul_le_mul_right (framePayloadCapacity mtu) (Nat.succ_le_of_lt hlt')
          rw [Nat.succ_mul] at hstep
          omega
        · have hstep := Nat.mul_le_mul_right (framePayloadCapacity mtu) (Nat.succ_le_of_lt hlt')
          rw [Nat.succ_mul] at hstep
          omega
      rw [Slot.write, Chunks.slice_splice_of_disjoint hroom hdisjoint, ← hotherIndex,
        holds.payload]
  · refine ⟨frame, hsource, hvalid, rfl, hkey, hcount, htotal, ?_, ?_⟩
    · simp only [Slot.write, List.getD_eq_getElem?_getD]
      rw [List.getElem?_set_self (by rw [h.length_lengths]; omega), Option.getD_some]
    · exact Chunks.slice_splice_self hroom

/-- A frame in its place is read back. -/
theorem Slot.Holds.canonicalFrame {capacity : ℕ} (h : slot.Holds capacity frame) :
    slot.canonicalFrame capacity frame.fragmentIndex.toNat = frame := by
  have hkey := h.key
  simp only [DataFrame.key, Slot.key, Prod.mk.injEq] at hkey
  rw [Slot.canonicalFrame, h.length, h.payload, ← hkey.1, ← hkey.2, ← h.count, ← h.total,
    UInt8.ofNat_toNat]

theorem completeMask_eq (fragmentCount : UInt8) :
    completeMask fragmentCount = (1 <<< fragmentCount.toNat) - 1 := by
  rw [completeMask]
  split
  · rename_i h
    rw [h]
    rfl
  · rfl

/-- A slot with every fragment. -/
structure Slot.Full (slot : Slot) (mtu : ℕ) (source : DataFrame → Prop) : Prop
    extends slot.Filled mtu source where
  all : slot.receivedBitmap = completeMask slot.fragmentCount
  count_pos : 0 < slot.fragmentCount.toNat

theorem Slot.Full.canonicalFrame (h : slot.Full mtu source) {index : ℕ}
    (hindex : index < slot.fragmentCount.toNat) :
    source (slot.canonicalFrame (framePayloadCapacity mtu) index) ∧
      FrameValid mtu (slot.canonicalFrame (framePayloadCapacity mtu) index) ∧
      (slot.canonicalFrame (framePayloadCapacity mtu) index).fragmentIndex.toNat = index := by
  have hbit := (Chunks.bitmap_complete (h.all.trans (completeMask_eq _)) index).mpr hindex
  obtain ⟨frame, hsource, hvalid, hframe, holds⟩ := h.marked index hbit
  rw [← hframe, holds.canonicalFrame]
  exact ⟨hsource, hvalid, rfl⟩

/-- The encoded post in a full slot, by fragments. -/
theorem Slot.Full.layout (h : slot.Full mtu source) :
    (slot.bytes.take slot.totalLength.toNat).length = slot.totalLength.toNat ∧
      slot.fragmentCount.toNat =
        fragmentCountOf slot.totalLength.toNat (framePayloadCapacity mtu) ∧
      ∀ index < slot.fragmentCount.toNat,
        (slot.canonicalFrame (framePayloadCapacity mtu) index).payload =
          Chunks.slice (slot.bytes.take slot.totalLength.toNat)
            (index * framePayloadCapacity mtu) (min (framePayloadCapacity mtu)
              (slot.totalLength.toNat - index * framePayloadCapacity mtu)) := by
  obtain ⟨-, hvalid, hzero⟩ := h.canonicalFrame h.count_pos
  obtain ⟨-, -, -, -, hcount, hmax⟩ := hvalid.place
  have hlength : (slot.bytes.take slot.totalLength.toNat).length = slot.totalLength.toNat := by
    rw [List.length_take, h.length_bytes]
    exact Nat.min_eq_left hmax
  refine ⟨hlength, hcount, ?_⟩
  intro index hindex
  obtain ⟨-, hvalid, hsame⟩ := h.canonicalFrame hindex
  obtain ⟨hsize, hfits, -⟩ := hvalid.place
  rw [hsame] at hsize hfits
  have htotal : (slot.canonicalFrame (framePayloadCapacity mtu) index).totalLength =
    slot.totalLength := rfl
  rw [htotal] at hsize hfits
  rw [← hsize]
  set size := (slot.canonicalFrame (framePayloadCapacity mtu) index).payload.length with hsizeDef
  have hpayload : (slot.canonicalFrame (framePayloadCapacity mtu) index).payload =
      Chunks.slice slot.bytes (index * framePayloadCapacity mtu) size := by
    rw [hsizeDef]
    simp only [Slot.canonicalFrame, Chunks.slice, List.length_take]
    rw [List.take_eq_take_iff]
    omega
  rw [hpayload, Chunks.slice, Chunks.slice, List.drop_take, List.take_take, Nat.min_eq_left]
  omega

/-- The encoded post in a full slot is the payloads in order. -/
theorem Slot.Full.flatMap_payload (h : slot.Full mtu source) :
    (List.range slot.fragmentCount.toNat).flatMap
        (fun index => (slot.canonicalFrame (framePayloadCapacity mtu) index).payload) =
      slot.bytes.take slot.totalLength.toNat := by
  obtain ⟨hlength, hcount, hpayload⟩ := h.layout
  obtain ⟨-, ⟨hmtu, hfields⟩, -⟩ := h.canonicalFrame h.count_pos
  obtain ⟨-, hlow, -⟩ := capacity_bounds hmtu
  obtain ⟨-, ⟨hmin, -⟩, -⟩ := validateFrameFields_eq_none.mp hfields
  rw [kMinimumEncodedPostBytes] at hmin
  obtain ⟨-, -, hhigh⟩ := fragmentCountOf_bounds slot.totalLength.toNat (framePayloadCapacity mtu)
    (by omega) (show 0 < slot.totalLength.toNat from Nat.lt_of_lt_of_le (by omega) hmin)
  have hslices := Chunks.flatMap_slice (framePayloadCapacity mtu)
    (slot.bytes.take slot.totalLength.toNat) slot.fragmentCount.toNat
  rw [hlength] at hslices
  rw [List.flatMap_congr fun index hindex =>
    hpayload index (List.mem_range.mp hindex), hslices]
  refine List.take_of_length_le ?_
  rw [hlength, hcount, Nat.mul_comm]
  exact hhigh

/-- If the content of a full slot decodes to a post with its key, the frames
of the slot are the frames of the post. -/
theorem Slot.Full.canonicalFrame_eq (h : slot.Full mtu source) {post : PostPayload}
    (hdecode : decodePost (slot.bytes.take slot.totalLength.toNat) = .ok post)
    (hkey : post.key = slot.key) :
    slot.fragmentCount.toNat = postFragmentCount post mtu ∧
      ∀ index < slot.fragmentCount.toNat,
        slot.canonicalFrame (framePayloadCapacity mtu) index = postFrame post mtu index := by
  obtain ⟨hlength, hcount, hpayload⟩ := h.layout
  have hbytes := postBytes_of_decodePost hdecode
  have htotal : slot.totalLength.toNat = (postBytes post).length := by
    rw [hbytes, hlength]
  have hcount' : slot.fragmentCount.toNat = postFragmentCount post mtu := by
    rw [hcount, htotal]
    rfl
  refine ⟨hcount', ?_⟩
  intro index hindex
  have hpart := hpayload index hindex
  rw [← hbytes, htotal] at hpart
  simp only [PostPayload.key, Slot.key, Prod.mk.injEq] at hkey
  rw [postFrame, fragmentFrame]
  rw [DataFrame.mk.injEq]
  refine ⟨hkey.1.symm, hkey.2.symm, rfl, ?_, ?_, hpart⟩
  · rw [← hcount']
    exact (UInt8.ofNat_toNat).symm
  · rw [← htotal]
    exact (UInt16.ofNat_toNat).symm

/-- **What a full slot turns into.** -/
theorem Slot.Full.finish (h : slot.Full mtu source) :
    slot.finish mtu (framePayloadCapacity mtu) =
      match decodePost (slot.bytes.take slot.totalLength.toNat) with
      | .error _ => .invalid
      | .ok post =>
        if post.key = slot.key then
          .complete ⟨post, slot.bytes.take slot.totalLength.toNat,
            (postFrames post mtu).map frameBytes⟩
        else .invalid := by
  simp only [Slot.finish]
  rcases hdecode : decodePost (slot.bytes.take slot.totalLength.toNat) with error | post
  · rfl
  · dsimp only
    by_cases hkey : post.key = slot.key
    · obtain ⟨hcount, hframes⟩ := h.canonicalFrame_eq hdecode hkey
      have hencode : (List.range slot.fragmentCount.toNat).mapM (fun index =>
          encodeFrame (slot.canonicalFrame (framePayloadCapacity mtu) index) mtu) =
          .ok ((List.range slot.fragmentCount.toNat).map
            fun index => frameBytes (postFrame post mtu index)) := by
        refine mapM_ok fun index hindex => ?_
        rw [List.mem_range] at hindex
        obtain ⟨-, hvalid, -⟩ := h.canonicalFrame hindex
        rw [← hframes index hindex]
        exact encodeFrame_eq_ok.mpr ⟨hvalid, rfl⟩
      simp only [hencode]
      have hkey' := hkey
      simp only [PostPayload.key, Slot.key, Prod.mk.injEq] at hkey'
      rw [if_neg (by simp [hkey'.1, hkey'.2]), if_pos hkey, postFrames, List.map_map, hcount]
      rfl
    · have hkey' := hkey
      simp only [PostPayload.key, Slot.key, Prod.mk.injEq, not_and_or] at hkey'
      exact (if_pos hkey').trans (if_neg hkey).symm

end Filled

/-! ### Calls -/

inductive ReassemblerCall where
  | accept (frame : DataFrame) (receivedTick : ℕ)
  | expire (now : ℕ)
  | clear

namespace Reassembler

def call (r : Reassembler) : ReassemblerCall → Reassembler
  | .accept frame receivedTick => (r.accept frame receivedTick).1
  | .expire now => (r.expire now).1
  | .clear => r.clear

/-- The reassembler after a sequence of calls. -/
def run (mtu : ℕ) (calls : List ReassemblerCall) : Reassembler := calls.foldl call (new mtu)

/-- A sequence of calls of `accept` alone. -/
def acceptAll (r : Reassembler) (calls : List (DataFrame × ℕ)) : Reassembler :=
  calls.foldl (fun r call => (r.accept call.1 call.2).1) r

theorem call_wf {r : Reassembler} (h : r.Wf) (c : ReassemblerCall) :
    (r.call c).Wf ∧ (r.call c).mtu = r.mtu := by
  cases c with
  | accept frame receivedTick => exact accept_wf frame receivedTick h
  | expire now => exact ⟨expire_wf h now, rfl⟩
  | clear => exact ⟨clear_wf, rfl⟩

theorem run_wf (mtu : ℕ) (calls : List ReassemblerCall) :
    (run mtu calls).Wf ∧ (run mtu calls).mtu = mtu := by
  induction calls using List.reverseRecOn with
  | nil => exact ⟨new_wf mtu, rfl⟩
  | append_singleton calls c ih =>
    rw [run, List.foldl_append]
    obtain ⟨hwf, hmtu⟩ := call_wf ih.1 c
    exact ⟨hwf, hmtu.trans ih.2⟩

theorem fragmentCapacity_run {mtu : ℕ} (hmtu : isSupportedMtu mtu) (calls : List ReassemblerCall) :
    (run mtu calls).fragmentCapacity = framePayloadCapacity mtu := by
  obtain ⟨-, hsame⟩ := run_wf mtu calls
  rw [fragmentCapacity_eq (by rwa [hsame]), hsame]

end Reassembler

/-- What comes out when all frames of a post are there. -/
def completedPost (post : PostPayload) (mtu : ℕ) : CompletedPost :=
  ⟨post, postBytes post, (postFrames post mtu).map frameBytes⟩

end Lora
