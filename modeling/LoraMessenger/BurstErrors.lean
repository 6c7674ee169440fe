/-
Corruption that the checksum of a frame finds.

The checksum is a reflected CRC over the header and the payload, which are apart on
the wire: the checksum lies between them.  Bytes that are changed within one of the
three parts and within four bytes of each other are therefore changed together in
what the CRC reads, or only in the checksum itself.

* `toBitVec_updateCrc` — the loop of the source is the CRC of `ReflectedCrc`;
* `Window` — two byte strings differ only in a few consecutive bytes;
* `burst_errors_detected` — such a change to a frame is never accepted.
-/
import LoraMessenger.FrameCodec
import LoraMessenger.ReflectedCrc

namespace Lora

def crcPolynomial : BitVec 32 := 0xedb88320

theorem toBitVec_crcBit (crc : UInt32) :
    (crcBit crc).toBitVec = ReflectedCrc.step crcPolynomial crc.toBitVec := by
  show (crc.toBitVec >>> 1) ^^^ (crcPolynomial &&& (0#32 - (crc.toBitVec &&& 1#32))) =
    (crc.toBitVec >>> 1) ^^^ if crc.toBitVec.getLsbD 0 then crcPolynomial else 0
  -- The mask is all ones or nothing, by the bit that is shifted out.
  have hbit : crc.toBitVec &&& 1#32 = BitVec.setWidth 32 (BitVec.ofBool (crc.toBitVec.getLsbD 0)) :=
    BitVec.and_one_eq_setWidth_ofBool_getLsbD
  rw [hbit]
  rcases crc.toBitVec.getLsbD 0 with _ | _
  · rfl
  · rfl

theorem toBitVec_iterate_crcBit (n : ℕ) (crc : UInt32) : (Nat.iterate crcBit n crc).toBitVec =
    Nat.iterate (ReflectedCrc.step crcPolynomial) n crc.toBitVec := by
  induction n generalizing crc with
  | zero => rfl
  | succ n ih => rw [Function.iterate_succ_apply, ih, toBitVec_crcBit, Function.iterate_succ_apply]

theorem toBitVec_updateCrc (crc : UInt32) (data : Bytes) : (updateCrc crc data).toBitVec =
    ReflectedCrc.update crcPolynomial crc.toBitVec (data.map UInt8.toBitVec) := by
  induction data generalizing crc with
  | nil => rfl
  | cons byte data ih =>
    rw [List.map_cons]
    show (updateCrc (Nat.iterate crcBit 8 (crc ^^^ byte.toUInt32)) data).toBitVec = _
    rw [ih, toBitVec_iterate_crcBit, UInt32.toBitVec_xor]
    rfl

/-! ### Windows -/

/-- Two byte strings are the same but for `count` bytes from `first` on. -/
structure Window (first count : ℕ) (left right : Bytes) : Prop where
  length : left.length = right.length
  outside : ∀ index, index < first ∨ first + count ≤ index → left[index]? = right[index]?

section Window

variable {first count : ℕ} {left right : Bytes}

theorem Window.take {bound : ℕ} (h : Window first count left right) (hbound : bound ≤ first) :
    left.take bound = right.take bound := by
  apply List.ext_getElem?
  intro index
  rw [List.getElem?_take, List.getElem?_take]
  split
  · exact h.outside index (.inl (by omega))
  · rfl

theorem Window.drop {bound : ℕ} (h : Window first count left right)
    (hbound : first + count ≤ bound) :
    left.drop bound = right.drop bound := by
  apply List.ext_getElem?
  intro index
  rw [List.getElem?_drop, List.getElem?_drop]
  exact h.outside _ (.inr (by omega))

/-- A short window does not leave the CRC the same. -/
theorem Window.eq_of_updateCrc (h : Window first count left right) (hcount : count ≤ 4)
    {crc : UInt32} (hcrc : updateCrc crc left = updateCrc crc right) : left = right := by
  have hleft : left = left.take first ++
      ((left.drop first).take count ++ left.drop (first + count)) := by
    rw [← List.drop_drop, List.take_append_drop, List.take_append_drop]
  have hright : right =
      left.take first ++ ((right.drop first).take count ++ left.drop (first + count)) := by
    rw [h.take (Nat.le_refl _), h.drop (Nat.le_refl _), ← List.drop_drop, List.take_append_drop,
      List.take_append_drop]
  have hlength : ((left.drop first).take count).length =
      ((right.drop first).take count).length := by
    simp only [List.length_take, List.length_drop, h.length]
  have hupdate := congrArg UInt32.toBitVec hcrc
  rw [toBitVec_updateCrc, toBitVec_updateCrc, hleft, hright] at hupdate
  simp only [List.map_append] at hupdate
  have hburst := ReflectedCrc.update_burst (by decide) (by simpa using hlength)
    (by simp; omega) hupdate
  have hsame := List.map_injective_iff.mpr (fun _ _ => UInt8.toBitVec_inj.mp) hburst
  rw [hleft, hright, hsame]

end Window

/-! ### Frames -/

/-- What the checksum is computed over. -/
def checkedBytes (data : Bytes) : Bytes := data.take kChecksumOffset ++ data.drop kFrameHeaderBytes

theorem crc32IsoHdlc_eq (first second : Bytes) :
    crc32IsoHdlc first second = updateCrc 0xffffffff (first ++ second) ^^^ 0xffffffff := by
  rw [crc32IsoHdlc, updateCrc, updateCrc, updateCrc, List.foldl_append]

theorem getElem?_checkedBytes {data : Bytes} (h : kFrameHeaderBytes ≤ data.length) (index : ℕ) :
    (checkedBytes data)[index]? = if index < 24 then data[index]? else data[index + 4]? := by
  have hoffset : kChecksumOffset = 24 := rfl
  have hheader : kFrameHeaderBytes = 28 := rfl
  have hlength : (data.take kChecksumOffset).length = 24 := by
    rw [List.length_take]
    omega
  rw [checkedBytes]
  split
  · rw [List.getElem?_append_left (by omega), List.getElem?_take, if_pos (by omega)]
  · rw [List.getElem?_append_right (by omega), hlength, List.getElem?_drop]
    congr 1
    omega

/-- A window beside the checksum is one of the bytes that are checked. -/
theorem Window.checkedBytes {first count : ℕ} {left right : Bytes}
    (h : Window first count left right)
    (hlength : kFrameHeaderBytes ≤ left.length) (hbeside : first + count ≤ 24 ∨ 28 ≤ first) :
    ∃ start, Window start count (checkedBytes left) (checkedBytes right) := by
  have hlength' : kFrameHeaderBytes ≤ right.length := h.length ▸ hlength
  have hsame : (Lora.checkedBytes left).length = (Lora.checkedBytes right).length := by
    simp only [Lora.checkedBytes, List.length_append, List.length_take, List.length_drop, h.length]
  rcases hbeside with hhead | hpayload
  · refine ⟨first, hsame, fun index hindex => ?_⟩
    rw [getElem?_checkedBytes hlength, getElem?_checkedBytes hlength']
    split
    · exact h.outside index hindex
    · exact h.outside _ (.inr (by omega))
  · refine ⟨first - 4, hsame, fun index hindex => ?_⟩
    rw [getElem?_checkedBytes hlength, getElem?_checkedBytes hlength']
    split
    · exact h.outside index (.inl (by omega))
    · exact h.outside _ (by omega)

section Frame

variable {frame frame' : DataFrame}

theorem checkedBytes_frameBytes (frame : DataFrame) :
    checkedBytes (frameBytes frame) = frameHead frame ++ frame.payload := by
  rw [checkedBytes, kChecksumOffset, kFrameHeaderBytes, take_24_frameBytes, drop_28_frameBytes]

/-- The frame on the wire follows from what is checked. -/
theorem frameBytes_eq_of_checkedBytes
    (h : checkedBytes (frameBytes frame) = checkedBytes (frameBytes frame')) :
    frameBytes frame = frameBytes frame' := by
  rw [checkedBytes_frameBytes, checkedBytes_frameBytes] at h
  obtain ⟨hhead, hpayload⟩ := List.append_inj h
    ((length_frameHead frame).trans (length_frameHead frame').symm)
  rw [frameBytes, frameBytes, hhead, hpayload]

/-- With the same checksum a short window beside it is empty. -/
theorem Window.eq_of_drop {first count : ℕ}
    (h : Window first count (frameBytes frame) (frameBytes frame'))
    (hcount : count ≤ 4) (hbeside : first + count ≤ 24 ∨ 28 ≤ first) :
    frameBytes frame = frameBytes frame' := by
  have hchecksum : writeUint32 (crc32IsoHdlc (frameHead frame) frame.payload) =
      writeUint32 (crc32IsoHdlc (frameHead frame') frame'.payload) := by
    have hbytes (frame : DataFrame) : ((frameBytes frame).drop 24).take 4 =
        writeUint32 (crc32IsoHdlc (frameHead frame) frame.payload) := by
      rw [drop_24_frameBytes, List.take_left' (length_writeUint32 _)]
    rw [← hbytes, ← hbytes]
    apply List.ext_getElem?
    intro index
    simp only [List.getElem?_take, List.getElem?_drop]
    split
    · exact h.outside _ (by omega)
    · rfl
  have hcrc : crc32IsoHdlc (frameHead frame) frame.payload =
      crc32IsoHdlc (frameHead frame') frame'.payload := by
    rw [← readUint32_append (crc32IsoHdlc (frameHead frame) frame.payload) [], hchecksum,
      readUint32_append]
  rw [crc32IsoHdlc_eq, crc32IsoHdlc_eq, ← checkedBytes_frameBytes,
    ← checkedBytes_frameBytes] at hcrc
  have hlength : kFrameHeaderBytes ≤ (frameBytes frame).length := by
    rw [length_frameBytes]
    exact Nat.le_add_right _ _
  obtain ⟨start, hwindow⟩ := h.checkedBytes hlength hbeside
  exact frameBytes_eq_of_checkedBytes
    (hwindow.eq_of_updateCrc hcount ((UInt32.xor_left_inj _).mp hcrc))

end Frame

/-- A frame of which at most four consecutive bytes are changed, all before the
checksum, all in it or all behind it, is not accepted. -/
theorem burst_errors_detected (mtu : ℕ) (frame : DataFrame) (bytes data : Bytes) (first count : ℕ)
    (hencode : encodeFrame frame mtu = .ok bytes) (hcount : count ≤ 4)
    (hpart : first + count ≤ 24 ∨ 24 ≤ first ∧ first + count ≤ 28 ∨
      28 ≤ first ∧ first + count ≤ bytes.length)
    (hwindow : Window first count bytes data) (hchanged : data ≠ bytes) :
    ∃ error, decodeFrame data mtu = .error error := by
  obtain ⟨-, rfl⟩ := encodeFrame_eq_ok.mp hencode
  rcases hdecode : decodeFrame data mtu with error | frame'
  · exact ⟨error, rfl⟩
  obtain ⟨-, rfl⟩ := frameBytes_of_decodeFrame hdecode
  refine absurd ?_ hchanged.symm
  rcases hpart with hhead | ⟨hafter, hbefore⟩ | ⟨hpayload, -⟩
  · exact hwindow.eq_of_drop hcount (.inl hhead)
  · -- Only the checksum differs, and that follows from the rest.
    refine frameBytes_eq_of_checkedBytes ?_
    rw [checkedBytes, checkedBytes, kChecksumOffset, kFrameHeaderBytes, hwindow.take hafter,
      hwindow.drop hbefore]
  · exact hwindow.eq_of_drop hcount (.inr hpayload)

/-- A frame that holds a whole post of nothing but zeros. -/
def zeroFrame : DataFrame where
  tag := ⟨List.replicate 8 0, MessageTag.length_zeros⟩
  senderSequence := 1
  fragmentIndex := 0
  fragmentCount := 1
  totalLength := UInt16.ofNat kMinimumEncodedPostBytes
  payload := List.replicate kMinimumEncodedPostBytes 0

/-- Two bytes of the payload are changed. -/
def corruptedBytes : Bytes := ((frameBytes zeroFrame).set 30 7).set 33 9

theorem burst_errors_detected_zeroFrame :
    encodeFrame zeroFrame 255 = .ok (frameBytes zeroFrame) ∧
      ∃ error, decodeFrame corruptedBytes 255 = .error error := by
  have hencode : encodeFrame zeroFrame 255 = .ok (frameBytes zeroFrame) := by decide +kernel
  refine ⟨hencode, burst_errors_detected 255 zeroFrame _ corruptedBytes 30 4 hencode (by decide)
    (by decide +kernel) ⟨by simp [corruptedBytes], fun index hindex => ?_⟩ (by decide +kernel)⟩
  rw [corruptedBytes, List.getElem?_set_ne (by omega), List.getElem?_set_ne (by omega)]

end Lora
