/-
DATA frames: the datagrams a post is cut into.

A frame is a 24-byte header, a CRC-32 over header and payload, and the
payload.  `validateFrameFields` ties the fragment index, the fragment count,
the total length and the payload size to the MTU, so a frame that passes it
has exactly one spelling.

* `decodeFrame_encodeFrame` — what encodes is decoded back;
* `encodeFrame_of_decodeFrame` — what decodes is the encoding of the result;
* `frameCodec_bijective` — both, with the frames that can be encoded.
-/
import LoraMessenger.PostCodec

namespace Lora

def kMinimumTransportMtu : ℕ := 48
def kMaximumTransportMtu : ℕ := 255
def kFrameHeaderBytes : ℕ := 28
def kMaximumFramePayloadBytes : ℕ := kMaximumTransportMtu - kFrameHeaderBytes
def kMaximumFragments : ℕ := 16

def kProtocolVersion : UInt8 := 1
def kDataFrameType : UInt8 := 0
def kFrameMagicFirst : UInt8 := 0x4c
def kFrameMagicSecond : UInt8 := 0x4d
def kChecksumOffset : ℕ := 24

def isSupportedMtu (mtu : ℕ) : Prop := kMinimumTransportMtu ≤ mtu ∧ mtu ≤ kMaximumTransportMtu

instance (mtu : ℕ) : Decidable (isSupportedMtu mtu) := inferInstanceAs (Decidable (_ ∧ _))

def framePayloadCapacity (mtu : ℕ) : ℕ := if isSupportedMtu mtu then mtu - kFrameHeaderBytes else 0

/-- The first eight bytes of a message id. -/
structure MessageTag where
  bytes : Bytes
  length_bytes : bytes.length = 8
deriving DecidableEq

theorem MessageTag.length_zeros : (List.replicate 8 (0 : UInt8)).length = 8 := rfl

def MessageTag.read (data : Bytes) : MessageTag :=
  ⟨(List.range 8).map fun index => data.getD index 0, by simp⟩

def messageTag (messageId : MessageId) : MessageTag := MessageTag.read messageId.uuid.bytes

structure DataFrame where
  tag : MessageTag
  senderSequence : UInt64
  fragmentIndex : UInt8
  fragmentCount : UInt8
  totalLength : UInt16
  payload : Bytes
deriving DecidableEq

inductive FrameCodecError where
  | none
  | invalidMtu
  | nullData
  | datagramTooShort
  | datagramTooLarge
  | badMagic
  | unsupportedVersion
  | unsupportedType
  | lengthMismatch
  | checksumMismatch
  | invalidSenderSequence
  | invalidTotalLength
  | invalidFragment
  | nonCanonicalFragment
deriving DecidableEq

/-! ### Integers and the checksum -/

def writeUint16 (value : UInt16) : Bytes := BigEndian.toBytes 2 value.toNat
def writeUint32 (value : UInt32) : Bytes := BigEndian.toBytes 4 value.toNat
def writeUint64 (value : UInt64) : Bytes := BigEndian.toBytes 8 value.toNat

def readUint16 (source : Bytes) : UInt16 := UInt16.ofNat (BigEndian.ofBytes (source.take 2))
def readUint32 (source : Bytes) : UInt32 := UInt32.ofNat (BigEndian.ofBytes (source.take 4))

/-- One bit of the reflected CRC: shift out, subtract the polynomial if the
bit was set. -/
def crcBit (crc : UInt32) : UInt32 := (crc >>> 1) ^^^ (0xedb88320 &&& (0 - (crc &&& 1)))

def updateCrc (crc : UInt32) (data : Bytes) : UInt32 :=
  data.foldl (fun crc byte => Nat.iterate crcBit 8 (crc ^^^ byte.toUInt32)) crc

def crc32IsoHdlc (first second : Bytes) : UInt32 :=
  updateCrc (updateCrc 0xffffffff first) second ^^^ 0xffffffff

/-! ### Field validation -/

def validateFrameFields (senderSequence : UInt64) (fragmentIndex fragmentCount : UInt8)
    (totalLength : UInt16) (payloadSize mtu : ℕ) : FrameCodecError :=
  if senderSequence = 0 then .invalidSenderSequence
  else if totalLength.toNat < kMinimumEncodedPostBytes ∨
      totalLength.toNat > kMaximumEncodedPostBytes then .invalidTotalLength
  else if fragmentCount = 0 ∨ fragmentCount.toNat > kMaximumFragments ∨
      fragmentIndex ≥ fragmentCount ∨ payloadSize = 0 ∨
      payloadSize > kMaximumFramePayloadBytes then .invalidFragment
  else
    let capacity := framePayloadCapacity mtu
    let expectedCount := (totalLength.toNat + capacity - 1) / capacity
    if expectedCount = 0 ∨ expectedCount > kMaximumFragments ∨
        fragmentCount.toNat ≠ expectedCount then .nonCanonicalFragment
    else
      let expectedPayloadSize :=
        if fragmentIndex.toNat + 1 < fragmentCount.toNat then capacity
        else totalLength.toNat - capacity * (fragmentCount.toNat - 1)
      if payloadSize ≠ expectedPayloadSize then .nonCanonicalFragment else .none

/-- The 24 bytes in front of the checksum. -/
def frameHead (frame : DataFrame) : Bytes :=
  kFrameMagicFirst :: kFrameMagicSecond :: ((kProtocolVersion <<< 4) ||| kDataFrameType) ::
    (frame.tag.bytes ++ (writeUint64 frame.senderSequence ++
      (frame.fragmentIndex :: frame.fragmentCount :: (writeUint16 frame.totalLength ++
        [UInt8.ofNat frame.payload.length]))))

def frameBytes (frame : DataFrame) : Bytes :=
  frameHead frame ++ (writeUint32 (crc32IsoHdlc (frameHead frame) frame.payload) ++ frame.payload)

def encodeFrame (frame : DataFrame) (mtu : ℕ) : Except FrameCodecError Bytes :=
  if ¬isSupportedMtu mtu then .error .invalidMtu
  else
    let validation := validateFrameFields frame.senderSequence frame.fragmentIndex
      frame.fragmentCount frame.totalLength frame.payload.length mtu
    if validation ≠ .none then .error validation else .ok (frameBytes frame)

/-- As in `decodePost`, a byte string has no null pointer. -/
def decodeFrame (data : Bytes) (mtu : ℕ) : Except FrameCodecError DataFrame :=
  if ¬isSupportedMtu mtu then .error .invalidMtu
  else if data.length < kFrameHeaderBytes + 1 then .error .datagramTooShort
  else if data.length > mtu ∨ data.length > kMaximumTransportMtu then .error .datagramTooLarge
  else if data.getD 0 0 ≠ kFrameMagicFirst ∨ data.getD 1 0 ≠ kFrameMagicSecond then
    .error .badMagic
  else if data.getD 2 0 >>> 4 ≠ kProtocolVersion then .error .unsupportedVersion
  else if data.getD 2 0 &&& 0x0f ≠ kDataFrameType then .error .unsupportedType
  else
    let payloadSize := (data.getD 23 0).toNat
    if payloadSize = 0 ∨ data.length ≠ kFrameHeaderBytes + payloadSize then
      .error .lengthMismatch
    else if readUint32 (data.drop kChecksumOffset) ≠
        crc32IsoHdlc (data.take kChecksumOffset) (data.drop kFrameHeaderBytes) then
      .error .checksumMismatch
    else
      let frame : DataFrame :=
        { tag := MessageTag.read (data.drop 3), senderSequence := readUint64 (data.drop 11),
          fragmentIndex := data.getD 19 0, fragmentCount := data.getD 20 0,
          totalLength := readUint16 (data.drop 21), payload := data.drop kFrameHeaderBytes }
      let validation := validateFrameFields frame.senderSequence frame.fragmentIndex
        frame.fragmentCount frame.totalLength payloadSize mtu
      if validation ≠ .none then .error validation else .ok frame

/-! ### Reading back what was written -/

@[simp] theorem length_writeUint16 (value : UInt16) : (writeUint16 value).length = 2 := by
  simp [writeUint16]

@[simp] theorem length_writeUint32 (value : UInt32) : (writeUint32 value).length = 4 := by
  simp [writeUint32]

@[simp] theorem length_writeUint64 (value : UInt64) : (writeUint64 value).length = 8 := by
  simp [writeUint64]

theorem readUint16_append (value : UInt16) (rest : Bytes) :
    readUint16 (writeUint16 value ++ rest) = value := by
  rw [readUint16, writeUint16, BigEndian.ofBytes_take_append (by simpa using value.toNat_lt),
    UInt16.ofNat_toNat]

theorem readUint32_append (value : UInt32) (rest : Bytes) :
    readUint32 (writeUint32 value ++ rest) = value := by
  rw [readUint32, writeUint32, BigEndian.ofBytes_take_append (by simpa using value.toNat_lt),
    UInt32.ofNat_toNat]

theorem writeUint16_readUint16 {data : Bytes} (h : 2 ≤ data.length) :
    writeUint16 (readUint16 data) = data.take 2 := by
  rw [writeUint16, readUint16, UInt16.toNat_ofNat_of_lt' (BigEndian.ofBytes_take_lt 2 data),
    BigEndian.toBytes_ofBytes_take h]

theorem writeUint32_readUint32 {data : Bytes} (h : 4 ≤ data.length) :
    writeUint32 (readUint32 data) = data.take 4 := by
  rw [writeUint32, readUint32, UInt32.toNat_ofNat_of_lt' (BigEndian.ofBytes_take_lt 4 data),
    BigEndian.toBytes_ofBytes_take h]

theorem MessageTag.read_append (tag : MessageTag) (rest : Bytes) :
    MessageTag.read (tag.bytes ++ rest) = tag := by
  rcases tag with ⟨bytes, hlen⟩
  rw [MessageTag.read, MessageTag.mk.injEq]
  refine List.ext_getElem (by simp [hlen]) fun index h₁ h₂ => ?_
  simp only [List.getElem_map, List.getElem_range]
  rw [List.getD_eq_getElem?_getD, List.getElem?_append_left h₂, List.getElem?_eq_getElem h₂,
    Option.getD_some]

theorem MessageTag.bytes_read {data : Bytes} (h : 8 ≤ data.length) :
    (MessageTag.read data).bytes = data.take 8 := by
  refine List.ext_getElem (by simp [MessageTag.read]; omega) fun index h₁ h₂ => ?_
  have hi : index < data.length := by
    simp only [List.length_take] at h₂
    omega
  simp [MessageTag.read, List.getElem_take, hi]

theorem length_frameHead (frame : DataFrame) : (frameHead frame).length = 24 := by
  simp [frameHead, frame.tag.length_bytes]

theorem length_frameBytes (frame : DataFrame) :
    (frameBytes frame).length = kFrameHeaderBytes + frame.payload.length := by
  simp only [frameBytes, List.length_append, length_frameHead, length_writeUint32,
    kFrameHeaderBytes]
  omega

section Layout

variable (frame : DataFrame)

theorem take_24_frameBytes : (frameBytes frame).take 24 = frameHead frame := by
  rw [frameBytes, List.take_left' (length_frameHead frame)]

theorem drop_24_frameBytes : (frameBytes frame).drop 24 =
    writeUint32 (crc32IsoHdlc (frameHead frame) frame.payload) ++ frame.payload := by
  rw [frameBytes, List.drop_left' (length_frameHead frame)]

theorem drop_28_frameBytes : (frameBytes frame).drop 28 = frame.payload := by
  rw [show (28 : ℕ) = 24 + 4 from rfl, ← List.drop_drop, drop_24_frameBytes,
    List.drop_left' (length_writeUint32 _)]

theorem drop_3_frameBytes : (frameBytes frame).drop 3 = frame.tag.bytes ++
    (writeUint64 frame.senderSequence ++ (frame.fragmentIndex :: frame.fragmentCount ::
      (writeUint16 frame.totalLength ++ (UInt8.ofNat frame.payload.length ::
        (frameBytes frame).drop 24)))) := by
  rw [drop_24_frameBytes, frameBytes, frameHead]
  simp

theorem drop_11_frameBytes : (frameBytes frame).drop 11 = writeUint64 frame.senderSequence ++
    (frame.fragmentIndex :: frame.fragmentCount :: (writeUint16 frame.totalLength ++
      (UInt8.ofNat frame.payload.length :: (frameBytes frame).drop 24))) := by
  rw [show (11 : ℕ) = 3 + 8 from rfl, ← List.drop_drop, drop_3_frameBytes,
    List.drop_left' frame.tag.length_bytes]

theorem drop_19_frameBytes : (frameBytes frame).drop 19 =
    frame.fragmentIndex :: frame.fragmentCount :: (writeUint16 frame.totalLength ++
      (UInt8.ofNat frame.payload.length :: (frameBytes frame).drop 24)) := by
  rw [show (19 : ℕ) = 11 + 8 from rfl, ← List.drop_drop, drop_11_frameBytes,
    List.drop_left' (length_writeUint64 _)]

theorem drop_21_frameBytes : (frameBytes frame).drop 21 = writeUint16 frame.totalLength ++
    (UInt8.ofNat frame.payload.length :: (frameBytes frame).drop 24) := by
  rw [show (21 : ℕ) = 19 + 2 from rfl, ← List.drop_drop, drop_19_frameBytes]
  rfl

theorem drop_23_frameBytes : (frameBytes frame).drop 23 =
    UInt8.ofNat frame.payload.length :: (frameBytes frame).drop 24 := by
  rw [show (23 : ℕ) = 21 + 2 from rfl, ← List.drop_drop, drop_21_frameBytes,
    List.drop_left' (length_writeUint16 _)]

end Layout

theorem getD_of_drop_eq_cons {data rest : Bytes} {index : ℕ} {byte : UInt8}
    (h : data.drop index = byte :: rest) : data.getD index 0 = byte := by
  have hget : (data.drop index)[0]? = some byte := by
    rw [h]
    rfl
  rw [List.getElem?_drop, Nat.add_zero] at hget
  rw [List.getD_eq_getElem?_getD, hget, Option.getD_some]

/-! ### The codec -/

/-- What a frame must satisfy to be sent at the given MTU. -/
def FrameValid (mtu : ℕ) (frame : DataFrame) : Prop :=
  isSupportedMtu mtu ∧ validateFrameFields frame.senderSequence frame.fragmentIndex
    frame.fragmentCount frame.totalLength frame.payload.length mtu = .none

theorem encodeFrame_eq_ok {frame : DataFrame} {mtu : ℕ} {bytes : Bytes} :
    encodeFrame frame mtu = .ok bytes ↔ FrameValid mtu frame ∧ frameBytes frame = bytes := by
  simp only [encodeFrame, Guard.ite_error_eq_ok, FrameValid, not_not, ne_eq, Except.ok.injEq,
    and_assoc]

/-- The arithmetic that `validateFrameFields` accepts. -/
theorem validateFrameFields_eq_none {senderSequence : UInt64} {fragmentIndex fragmentCount : UInt8}
    {totalLength : UInt16} {payloadSize mtu : ℕ} :
    validateFrameFields senderSequence fragmentIndex fragmentCount totalLength payloadSize mtu =
        .none ↔
      senderSequence ≠ 0 ∧
      (kMinimumEncodedPostBytes ≤ totalLength.toNat ∧
        totalLength.toNat ≤ kMaximumEncodedPostBytes) ∧
      (0 < fragmentCount.toNat ∧ fragmentCount.toNat ≤ kMaximumFragments ∧
        fragmentIndex.toNat < fragmentCount.toNat ∧ 0 < payloadSize ∧
        payloadSize ≤ kMaximumFramePayloadBytes) ∧
      fragmentCount.toNat =
        (totalLength.toNat + framePayloadCapacity mtu - 1) / framePayloadCapacity mtu ∧
      payloadSize = (if fragmentIndex.toNat + 1 < fragmentCount.toNat then
        framePayloadCapacity mtu
        else totalLength.toNat - framePayloadCapacity mtu * (fragmentCount.toNat - 1)) := by
  have hzero : fragmentCount = 0 ↔ fragmentCount.toNat = 0 := by
    rw [← UInt8.toNat_inj, UInt8.toNat_zero]
  have hindex : fragmentIndex ≥ fragmentCount ↔ fragmentCount.toNat ≤ fragmentIndex.toNat :=
    UInt8.le_iff_toNat_le
  simp only [validateFrameFields, hzero, hindex]
  by_cases h₁ : senderSequence = 0
  · simp [h₁]
  rw [if_neg h₁]
  by_cases h₂ : totalLength.toNat < kMinimumEncodedPostBytes ∨
      totalLength.toNat > kMaximumEncodedPostBytes
  · rw [if_pos h₂]
    simp only [reduceCtorEq, false_iff]
    omega
  rw [if_neg h₂]
  by_cases h₃ : fragmentCount.toNat = 0 ∨ fragmentCount.toNat > kMaximumFragments ∨
      fragmentCount.toNat ≤ fragmentIndex.toNat ∨ payloadSize = 0 ∨
      payloadSize > kMaximumFramePayloadBytes
  · rw [if_pos h₃]
    simp only [reduceCtorEq, false_iff]
    omega
  rw [if_neg h₃]
  generalize (totalLength.toNat + framePayloadCapacity mtu - 1) / framePayloadCapacity mtu = count
  generalize (if fragmentIndex.toNat + 1 < fragmentCount.toNat then framePayloadCapacity mtu
        else totalLength.toNat - framePayloadCapacity mtu * (fragmentCount.toNat - 1)) = size
  by_cases h₄ : count = 0 ∨ count > kMaximumFragments ∨ fragmentCount.toNat ≠ count
  · rw [if_pos h₄]
    simp only [reduceCtorEq, false_iff]
    omega
  rw [if_neg h₄]
  by_cases h₅ : payloadSize = size
  · simp only [h₅, ne_eq, not_true_eq_false, if_false, true_iff]
    exact ⟨h₁, by omega, by omega, by omega, trivial⟩
  · simp only [h₅, ne_eq, not_false_eq_true, if_true, reduceCtorEq, and_false]

/-- What a fragment must look like, for a given payload capacity. -/
structure FragmentShape (capacity : ℕ) (frame : DataFrame) : Prop where
  senderSequence : frame.senderSequence ≠ 0
  totalLength : 46 ≤ frame.totalLength.toNat ∧ frame.totalLength.toNat ≤ 316
  fragmentCount : frame.fragmentCount.toNat = (frame.totalLength.toNat + capacity - 1) / capacity
  fragmentCount_le : frame.fragmentCount.toNat ≤ kMaximumFragments
  fragmentIndex : frame.fragmentIndex.toNat < frame.fragmentCount.toNat
  payload : frame.payload.length =
    if frame.fragmentIndex.toNat + 1 < frame.fragmentCount.toNat then capacity
    else frame.totalLength.toNat - capacity * (frame.fragmentCount.toNat - 1)

/-- No fragment is empty, and none is larger than the capacity. -/
theorem FragmentShape.payload_bounds {capacity : ℕ} {frame : DataFrame}
    (h : FragmentShape capacity frame) (hcapacity : 0 < capacity) :
    0 < frame.payload.length ∧ frame.payload.length ≤ capacity := by
  obtain ⟨hlow, -⟩ := h.totalLength
  have hpayload := h.payload
  split at hpayload
  · omega
  · have hdiv := Nat.div_add_mod (frame.totalLength.toNat + capacity - 1) capacity
    have hmod := Nat.mod_lt (frame.totalLength.toNat + capacity - 1) hcapacity
    have hindex := h.fragmentIndex
    obtain ⟨count, hcount⟩ : ∃ count, frame.fragmentCount.toNat = count + 1 :=
      ⟨frame.fragmentCount.toNat - 1, by omega⟩
    rw [← h.fragmentCount, hcount, Nat.mul_succ] at hdiv
    rw [hcount, Nat.add_sub_cancel] at hpayload
    omega

theorem frameValid_iff_shape {mtu : ℕ} (hmtu : isSupportedMtu mtu) {frame : DataFrame} :
    FrameValid mtu frame ↔ FragmentShape (framePayloadCapacity mtu) frame := by
  constructor
  · rintro ⟨-, hfields⟩
    obtain ⟨hsequence, htotal, ⟨-, hcount, hindex, -, -⟩, hdiv, hsize⟩ :=
      validateFrameFields_eq_none.mp hfields
    exact ⟨hsequence, htotal, hdiv, hcount, hindex, hsize⟩
  · intro h
    have hcapacity : 0 < framePayloadCapacity mtu ∧
        framePayloadCapacity mtu ≤ kMaximumFramePayloadBytes := by
      rw [framePayloadCapacity, if_pos hmtu]
      simp only [isSupportedMtu, kMinimumTransportMtu, kMaximumTransportMtu, kFrameHeaderBytes,
        kMaximumFramePayloadBytes] at *
      omega
    obtain ⟨hpos, hle⟩ := h.payload_bounds hcapacity.1
    have hindex := h.fragmentIndex
    refine ⟨hmtu, validateFrameFields_eq_none.mpr ⟨h.senderSequence, h.totalLength,
      ⟨by omega, h.fragmentCount_le, hindex, hpos, le_trans hle hcapacity.2⟩, h.fragmentCount,
      h.payload⟩⟩

theorem FrameValid.payload_length {frame : DataFrame} {mtu : ℕ} (h : FrameValid mtu frame) :
    0 < frame.payload.length ∧ frame.payload.length ≤ mtu - kFrameHeaderBytes := by
  have hcapacity : framePayloadCapacity mtu = mtu - kFrameHeaderBytes := if_pos h.1
  have hshape := (frameValid_iff_shape h.1).mp h
  rw [hcapacity] at hshape
  refine hshape.payload_bounds ?_
  have hmtu := h.1
  simp only [isSupportedMtu, kMinimumTransportMtu, kFrameHeaderBytes] at *
  omega

theorem decodeFrame_frameBytes {frame : DataFrame} {mtu : ℕ} (h : FrameValid mtu frame) :
    decodeFrame (frameBytes frame) mtu = .ok frame := by
  obtain ⟨hmtu, hfields⟩ := id h
  obtain ⟨hpos, hle⟩ := h.payload_length
  have hsize := length_frameBytes frame
  have hbounds := hmtu
  simp only [isSupportedMtu, kMinimumTransportMtu, kMaximumTransportMtu] at hbounds
  simp only [kFrameHeaderBytes] at hle hsize
  have hpayload : ((frameBytes frame).getD 23 0).toNat = frame.payload.length := by
    rw [getD_of_drop_eq_cons (drop_23_frameBytes frame)]
    simp
    omega
  have hchecksum : readUint32 ((frameBytes frame).drop 24) =
      crc32IsoHdlc (frameHead frame) frame.payload := by
    rw [drop_24_frameBytes, readUint32_append]
  have htag : MessageTag.read ((frameBytes frame).drop 3) = frame.tag := by
    rw [drop_3_frameBytes, MessageTag.read_append]
  have hsequence : readUint64 ((frameBytes frame).drop 11) = frame.senderSequence := by
    rw [drop_11_frameBytes]
    exact readUint64_append _ _
  have hindex : (frameBytes frame).getD 19 0 = frame.fragmentIndex :=
    getD_of_drop_eq_cons (drop_19_frameBytes frame)
  have hcount : (frameBytes frame).getD 20 0 = frame.fragmentCount := by
    have hdrop : (frameBytes frame).drop 20 =
      frame.fragmentCount :: (writeUint16 frame.totalLength ++
        (UInt8.ofNat frame.payload.length :: (frameBytes frame).drop 24)) := by
      rw [show (20 : ℕ) = 19 + 1 from rfl, ← List.drop_drop, drop_19_frameBytes]
      rfl
    exact getD_of_drop_eq_cons hdrop
  have htotal : readUint16 ((frameBytes frame).drop 21) = frame.totalLength := by
    rw [drop_21_frameBytes, readUint16_append]
  have hmagic : (frameBytes frame).getD 0 0 = kFrameMagicFirst := rfl
  have hmagic' : (frameBytes frame).getD 1 0 = kFrameMagicSecond := rfl
  have hcontrol : (frameBytes frame).getD 2 0 = (kProtocolVersion <<< 4) ||| kDataFrameType := rfl
  rw [decodeFrame, if_neg (not_not.mpr hmtu)]
  simp only [kFrameHeaderBytes, kMaximumTransportMtu, kChecksumOffset, hsize, hpayload, hchecksum,
    htag, hsequence, hindex, hcount, htotal, hmagic, hmagic', hcontrol, drop_28_frameBytes,
    take_24_frameBytes, hfields]
  rw [if_neg (by omega), if_neg (by omega), if_neg (by decide), if_neg (by decide),
    if_neg (by decide), if_neg (by omega), if_neg (by simp), if_neg (by simp)]

theorem control_eq (control : UInt8) (hversion : control >>> 4 = kProtocolVersion)
    (htype : control &&& 0x0f = kDataFrameType) :
    (kProtocolVersion <<< 4) ||| kDataFrameType = control := by
  have hall : ∀ n : Fin 256, UInt8.ofNat n >>> 4 = kProtocolVersion →
      UInt8.ofNat n &&& 0x0f = kDataFrameType →
      (kProtocolVersion <<< 4) ||| kDataFrameType = UInt8.ofNat n := by decide +kernel
  have hcontrol : control = UInt8.ofNat (⟨control.toNat, control.toNat_lt⟩ : Fin 256) := by simp
  rw [hcontrol] at hversion htype ⊢
  exact hall _ hversion htype

/-- Canonicality: what decodes at an MTU is valid there, and is the spelling of
the frame it decodes to. -/
theorem frameBytes_of_decodeFrame {data : Bytes} {mtu : ℕ} {frame : DataFrame}
    (h : decodeFrame data mtu = .ok frame) : FrameValid mtu frame ∧ frameBytes frame = data := by
  simp only [decodeFrame, Guard.ite_error_eq_ok, not_not, ne_eq, not_or, Except.ok.injEq] at h
  obtain ⟨hmtu, hshort, -, ⟨hmagic, hmagic'⟩, hversion, htype, ⟨-, hlength⟩, hchecksum, hfields,
    rfl⟩ := h
  simp only [kFrameHeaderBytes] at hshort hlength
  have hpayload : (data.drop kFrameHeaderBytes).length = (data.getD 23 0).toNat := by
    rw [List.length_drop, hlength, kFrameHeaderBytes]
    omega
  refine ⟨⟨hmtu, by rw [hpayload]; exact hfields⟩, ?_⟩
  have hhead : frameHead
      { tag := MessageTag.read (data.drop 3), senderSequence := readUint64 (data.drop 11),
        fragmentIndex := data.getD 19 0, fragmentCount := data.getD 20 0,
        totalLength := readUint16 (data.drop 21), payload := data.drop kFrameHeaderBytes } =
      data.take 24 := by
    have hall : frameHead
        { tag := MessageTag.read (data.drop 3), senderSequence := readUint64 (data.drop 11),
          fragmentIndex := data.getD 19 0, fragmentCount := data.getD 20 0,
          totalLength := readUint16 (data.drop 21), payload := data.drop kFrameHeaderBytes } ++
        data.drop 24 = data.take 24 ++ data.drop 24 := by
      simp only [frameHead, List.cons_append, List.append_assoc, List.nil_append, hpayload,
        UInt8.ofNat_toNat]
      rw [← drop_eq_getD_cons (by omega),
        writeUint16_readUint16 (by rw [List.length_drop]; omega), take_drop_append,
        ← drop_eq_getD_cons (by omega), ← drop_eq_getD_cons (by omega),
        show writeUint64 (readUint64 (data.drop 11)) = (data.drop 11).take 8 from
          appendUint64_readUint64 (by rw [List.length_drop]; omega), take_drop_append,
        MessageTag.bytes_read (by rw [List.length_drop]; omega), take_drop_append,
        control_eq _ hversion htype, ← hmagic, ← hmagic', ← drop_eq_getD_cons (by omega),
        ← drop_eq_getD_cons (by omega), ← drop_eq_getD_cons (by omega), List.drop_zero,
        List.take_append_drop]
    exact List.append_cancel_right hall
  rw [frameBytes, hhead]
  simp only [kChecksumOffset] at hchecksum
  rw [← hchecksum, writeUint32_readUint32 (by rw [List.length_drop]; omega)]
  simp only [kFrameHeaderBytes]
  rw [take_drop_append, List.take_append_drop]

theorem decodeFrame_encodeFrame {frame : DataFrame} {mtu : ℕ} {bytes : Bytes}
    (h : encodeFrame frame mtu = .ok bytes) : decodeFrame bytes mtu = .ok frame := by
  obtain ⟨hvalid, rfl⟩ := encodeFrame_eq_ok.mp h
  exact decodeFrame_frameBytes hvalid

theorem encodeFrame_of_decodeFrame {data : Bytes} {mtu : ℕ} {frame : DataFrame}
    (h : decodeFrame data mtu = .ok frame) : encodeFrame frame mtu = .ok data :=
  encodeFrame_eq_ok.mpr (frameBytes_of_decodeFrame h)

/-- Two frames with the same bytes on the wire are the same frame. -/
theorem frameBytes_inj {left right : DataFrame} {mtu : ℕ} (hleft : FrameValid mtu left)
    (hright : FrameValid mtu right) (h : frameBytes left = frameBytes right) : left = right := by
  have hdecode := decodeFrame_frameBytes hleft
  rw [h, decodeFrame_frameBytes hright, Except.ok.injEq] at hdecode
  exact hdecode.symm

/-- **The frame codec at any supported MTU.**  Exactly the frames of the right
shape have an encoding; it fits into a datagram and is read back; and whatever
can be read is the encoding of what it is read as. -/
theorem frameCodec_bijective (mtu : ℕ) (hmtu : isSupportedMtu mtu) :
    (∀ frame, (∃ bytes, encodeFrame frame mtu = .ok bytes) ↔
      FragmentShape (framePayloadCapacity mtu) frame) ∧
    (∀ frame bytes, encodeFrame frame mtu = .ok bytes →
      bytes.length ≤ mtu ∧ decodeFrame bytes mtu = .ok frame) ∧
    (∀ data frame, decodeFrame data mtu = .ok frame → encodeFrame frame mtu = .ok data) := by
  refine ⟨?_, ?_, fun data frame => encodeFrame_of_decodeFrame⟩
  · intro frame
    rw [← frameValid_iff_shape hmtu]
    constructor
    · rintro ⟨bytes, hbytes⟩
      exact (encodeFrame_eq_ok.mp hbytes).1
    · intro hvalid
      exact ⟨frameBytes frame, encodeFrame_eq_ok.mpr ⟨hvalid, rfl⟩⟩
  · intro frame bytes hbytes
    refine ⟨?_, decodeFrame_encodeFrame hbytes⟩
    obtain ⟨hvalid, rfl⟩ := encodeFrame_eq_ok.mp hbytes
    obtain ⟨-, hpayload⟩ := hvalid.payload_length
    simp only [isSupportedMtu, kMinimumTransportMtu] at hmtu
    rw [length_frameBytes]
    simp only [kFrameHeaderBytes] at *
    omega

theorem frameCodec_bijective_fortyEight :
    isSupportedMtu 48 ∧ ∀ data frame, decodeFrame data 48 = .ok frame →
      encodeFrame frame 48 = .ok data :=
  ⟨by decide, (frameCodec_bijective 48 (by decide)).2.2⟩

end Lora
