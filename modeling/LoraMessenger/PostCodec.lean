/-
The logical post codec.

A post is written as a flag byte, two UUIDs, the sender sequence, three length
bytes, and then the variable part: user id, body, mentions and, switched by
the flags, a reply parent and a sender time in two's complement.

* `encodePost_eq` — every post encodes, to its layout `postBytes`, in
  46 through 316 bytes;
* `decodePost_postBytes` — decoding an encoding gives the post back;
* `postBytes_of_decodePost` — whatever decodes is the encoding of what it decodes
  to, so the format has no second spelling of any post.
-/
import LoraMessenger.BigEndian
import LoraMessenger.Post

namespace Lora

def kMinimumEncodedPostBytes : ℕ := 46
def kMaximumEncodedPostBytes : ℕ := 316

def kReplyPresent : UInt8 := 0x01
def kSenderTimePresent : UInt8 := 0x02
def kKnownFlags : UInt8 := kReplyPresent ||| kSenderTimePresent
def kFixedPostBytes : ℕ := 44

inductive PostCodecError where
  | none
  | nullData
  | sizeOutOfRange
  | reservedFlags
  | lengthMismatch
  | invalidPost
deriving DecidableEq

/-! ### Integers on the wire -/

/-- Eight bytes, most significant first. -/
def appendUint64 (value : UInt64) : Bytes := BigEndian.toBytes 8 value.toNat

/-- The accumulator of the source has 64 bits and eight bytes fill it exactly. -/
def readUint64 (data : Bytes) : UInt64 := UInt64.ofNat (BigEndian.ofBytes (data.take 8))

def encodeSigned (value : Int64) : UInt64 :=
  if 0 ≤ value then value.toUInt64 else 0xffffffffffffffff - (-(value + 1)).toUInt64

def decodeSigned (value : UInt64) : Int64 :=
  if value ≤ 0x7fffffffffffffff then value.toInt64
  else -1 - (0xffffffffffffffff - value).toInt64

@[simp] theorem length_appendUint64 (value : UInt64) : (appendUint64 value).length = 8 := by
  simp [appendUint64]

theorem readUint64_append (value : UInt64) (rest : Bytes) :
    readUint64 (appendUint64 value ++ rest) = value := by
  rw [readUint64, appendUint64, BigEndian.ofBytes_take_append (by simpa using value.toNat_lt),
    UInt64.ofNat_toNat]

theorem appendUint64_readUint64 {data : Bytes} (h : 8 ≤ data.length) :
    appendUint64 (readUint64 data) = data.take 8 := by
  rw [appendUint64, readUint64, UInt64.toNat_ofNat_of_lt' (BigEndian.ofBytes_take_lt 8 data),
    BigEndian.toBytes_ofBytes_take h]

/-- The negative branch of the source is the bit pattern itself. -/
theorem encodeSigned_eq (value : Int64) : encodeSigned value = value.toUInt64 := by
  unfold encodeSigned
  split
  · rfl
  · apply UInt64.toBitVec_inj.mp
    have h : (0xffffffffffffffff - (-(value + 1)).toUInt64 : UInt64).toBitVec
        = 0xffffffffffffffff#64 - -(value.toUInt64.toBitVec + 1#64) := rfl
    rw [h]
    generalize value.toUInt64.toBitVec = bits
    bv_omega

theorem decodeSigned_eq (value : UInt64) : decodeSigned value = value.toInt64 := by
  unfold decodeSigned
  split
  · rfl
  · apply Int64.toBitVec_inj.mp
    have h : (-1 - (0xffffffffffffffff - value).toInt64 : Int64).toBitVec
        = 0xffffffffffffffff#64 - (0xffffffffffffffff#64 - value.toBitVec) := rfl
    rw [h]
    change _ = value.toBitVec
    generalize value.toBitVec = bits
    bv_omega

theorem decodeSigned_encodeSigned (value : Int64) : decodeSigned (encodeSigned value) = value := by
  rw [encodeSigned_eq, decodeSigned_eq]
  rfl

theorem encodeSigned_decodeSigned (value : UInt64) : encodeSigned (decodeSigned value) = value := by
  rw [encodeSigned_eq, decodeSigned_eq]
  rfl

/-! ### Encoding -/

/-- The size `encode_post` reserves before it writes anything. -/
def encodedSize (post : PostPayload) : ℕ :=
  kFixedPostBytes + post.senderUserId.value.length + post.body.value.length +
    post.mentions.length * 16 + (if post.replyTo.isSome then 16 else 0) +
    (if post.senderTime.isSome then 8 else 0)

def postFlags (post : PostPayload) : UInt8 :=
  (if post.replyTo.isSome then kReplyPresent else 0) |||
    (if post.senderTime.isSome then kSenderTimePresent else 0)

/-- The reply parent and the sender time, each only when present. -/
def replyBytes (post : PostPayload) : Bytes :=
  match post.replyTo with
  | some reply => reply.uuid.bytes
  | none => []

def timeBytes (post : PostPayload) : Bytes :=
  match post.senderTime with
  | some time => appendUint64 (encodeSigned time)
  | none => []

/-- What follows the fixed 44 bytes. -/
def variableBytes (post : PostPayload) : Bytes :=
  post.senderUserId.value ++ (post.body.value ++
    (post.mentions.flatMap (·.uuid.bytes) ++ (replyBytes post ++ timeBytes post)))

/-- The bytes that `encode_post` appends, in order. -/
def postBytes (post : PostPayload) : Bytes :=
  postFlags post :: (post.messageId.uuid.bytes ++ (post.senderId.uuid.bytes ++
    (appendUint64 post.senderSequence ++
      (UInt8.ofNat post.senderUserId.value.length :: UInt8.ofNat post.body.value.length ::
        UInt8.ofNat post.mentions.length :: variableBytes post))))

def encodePost (post : PostPayload) : Except PostCodecError Bytes :=
  if post.senderUserId.value.length > kMaxUserIdBytes ∨
      post.body.value.length > kMaxPostBodyBytes ∨ post.mentions.length > kMaxMentions ∨
      encodedSize post < kMinimumEncodedPostBytes ∨
      encodedSize post > kMaximumEncodedPostBytes then
    .error .sizeOutOfRange
  else
    let output := postBytes post
    if output.length ≠ encodedSize post then .error .lengthMismatch else .ok output

theorem length_flatMap_uuid (mentions : List InstallId) :
    (mentions.flatMap (·.uuid.bytes)).length = mentions.length * 16 := by
  induction mentions with
  | nil => rfl
  | cons mention mentions ih =>
    rw [List.flatMap_cons, List.length_append, ih, mention.uuid.length_bytes, List.length_cons]
    omega

@[simp] theorem length_replyBytes (post : PostPayload) :
    (replyBytes post).length = if post.replyTo.isSome then 16 else 0 := by
  rw [replyBytes]
  cases post.replyTo with
  | none => rfl
  | some reply => simpa using reply.uuid.length_bytes

@[simp] theorem length_timeBytes (post : PostPayload) :
    (timeBytes post).length = if post.senderTime.isSome then 8 else 0 := by
  rw [timeBytes]
  cases post.senderTime with
  | none => rfl
  | some time => simp

theorem length_postBytes (post : PostPayload) : (postBytes post).length = encodedSize post := by
  simp only [postBytes, variableBytes, encodedSize, kFixedPostBytes, List.length_cons,
    List.length_append, length_flatMap_uuid, length_replyBytes, length_timeBytes,
    length_appendUint64, post.messageId.uuid.length_bytes, post.senderId.uuid.length_bytes]
  omega

theorem userId_bounds (post : PostPayload) :
    0 < post.senderUserId.value.length ∧ post.senderUserId.value.length ≤ 24 :=
  ⟨length_pos_of_validateText post.senderUserId.valid,
    length_le_of_validateText post.senderUserId.valid⟩

theorem body_bounds (post : PostPayload) :
    0 < post.body.value.length ∧ post.body.value.length ≤ 160 :=
  ⟨length_pos_of_validateText post.body.valid, length_le_of_validateText post.body.valid⟩

theorem encodedSize_bounds (post : PostPayload) :
    kMinimumEncodedPostBytes ≤ encodedSize post ∧
      encodedSize post ≤ kMaximumEncodedPostBytes := by
  have huser := userId_bounds post
  have hbody := body_bounds post
  have hmentions := post.mentions_length
  simp only [encodedSize, kFixedPostBytes, kMinimumEncodedPostBytes, kMaximumEncodedPostBytes,
    kMaxMentions] at *
  split <;> split <;> omega

/-- No valid post is refused. -/
theorem encodePost_eq (post : PostPayload) : encodePost post = .ok (postBytes post) := by
  have huser := userId_bounds post
  have hbody := body_bounds post
  have hmentions := post.mentions_length
  have hsize := encodedSize_bounds post
  rw [encodePost, if_neg]
  · simp only [length_postBytes, ne_eq, not_true_eq_false, if_false]
  · simp only [kMaxUserIdBytes, kMaxPostBodyBytes]
    omega

/-! ### Decoding -/

/-- The mention loop: `count` UUIDs, one after the other. -/
def readUuids : ℕ → Bytes → List Uuid
  | 0, _ => []
  | count + 1, data => Uuid.read data :: readUuids count (data.drop 16)

/-- The fields `decode_post` reads once the sizes agree, and the offset at
which it stops. -/
def postInput (flags : UInt8) (userIdSize bodySize mentionCount : ℕ) (data : Bytes) :
    PostPayloadInput × ℕ :=
  let offset := kFixedPostBytes
  let senderUserId := (data.drop offset).take userIdSize
  let offset := offset + userIdSize
  let body := (data.drop offset).take bodySize
  let offset := offset + bodySize
  let mentions := readUuids mentionCount (data.drop offset)
  let offset := offset + mentionCount * 16
  let replyTo := if flags &&& kReplyPresent ≠ 0 then some (Uuid.read (data.drop offset)) else none
  let offset := offset + if flags &&& kReplyPresent ≠ 0 then 16 else 0
  let senderTime := if flags &&& kSenderTimePresent ≠ 0 then
    some (decodeSigned (readUint64 (data.drop offset))) else none
  let offset := offset + if flags &&& kSenderTimePresent ≠ 0 then 8 else 0
  ({ messageId := Uuid.read (data.drop 1), senderId := Uuid.read (data.drop 17),
     senderSequence := readUint64 (data.drop 33), senderUserId, body, mentions, replyTo,
     senderTime }, offset)

/-- A byte string has no null pointer, so `nullData` is not among the answers:
an empty vector fails the size check instead. -/
def decodePost (data : Bytes) : Except PostCodecError PostPayload :=
  if data.length < kMinimumEncodedPostBytes ∨ data.length > kMaximumEncodedPostBytes then
    .error .sizeOutOfRange
  else
    let flags := data.getD 0 0
    if flags &&& ~~~kKnownFlags ≠ 0 then .error .reservedFlags
    else
      let userIdSize := (data.getD 41 0).toNat
      let bodySize := (data.getD 42 0).toNat
      let mentionCount := (data.getD 43 0).toNat
      if userIdSize > kMaxUserIdBytes ∨ bodySize > kMaxPostBodyBytes ∨
          mentionCount > kMaxMentions then
        .error .lengthMismatch
      else
        let expectedSize := kFixedPostBytes + userIdSize + bodySize + mentionCount * 16 +
          (if flags &&& kReplyPresent ≠ 0 then 16 else 0) +
          (if flags &&& kSenderTimePresent ≠ 0 then 8 else 0)
        if expectedSize ≠ data.length then .error .lengthMismatch
        else
          let (input, offset) := postInput flags userIdSize bodySize mentionCount data
          if offset ≠ data.length then .error .lengthMismatch
          else
            match PostPayload.create input with
            | .error _ => .error .invalidPost
            | .ok post => .ok post

/-- The running offset ends at the size computed in advance. -/
theorem postInput_offset (flags : UInt8) (userIdSize bodySize mentionCount : ℕ) (data : Bytes) :
    (postInput flags userIdSize bodySize mentionCount data).2 =
      kFixedPostBytes + userIdSize + bodySize + mentionCount * 16 +
        (if flags &&& kReplyPresent ≠ 0 then 16 else 0) +
        (if flags &&& kSenderTimePresent ≠ 0 then 8 else 0) := rfl

/-! ### Decoding an encoding -/

theorem readUuids_flatMap (mentions : List InstallId) (rest : Bytes) :
    readUuids mentions.length (mentions.flatMap (·.uuid.bytes) ++ rest) =
      mentions.map InstallId.uuid := by
  induction mentions with
  | nil => rfl
  | cons mention mentions ih =>
    rw [List.length_cons, readUuids, List.flatMap_cons, List.append_assoc, Uuid.read_append,
      List.drop_left' mention.uuid.length_bytes, ih, List.map_cons]

section Layout

variable (post : PostPayload)

theorem drop_17_postBytes : (postBytes post).drop 17 =
    post.senderId.uuid.bytes ++ (appendUint64 post.senderSequence ++
      (UInt8.ofNat post.senderUserId.value.length :: UInt8.ofNat post.body.value.length ::
        UInt8.ofNat post.mentions.length :: variableBytes post)) := by
  rw [postBytes, List.drop_succ_cons, List.drop_left' post.messageId.uuid.length_bytes]

theorem drop_33_postBytes : (postBytes post).drop 33 = appendUint64 post.senderSequence ++
      (UInt8.ofNat post.senderUserId.value.length :: UInt8.ofNat post.body.value.length ::
        UInt8.ofNat post.mentions.length :: variableBytes post) := by
  rw [show (33 : ℕ) = 17 + 16 from rfl, ← List.drop_drop, drop_17_postBytes,
    List.drop_left' post.senderId.uuid.length_bytes]

theorem drop_41_postBytes : (postBytes post).drop 41 =
      UInt8.ofNat post.senderUserId.value.length :: UInt8.ofNat post.body.value.length ::
        UInt8.ofNat post.mentions.length :: variableBytes post := by
  rw [show (41 : ℕ) = 33 + 8 from rfl, ← List.drop_drop, drop_33_postBytes,
    List.drop_left' (length_appendUint64 _)]

theorem drop_44_postBytes : (postBytes post).drop 44 = variableBytes post := by
  rw [show (44 : ℕ) = 41 + 3 from rfl, ← List.drop_drop, drop_41_postBytes]
  rfl

/-- The length byte at offset `41 + k`. -/
theorem getD_41_postBytes (k : ℕ) : (postBytes post).getD (41 + k) 0 =
    (UInt8.ofNat post.senderUserId.value.length :: UInt8.ofNat post.body.value.length ::
        UInt8.ofNat post.mentions.length :: variableBytes post).getD k 0 := by
  rw [← drop_41_postBytes, List.getD_eq_getElem?_getD, List.getD_eq_getElem?_getD,
    List.getElem?_drop]

theorem postFlags_reserved : postFlags post &&& ~~~kKnownFlags = 0 := by
  unfold postFlags
  split <;> split <;> decide

theorem postFlags_reply : (postFlags post &&& kReplyPresent ≠ 0) ↔ post.replyTo.isSome := by
  unfold postFlags
  split <;> split <;> simp_all <;> decide

theorem postFlags_time :
    (postFlags post &&& kSenderTimePresent ≠ 0) ↔ post.senderTime.isSome := by
  unfold postFlags
  split <;> split <;> simp_all <;> decide

/-- The reader finds in the layout exactly the raw form of the post. -/
theorem postInput_postBytes :
    postInput (postFlags post) post.senderUserId.value.length post.body.value.length
      post.mentions.length (postBytes post) = (post.toInput, encodedSize post) := by
  have hvar := drop_44_postBytes post
  have huser : (postBytes post).drop (44 + post.senderUserId.value.length) =
      post.body.value ++ (post.mentions.flatMap (·.uuid.bytes) ++
        (replyBytes post ++ timeBytes post)) := by
    rw [← List.drop_drop, hvar, variableBytes, List.drop_left]
  have hbody : (postBytes post).drop
      (44 + post.senderUserId.value.length + post.body.value.length) =
      post.mentions.flatMap (·.uuid.bytes) ++ (replyBytes post ++ timeBytes post) := by
    rw [← List.drop_drop, huser, List.drop_left]
  have hmentions : (postBytes post).drop (44 + post.senderUserId.value.length +
      post.body.value.length + post.mentions.length * 16) = replyBytes post ++ timeBytes post := by
    rw [← List.drop_drop, hbody, List.drop_left' (length_flatMap_uuid _)]
  have hreply : (postBytes post).drop (44 + post.senderUserId.value.length +
      post.body.value.length + post.mentions.length * 16 +
      if post.replyTo.isSome then 16 else 0) = timeBytes post := by
    rw [← List.drop_drop, hmentions, List.drop_left' (length_replyBytes post)]
  have hid : Uuid.read ((postBytes post).drop 1) = post.messageId.uuid := Uuid.read_append _ _
  have hsender : Uuid.read ((postBytes post).drop 17) = post.senderId.uuid := by
    rw [drop_17_postBytes, Uuid.read_append]
  have hsequence : readUint64 ((postBytes post).drop 33) = post.senderSequence := by
    rw [drop_33_postBytes, readUint64_append]
  have hreplyTo : (if post.replyTo.isSome then
      some (Uuid.read (replyBytes post ++ timeBytes post)) else none) =
      post.replyTo.map MessageId.uuid := by
    rw [replyBytes]
    cases post.replyTo with
    | none => rfl
    | some reply => simp [Uuid.read_append]
  have htime : (if post.senderTime.isSome then
      some (decodeSigned (readUint64 (timeBytes post))) else none) = post.senderTime := by
    rw [timeBytes]
    cases post.senderTime with
    | none => rfl
    | some time =>
      have hread := readUint64_append (encodeSigned time) []
      rw [List.append_nil] at hread
      simp [hread, decodeSigned_encodeSigned]
  simp only [postInput, kFixedPostBytes, postFlags_reply, postFlags_time, hvar, huser, hbody,
    hmentions, hreply, hid, hsender, hsequence, hreplyTo, htime, List.take_left,
    readUuids_flatMap, variableBytes]
  rfl

end Layout

/-- Decoding gives back the post that was encoded. -/
theorem decodePost_postBytes (post : PostPayload) : decodePost (postBytes post) = .ok post := by
  have hsize := encodedSize_bounds post
  have huser := userId_bounds post
  have hbody := body_bounds post
  have hmentions := post.mentions_length
  have huserSize : ((postBytes post).getD 41 0).toNat = post.senderUserId.value.length := by
    rw [getD_41_postBytes post 0]
    simp
    omega
  have hbodySize : ((postBytes post).getD 42 0).toNat = post.body.value.length := by
    rw [getD_41_postBytes post 1]
    simp
    omega
  have hmentionCount : ((postBytes post).getD 43 0).toNat = post.mentions.length := by
    rw [getD_41_postBytes post 2]
    simp only [kMaxMentions] at hmentions
    simp
    omega
  have hflags : (postBytes post).getD 0 0 = postFlags post := rfl
  have hexpected := postInput_offset (postFlags post) post.senderUserId.value.length
    post.body.value.length post.mentions.length (postBytes post)
  rw [postInput_postBytes] at hexpected
  rw [decodePost, if_neg (by rw [length_postBytes]; omega)]
  simp only [hflags, huserSize, hbodySize, hmentionCount, ← hexpected, postInput_postBytes,
    length_postBytes, ne_eq, not_true_eq_false, if_false, PostPayload.create_toInput]
  rw [if_neg (by simpa using postFlags_reserved post),
    if_neg (by simp only [kMaxUserIdBytes, kMaxPostBodyBytes]; omega)]

/-! ### Every decodable byte string is an encoding -/

theorem flatMap_readUuids {count : ℕ} {data : Bytes} {mentions : List InstallId}
    (hlen : count * 16 ≤ data.length) (h : mentions.map InstallId.uuid = readUuids count data) :
    mentions.flatMap (·.uuid.bytes) = data.take (count * 16) := by
  induction count generalizing data mentions with
  | zero =>
    have hnil : mentions = [] := by simpa [readUuids] using h
    subst hnil
    simp
  | succ count ih =>
    rcases mentions with _ | ⟨mention, mentions⟩
    · simp [readUuids] at h
    · obtain ⟨hhead, htail⟩ := List.cons_eq_cons.mp h
      have hrest : count * 16 ≤ (data.drop 16).length := by
        rw [List.length_drop]
        omega
      rw [List.flatMap_cons, ih hrest htail, hhead, Uuid.bytes_read (by omega),
        show (count + 1) * 16 = 16 + count * 16 by omega, List.take_add]

theorem length_readUuids (count : ℕ) (data : Bytes) : (readUuids count data).length = count := by
  induction count generalizing data with
  | zero => rfl
  | succ count ih => rw [readUuids, List.length_cons, ih]

/-- A flag byte without reserved bits is determined by its two known bits. -/
theorem flags_eq (flags : UInt8) (h : flags &&& ~~~kKnownFlags = 0) :
    ((if flags &&& kReplyPresent ≠ 0 then kReplyPresent else 0) |||
      (if flags &&& kSenderTimePresent ≠ 0 then kSenderTimePresent else 0)) = flags := by
  have hall : ∀ n : Fin 256, (UInt8.ofNat n) &&& ~~~kKnownFlags = 0 →
      ((if UInt8.ofNat n &&& kReplyPresent ≠ 0 then kReplyPresent else 0) |||
        (if UInt8.ofNat n &&& kSenderTimePresent ≠ 0 then kSenderTimePresent else 0)) =
          UInt8.ofNat n := by decide +kernel
  have hflags : flags = UInt8.ofNat (⟨flags.toNat, flags.toNat_lt⟩ : Fin 256) := by simp
  rw [hflags] at h ⊢
  exact hall _ h

/-- The reader `postInput` with the sizes taken from the data itself. -/
def readPost (data : Bytes) : PostPayloadInput × ℕ :=
  postInput (data.getD 0 0) (data.getD 41 0).toNat (data.getD 42 0).toNat
    (data.getD 43 0).toNat data

/-- What a successful run of the decoder has checked. -/
theorem decodePost_eq_ok {data : Bytes} {post : PostPayload} (h : decodePost data = .ok post) :
    kMinimumEncodedPostBytes ≤ data.length ∧ data.getD 0 0 &&& ~~~kKnownFlags = 0 ∧
      (readPost data).2 = data.length ∧ post.toInput = (readPost data).1 := by
  simp only [decodePost, Guard.ite_error_eq_ok] at h
  obtain ⟨hsize, hflags, -, -, hoffset, h⟩ := h
  split at h
  · cases h
  rename_i found hcreate
  cases h
  exact ⟨by omega, not_not.mp hflags, not_not.mp hoffset, PostPayload.create_eq_ok.mp hcreate⟩

theorem take_drop_append (data : Bytes) (offset size : ℕ) :
    (data.drop offset).take size ++ data.drop (offset + size) = data.drop offset := by
  rw [← List.drop_drop, List.take_append_drop]

theorem drop_eq_getD_cons {data : Bytes} {index : ℕ} (h : index < data.length) :
    data.drop index = data.getD index 0 :: data.drop (index + 1) := by
  rw [List.drop_eq_getElem_cons h, List.getD_eq_getElem?_getD, List.getElem?_eq_getElem h,
    Option.getD_some]

/-- The variable part of the layout, when the sections were read one after the
other and the last one ends with the data. -/
theorem variableBytes_of_readPost {data : Bytes} {post : PostPayload}
    (hoffset : (readPost data).2 = data.length) (hpost : post.toInput = (readPost data).1) :
    post.senderUserId.value.length = (data.getD 41 0).toNat ∧
      post.body.value.length = (data.getD 42 0).toNat ∧
      post.mentions.length = (data.getD 43 0).toNat ∧ variableBytes post = data.drop 44 := by
  obtain ⟨-, -, -, huser, hbody, hmentions, hreply, htime⟩ := PostPayloadInput.mk.inj hpost
  rw [readPost, postInput_offset] at hoffset
  simp only [kFixedPostBytes] at hoffset huser hbody hmentions hreply htime
  generalize (data.getD 41 0).toNat = userIdSize at *
  generalize (data.getD 42 0).toNat = bodySize at *
  generalize (data.getD 43 0).toNat = mentionCount at *
  generalize data.getD 0 0 = flags at *
  have hmentionBytes : post.mentions.flatMap (·.uuid.bytes) =
      (data.drop (44 + userIdSize + bodySize)).take (mentionCount * 16) :=
    flatMap_readUuids (by rw [List.length_drop]; omega) hmentions
  have hreplyBytes : replyBytes post =
      (data.drop (44 + userIdSize + bodySize + mentionCount * 16)).take
        (if flags &&& kReplyPresent ≠ 0 then 16 else 0) := by
    rw [replyBytes]
    by_cases hflag : flags &&& kReplyPresent ≠ 0
    · rw [if_pos hflag] at hreply hoffset ⊢
      obtain ⟨reply, hsome, huuid⟩ := Option.map_eq_some_iff.mp hreply
      rw [hsome]
      simp only [huuid]
      exact Uuid.bytes_read (by rw [List.length_drop]; omega)
    · rw [if_neg hflag] at hreply ⊢
      rw [Option.map_eq_none_iff.mp hreply, List.take_zero]
  have htimeBytes : timeBytes post =
      data.drop (44 + userIdSize + bodySize + mentionCount * 16 +
        if flags &&& kReplyPresent ≠ 0 then 16 else 0) := by
    rw [timeBytes]
    by_cases hflag : flags &&& kSenderTimePresent ≠ 0
    · rw [if_pos hflag] at htime hoffset
      rw [htime]
      simp only [encodeSigned_decodeSigned]
      rw [appendUint64_readUint64 (by rw [List.length_drop]; omega), List.take_of_length_le]
      rw [List.length_drop]
      omega
    · rw [if_neg hflag] at htime hoffset
      rw [htime, List.drop_eq_nil_of_le (by omega)]
  refine ⟨?_, ?_, ?_, ?_⟩
  · rw [huser, List.length_take, List.length_drop]
    omega
  · rw [hbody, List.length_take, List.length_drop]
    omega
  · have hlen := congrArg List.length hmentions
    rwa [List.length_map, length_readUuids] at hlen
  · rw [variableBytes, hmentionBytes, hreplyBytes, htimeBytes, huser, hbody, take_drop_append,
      take_drop_append, take_drop_append, take_drop_append]

/-- Canonicality: the bytes that decode to `post` are the layout of `post`. -/
theorem postBytes_of_decodePost {data : Bytes} {post : PostPayload}
    (h : decodePost data = .ok post) : postBytes post = data := by
  obtain ⟨hmin, hreserved, hoffset, hpost⟩ := decodePost_eq_ok h
  obtain ⟨huserSize, hbodySize, hmentionCount, hvariable⟩ :=
    variableBytes_of_readPost hoffset hpost
  obtain ⟨hid, hsender, hsequence, -, -, -, hreply, htime⟩ := PostPayloadInput.mk.inj hpost
  simp only [kMinimumEncodedPostBytes] at hmin
  have hflags : postFlags post = data.getD 0 0 := by
    have hreplySome : post.replyTo.isSome = decide (data.getD 0 0 &&& kReplyPresent ≠ 0) := by
      have hsome := congrArg Option.isSome hreply
      simp only [Option.isSome_map] at hsome
      rw [hsome]
      split <;> simp_all
    have htimeSome :
        post.senderTime.isSome = decide (data.getD 0 0 &&& kSenderTimePresent ≠ 0) := by
      have hsome := congrArg Option.isSome htime
      rw [hsome]
      split <;> simp_all
    rw [postFlags, hreplySome, htimeSome]
    simp only [decide_eq_true_eq]
    exact flags_eq _ hreserved
  have hidBytes : post.messageId.uuid.bytes = (data.drop 1).take 16 := by
    rw [show post.messageId.uuid = Uuid.read (data.drop 1) from hid,
      Uuid.bytes_read (by rw [List.length_drop]; omega)]
  have hsenderBytes : post.senderId.uuid.bytes = (data.drop 17).take 16 := by
    rw [show post.senderId.uuid = Uuid.read (data.drop 17) from hsender,
      Uuid.bytes_read (by rw [List.length_drop]; omega)]
  have hsequenceBytes : appendUint64 post.senderSequence = (data.drop 33).take 8 := by
    rw [show post.senderSequence = readUint64 (data.drop 33) from hsequence,
      appendUint64_readUint64 (by rw [List.length_drop]; omega)]
  rw [postBytes, hflags, hidBytes, hsenderBytes, hsequenceBytes, huserSize, hbodySize,
    hmentionCount, hvariable]
  simp only [UInt8.ofNat_toNat]
  rw [← drop_eq_getD_cons (by omega), ← drop_eq_getD_cons (by omega),
    ← drop_eq_getD_cons (by omega), take_drop_append, take_drop_append, take_drop_append,
    ← drop_eq_getD_cons (by omega), List.drop_zero]

/-! ### The codec as a whole -/

/-- **The post codec is a bijection onto its image.**  Every valid post encodes
in 46 through 316 bytes and is decoded back; whatever decodes is the encoding
of the result; hence no two byte strings decode to one post and no two posts
share an encoding.  The posts are exactly the values the constructor accepts. -/
theorem postCodec_bijective :
    (∀ post : PostPayload, PostPayload.create post.toInput = .ok post) ∧
    (∀ post : PostPayload, ∃ bytes, encodePost post = .ok bytes ∧
      46 ≤ bytes.length ∧ bytes.length ≤ 316 ∧ decodePost bytes = .ok post) ∧
    (∀ bytes post, decodePost bytes = .ok post → encodePost post = .ok bytes) ∧
    (∀ left right post, decodePost left = .ok post → decodePost right = .ok post →
      left = right) ∧
    (∀ left right bytes, encodePost left = .ok bytes → encodePost right = .ok bytes →
      left = right) := by
  refine ⟨PostPayload.create_toInput, ?_, ?_, ?_, ?_⟩
  · intro post
    obtain ⟨hmin, hmax⟩ := encodedSize_bounds post
    refine ⟨postBytes post, encodePost_eq post, ?_, ?_, decodePost_postBytes post⟩
    · rwa [length_postBytes]
    · rwa [length_postBytes]
  · intro bytes post h
    rw [encodePost_eq, postBytes_of_decodePost h]
  · intro left right post hleft hright
    rw [← postBytes_of_decodePost hleft, postBytes_of_decodePost hright]
  · intro left right bytes hleft hright
    rw [encodePost_eq, Except.ok.injEq] at hleft hright
    have hdecode := decodePost_postBytes left
    rw [hleft, ← hright, decodePost_postBytes, Except.ok.injEq] at hdecode
    exact hdecode.symm

end Lora
