/-
Fragmentation of a post into frames.

`fragmentPost` encodes a post, cuts the encoding into payloads of the size the
MTU allows (the last one may be shorter) and encodes one frame for each.
`fragmentPost_eq` says that it never fails at a supported MTU and names its
result: the frames `postFrames`, all of them valid, in index order.
-/
import LoraMessenger.Chunks
import LoraMessenger.FrameCodec

namespace Lora

inductive FragmentError where
  | none
  | invalidMtu
  | postEncodeFailed
  | tooManyFragments
  | frameEncodeFailed
deriving DecidableEq

/-- The frame that carries fragment `index` of the encoded post `logical`. -/
def fragmentFrame (post : PostPayload) (logical : Bytes) (capacity fragmentCount index : ℕ) :
    DataFrame :=
  let offset := index * capacity
  let payloadSize := min capacity (logical.length - offset)
  { tag := messageTag post.messageId
    senderSequence := post.senderSequence
    fragmentIndex := UInt8.ofNat index
    fragmentCount := UInt8.ofNat fragmentCount
    totalLength := UInt16.ofNat logical.length
    payload := (logical.drop offset).take payloadSize }

def fragmentPost (post : PostPayload) (mtu : ℕ) : Except FragmentError (List Bytes) :=
  if ¬isSupportedMtu mtu then .error .invalidMtu
  else
    match encodePost post with
    | .error _ => .error .postEncodeFailed
    | .ok logical =>
      let capacity := framePayloadCapacity mtu
      let fragmentCount := (logical.length + capacity - 1) / capacity
      if fragmentCount = 0 ∨ fragmentCount > kMaximumFragments then .error .tooManyFragments
      else
        (List.range fragmentCount).mapM fun index =>
          match encodeFrame (fragmentFrame post logical capacity fragmentCount index) mtu with
          | .error _ => .error .frameEncodeFailed
          | .ok encodedFrame => .ok encodedFrame

/-! ### The number and the sizes of the fragments -/

/-- The number of payloads of size `capacity` that `size` bytes need. -/
def fragmentCountOf (size capacity : ℕ) : ℕ := (size + capacity - 1) / capacity

section Arithmetic

variable (size capacity : ℕ)

/-- Ceiling division, without the division. -/
theorem fragmentCountOf_bounds (hcapacity : 0 < capacity) (hsize : 0 < size) :
    0 < fragmentCountOf size capacity ∧ capacity * (fragmentCountOf size capacity - 1) < size ∧
      size ≤ capacity * fragmentCountOf size capacity := by
  have hdiv := Nat.div_add_mod (size + capacity - 1) capacity
  have hmod := Nat.mod_lt (size + capacity - 1) hcapacity
  have hpos : 0 < fragmentCountOf size capacity := Nat.div_pos (by omega) hcapacity
  obtain ⟨count, hcount⟩ : ∃ count, fragmentCountOf size capacity = count + 1 :=
    ⟨fragmentCountOf size capacity - 1, by omega⟩
  rw [show (size + capacity - 1) / capacity = count + 1 from hcount, Nat.mul_succ] at hdiv
  rw [hcount, Nat.add_sub_cancel, Nat.mul_succ]
  omega

theorem fragmentCountOf_le {limit : ℕ} (hcapacity : 0 < capacity) (h : size ≤ capacity * limit) :
    fragmentCountOf size capacity ≤ limit := by
  unfold fragmentCountOf
  rw [← Nat.lt_succ_iff, Nat.div_lt_iff_lt_mul hcapacity, Nat.succ_mul, Nat.mul_comm limit]
  omega

/-- The size of fragment `index`: full, except for the last one. -/
theorem fragmentSize {index : ℕ} (hcapacity : 0 < capacity) (hsize : 0 < size)
    (hindex : index < fragmentCountOf size capacity) :
    min capacity (size - index * capacity) =
      if index + 1 < fragmentCountOf size capacity then capacity
      else size - capacity * (fragmentCountOf size capacity - 1) := by
  obtain ⟨-, hlow, hhigh⟩ := fragmentCountOf_bounds size capacity hcapacity hsize
  generalize fragmentCountOf size capacity = count at *
  split
  · have hstep : (index + 1) * capacity ≤ capacity * (count - 1) := by
      rw [Nat.mul_comm]
      exact Nat.mul_le_mul_left _ (by omega)
    rw [Nat.succ_mul] at hstep
    omega
  · obtain rfl : count = index + 1 := by omega
    rw [Nat.add_sub_cancel] at hlow ⊢
    rw [Nat.mul_succ] at hhigh
    rw [Nat.mul_comm index]
    omega

theorem fragmentSize_pos {index : ℕ} (hcapacity : 0 < capacity) (hsize : 0 < size)
    (hindex : index < fragmentCountOf size capacity) :
    0 < min capacity (size - index * capacity) := by
  obtain ⟨-, hlow, -⟩ := fragmentCountOf_bounds size capacity hcapacity hsize
  have hle : index * capacity ≤ capacity * (fragmentCountOf size capacity - 1) := by
    rw [Nat.mul_comm]
    exact Nat.mul_le_mul_left _ (by omega)
  omega

end Arithmetic

/-! ### The frames of a post -/

def postFragmentCount (post : PostPayload) (mtu : ℕ) : ℕ :=
  fragmentCountOf (postBytes post).length (framePayloadCapacity mtu)

def postFrame (post : PostPayload) (mtu index : ℕ) : DataFrame :=
  fragmentFrame post (postBytes post) (framePayloadCapacity mtu) (postFragmentCount post mtu) index

/-- The frames of a post at an MTU, before they are turned into bytes. -/
def postFrames (post : PostPayload) (mtu : ℕ) : List DataFrame :=
  (List.range (postFragmentCount post mtu)).map (postFrame post mtu)

section Frames

variable {post : PostPayload} {mtu : ℕ}

theorem capacity_bounds (hmtu : isSupportedMtu mtu) :
    framePayloadCapacity mtu = mtu - 28 ∧ 20 ≤ framePayloadCapacity mtu ∧
      framePayloadCapacity mtu ≤ 227 := by
  have hcapacity : framePayloadCapacity mtu = mtu - 28 := if_pos hmtu
  simp only [isSupportedMtu, kMinimumTransportMtu, kMaximumTransportMtu] at hmtu
  omega

theorem length_postBytes_bounds (post : PostPayload) :
    46 ≤ (postBytes post).length ∧ (postBytes post).length ≤ 316 := by
  rw [length_postBytes]
  exact encodedSize_bounds post

theorem postFragmentCount_bounds (post : PostPayload) (hmtu : isSupportedMtu mtu) :
    0 < postFragmentCount post mtu ∧ postFragmentCount post mtu ≤ 16 := by
  obtain ⟨-, hlow, hhigh⟩ := capacity_bounds hmtu
  obtain ⟨hmin, hmax⟩ := length_postBytes_bounds post
  exact ⟨(fragmentCountOf_bounds _ _ (by omega) (by omega)).1,
    fragmentCountOf_le _ _ (by omega) (by omega)⟩

theorem postFrame_index {index : ℕ} (hmtu : isSupportedMtu mtu)
    (hindex : index < postFragmentCount post mtu) :
    (postFrame post mtu index).fragmentIndex.toNat = index := by
  have hcount := postFragmentCount_bounds post hmtu
  simp only [postFrame, fragmentFrame, UInt8.toNat_ofNat']
  omega

theorem postFrame_count (index : ℕ) (hmtu : isSupportedMtu mtu) :
    (postFrame post mtu index).fragmentCount.toNat = postFragmentCount post mtu := by
  have hcount := postFragmentCount_bounds post hmtu
  simp only [postFrame, fragmentFrame, UInt8.toNat_ofNat']
  omega

theorem postFrame_total (index : ℕ) :
    (postFrame post mtu index).totalLength.toNat = (postBytes post).length := by
  obtain ⟨hmin, hmax⟩ := length_postBytes_bounds post
  simp only [postFrame, fragmentFrame, UInt16.toNat_ofNat']
  omega

theorem length_postFrame_payload (index : ℕ) :
    (postFrame post mtu index).payload.length =
      min (framePayloadCapacity mtu)
        ((postBytes post).length - index * framePayloadCapacity mtu) := by
  simp only [postFrame, fragmentFrame, List.length_take, List.length_drop]
  omega

/-- Every fragment of a post is a valid frame. -/
theorem postFrame_valid (post : PostPayload) {index : ℕ} (hmtu : isSupportedMtu mtu)
    (hindex : index < postFragmentCount post mtu) : FrameValid mtu (postFrame post mtu index) := by
  obtain ⟨-, hlow, hhigh⟩ := capacity_bounds hmtu
  obtain ⟨hmin, hmax⟩ := length_postBytes_bounds post
  obtain ⟨hpos, hle⟩ := postFragmentCount_bounds post hmtu
  have hsize := fragmentSize (postBytes post).length (framePayloadCapacity mtu) (by omega)
    (by omega) hindex
  have hsizePos := fragmentSize_pos (postBytes post).length (framePayloadCapacity mtu)
    (by omega) (by omega) hindex
  refine ⟨hmtu, validateFrameFields_eq_none.mpr ⟨post.senderSequence_ne, ?_, ?_, ?_, ?_⟩⟩
  · rw [postFrame_total]
    exact ⟨hmin, hmax⟩
  · rw [postFrame_count index hmtu, postFrame_index hmtu hindex, length_postFrame_payload]
    refine ⟨hpos, hle, hindex, hsizePos, ?_⟩
    simp only [kMaximumFramePayloadBytes, kMaximumTransportMtu, kFrameHeaderBytes]
    omega
  · rw [postFrame_count index hmtu, postFrame_total]
    rfl
  · rw [postFrame_count index hmtu, postFrame_index hmtu hindex, postFrame_total,
      length_postFrame_payload]
    exact hsize

theorem mapM_ok {ε α β : Type} {f : α → Except ε β} {g : α → β} {items : List α}
    (h : ∀ item ∈ items, f item = .ok (g item)) : items.mapM f = .ok (items.map g) := by
  induction items with
  | nil => rfl
  | cons item items ih =>
    rw [List.mapM_cons, h item (List.mem_cons_self ..),
      ih fun other hother => h other (List.mem_cons_of_mem _ hother)]
    rfl

/-- **Fragmentation never fails at a supported MTU**, and gives the encodings
of `postFrames`. -/
theorem fragmentPost_eq (hmtu : isSupportedMtu mtu) :
    fragmentPost post mtu = .ok ((postFrames post mtu).map frameBytes) := by
  obtain ⟨hpos, hle⟩ := postFragmentCount_bounds post hmtu
  have hcount : ((postBytes post).length + framePayloadCapacity mtu - 1) /
      framePayloadCapacity mtu = postFragmentCount post mtu := rfl
  rw [fragmentPost, if_neg (not_not.mpr hmtu), encodePost_eq]
  simp only [hcount]
  rw [if_neg (by simp only [kMaximumFragments]; omega), postFrames, List.map_map]
  refine mapM_ok fun index hindex => ?_
  rw [List.mem_range] at hindex
  have hencode := encodeFrame_eq_ok.mpr ⟨postFrame_valid post hmtu hindex, rfl⟩
  rw [postFrame] at hencode
  rw [hencode]
  rfl

/-- The payloads in index order are the encoded post. -/
theorem flatMap_postFrames (hmtu : isSupportedMtu mtu) :
    (postFrames post mtu).flatMap DataFrame.payload = postBytes post := by
  obtain ⟨-, hlow, -⟩ := capacity_bounds hmtu
  obtain ⟨hmin, -⟩ := length_postBytes_bounds post
  obtain ⟨-, -, hhigh⟩ := fragmentCountOf_bounds (postBytes post).length
    (framePayloadCapacity mtu) (by omega) (by omega)
  rw [postFrames, List.flatMap_map]
  have hflat := Chunks.flatMap_slice (framePayloadCapacity mtu) (postBytes post)
    (postFragmentCount post mtu)
  simp only [Chunks.slice] at hflat
  simp only [postFrame, fragmentFrame]
  rw [hflat, List.take_of_length_le]
  rw [Nat.mul_comm]
  exact hhigh

end Frames

end Lora
