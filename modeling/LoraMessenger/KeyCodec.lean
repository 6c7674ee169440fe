/-
Keys that carry a character.

The keyboard driver hands over a typed character as the bytes of its UTF-8 encoding,
packed into one word with the first byte lowest.  `decodePackedUtf8Key` unpacks it.
It looks at the marker bits of every byte, but not at the number that comes out, so
there are sequences which the decoder of the texts refuses and this one reads.

* `decodePackedUtf8Key_packKey` — a packed character is read back;
* `Unchecked` — the sequences that are read although they encode no scalar value;
* `packed_key_exact` — all others that are malformed give the marker.
-/
import LoraMessenger.TextScalars

namespace Lora

open Utf8Codec

/-- U+25A1, which stands for input that cannot be shown. -/
def kUnsupportedInput : UInt32 := 0x25a1

/-! ### The decoder -/

/-- The bytes of a key, the lowest first. -/
def keyBytes (key : UInt32) : Bytes :=
  [(key &&& 0xff).toUInt8, ((key >>> 8) &&& 0xff).toUInt8, ((key >>> 16) &&& 0xff).toUInt8,
    ((key >>> 24) &&& 0xff).toUInt8]

/-- The length that the first byte announces, and the bits it carries itself. -/
def announced (lead : UInt8) : Option (ℕ × UInt32) :=
  if lead &&& 0x80 = 0x00 then some (1, lead.toUInt32)
  else if lead &&& 0xe0 = 0xc0 then some (2, (lead &&& 0x1f).toUInt32)
  else if lead &&& 0xf0 = 0xe0 then some (3, (lead &&& 0x0f).toUInt32)
  else if lead &&& 0xf8 = 0xf0 then some (4, (lead &&& 0x07).toUInt32)
  else none

/-- The loop over the bytes after the first. -/
def decodeTail (codepoint : UInt32) : Bytes → UInt32
  | [] => codepoint
  | byte :: bytes =>
    if byte &&& 0xc0 ≠ 0x80 then kUnsupportedInput
    else decodeTail ((codepoint <<< 6) ||| (byte &&& 0x3f).toUInt32) bytes

def decodePackedUtf8Key (key : UInt32) : UInt32 :=
  let bytes := keyBytes key
  match announced (bytes.headD 0) with
  | none => kUnsupportedInput
  | some (length, codepoint) => decodeTail codepoint ((bytes.take length).drop 1)

/-- How the driver packs a character: the first byte is the lowest, and no more than
the bytes of the character are written into a key that was zero. -/
def packKey (bytes : Bytes) : UInt32 :=
  bytes.foldr (fun byte key => (key <<< 8) ||| byte.toUInt32) 0

/-- The bytes of a key that its first byte announces. -/
def leadingSequence (key : UInt32) : Bytes :=
  (keyBytes key).take (((announced ((keyBytes key).headD 0)).map Prod.fst).getD 1)

/-- The decoder of the texts reads exactly one scalar value. -/
def EncodesScalar (bytes : Bytes) : Prop := ∃ scalar, visitUtf8 bytes = some [scalar]

/-- Sequences of the announced length, with nothing but continuation bytes after the
first, that are no encoding of a scalar value. -/
inductive Unchecked : Bytes → Prop
  | overlong₂ {lead c₁ : UInt8} (hlead : lead = 0xc0 ∨ lead = 0xc1) (hc₁ : IsTail c₁) :
    Unchecked [lead, c₁]
  | overlong₃ {lead c₁ c₂ : UInt8} (hlead : lead = 0xe0) (hc₁ : IsTail c₁) (hshort : c₁ < 0xa0)
    (hc₂ : IsTail c₂) : Unchecked [lead, c₁, c₂]
  | surrogate {lead c₁ c₂ : UInt8} (hlead : lead = 0xed) (hc₁ : IsTail c₁) (hhigh : 0xa0 ≤ c₁)
    (hc₂ : IsTail c₂) : Unchecked [lead, c₁, c₂]
  | overlong₄ {lead c₁ c₂ c₃ : UInt8} (hlead : lead = 0xf0) (hc₁ : IsTail c₁) (hshort : c₁ < 0x90)
    (hc₂ : IsTail c₂) (hc₃ : IsTail c₃) : Unchecked [lead, c₁, c₂, c₃]
  | large {lead c₁ c₂ c₃ : UInt8} (hlead : lead = 0xf4 ∧ 0x90 ≤ c₁ ∨ 0xf5 ≤ lead ∧ lead ≤ 0xf7)
    (hc₁ : IsTail c₁) (hc₂ : IsTail c₂) (hc₃ : IsTail c₃) : Unchecked [lead, c₁, c₂, c₃]

/-! ### In numbers -/

/-- The four cases of the first byte. -/
theorem announced_eq (lead : UInt8) : announced lead =
    if lead.toNat < 0x80 then some (1, lead.toUInt32)
    else if 0xc0 ≤ lead.toNat ∧ lead.toNat < 0xe0 then some (2, (lead - 0xc0).toUInt32)
    else if 0xe0 ≤ lead.toNat ∧ lead.toNat < 0xf0 then some (3, (lead - 0xe0).toUInt32)
    else if 0xf0 ≤ lead.toNat ∧ lead.toNat < 0xf8 then some (4, (lead - 0xf0).toUInt32)
    else none := by
  have hall : ∀ n < 256, announced (UInt8.ofNat n) =
      if n < 0x80 then some (1, (UInt8.ofNat n).toUInt32)
      else if 0xc0 ≤ n ∧ n < 0xe0 then some (2, (UInt8.ofNat n - 0xc0).toUInt32)
      else if 0xe0 ≤ n ∧ n < 0xf0 then some (3, (UInt8.ofNat n - 0xe0).toUInt32)
      else if 0xf0 ≤ n ∧ n < 0xf8 then some (4, (UInt8.ofNat n - 0xf0).toUInt32)
      else none := by decide +kernel
  have h := hall lead.toNat lead.toNat_lt
  rwa [UInt8.ofNat_toNat] at h

/-- A byte that is no continuation byte ends the loop. -/
theorem decodeTail_of_not_tail {codepoint : UInt32} {bytes : Bytes}
    (h : ¬∀ byte ∈ bytes, IsTail byte) :
    decodeTail codepoint bytes = kUnsupportedInput := by
  induction bytes generalizing codepoint with
  | nil => exact absurd (fun _ hmem => absurd hmem List.not_mem_nil) h
  | cons byte bytes ih =>
    rw [decodeTail]
    by_cases hbyte : IsTail byte
    · rw [if_neg (not_not.mpr ((and_0xc0_eq byte).mpr hbyte))]
      exact ih fun hall => h (List.forall_mem_cons.mpr ⟨hbyte, hall⟩)
    · rw [if_pos fun hmask => hbyte ((and_0xc0_eq byte).mp hmask)]

/-- Each continuation byte adds six bits.  None are lost at the upper end of the word. -/
theorem decodeTail_of_tail {codepoint : UInt32} {bytes : Bytes} (h : ∀ byte ∈ bytes, IsTail byte)
    (hsmall : (codepoint.toNat + 1) * 64 ^ bytes.length ≤ 2 ^ 32) :
    (decodeTail codepoint bytes).toNat =
      bytes.foldl (fun value byte => value * 64 + (byte.toNat - 0x80)) codepoint.toNat := by
  induction bytes generalizing codepoint with
  | nil => rfl
  | cons byte bytes ih =>
    obtain ⟨hbyte, hbytes⟩ := List.forall_mem_cons.mp h
    rw [decodeTail, if_neg (not_not.mpr ((and_0xc0_eq byte).mpr hbyte)), List.foldl_cons]
    have hpos : 0 < 64 ^ bytes.length := Nat.pow_pos (by decide)
    rw [List.length_cons, Nat.pow_succ', ← Nat.mul_assoc] at hsmall
    have hroom : (codepoint.toNat + 1) * 64 ≤ 2 ^ 32 :=
      Nat.le_trans (Nat.le_mul_of_pos_right _ hpos) hsmall
    have hnext : ((codepoint <<< 6) ||| (byte &&& 0x3f).toUInt32).toNat =
        codepoint.toNat * 64 + (byte.toNat - 0x80) := by
      obtain ⟨hmin, hmax⟩ := hbyte
      have hmod : byte.toNat % 2 ^ 6 = byte.toNat - 0x80 := by omega
      have hlt : byte.toNat - 0x80 < 2 ^ 6 := by omega
      rw [UInt32.toNat_or, UInt32.toNat_shiftLeft, UInt8.toNat_toUInt32,
        toNat_and_mask byte 0x3f 6 rfl, hmod]
      show codepoint.toNat <<< 6 % 2 ^ 32 ||| (byte.toNat - 0x80) = _
      rw [Nat.mod_eq_of_lt (by rw [Nat.shiftLeft_eq]; omega), ← Nat.shiftLeft_add_eq_or_of_lt hlt,
        Nat.shiftLeft_eq]
    rw [ih hbytes ?_, hnext]
    -- the six new bits are below the place that was free
    have hle : codepoint.toNat * 64 + (byte.toNat - 0x80) + 1 ≤ (codepoint.toNat + 1) * 64 := by
      obtain ⟨-, hmax⟩ := hbyte
      omega
    calc _ ≤ (codepoint.toNat + 1) * 64 * 64 ^ bytes.length := by
          rw [hnext]
          exact Nat.mul_le_mul_right _ hle
      _ ≤ 2 ^ 32 := hsmall

/-- The sequences that are read, and the numbers they are read as. -/
inductive DecodesAs : Bytes → ℕ → Prop
  | one {lead : UInt8} (hlead : lead.toNat < 0x80) : DecodesAs [lead] lead.toNat
  | two {lead c₁ : UInt8} (hmin : 0xc0 ≤ lead.toNat) (hmax : lead.toNat < 0xe0) (hc₁ : IsTail c₁) :
    DecodesAs [lead, c₁] ((lead.toNat - 0xc0) * 64 + (c₁.toNat - 0x80))
  | three {lead c₁ c₂ : UInt8} (hmin : 0xe0 ≤ lead.toNat) (hmax : lead.toNat < 0xf0)
    (hc₁ : IsTail c₁)
    (hc₂ : IsTail c₂) :
    DecodesAs [lead, c₁, c₂] (((lead.toNat - 0xe0) * 64 + (c₁.toNat - 0x80)) * 64 +
      (c₂.toNat - 0x80))
  | four {lead c₁ c₂ c₃ : UInt8} (hmin : 0xf0 ≤ lead.toNat) (hmax : lead.toNat < 0xf8)
    (hc₁ : IsTail c₁)
    (hc₂ : IsTail c₂) (hc₃ : IsTail c₃) :
    DecodesAs [lead, c₁, c₂, c₃] ((((lead.toNat - 0xf0) * 64 + (c₁.toNat - 0x80)) * 64 +
      (c₂.toNat - 0x80)) * 64 + (c₃.toNat - 0x80))

/-- What the decoder does with the bytes of a key. -/
theorem decodeTail_cases {lead b₁ b₂ b₃ : UInt8} {length : ℕ} {codepoint : UInt32}
    (h : announced lead = some (length, codepoint)) :
    let bytes := [lead, b₁, b₂, b₃].take length
    DecodesAs bytes (decodeTail codepoint (bytes.drop 1)).toNat ∨
      (∀ scalar, ¬DecodesAs bytes scalar) ∧ decodeTail codepoint (bytes.drop 1) =
        kUnsupportedInput := by
  have hsub : ∀ marker : UInt8, marker ≤ lead →
      (lead - marker).toUInt32.toNat = lead.toNat - marker.toNat :=
    fun marker hmarker => by rw [UInt8.toNat_toUInt32, UInt8.toNat_sub_of_le _ _ hmarker]
  rw [announced_eq] at h
  split at h
  · cases h
    exact .inl (.one ‹_›)
  split at h
  · rename_i hrange
    cases h
    by_cases htail : ∀ byte ∈ [b₁], IsTail byte
    · have hvalue := decodeTail_of_tail htail (by rw [hsub 0xc0 hrange.1]; simp; omega)
      rw [hsub 0xc0 hrange.1] at hvalue
      refine .inl ?_
      show DecodesAs [lead, b₁] (decodeTail _ [b₁]).toNat
      rw [hvalue]
      exact .two hrange.1 hrange.2 (htail b₁ (by simp))
    · refine .inr ⟨?_, decodeTail_of_not_tail htail⟩
      rintro scalar ⟨⟩
      exact htail (by simpa)
  split at h
  · rename_i hrange
    cases h
    by_cases htail : ∀ byte ∈ [b₁, b₂], IsTail byte
    · have hvalue := decodeTail_of_tail htail (by rw [hsub 0xe0 hrange.1]; simp; omega)
      rw [hsub 0xe0 hrange.1] at hvalue
      refine .inl ?_
      show DecodesAs [lead, b₁, b₂] (decodeTail _ [b₁, b₂]).toNat
      rw [hvalue]
      exact .three hrange.1 hrange.2 (htail b₁ (by simp)) (htail b₂ (by simp))
    · refine .inr ⟨?_, decodeTail_of_not_tail htail⟩
      rintro scalar ⟨⟩
      exact htail (by simp [*])
  split at h
  · rename_i hrange
    cases h
    by_cases htail : ∀ byte ∈ [b₁, b₂, b₃], IsTail byte
    · have hvalue := decodeTail_of_tail htail (by rw [hsub 0xf0 hrange.1]; simp; omega)
      rw [hsub 0xf0 hrange.1] at hvalue
      refine .inl ?_
      show DecodesAs [lead, b₁, b₂, b₃] (decodeTail _ [b₁, b₂, b₃]).toNat
      rw [hvalue]
      exact .four hrange.1 hrange.2 (htail b₁ (by simp)) (htail b₂ (by simp)) (htail b₃ (by simp))
    · refine .inr ⟨?_, decodeTail_of_not_tail htail⟩
      rintro scalar ⟨⟩
      exact htail (by simp [*])
  · cases h

/-- A key is read as the number its first bytes stand for, or they stand for none. -/
theorem decodePackedUtf8Key_cases (key : UInt32) :
    DecodesAs (leadingSequence key) (decodePackedUtf8Key key).toNat ∨
      (∀ scalar, ¬DecodesAs (leadingSequence key) scalar) ∧ decodePackedUtf8Key key =
        kUnsupportedInput := by
  unfold decodePackedUtf8Key leadingSequence
  rw [keyBytes]
  generalize (key &&& 0xff).toUInt8 = lead
  dsimp only [List.headD_cons]
  cases h : announced lead with
  | none =>
    refine .inr ⟨?_, rfl⟩
    rintro scalar ⟨⟩
    rw [announced_eq, if_pos ‹_›] at h
    cases h
  | some first => exact decodeTail_cases h

/-- A sequence that is read stands for one number only. -/
theorem DecodesAs.unique {bytes : Bytes} {scalar scalar' : ℕ} (h : DecodesAs bytes scalar)
    (h' : DecodesAs bytes scalar') : scalar = scalar' := by
  cases h with
  | one | two | three | four =>
    cases h'
    rfl

/-! ### What is read and what is well formed -/

/-- The encoding of a number is read as this number. -/
theorem DecodesAs.of_form {scalar : ℕ} {bytes : Bytes} (h : Form scalar bytes) :
    DecodesAs bytes scalar := by
  cases h with
  | one hsize hfirst =>
    rw [← hfirst]
    exact .one (by omega)
  | @two first c₁ hmin hmax hfirst hc₁ =>
    have hvalue : scalar = (first.toNat - 0xc0) * 64 + (c₁.toNat - 0x80) := by omega
    rw [hvalue]
    exact .two (by omega) (by omega) (by rw [IsTail]; omega)
  | @three first c₁ c₂ hmin hmax hfirst hc₁ hc₂ =>
    have hvalue : scalar =
        ((first.toNat - 0xe0) * 64 + (c₁.toNat - 0x80)) * 64 + (c₂.toNat - 0x80) := by omega
    rw [hvalue]
    exact .three (by omega) (by omega) (by rw [IsTail]; omega) (by rw [IsTail]; omega)
  | @four first c₁ c₂ c₃ hmin hmax hfirst hc₁ hc₂ hc₃ =>
    have hvalue : scalar = (((first.toNat - 0xf0) * 64 + (c₁.toNat - 0x80)) * 64 +
        (c₂.toNat - 0x80)) * 64 + (c₃.toNat - 0x80) := by omega
    rw [hvalue]
    exact .four (by omega) (by omega) (by rw [IsTail]; omega) (by rw [IsTail]; omega)
      (by rw [IsTail]; omega)

/-- The decoder of the texts accepts the encodings of single characters. -/
theorem encodesScalar_iff {bytes : Bytes} :
    EncodesScalar bytes ↔ ∃ c : Char, bytes = String.utf8EncodeChar c := by
  constructor
  · rintro ⟨scalar, h⟩
    obtain ⟨text, rfl, hscalars⟩ := visitUtf8_eq_some.mp h
    obtain ⟨c, rest, rfl, -, hrest⟩ := List.map_eq_cons_iff.mp hscalars.symm
    rw [List.map_eq_nil_iff] at hrest
    exact ⟨c, by rw [hrest, encode_cons, encode_nil, List.append_nil]⟩
  · rintro ⟨c, rfl⟩
    have hread := visitUtf8_char c []
    rw [List.append_nil] at hread
    exact ⟨c.toNat, by rw [hread, visitUtf8.eq_def]; rfl⟩

/-- The bytes of such a sequence in numbers. -/
theorem Unchecked.toNat {bytes : Bytes} (h : Unchecked bytes) : ∃ scalar, DecodesAs bytes scalar ∧
    (∀ c : Char, c.toNat = scalar → ¬Form scalar bytes) ∧
    (scalar = 0x25a1 → bytes = [0xf0, 0x82, 0x96, 0xa1]) := by
  -- each kind is read as a number that is too small for its length, or is no scalar value
  cases h with
  | overlong₂ hlead hc₁ =>
    have ⟨hmin₁, hmax₁⟩ := hc₁
    simp only [← UInt8.toNat_inj, UInt8.toNat_ofNat] at hlead
    refine ⟨_, .two (by omega) (by omega) hc₁, ?_, by omega⟩
    rintro c hc ⟨⟩
    omega
  | overlong₃ hlead hc₁ hshort hc₂ =>
    have ⟨hmin₁, hmax₁⟩ := hc₁
    have ⟨hmin₂, hmax₂⟩ := hc₂
    simp only [← UInt8.toNat_inj, UInt8.lt_iff_toNat_lt, UInt8.toNat_ofNat] at hlead hshort
    refine ⟨_, .three (by omega) (by omega) hc₁ hc₂, ?_, by omega⟩
    rintro c hc ⟨⟩
    omega
  | surrogate hlead hc₁ hhigh hc₂ =>
    have ⟨hmin₁, hmax₁⟩ := hc₁
    have ⟨hmin₂, hmax₂⟩ := hc₂
    simp only [← UInt8.toNat_inj, UInt8.le_iff_toNat_le, UInt8.toNat_ofNat] at hlead hhigh
    refine ⟨_, .three (by omega) (by omega) hc₁ hc₂, ?_, by omega⟩
    intro c hc _
    have hrange := toNat_lt c
    omega
  | overlong₄ hlead hc₁ hshort hc₂ hc₃ =>
    have ⟨hmin₁, hmax₁⟩ := hc₁
    have ⟨hmin₂, hmax₂⟩ := hc₂
    have ⟨hmin₃, hmax₃⟩ := hc₃
    simp only [← UInt8.toNat_inj, UInt8.lt_iff_toNat_lt, UInt8.toNat_ofNat] at hlead hshort
    refine ⟨_, .four (by omega) (by omega) hc₁ hc₂ hc₃, ?_, ?_⟩
    · rintro c hc ⟨⟩
      omega
    · intro hmarker
      simp only [List.cons.injEq, and_true, ← UInt8.toNat_inj, UInt8.toNat_ofNat]
      omega
  | large hlead hc₁ hc₂ hc₃ =>
    have ⟨hmin₁, hmax₁⟩ := hc₁
    have ⟨hmin₂, hmax₂⟩ := hc₂
    have ⟨hmin₃, hmax₃⟩ := hc₃
    simp only [← UInt8.toNat_inj, UInt8.le_iff_toNat_le, UInt8.toNat_ofNat] at hlead
    refine ⟨_, .four (by omega) (by omega) hc₁ hc₂ hc₃, ?_, by omega⟩
    intro c hc _
    have hrange := toNat_lt c
    omega

theorem Unchecked.not_encodesScalar {bytes : Bytes} (h : Unchecked bytes) :
    ¬EncodesScalar bytes := by
  rw [encodesScalar_iff]
  rintro ⟨c, rfl⟩
  obtain ⟨scalar, hreads, hnone, -⟩ := h.toNat
  have hform := form_utf8EncodeChar c
  obtain rfl := hreads.unique (.of_form hform)
  exact hnone c rfl hform

/-- What is read and is not of this kind is an encoding. -/
theorem DecodesAs.encodesScalar {bytes : Bytes} {scalar : ℕ} (h : DecodesAs bytes scalar)
    (hchecked : ¬Unchecked bytes) : EncodesScalar bytes := by
  -- the number is that of a character, and the bytes are its encoding
  have hchar : scalar < 0x110000 → ¬(0xd800 ≤ scalar ∧ scalar ≤ 0xdfff) → Form scalar bytes →
      EncodesScalar bytes := by
    intro hrange hsurrogate hform
    obtain ⟨c, rfl⟩ := exists_char hrange hsurrogate
    exact encodesScalar_iff.mpr ⟨c, hform.eq_utf8EncodeChar⟩
  cases h with
  | @one lead hlead => exact hchar (by omega) (by omega) (.one hlead rfl)
  | @two lead c₁ hmin hmax hc₁ =>
    have hlead : ¬(lead = 0xc0 ∨ lead = 0xc1) := fun hlead => hchecked (.overlong₂ hlead hc₁)
    simp only [← UInt8.toNat_inj, UInt8.toNat_ofNat] at hlead
    obtain ⟨hc₁min, hc₁max⟩ := hc₁
    exact hchar (by omega) (by omega) (.two (by omega) (by omega) (by omega) (by omega))
  | @three lead c₁ c₂ hmin hmax hc₁ hc₂ =>
    have hshort : ¬(lead = 0xe0 ∧ c₁ < 0xa0) := fun h => hchecked (.overlong₃ h.1 hc₁ h.2 hc₂)
    have hsurrogate : ¬(lead = 0xed ∧ 0xa0 ≤ c₁) := fun h => hchecked (.surrogate h.1 hc₁ h.2 hc₂)
    simp only [← UInt8.toNat_inj, UInt8.lt_iff_toNat_lt, UInt8.le_iff_toNat_le,
      UInt8.toNat_ofNat] at hshort hsurrogate
    obtain ⟨hc₁min, hc₁max⟩ := hc₁
    obtain ⟨hc₂min, hc₂max⟩ := hc₂
    exact hchar (by omega) (by omega)
      (.three (by omega) (by omega) (by omega) (by omega) (by omega))
  | @four lead c₁ c₂ c₃ hmin hmax hc₁ hc₂ hc₃ =>
    have hshort : ¬(lead = 0xf0 ∧ c₁ < 0x90) := fun h => hchecked (.overlong₄ h.1 hc₁ h.2 hc₂ hc₃)
    have hlarge : ¬(lead = 0xf4 ∧ 0x90 ≤ c₁ ∨ 0xf5 ≤ lead ∧ lead ≤ 0xf7) :=
      fun h => hchecked (.large h hc₁ hc₂ hc₃)
    simp only [← UInt8.toNat_inj, UInt8.lt_iff_toNat_lt, UInt8.le_iff_toNat_le,
      UInt8.toNat_ofNat] at hshort hlarge
    obtain ⟨hc₁min, hc₁max⟩ := hc₁
    obtain ⟨hc₂min, hc₂max⟩ := hc₂
    obtain ⟨hc₃min, hc₃max⟩ := hc₃
    exact hchar (by omega) (by omega)
      (.four (by omega) (by omega) (by omega) (by omega) (by omega) (by omega))

/-! ### Packing -/

/-- The number of a packed key; up to four bytes fit into the word. -/
theorem toNat_packKey {bytes : Bytes} (hlength : bytes.length ≤ 4) :
    (packKey bytes).toNat = bytes.foldr (fun byte value => value * 256 + byte.toNat) 0 ∧
      (packKey bytes).toNat < 256 ^ bytes.length := by
  induction bytes with
  | nil => exact ⟨rfl, by decide⟩
  | cons byte bytes ih =>
    rw [List.length_cons] at hlength
    obtain ⟨hvalue, hlt⟩ := ih (by omega)
    have hbyte := byte.toNat_lt
    have hroom : 256 ^ bytes.length ≤ 256 ^ 3 := Nat.pow_le_pow_right (by decide) (by omega)
    have hnext : (packKey (byte :: bytes)).toNat = (packKey bytes).toNat * 256 + byte.toNat := by
      show ((packKey bytes <<< 8) ||| byte.toUInt32).toNat = _
      rw [UInt32.toNat_or, UInt32.toNat_shiftLeft, UInt8.toNat_toUInt32]
      show (packKey bytes).toNat <<< 8 % 2 ^ 32 ||| byte.toNat = _
      rw [Nat.mod_eq_of_lt (by rw [Nat.shiftLeft_eq]; omega), ← Nat.shiftLeft_add_eq_or_of_lt hbyte,
        Nat.shiftLeft_eq]
    refine ⟨by rw [hnext, hvalue]; rfl, ?_⟩
    rw [hnext, List.length_cons, Nat.pow_succ]
    omega

theorem toNat_keyByte (key shift : UInt32) (bits : ℕ) (hshift : shift.toNat = bits)
    (hbits : bits < 32) :
    ((key >>> shift) &&& 0xff).toUInt8.toNat = key.toNat / 2 ^ bits % 256 := by
  have hmask : (0xff : UInt32).toNat = 2 ^ 8 - 1 := rfl
  rw [UInt32.toNat_toUInt8, UInt32.toNat_and, hmask, Nat.and_two_pow_sub_one_eq_mod,
    UInt32.toNat_shiftRight, hshift, Nat.mod_eq_of_lt hbits, Nat.shiftRight_eq_div_pow, Nat.mod_mod]

theorem keyBytes_packKey_four (a b c d : UInt8) : keyBytes (packKey [a, b, c, d]) =
    [a, b, c, d] := by
  obtain ⟨hvalue, -⟩ := @toNat_packKey [a, b, c, d] (by simp)
  simp only [List.foldr_cons, List.foldr_nil] at hvalue
  have ha := a.toNat_lt
  have hb := b.toNat_lt
  have hc := c.toNat_lt
  have hd := d.toNat_lt
  have hfirst := toNat_keyByte (packKey [a, b, c, d]) 0 0 rfl (by decide)
  rw [UInt32.shiftRight_zero] at hfirst
  rw [keyBytes]
  simp only [List.cons.injEq, and_true, ← UInt8.toNat_inj]
  rw [hfirst, toNat_keyByte _ 8 8 rfl (by decide), toNat_keyByte _ 16 16 rfl (by decide),
    toNat_keyByte _ 24 24 rfl (by decide), hvalue]
  omega

/-- The bytes after the packed ones are zero. -/
theorem packKey_append_replicate (bytes : Bytes) (count : ℕ) :
    packKey (bytes ++ List.replicate count 0) = packKey bytes := by
  have hzero : packKey (List.replicate count 0) = 0 := by
    induction count with
    | zero => rfl
    | succ count ih =>
      show (packKey (List.replicate count 0) <<< 8) ||| (0 : UInt8).toUInt32 = 0
      rw [ih]
      rfl
  rw [packKey, List.foldr_append]
  show List.foldr _ (packKey (List.replicate count 0)) bytes = _
  rw [hzero]
  rfl

theorem keyBytes_packKey {bytes : Bytes} (hlength : bytes.length ≤ 4) :
    keyBytes (packKey bytes) = bytes ++ List.replicate (4 - bytes.length) 0 := by
  rw [← packKey_append_replicate bytes (4 - bytes.length)]
  have hfour : (bytes ++ List.replicate (4 - bytes.length) 0).length = 4 := by
    rw [List.length_append, List.length_replicate]
    omega
  generalize bytes ++ List.replicate (4 - bytes.length) 0 = padded at hfour
  match padded, hfour with
  | [a, b, c, d], _ => exact keyBytes_packKey_four a b c d

/-- A packed character announces its own bytes. -/
theorem leadingSequence_packKey (c : Char) :
    leadingSequence (packKey (String.utf8EncodeChar c)) = String.utf8EncodeChar c := by
  have hform := form_utf8EncodeChar c
  generalize String.utf8EncodeChar c = bytes at hform
  have hannounced : ∃ first rest codepoint, bytes = first :: rest ∧ rest.length ≤ 3 ∧
      announced first = some (rest.length + 1, codepoint) := by
    cases hform with
    | one hsize hfirst =>
      exact ⟨_, [], _, rfl, by simp, by rw [announced_eq, if_pos (by omega)]; rfl⟩
    | two hmin hmax hfirst =>
      exact ⟨_, _, _, rfl, by simp, by
        rw [announced_eq, if_neg (by omega), if_pos (by omega)]; rfl⟩
    | three hmin hmax hfirst =>
      exact ⟨_, _, _, rfl, by simp, by
        rw [announced_eq, if_neg (by omega), if_neg (by omega), if_pos (by omega)]; rfl⟩
    | four hmin hmax hfirst =>
      exact ⟨_, _, _, rfl, by simp, by
        rw [announced_eq, if_neg (by omega), if_neg (by omega), if_neg (by omega),
          if_pos (by omega)]; rfl⟩
  obtain ⟨first, rest, codepoint, rfl, hlength, hannounced⟩ := hannounced
  rw [leadingSequence, keyBytes_packKey (by rw [List.length_cons]; omega), List.cons_append,
    List.headD_cons, hannounced]
  show (first :: (rest ++ _)).take (rest.length + 1) = _
  rw [List.take_succ_cons, List.take_left]

theorem decodePackedUtf8Key_packKey (c : Char) :
    decodePackedUtf8Key (packKey (String.utf8EncodeChar c)) = c.val := by
  have hreads := DecodesAs.of_form (form_utf8EncodeChar c)
  obtain h | ⟨hnone, -⟩ := decodePackedUtf8Key_cases (packKey (String.utf8EncodeChar c))
  · rw [leadingSequence_packKey] at h
    exact UInt32.toNat_inj.mp (h.unique hreads)
  · rw [leadingSequence_packKey] at hnone
    exact absurd hreads (hnone _)

/-- A packed character is read back.  A key whose first bytes encode no scalar value gives
the marker, unless they are a sequence that the decoder does not check: then it does so
only for the overlong encoding of the marker itself. -/
theorem packed_key_exact (c : Char) (key : UInt32) :
    decodePackedUtf8Key (packKey (String.utf8EncodeChar c)) = c.val ∧
    ((¬EncodesScalar (leadingSequence key) → decodePackedUtf8Key key = kUnsupportedInput) ↔
      (Unchecked (leadingSequence key) → leadingSequence key = [0xf0, 0x82, 0x96, 0xa1])) := by
  refine ⟨decodePackedUtf8Key_packKey c, ?_⟩
  constructor
  · intro hmarker hunchecked
    obtain ⟨scalar, hreads, hnone, honce⟩ := hunchecked.toNat
    have hread := (decodePackedUtf8Key_cases key).resolve_right fun h => h.1 scalar hreads
    refine honce ?_
    rw [hreads.unique hread, hmarker hunchecked.not_encodesScalar]
    rfl
  · intro hunchecked hmalformed
    by_cases h : Unchecked (leadingSequence key)
    · obtain hread | ⟨-, hmarker⟩ := decodePackedUtf8Key_cases key
      · have hbytes := hunchecked h
        rw [hbytes] at hread
        have hvalue : (decodePackedUtf8Key key).toNat = kUnsupportedInput.toNat :=
          hread.unique (.four (by decide) (by decide) (by decide) (by decide) (by decide))
        exact UInt32.toNat_inj.mp hvalue
      · exact hmarker
    · obtain hread | ⟨-, hmarker⟩ := decodePackedUtf8Key_cases key
      · exact absurd (hread.encodesScalar h) hmalformed
      · exact hmarker

/-- The two bytes C0 80 are an overlong encoding of zero, and are read as such. -/
theorem packed_key_overlong : ¬((∀ c : Char,
      decodePackedUtf8Key (packKey (String.utf8EncodeChar c)) = c.val) ∧
    ∀ key : UInt32, ¬EncodesScalar (leadingSequence key) →
      decodePackedUtf8Key key = kUnsupportedInput) := by
  rintro ⟨-, h⟩
  have hunchecked : Unchecked (leadingSequence 0x80c0) := .overlong₂ (by decide) (by decide)
  have hread : decodePackedUtf8Key 0x80c0 = 0 := by decide
  rw [h 0x80c0 hunchecked.not_encodesScalar] at hread
  exact absurd hread (by decide)

end Lora
