/-
Texts as lists of characters.

What `visitUtf8` accepts are the encodings of lists of characters, and it returns
their numbers.  So a valid text stands for exactly one list of characters, and
everything said about its bytes can be said about these.

* `visitUtf8_encode` — the encoding of a text is read back;
* `visitUtf8_eq_some` — nothing else is accepted.
-/
import LoraMessenger.Text
import LoraMessenger.Utf8Codec

namespace Lora

open Utf8Codec

/-! ### One byte -/

theorem and_0xc0_eq (byte : UInt8) : byte &&& 0xc0 = 0x80 ↔ IsTail byte := by
  have hall : ∀ n < 256, (UInt8.ofNat n &&& 0xc0 = 0x80 ↔ IsTail (UInt8.ofNat n)) :=
    by decide +kernel
  have h := hall byte.toNat byte.toNat_lt
  rwa [UInt8.ofNat_toNat] at h

theorem toNat_and_mask (byte mask : UInt8) (bits : ℕ) (hmask : mask.toNat = 2 ^ bits - 1) :
    (byte &&& mask).toNat = byte.toNat % 2 ^ bits := by
  rw [UInt8.toNat_and, hmask, Nat.and_two_pow_sub_one_eq_mod]

/-- A continuation byte in numbers. -/
theorem continuation_eq (codepoint : ℕ) (byte : UInt8) :
    continuation codepoint byte =
      if IsTail byte then some (codepoint * 64 + (byte.toNat - 0x80)) else none := by
  by_cases htail : IsTail byte
  · rw [continuation, if_pos ((and_0xc0_eq byte).mpr htail), if_pos htail]
    have hmod : byte.toNat % 2 ^ 6 = byte.toNat - 0x80 := by
      obtain ⟨hmin, hmax⟩ := htail
      omega
    have hlt : byte.toNat - 0x80 < 2 ^ 6 := by
      obtain ⟨-, hmax⟩ := htail
      omega
    rw [toNat_and_mask byte 0x3f 6 rfl, hmod, ← Nat.shiftLeft_add_eq_or_of_lt hlt, Nat.shiftLeft_eq]
  · rw [continuation, if_neg fun h => htail ((and_0xc0_eq byte).mp h), if_neg htail]

theorem continuation_tail {codepoint rest : ℕ} {byte : UInt8} (hbyte : byte.toNat = 0x80 + rest)
    (hrest : rest < 64) : continuation codepoint byte = some (codepoint * 64 + rest) := by
  have htail : IsTail byte := by
    rw [IsTail]
    omega
  rw [continuation_eq, if_pos htail, hbyte, Nat.add_sub_cancel_left]

/-! ### One character -/

theorem visitUtf8_char (c : Char) (rest : Bytes) :
    visitUtf8 (String.utf8EncodeChar c ++ rest) = (visitUtf8 rest).map (c.toNat :: ·) := by
  have hrange := toNat_lt c
  have hform := form_utf8EncodeChar c
  generalize String.utf8EncodeChar c = bytes at hform
  cases hform with
  | @one first hsize hfirst =>
    rw [List.singleton_append, visitUtf8.eq_def]
    dsimp only
    rw [if_pos (by rw [UInt8.le_iff_toNat_le, hfirst]; exact Nat.le_of_lt_succ hsize), hfirst]
  | @two first c₁ hmin hmax hfirst hc₁ =>
    rw [List.cons_append, List.cons_append, List.nil_append, visitUtf8.eq_def]
    dsimp only
    rw [if_neg (by rw [UInt8.le_iff_toNat_le, hfirst]; simp only [UInt8.toNat_ofNat]; omega),
      if_pos (by simp only [UInt8.le_iff_toNat_le, hfirst, UInt8.toNat_ofNat]; omega)]
    rw [toNat_and_mask first 0x1f 5 rfl, continuation_tail hc₁ (by omega)]
    have hvalue : first.toNat % 2 ^ 5 * 64 + c.toNat % 64 = c.toNat := by omega
    have hallowed : scalarAllowed 2 c.toNat = true := by
      simp [scalarAllowed]
      omega
    simp only [Option.bind_eq_bind, Option.bind_some, hvalue, hallowed, if_true]
  | @three first c₁ c₂ hmin hmax hfirst hc₁ hc₂ =>
    rw [List.cons_append, List.cons_append, List.cons_append, List.nil_append, visitUtf8.eq_def]
    dsimp only
    rw [if_neg (by rw [UInt8.le_iff_toNat_le, hfirst]; simp only [UInt8.toNat_ofNat]; omega),
      if_neg (by simp only [UInt8.le_iff_toNat_le, hfirst, UInt8.toNat_ofNat]; omega),
      if_pos (by simp only [UInt8.le_iff_toNat_le, hfirst, UInt8.toNat_ofNat]; omega)]
    rw [toNat_and_mask first 0x0f 4 rfl, continuation_tail hc₁ (by omega)]
    simp only [Option.bind_eq_bind, Option.bind_some]
    rw [continuation_tail hc₂ (by omega)]
    have hvalue : (first.toNat % 2 ^ 4 * 64 + c.toNat / 64 % 64) * 64 + c.toNat % 64 =
      c.toNat := by omega
    have hallowed : scalarAllowed 3 c.toNat = true := by
      simp [scalarAllowed]
      omega
    simp only [Option.bind_some, hvalue, hallowed, if_true]
  | @four first c₁ c₂ c₃ hmin hmax hfirst hc₁ hc₂ hc₃ =>
    rw [List.cons_append, List.cons_append, List.cons_append, List.cons_append, List.nil_append,
      visitUtf8.eq_def]
    dsimp only
    rw [if_neg (by rw [UInt8.le_iff_toNat_le, hfirst]; simp only [UInt8.toNat_ofNat]; omega),
      if_neg (by simp only [UInt8.le_iff_toNat_le, hfirst, UInt8.toNat_ofNat]; omega),
      if_neg (by simp only [UInt8.le_iff_toNat_le, hfirst, UInt8.toNat_ofNat]; omega),
      if_pos (by simp only [UInt8.le_iff_toNat_le, hfirst, UInt8.toNat_ofNat]; omega)]
    rw [toNat_and_mask first 0x07 3 rfl, continuation_tail hc₁ (by omega)]
    simp only [Option.bind_eq_bind, Option.bind_some]
    rw [continuation_tail hc₂ (by omega)]
    simp only [Option.bind_some]
    rw [continuation_tail hc₃ (by omega)]
    have hvalue : ((first.toNat % 2 ^ 3 * 64 + c.toNat / 4096 % 64) * 64 + c.toNat / 64 % 64) * 64 +
        c.toNat % 64 = c.toNat := by omega
    have hallowed : scalarAllowed 4 c.toNat = true := by
      simp [scalarAllowed]
      omega
    simp only [Option.bind_some, hvalue, hallowed, if_true]

theorem visitUtf8_encode (text : List Char) : visitUtf8 (encode text) =
    some (text.map Char.toNat) := by
  induction text with
  | nil => simp [visitUtf8]
  | cons c text ih =>
    rw [encode_cons, visitUtf8_char, ih]
    rfl

/-- The first character of what is accepted. -/
theorem exists_char_of_visitUtf8 {first : UInt8} {rest : Bytes} {scalars : List ℕ}
    (h : visitUtf8 (first :: rest) = some scalars) :
    ∃ c later, first :: rest = String.utf8EncodeChar c ++ later ∧
      ∃ others, visitUtf8 later = some others ∧ scalars = c.toNat :: others := by
  -- a number that passes the checks, and its bytes
  have hchar : ∀ (bytes : Bytes) {later : Bytes} {count codepoint : ℕ},
      (scalarAllowed count codepoint = true → Form codepoint bytes) →
      (if scalarAllowed count codepoint then (visitUtf8 later).map (codepoint :: ·) else none) =
        some scalars → bytes ++ later = first :: rest →
      ∃ c later, first :: rest = String.utf8EncodeChar c ++ later ∧
        ∃ others, visitUtf8 later = some others ∧ scalars = c.toNat :: others := by
    intro bytes later count codepoint hform hread hbytes
    split at hread
    · rename_i hallowed
      have hrange : codepoint < 0x110000 ∧ ¬(0xd800 ≤ codepoint ∧ codepoint ≤ 0xdfff) := by
        simp [scalarAllowed] at hallowed
        omega
      obtain ⟨c, rfl⟩ := exists_char hrange.1 hrange.2
      obtain ⟨others, hothers, rfl⟩ := Option.map_eq_some_iff.mp hread
      exact ⟨c, later, by rw [← hbytes, (hform hallowed).eq_utf8EncodeChar], others, hothers, rfl⟩
    · cases hread
  have htail : ∀ {codepoint next : ℕ} {byte : UInt8}, continuation codepoint byte = some next →
      IsTail byte ∧ next = codepoint * 64 + (byte.toNat - 0x80) := by
    intro codepoint next byte hread
    rw [continuation_eq] at hread
    split at hread
    · exact ⟨‹_›, (Option.some.inj hread).symm⟩
    · cases hread
  rw [visitUtf8.eq_def] at h
  dsimp only at h
  split at h
  · rename_i hfirst
    simp only [UInt8.le_iff_toNat_le, UInt8.toNat_ofNat] at hfirst
    obtain ⟨c, hc⟩ : ∃ c : Char, c.toNat = first.toNat := exists_char (by omega) (by omega)
    obtain ⟨others, hothers, rfl⟩ := Option.map_eq_some_iff.mp h
    have hform : Form c.toNat [first] := .one (by omega) hc.symm
    exact ⟨c, rest, by rw [← hform.eq_utf8EncodeChar, List.singleton_append], others,
      hothers, by rw [hc]⟩
  split at h
  · rename_i hfirst
    simp only [UInt8.le_iff_toNat_le, UInt8.toNat_ofNat] at hfirst
    rcases rest with _ | ⟨c₁, rest⟩
    · cases h
    obtain ⟨codepoint, hc₁, h⟩ := Option.bind_eq_some_iff.mp h
    obtain ⟨⟨hmin₁, hmax₁⟩, hcodepoint⟩ := htail hc₁
    rw [toNat_and_mask first 0x1f 5 rfl] at hcodepoint
    refine hchar [first, c₁] (fun _ => ?_) h rfl
    exact .two (by omega) (by omega) (by omega) (by omega)
  split at h
  · rename_i hfirst
    simp only [UInt8.le_iff_toNat_le, UInt8.toNat_ofNat] at hfirst
    rcases rest with _ | ⟨c₁, _ | ⟨c₂, rest⟩⟩
    · cases h
    · cases h
    obtain ⟨middle, hc₁, h⟩ := Option.bind_eq_some_iff.mp h
    obtain ⟨codepoint, hc₂, h⟩ := Option.bind_eq_some_iff.mp h
    obtain ⟨⟨hmin₁, hmax₁⟩, hmiddle⟩ := htail hc₁
    obtain ⟨⟨hmin₂, hmax₂⟩, hcodepoint⟩ := htail hc₂
    rw [toNat_and_mask first 0x0f 4 rfl] at hmiddle
    refine hchar [first, c₁, c₂] (fun hallowed => ?_) h rfl
    simp [scalarAllowed] at hallowed
    exact .three (by omega) (by omega) (by omega) (by omega) (by omega)
  split at h
  · rename_i hfirst
    simp only [UInt8.le_iff_toNat_le, UInt8.toNat_ofNat] at hfirst
    rcases rest with _ | ⟨c₁, _ | ⟨c₂, _ | ⟨c₃, rest⟩⟩⟩
    · cases h
    · cases h
    · cases h
    obtain ⟨second, hc₁, h⟩ := Option.bind_eq_some_iff.mp h
    obtain ⟨third, hc₂, h⟩ := Option.bind_eq_some_iff.mp h
    obtain ⟨codepoint, hc₃, h⟩ := Option.bind_eq_some_iff.mp h
    obtain ⟨⟨hmin₁, hmax₁⟩, hsecond⟩ := htail hc₁
    obtain ⟨⟨hmin₂, hmax₂⟩, hthird⟩ := htail hc₂
    obtain ⟨⟨hmin₃, hmax₃⟩, hcodepoint⟩ := htail hc₃
    rw [toNat_and_mask first 0x07 3 rfl] at hsecond
    refine hchar [first, c₁, c₂, c₃] (fun hallowed => ?_) h rfl
    simp [scalarAllowed] at hallowed
    exact .four (by omega) (by omega) (by omega) (by omega) (by omega) (by omega)
  · cases h

/-- What the decoder accepts is the encoding of a text. -/
theorem exists_text_of_visitUtf8 {value : Bytes} {scalars : List ℕ}
    (h : visitUtf8 value = some scalars) :
    ∃ text : List Char, value = encode text ∧ scalars = text.map Char.toNat := by
  induction hlength : value.length using Nat.strongRecOn generalizing value scalars with
  | _ length ih =>
    rcases value with _ | ⟨first, rest⟩
    · rw [visitUtf8.eq_def] at h
      exact ⟨[], rfl, (Option.some.inj h).symm⟩
    obtain ⟨c, later, hsplit, others, hothers, rfl⟩ := exists_char_of_visitUtf8 h
    have hshorter : later.length < length := by
      have hpos : 0 < (String.utf8EncodeChar c).length := by
        obtain ⟨_, _, hhead, -⟩ := exists_head c
        rw [hhead]
        exact Nat.succ_pos _
      rw [← hlength, hsplit, List.length_append]
      omega
    obtain ⟨text, rfl, rfl⟩ := ih later.length hshorter hothers rfl
    exact ⟨c :: text, by rw [hsplit, encode_cons], rfl⟩

theorem visitUtf8_eq_some {value : Bytes} {scalars : List ℕ} : visitUtf8 value = some scalars ↔
    ∃ text : List Char, value = encode text ∧ scalars = text.map Char.toNat := by
  constructor
  · exact exists_text_of_visitUtf8
  · rintro ⟨text, rfl, rfl⟩
    exact visitUtf8_encode text

theorem isValidUtf8_iff {value : Bytes} : isValidUtf8 value ↔
    ∃ text : List Char, value = encode text := by
  rw [isValidUtf8, Option.isSome_iff_exists]
  constructor
  · rintro ⟨scalars, h⟩
    obtain ⟨text, hvalue, -⟩ := exists_text_of_visitUtf8 h
    exact ⟨text, hvalue⟩
  · rintro ⟨text, rfl⟩
    exact ⟨_, visitUtf8_encode text⟩

theorem isValidUtf8_encode (text : List Char) : isValidUtf8 (encode text) :=
  isValidUtf8_iff.mpr ⟨text, rfl⟩

theorem encode_injective : Function.Injective encode := by
  intro left right h
  have hscalars := visitUtf8_encode left
  rw [h, visitUtf8_encode, Option.some.injEq] at hscalars
  exact (List.map_injective_iff.mpr fun _ _ => Char.toNat_inj.mp) hscalars.symm

end Lora
