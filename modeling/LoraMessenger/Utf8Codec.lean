/-
UTF-8, byte by byte.

The encoding of a character is that of `String.utf8EncodeChar`.  Here it is taken
apart: how many bytes a character has, what each of them is in numbers, and which
bytes can stand at the start of a character and which only further on.

* `Form` — the four kinds of characters with their bytes, `form_utf8EncodeChar`;
* `IsTail` — the bytes that only continue a character;
* `encode` — the bytes of a text.
-/
import Mathlib.Algebra.Group.Nat.Defs
import Mathlib.Data.Char
import Mathlib.Data.Nat.Notation

namespace Utf8Codec

/-- A byte that continues a character. -/
def IsTail (byte : UInt8) : Prop := 0x80 ≤ byte.toNat ∧ byte.toNat < 0xc0

instance (byte : UInt8) : Decidable (IsTail byte) := inferInstanceAs (Decidable (_ ∧ _))

/-- The bytes of a number, by its size. -/
inductive Form (scalar : ℕ) : List UInt8 → Prop
  | one {first : UInt8} (hsize : scalar < 0x80) (hfirst : first.toNat = scalar) :
    Form scalar [first]
  | two {first c₁ : UInt8} (hmin : 0x80 ≤ scalar) (hmax : scalar < 0x800)
    (hfirst : first.toNat = 0xc0 + scalar / 64) (hc₁ : c₁.toNat = 0x80 + scalar % 64) :
    Form scalar [first, c₁]
  | three {first c₁ c₂ : UInt8} (hmin : 0x800 ≤ scalar) (hmax : scalar < 0x10000)
    (hfirst : first.toNat = 0xe0 + scalar / 4096) (hc₁ : c₁.toNat = 0x80 + scalar / 64 % 64)
    (hc₂ : c₂.toNat = 0x80 + scalar % 64) : Form scalar [first, c₁, c₂]
  | four {first c₁ c₂ c₃ : UInt8} (hmin : 0x10000 ≤ scalar) (hmax : scalar < 0x110000)
    (hfirst : first.toNat = 0xf0 + scalar / 262144) (hc₁ : c₁.toNat = 0x80 + scalar / 4096 % 64)
    (hc₂ : c₂.toNat = 0x80 + scalar / 64 % 64) (hc₃ : c₃.toNat = 0x80 + scalar % 64) :
    Form scalar [first, c₁, c₂, c₃]

/-- A number has at most one form. -/
theorem Form.unique {scalar : ℕ} {left right : List UInt8} (hleft : Form scalar left)
    (hright : Form scalar right) : left = right := by
  cases hleft with
  | one => cases hright with
    | one => simp only [List.cons.injEq, and_true, ← UInt8.toNat_inj]; omega
    | two | three | four => omega
  | two => cases hright with
    | two => simp only [List.cons.injEq, and_true, ← UInt8.toNat_inj]; omega
    | one | three | four => omega
  | three => cases hright with
    | three => simp only [List.cons.injEq, and_true, ← UInt8.toNat_inj]; omega
    | one | two | four => omega
  | four => cases hright with
    | four => simp only [List.cons.injEq, and_true, ← UInt8.toNat_inj]; omega
    | one | two | three => omega

theorem toNat_lt (c : Char) : c.toNat < 0xd800 ∨ 0xdfff < c.toNat ∧ c.toNat < 0x110000 := c.valid

theorem form_utf8EncodeChar (c : Char) : Form c.toNat (String.utf8EncodeChar c) := by
  have hrange := toNat_lt c
  have hbyte : ∀ n < 256, (UInt8.ofNat n).toNat = n := fun n hn => by
    rw [UInt8.toNat_ofNat']
    exact Nat.mod_eq_of_lt hn
  unfold String.utf8EncodeChar
  show Form c.toNat (if c.toNat ≤ 0x7f then _ else _)
  split
  · exact .one (by omega) (hbyte c.toNat (by omega))
  show Form c.toNat (if c.toNat ≤ 0x7ff then _ else _)
  split
  · refine .two (by omega) (by omega) ((hbyte _ (by omega)).trans ?_)
      ((hbyte _ (by omega)).trans ?_)
    · show c.toNat / 64 % 0x20 + 0xc0 = _
      omega
    · show c.toNat % 0x40 + 0x80 = _
      omega
  show Form c.toNat (if c.toNat ≤ 0xffff then _ else _)
  split
  · refine .three (by omega) (by omega) ((hbyte _ (by omega)).trans ?_)
      ((hbyte _ (by omega)).trans ?_) ((hbyte _ (by omega)).trans ?_)
    · show c.toNat / 4096 % 0x10 + 0xe0 = _
      omega
    · show c.toNat / 64 % 0x40 + 0x80 = _
      omega
    · show c.toNat % 0x40 + 0x80 = _
      omega
  · refine .four (by omega) (by omega) ((hbyte _ (by omega)).trans ?_)
      ((hbyte _ (by omega)).trans ?_) ((hbyte _ (by omega)).trans ?_)
        ((hbyte _ (by omega)).trans ?_)
    · show c.toNat / 262144 % 0x08 + 0xf0 = _
      omega
    · show c.toNat / 4096 % 0x40 + 0x80 = _
      omega
    · show c.toNat / 64 % 0x40 + 0x80 = _
      omega
    · show c.toNat % 0x40 + 0x80 = _
      omega

theorem Form.eq_utf8EncodeChar {c : Char} {bytes : List UInt8} (h : Form c.toNat bytes) :
    bytes = String.utf8EncodeChar c :=
  h.unique (form_utf8EncodeChar c)

/-- A number that is no surrogate is that of a character. -/
theorem exists_char {scalar : ℕ} (hrange : scalar < 0x110000)
    (hsurrogate : ¬(0xd800 ≤ scalar ∧ scalar ≤ 0xdfff)) : ∃ c : Char, c.toNat = scalar := by
  have hvalid : scalar.isValidChar := by
    rw [Nat.isValidChar]
    omega
  exact ⟨Char.ofNatAux scalar hvalid, rfl⟩

/-- A character has a first byte, which is no tail, and the others are tails. -/
theorem exists_head (c : Char) : ∃ first tail, String.utf8EncodeChar c = first :: tail ∧
    ¬IsTail first ∧ (∀ byte ∈ tail, IsTail byte) ∧ tail.length ≤ 3 := by
  have hrange := toNat_lt c
  generalize hbytes : String.utf8EncodeChar c = bytes
  have hform := form_utf8EncodeChar c
  rw [hbytes] at hform
  cases hform with
  | one hsize hfirst =>
    refine ⟨_, [], rfl, ?_, by simp, by simp⟩
    rw [IsTail]
    omega
  | two hmin hmax hfirst hc₁ =>
    refine ⟨_, _, rfl, ?_, ?_, by simp⟩
    · rw [IsTail]
      omega
    · simp only [List.mem_singleton, forall_eq, IsTail]
      omega
  | three hmin hmax hfirst hc₁ hc₂ =>
    refine ⟨_, _, rfl, ?_, ?_, by simp⟩
    · rw [IsTail]
      omega
    · simp only [List.mem_cons, List.not_mem_nil, or_false, forall_eq_or_imp, forall_eq, IsTail]
      omega
  | four hmin hmax hfirst hc₁ hc₂ hc₃ =>
    refine ⟨_, _, rfl, ?_, ?_, by simp⟩
    · rw [IsTail]
      omega
    · simp only [List.mem_cons, List.not_mem_nil, or_false, forall_eq_or_imp, forall_eq, IsTail]
      omega

/-- A byte below 0x80 stands for a character of its own. -/
theorem mem_utf8EncodeChar {c : Char} {byte : UInt8} (hbyte : byte.toNat < 0x80) :
    byte ∈ String.utf8EncodeChar c ↔ c.toNat = byte.toNat := by
  have hform := form_utf8EncodeChar c
  generalize String.utf8EncodeChar c = bytes at hform
  cases hform with
  | one | two | three | four =>
    simp only [List.mem_cons, List.not_mem_nil, or_false, ← UInt8.toNat_inj]
    omega

theorem head_eq_iff {c : Char} {first byte : UInt8} {tail : List UInt8}
    (h : String.utf8EncodeChar c = first :: tail) (hbyte : byte.toNat < 0x80) :
    first = byte ↔ c.toNat = byte.toNat := by
  have hform := form_utf8EncodeChar c
  rw [h] at hform
  rw [← UInt8.toNat_inj]
  cases hform with
  | one | two | three | four => omega

/-! ### Bits -/

section Bits

variable {scalar : ℕ}

/-- The marker bits of a byte do not overlap with what it carries. -/
theorem toNat_or (bits : ℕ) {marker value : ℕ} (hmarker : marker = 2 ^ bits * (marker / 2 ^ bits))
    (hvalue : value < 2 ^ bits) (hbyte : marker + value < 256) :
    (marker ||| value).toUInt8.toNat = marker + value := by
  rw [hmarker, ← Nat.two_pow_add_eq_or_of_lt hvalue, ← hmarker]
  show (UInt8.ofNat _).toNat = _
  rw [UInt8.toNat_ofNat', Nat.mod_eq_of_lt hbyte]

theorem toNat_or_tail (value : ℕ) : (0x80 ||| value &&& 0x3f).toUInt8.toNat =
    0x80 + value % 64 := by
  rw [show (0x3f : ℕ) = 2 ^ 6 - 1 from rfl, Nat.and_two_pow_sub_one_eq_mod]
  exact toNat_or 6 rfl (Nat.mod_lt _ (by decide)) (by omega)

theorem form_one (hmax : scalar ≤ 0x7f) : Form scalar [scalar.toUInt8] := by
  refine .one (by omega) ?_
  show (UInt8.ofNat _).toNat = _
  rw [UInt8.toNat_ofNat']
  omega

theorem form_two (hmin : ¬scalar ≤ 0x7f) (hmax : scalar ≤ 0x7ff) :
    Form scalar [(0xc0 ||| scalar >>> 6).toUInt8, (0x80 ||| scalar &&& 0x3f).toUInt8] := by
  refine .two (by omega) (by omega) ?_ (toNat_or_tail scalar)
  rw [Nat.shiftRight_eq_div_pow]
  exact toNat_or 5 rfl (by omega) (by omega)

theorem form_three (hmin : ¬scalar ≤ 0x7ff) (hmax : scalar ≤ 0xffff) :
    Form scalar [(0xe0 ||| scalar >>> 12).toUInt8, (0x80 ||| scalar >>> 6 &&& 0x3f).toUInt8,
      (0x80 ||| scalar &&& 0x3f).toUInt8] := by
  refine .three (by omega) (by omega) ?_ ?_ (toNat_or_tail scalar)
  · rw [Nat.shiftRight_eq_div_pow]
    exact toNat_or 4 rfl (by omega) (by omega)
  · rw [toNat_or_tail, Nat.shiftRight_eq_div_pow]

theorem form_four (hmin : ¬scalar ≤ 0xffff) (hmax : scalar ≤ 0x10ffff) :
    Form scalar [(0xf0 ||| scalar >>> 18).toUInt8, (0x80 ||| scalar >>> 12 &&& 0x3f).toUInt8,
      (0x80 ||| scalar >>> 6 &&& 0x3f).toUInt8, (0x80 ||| scalar &&& 0x3f).toUInt8] := by
  refine .four (by omega) (by omega) ?_ ?_ ?_ (toNat_or_tail scalar)
  · rw [Nat.shiftRight_eq_div_pow]
    exact toNat_or 3 rfl (by omega) (by omega)
  · rw [toNat_or_tail, Nat.shiftRight_eq_div_pow]
  · rw [toNat_or_tail, Nat.shiftRight_eq_div_pow]

end Bits

/-! ### Texts -/

/-- The bytes of a text. -/
def encode (text : List Char) : List UInt8 := text.flatMap String.utf8EncodeChar

@[simp] theorem encode_nil : encode [] = [] := rfl

theorem encode_cons (c : Char) (text : List Char) :
    encode (c :: text) = String.utf8EncodeChar c ++ encode text := rfl

@[simp] theorem encode_append (left right : List Char) :
    encode (left ++ right) = encode left ++ encode right := List.flatMap_append

theorem mem_encode {text : List Char} {byte : UInt8} (hbyte : byte.toNat < 0x80) :
    byte ∈ encode text ↔ ∃ c ∈ text, c.toNat = byte.toNat := by
  rw [encode, List.mem_flatMap]
  simp only [mem_utf8EncodeChar hbyte]

theorem length_le_encode (text : List Char) : text.length ≤ (encode text).length := by
  induction text with
  | nil => exact le_refl _
  | cons c text ih =>
    obtain ⟨first, tail, hbytes, -⟩ := exists_head c
    rw [encode_cons, hbytes, List.length_append, List.length_cons, List.length_cons]
    omega

theorem encode_eq_nil {text : List Char} : encode text = [] ↔ text = [] := by
  rcases text with _ | ⟨c, text⟩
  · exact iff_of_true rfl rfl
  · refine iff_of_false ?_ (List.cons_ne_nil c text)
    rw [encode_cons]
    simp [String.utf8EncodeChar_ne_nil]

theorem encode_singleton (c : Char) : encode [c] = String.utf8EncodeChar c := List.append_nil _

end Utf8Codec
