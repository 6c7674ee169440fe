/-
Buffers filled chunk by chunk, and the bitmap of what has been filled.

`slice` reads a part of a list, `splice` overwrites one.  A splice is read
back by the slice at its own place and leaves every slice beside it alone.
The bitmap is a natural number; `bitmap_complete` says when the first
`count` bits are all there are.
-/
import Mathlib.Data.List.Basic
import Mathlib.Data.Nat.Bitwise

namespace Chunks

variable {α : Type*}

/-- The `size` entries from `offset` on. -/
def slice (data : List α) (offset size : ℕ) : List α := (data.drop offset).take size

/-- Overwrite the entries from `offset` on with `chunk`. -/
def splice (data : List α) (offset : ℕ) (chunk : List α) : List α :=
  data.take offset ++ chunk ++ data.drop (offset + chunk.length)

theorem length_splice {data chunk : List α} {offset : ℕ} (h : offset + chunk.length ≤ data.length) :
    (splice data offset chunk).length = data.length := by
  simp only [splice, List.length_append, List.length_take, List.length_drop]
  omega

theorem getElem?_splice {data chunk : List α} {offset : ℕ}
    (h : offset + chunk.length ≤ data.length) (index : ℕ) :
    (splice data offset chunk)[index]? =
      if offset ≤ index ∧ index < offset + chunk.length then chunk[index - offset]?
      else data[index]? := by
  have hoffset : (data.take offset).length = offset := by
    rw [List.length_take]
    omega
  rw [splice, List.append_assoc]
  by_cases hbefore : index < offset
  · rw [List.getElem?_append_left (by omega), List.getElem?_take_of_lt hbefore,
      if_neg (by omega)]
  rw [List.getElem?_append_right (by omega), hoffset]
  by_cases hinside : index < offset + chunk.length
  · rw [List.getElem?_append_left (by omega), if_pos (by omega)]
  · rw [List.getElem?_append_right (by omega), List.getElem?_drop, if_neg (by omega)]
    congr 1
    omega

theorem getElem?_slice (data : List α) (offset size index : ℕ) :
    (slice data offset size)[index]? = if index < size then data[offset + index]? else none := by
  rw [slice, List.getElem?_take]
  split
  · rw [List.getElem?_drop]
  · rfl

/-- What was written is read back. -/
theorem slice_splice_self {data chunk : List α} {offset : ℕ}
    (h : offset + chunk.length ≤ data.length) :
    slice (splice data offset chunk) offset chunk.length = chunk := by
  refine List.ext_getElem? fun index => ?_
  rw [getElem?_slice]
  split
  · rename_i hlt
    rw [getElem?_splice h, if_pos (by omega), Nat.add_sub_cancel_left]
  · rename_i hge
    rw [List.getElem?_eq_none (by omega)]

/-- Slices beside the written part are left alone. -/
theorem slice_splice_of_disjoint {data chunk : List α} {offset other size : ℕ}
    (h : offset + chunk.length ≤ data.length)
    (hdisjoint : other + size ≤ offset ∨ offset + chunk.length ≤ other) :
    slice (splice data offset chunk) other size = slice data other size := by
  refine List.ext_getElem? fun index => ?_
  rw [getElem?_slice, getElem?_slice]
  split
  · rw [getElem?_splice h, if_neg (by omega)]
  · rfl

/-- Cutting a list into chunks of one size and joining them again, up to a
whole number of chunks. -/
theorem flatMap_slice (capacity : ℕ) (data : List α) (count : ℕ) :
    (List.range count).flatMap (fun index =>
      slice data (index * capacity) (min capacity (data.length - index * capacity))) =
      data.take (count * capacity) := by
  induction count with
  | zero => simp
  | succ count ih =>
    rw [List.range_succ, List.flatMap_append, ih, Nat.succ_mul, List.take_add]
    congr 1
    rw [List.flatMap_cons, List.flatMap_nil, List.append_nil, slice]
    rcases Nat.le_total capacity (data.length - count * capacity) with h | h
    · rw [Nat.min_eq_left h]
    · rw [Nat.min_eq_right h, List.take_of_length_le (by rw [List.length_drop]),
        List.take_of_length_le (by rw [List.length_drop]; omega)]

/-! ### The bitmap -/

theorem testBit_mark (bitmap index other : ℕ) :
    (bitmap ||| 1 <<< index).testBit other = (bitmap.testBit other || decide (index = other)) := by
  rw [Nat.testBit_or, Nat.one_shiftLeft, Nat.testBit_two_pow]

theorem and_mark_ne_zero {bitmap index : ℕ} :
    bitmap &&& 1 <<< index ≠ 0 ↔ bitmap.testBit index = true := by
  rw [Nat.one_shiftLeft, Nat.and_two_pow]
  cases bitmap.testBit index <;> simp

theorem bitmap_complete {bitmap count : ℕ} (h : bitmap = (1 <<< count) - 1) (index : ℕ) :
    bitmap.testBit index = true ↔ index < count := by
  rw [h, Nat.one_shiftLeft, Nat.testBit_two_pow_sub_one, decide_eq_true_eq]

theorem bitmap_eq_complete {bitmap count : ℕ}
    (h : ∀ index, bitmap.testBit index = true ↔ index < count) : bitmap = (1 <<< count) - 1 := by
  refine Nat.eq_of_testBit_eq fun index => ?_
  rw [Nat.one_shiftLeft, Nat.testBit_two_pow_sub_one, Bool.eq_iff_iff, h, decide_eq_true_eq]

end Chunks
