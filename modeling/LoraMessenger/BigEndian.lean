/-
Big-endian byte strings of fixed width.

`toBytes w n` lists the `w` low-order bytes of `n`, most significant first, and
`ofBytes` reads such a list back by shifting an accumulator.  The two are
inverse to each other on the right domains:

* `ofBytes_toBytes` — reading back a number below `256 ^ w` gives the number;
* `toBytes_ofBytes` — every byte string is the rendering of its own value, so
  no two byte strings of one length have the same value.
-/
import Mathlib.Data.List.Induction
import Mathlib.Data.Nat.Bitwise
import Mathlib.Tactic.Ring

namespace BigEndian

/-- The `width` low-order bytes of `value`, most significant byte first. -/
def toBytes (width value : ℕ) : List UInt8 :=
  (List.range width).map fun index => UInt8.ofNat (value >>> (8 * (width - 1 - index)))

/-- Shift-and-or reading of a big-endian byte string. -/
def ofBytes (bytes : List UInt8) : ℕ :=
  bytes.foldl (fun value byte => (value <<< 8) ||| byte.toNat) 0

@[simp] theorem length_toBytes (width value : ℕ) : (toBytes width value).length = width := by
  simp [toBytes]

/-- The last byte carries the low-order eight bits. -/
theorem toBytes_succ (width value : ℕ) :
    toBytes (width + 1) value = toBytes width (value / 256) ++ [UInt8.ofNat value] := by
  rw [toBytes, List.range_succ, List.map_append, toBytes]
  congr 1
  · refine List.map_congr_left fun index hi => ?_
    rw [List.mem_range] at hi
    have hs : 8 * (width + 1 - 1 - index) = 8 + 8 * (width - 1 - index) := by omega
    rw [hs, Nat.shiftRight_add, Nat.shiftRight_eq_div_pow value 8]
  · simp

theorem step_eq (value : ℕ) (byte : UInt8) :
    (value <<< 8) ||| byte.toNat = value * 256 + byte.toNat := by
  rw [← Nat.shiftLeft_add_eq_or_of_lt (by simpa using byte.toNat_lt) value,
    Nat.shiftLeft_eq]

theorem ofBytes_append_singleton (bytes : List UInt8) (byte : UInt8) :
    ofBytes (bytes ++ [byte]) = ofBytes bytes * 256 + byte.toNat := by
  rw [ofBytes, List.foldl_append, List.foldl_cons, List.foldl_nil, step_eq, ← ofBytes]

@[simp] theorem ofBytes_nil : ofBytes [] = 0 := rfl

/-- The first byte weighs most. -/
theorem ofBytes_cons (byte : UInt8) (bytes : List UInt8) :
    ofBytes (byte :: bytes) = byte.toNat * 256 ^ bytes.length + ofBytes bytes := by
  induction bytes using List.reverseRecOn with
  | nil => simp [ofBytes]
  | append_singleton bytes last ih =>
    rw [← List.cons_append, ofBytes_append_singleton, ih, ofBytes_append_singleton,
      List.length_append, List.length_singleton]
    ring

theorem ofBytes_lt (bytes : List UInt8) : ofBytes bytes < 256 ^ bytes.length := by
  induction bytes using List.reverseRecOn with
  | nil => simp
  | append_singleton bytes byte ih =>
    rw [ofBytes_append_singleton, List.length_append, List.length_singleton, pow_succ]
    have hb := byte.toNat_lt
    omega

theorem ofBytes_toBytes {width value : ℕ} (h : value < 256 ^ width) :
    ofBytes (toBytes width value) = value := by
  induction width generalizing value with
  | zero =>
    have hv : value = 0 := by simpa using h
    subst hv
    rfl
  | succ width ih =>
    have hv : value / 256 < 256 ^ width := by
      rw [pow_succ] at h
      exact Nat.div_lt_of_lt_mul (by rwa [Nat.mul_comm])
    rw [toBytes_succ, ofBytes_append_singleton, ih hv]
    simp only [UInt8.toNat_ofNat']
    omega

theorem toBytes_ofBytes (bytes : List UInt8) :
    toBytes bytes.length (ofBytes bytes) = bytes := by
  induction bytes using List.reverseRecOn with
  | nil => rfl
  | append_singleton bytes byte ih =>
    have hb := byte.toNat_lt
    have hdiv : (ofBytes bytes * 256 + byte.toNat) / 256 = ofBytes bytes := by omega
    rw [List.length_append, List.length_singleton, toBytes_succ, ofBytes_append_singleton,
      hdiv, ih]
    congr 2
    apply UInt8.toNat_inj.mp
    simp only [UInt8.toNat_ofNat']
    omega

/-- Reading the field that `toBytes` wrote in front of `rest`. -/
theorem ofBytes_take_append {width value : ℕ} (h : value < 256 ^ width) (rest : List UInt8) :
    ofBytes ((toBytes width value ++ rest).take width) = value := by
  rw [List.take_left' (length_toBytes width value), ofBytes_toBytes h]

theorem toBytes_ofBytes_take {width : ℕ} {data : List UInt8} (h : width ≤ data.length) :
    toBytes width (ofBytes (data.take width)) = data.take width := by
  have hlen : (data.take width).length = width := by
    rw [List.length_take]
    omega
  have hbytes := toBytes_ofBytes (data.take width)
  rwa [hlen] at hbytes

theorem ofBytes_take_lt (width : ℕ) (data : List UInt8) :
    ofBytes (data.take width) < 256 ^ width := by
  refine lt_of_lt_of_le (ofBytes_lt _) (Nat.pow_le_pow_right (by omega) ?_)
  rw [List.length_take]
  omega

end BigEndian
