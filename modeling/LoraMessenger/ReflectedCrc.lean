/-
Reflected cyclic redundancy checks.

A register of `width` bits is shifted out bit by bit; for a bit that is set the
polynomial is subtracted.  The register is linear in all that goes into it, and if
the polynomial has its highest bit then no two registers become the same, so that
what goes in within one width of the register cannot cancel.

* `step_xor`, `step_injective` — a step is linear and loses nothing;
* `update_eq` — up to a register's width of bytes goes in as one word;
* `update_burst` — bytes that differ within one width have different checks.
-/
import Mathlib.Data.BitVec
import Mathlib.Logic.Function.Iterate

namespace ReflectedCrc

variable {width : ℕ} (polynomial : BitVec width)

def step (register : BitVec width) : BitVec width :=
  (register >>> 1) ^^^ if register.getLsbD 0 then polynomial else 0

/-- A byte goes in at the low end and is shifted out. -/
def feed (register : BitVec width) (byte : BitVec 8) : BitVec width :=
  (step polynomial)^[8] (register ^^^ byte.setWidth width)

def update (register : BitVec width) (bytes : List (BitVec 8)) : BitVec width :=
  bytes.foldl (feed polynomial) register

/-- The bytes as one word, the first one lowest. -/
def packed (width : ℕ) : List (BitVec 8) → BitVec width
  | [] => 0
  | byte :: bytes => byte.setWidth width ^^^ (packed width bytes <<< 8)

variable {polynomial} {left right register : BitVec width} {bytes : List (BitVec 8)}

/-! ### One step -/

theorem getLsbD_step (register : BitVec width) (index : ℕ) :
    (step polynomial register).getLsbD index =
      (register.getLsbD (index + 1) ^^ (register.getLsbD 0 && polynomial.getLsbD index)) := by
  rw [step, BitVec.getLsbD_xor, BitVec.getLsbD_ushiftRight, Nat.add_comm 1 index]
  rcases register.getLsbD 0 with _ | _
  · simp
  · simp

theorem step_xor : step polynomial (left ^^^ right) =
    step polynomial left ^^^ step polynomial right := by
  apply BitVec.eq_of_getLsbD_eq
  intro index _
  simp only [BitVec.getLsbD_xor, getLsbD_step, Bool.and_xor_distrib_right, Bool.xor_assoc,
    Bool.xor_left_comm]

/-- The highest bit comes from the polynomial alone. -/
theorem eq_zero_of_step_eq_zero (hpolynomial : polynomial.msb = true)
    (h : step polynomial register = BitVec.ofNat width 0) : register = BitVec.ofNat width 0 := by
  have hbits (index : ℕ) : (register.getLsbD (index + 1) ^^
      (register.getLsbD 0 && polynomial.getLsbD index)) = false := by
    rw [← getLsbD_step, h, BitVec.getLsbD_zero]
  rw [BitVec.msb_eq_getLsbD_last] at hpolynomial
  have hlow : register.getLsbD 0 = false := by
    have hhigh := hbits (width - 1)
    rw [BitVec.getLsbD_of_ge _ _ (by omega), hpolynomial] at hhigh
    simpa using hhigh
  apply BitVec.eq_of_getLsbD_eq
  intro index _
  rw [BitVec.getLsbD_zero]
  cases index with
  | zero => exact hlow
  | succ index => simpa [hlow] using hbits index

theorem step_injective (hpolynomial : polynomial.msb = true) :
    Function.Injective (step polynomial) := by
  intro left right h
  rw [← BitVec.xor_eq_zero_iff] at h ⊢
  rw [← step_xor] at h
  exact eq_zero_of_step_eq_zero hpolynomial h

theorem iterate_step_xor (n : ℕ) : (step polynomial)^[n] (left ^^^ right) =
    (step polynomial)^[n] left ^^^ (step polynomial)^[n] right := by
  induction n generalizing left right with
  | zero => rfl
  | succ n ih => rw [Function.iterate_succ_apply, step_xor, ih, ← Function.iterate_succ_apply,
      ← Function.iterate_succ_apply]

theorem iterate_step_injective (hpolynomial : polynomial.msb = true) (n : ℕ) :
    Function.Injective (step polynomial)^[n] :=
  (step_injective hpolynomial).iterate n

/-- Bits that are not yet at the low end are only shifted. -/
theorem iterate_step_shiftLeft {n : ℕ}
    (h : ∀ index, width ≤ index + n → register.getLsbD index = false) :
    (step polynomial)^[n] (register <<< n) = register := by
  induction n with
  | zero => simp
  | succ n ih =>
    have hstep : step polynomial (register <<< (n + 1)) = register <<< n := by
      apply BitVec.eq_of_getLsbD_eq
      intro index hindex
      have hlow : (register <<< (n + 1)).getLsbD 0 = false := by simp
      have hnext : index + 1 - (n + 1) = index - n := by omega
      rw [getLsbD_step, hlow, Bool.false_and, Bool.xor_false, BitVec.getLsbD_shiftLeft,
        BitVec.getLsbD_shiftLeft, hnext]
      by_cases hbelow : index < n
      · simp [hbelow]
      by_cases hlast : index + 1 < width
      · simp [hbelow, hlast, hindex]
      · rw [h (index - n) (by omega), Bool.and_false, Bool.and_false]
    rw [Function.iterate_succ_apply, hstep]
    exact ih fun index hindex => h index (by omega)

/-! ### Several bytes -/

/-- Beyond the bytes there is nothing. -/
theorem getLsbD_packed_of_ge {index : ℕ} (h : 8 * bytes.length ≤ index) :
    (packed width bytes).getLsbD index = false := by
  induction bytes generalizing index with
  | nil => exact BitVec.getLsbD_zero
  | cons byte bytes ih =>
    rw [List.length_cons] at h
    rw [packed, BitVec.getLsbD_xor, BitVec.getLsbD_setWidth, BitVec.getLsbD_shiftLeft,
      ih (by omega), BitVec.getLsbD_of_ge _ _ (by omega)]
    simp

/-- Up to a register's width of bytes goes in as one word. -/
theorem update_eq (h : 8 * bytes.length ≤ width) (register : BitVec width) :
    update polynomial register bytes =
      (step polynomial)^[8 * bytes.length] (register ^^^ packed width bytes) := by
  induction bytes generalizing register with
  | nil => simp [update, packed]
  | cons byte bytes ih =>
    rw [List.length_cons] at h
    have hrest : (step polynomial)^[8] (packed width bytes <<< 8) = packed width bytes :=
      iterate_step_shiftLeft fun index hindex => getLsbD_packed_of_ge (by omega)
    have hfeed : (step polynomial)^[8] ((register ^^^ byte.setWidth width) ^^^
        packed width bytes <<< 8) = feed polynomial register byte ^^^ packed width bytes := by
      rw [iterate_step_xor, hrest, feed]
    calc update polynomial register (byte :: bytes)
        = update polynomial (feed polynomial register byte) bytes := rfl
      _ = (step polynomial)^[8 * bytes.length]
            (feed polynomial register byte ^^^ packed width bytes) := ih (by omega) _
      _ = (step polynomial)^[8 * bytes.length] ((step polynomial)^[8]
            ((register ^^^ byte.setWidth width) ^^^ packed width bytes <<< 8)) := by
          rw [← hfeed]
      _ = (step polynomial)^[8 * (bytes.length + 1)]
        (register ^^^ packed width (byte :: bytes)) := by
          rw [← Function.iterate_add_apply, BitVec.xor_assoc, packed, Nat.mul_succ]

theorem packed_injective {bytes' : List (BitVec 8)} (hlength : bytes.length = bytes'.length)
    (hwidth : 8 * bytes.length ≤ width) (h : packed width bytes = packed width bytes') :
    bytes = bytes' := by
  induction bytes generalizing bytes' with
  | nil => exact (List.length_eq_zero_iff.mp hlength.symm).symm
  | cons byte bytes ih =>
    rcases bytes' with _ | ⟨byte', bytes'⟩
    · cases hlength
    rw [List.length_cons] at hwidth hlength
    rw [List.length_cons, Nat.add_right_cancel_iff] at hlength
    have hbits (index : ℕ) := congrArg (BitVec.getLsbD · index) h
    simp only [packed, BitVec.getLsbD_xor, BitVec.getLsbD_setWidth,
      BitVec.getLsbD_shiftLeft] at hbits
    congr 1
    · apply BitVec.eq_of_getLsbD_eq
      intro index hindex
      simpa [hindex, show index < width by omega] using hbits index
    · refine ih hlength (by omega) (BitVec.eq_of_getLsbD_eq fun index hindex => ?_)
      by_cases hinside : index + 8 < width
      · simpa [hinside, BitVec.getLsbD_of_ge, show ¬index + 8 < 8 by omega] using hbits (index + 8)
      · rw [getLsbD_packed_of_ge (by omega), getLsbD_packed_of_ge (by omega)]

theorem update_append (register : BitVec width) (first second : List (BitVec 8)) :
    update polynomial register (first ++ second) =
      update polynomial (update polynomial register first) second :=
  List.foldl_append ..

theorem update_injective (hpolynomial : polynomial.msb = true) (bytes : List (BitVec 8)) :
    Function.Injective (update polynomial · bytes) := by
  induction bytes with
  | nil => exact fun _ _ h => h
  | cons byte bytes ih =>
    intro left right h
    have hfed : feed polynomial left byte = feed polynomial right byte := ih h
    exact (BitVec.xor_left_inj _).mp (iterate_step_injective hpolynomial 8 hfed)

/-- Bytes that differ within one width of the register have different checks. -/
theorem update_burst (hpolynomial : polynomial.msb = true)
    {before burst burst' after : List (BitVec 8)}
    (hlength : burst.length = burst'.length) (hwidth : 8 * burst.length ≤ width)
    (h : update polynomial register (before ++ (burst ++ after)) =
      update polynomial register (before ++ (burst' ++ after))) : burst = burst' := by
  rw [update_append, update_append, update_append, update_append] at h
  have hburst := update_injective hpolynomial after h
  have hwidth' : 8 * burst'.length ≤ width := hlength ▸ hwidth
  generalize update polynomial register before = start at hburst
  rw [update_eq hwidth, update_eq hwidth', ← hlength] at hburst
  have hword := iterate_step_injective hpolynomial _ hburst
  exact packed_injective hlength hwidth ((BitVec.xor_right_inj _).mp hword)

end ReflectedCrc
