/-
The UTF-8 codecs agree.

Texts are decoded by `visitUtf8` and, in scripts, by `decodeUtf8Scalars`; they are encoded
by the editor and by the reader of JSON escapes.  All of them are compared with the
encoding of a list of characters.

* `visitUtf8_cons` — one turn of `visitUtf8`, in the words of the script parser;
* `decodeUtf8Scalars_eq_ok` — what the script parser decodes;
* `utf8_codecs_agree` — the comparison.
-/
import LoraMessenger.ScriptParser
import LoraMessenger.TextEditor

namespace Lora

open Utf8Codec

namespace Script

theorem continuationByte_eq : continuationByte = continuation := by
  funext codepoint byte
  rw [continuationByte, continuation]
  by_cases h : byte &&& 0xc0 = 0x80
  · rw [if_neg (not_not.mpr h), if_pos h]
  · rw [if_pos h, if_neg h]

theorem isForbiddenForm_eq (count codepoint : ℕ) :
    isForbiddenForm count codepoint = !scalarAllowed count codepoint := by
  rw [isForbiddenForm, scalarAllowed, Bool.not_not]
  rfl

/-- `visitUtf8` decodes scalar by scalar, too. -/
theorem visitUtf8_cons (first : UInt8) (rest : Bytes) :
    visitUtf8 (first :: rest) = (leadingByte first).bind fun (codepoint, count) =>
      if count > rest.length + 1 then none
      else ((rest.take (count - 1)).foldlM continuation codepoint).bind fun codepoint =>
        if scalarAllowed count codepoint then (visitUtf8 (rest.drop (count - 1))).map
          (codepoint :: ·)
        else none := by
  rw [visitUtf8.eq_def, leadingByte]
  dsimp only
  split
  · rename_i hfirst
    have hallowed : scalarAllowed 1 first.toNat = true := by
      rw [UInt8.le_iff_toNat_le] at hfirst
      simp only [UInt8.toNat_ofNat] at hfirst
      simp [scalarAllowed]
      omega
    simp [hallowed]
  split
  · rcases rest with _ | ⟨c₁, rest⟩
    · rfl
    · rw [Option.bind_some, if_neg (by simp only [List.length_cons]; omega)]
      simp
  split
  · rcases rest with _ | ⟨c₁, _ | ⟨c₂, rest⟩⟩
    · rfl
    · rfl
    · rw [Option.bind_some, if_neg (by simp only [List.length_cons]; omega)]
      simp [Option.bind_assoc]
  split
  · rcases rest with _ | ⟨c₁, _ | ⟨c₂, _ | ⟨c₃, rest⟩⟩⟩
    · rfl
    · rfl
    · rfl
    · rw [Option.bind_some, if_neg (by simp only [List.length_cons]; omega)]
      simp [Option.bind_assoc]
  · rfl

/-- One turn of the script parser's decoder is one of `visitUtf8`, with a safe scalar. -/
theorem decodeScalar_ok {first : UInt8} {rest later : Bytes} {scalar : ℕ}
    (h : decodeScalar first rest = .ok (scalar, later)) :
    isUnsafeTextScalar scalar = false ∧ later.length ≤ rest.length ∧
      visitUtf8 (first :: rest) = (visitUtf8 later).map (scalar :: ·) := by
  rw [decodeScalar, continuationByte_eq] at h
  rw [visitUtf8_cons]
  generalize leadingByte first = leading at h ⊢
  rcases leading with _ | ⟨codepoint, count⟩
  · cases h
  dsimp only at h
  rw [Guard.ite_error_eq_ok] at h
  obtain ⟨hcount, h⟩ := h
  rw [Option.bind_some]
  dsimp only
  rw [if_neg hcount]
  generalize (rest.take (count - 1)).foldlM continuation codepoint = scalar at h ⊢
  rcases scalar with _ | codepoint
  · cases h
  dsimp only at h
  rw [Guard.ite_error_eq_ok, Guard.ite_error_eq_ok, isForbiddenForm_eq, Bool.not_eq_true,
    Bool.not_eq_false', Except.ok.injEq, Prod.mk.injEq] at h
  obtain ⟨hallowed, hsafe, rfl, rfl⟩ := h
  rw [Option.bind_some, if_pos hallowed]
  refine ⟨Bool.not_eq_true _ ▸ hsafe, ?_, rfl⟩
  rw [List.length_drop]
  exact Nat.sub_le _ _

/-- Where only the script parser fails, the scalar is not safe. -/
theorem decodeScalar_error {first : UInt8} {rest : Bytes} {diagnostic : String} {scalars : List ℕ}
    (h : decodeScalar first rest = .error diagnostic)
    (hvisit : visitUtf8 (first :: rest) = some scalars) :
    ∃ scalar ∈ scalars, isUnsafeTextScalar scalar = true := by
  rw [decodeScalar, continuationByte_eq] at h
  rw [visitUtf8_cons] at hvisit
  generalize leadingByte first = leading at h hvisit
  rcases leading with _ | ⟨codepoint, count⟩
  · cases hvisit
  rw [Option.bind_some] at hvisit
  dsimp only at h hvisit
  split at h
  · rename_i hcount
    rw [if_pos hcount] at hvisit
    cases hvisit
  rename_i hcount
  rw [if_neg hcount] at hvisit
  generalize (rest.take (count - 1)).foldlM continuation codepoint = scalar at h hvisit
  rcases scalar with _ | codepoint
  · cases hvisit
  rw [Option.bind_some] at hvisit
  dsimp only at h
  split at hvisit
  · rename_i hallowed
    obtain ⟨others, -, rfl⟩ := Option.map_eq_some_iff.mp hvisit
    rw [if_neg (by rw [isForbiddenForm_eq, hallowed]; decide)] at h
    split at h
    · exact ⟨codepoint, List.mem_cons_self, ‹_›⟩
    · cases h
  · cases hvisit

theorem decodeScalars_nil {turns : ℕ} {before result : List ℕ} :
    decodeScalars turns before [] = .ok result ↔
      ∃ scalars, visitUtf8 [] = some scalars ∧
        (∀ scalar ∈ scalars, isUnsafeTextScalar scalar = false) ∧ result = before ++ scalars := by
  have hvisit : visitUtf8 [] = some [] := visitUtf8_encode []
  rw [decodeScalars, hvisit, Except.ok.injEq]
  constructor
  · rintro rfl
    exact ⟨[], rfl, List.forall_mem_nil _, (List.append_nil _).symm⟩
  · rintro ⟨scalars, hscalars, -, rfl⟩
    rw [← Option.some.inj hscalars, List.append_nil]

theorem decodeScalars_eq_ok {turns : ℕ} {before result : List ℕ} {value : Bytes}
    (hturns : value.length ≤ turns) :
    decodeScalars turns before value = .ok result ↔
      ∃ scalars, visitUtf8 value = some scalars ∧
        (∀ scalar ∈ scalars, isUnsafeTextScalar scalar = false) ∧ result = before ++ scalars := by
  induction turns generalizing before value with
  | zero =>
    obtain rfl := List.eq_nil_of_length_eq_zero (Nat.le_zero.mp hturns)
    exact decodeScalars_nil
  | succ turns ih =>
    rcases value with _ | ⟨first, rest⟩
    · exact decodeScalars_nil
    rw [decodeScalars]
    rcases hscalar : decodeScalar first rest with diagnostic | ⟨scalar, later⟩
    · constructor
      · rintro ⟨⟩
      · rintro ⟨scalars, hvisit, hsafe, -⟩
        obtain ⟨scalar, hmem, hunsafe⟩ := decodeScalar_error hscalar hvisit
        rw [hsafe scalar hmem] at hunsafe
        cases hunsafe
    · obtain ⟨hsafe, hshorter, hvisit⟩ := decodeScalar_ok hscalar
      rw [List.length_cons] at hturns
      dsimp only
      rw [ih (by omega), hvisit]
      constructor
      · rintro ⟨scalars, hlater, hscalars, rfl⟩
        refine ⟨scalar :: scalars, by rw [hlater]; rfl, ?_, by simp⟩
        exact List.forall_mem_cons.mpr ⟨hsafe, hscalars⟩
      · rintro ⟨scalars, hlater, hscalars, rfl⟩
        obtain ⟨others, hothers, rfl⟩ := Option.map_eq_some_iff.mp hlater
        exact ⟨others, hothers, (List.forall_mem_cons.mp hscalars).2, by simp⟩

/-- What the script parser decodes. -/
theorem decodeUtf8Scalars_eq_ok {value : Bytes} {scalars : List ℕ} :
    decodeUtf8Scalars value = .ok scalars ↔
      value ≠ [] ∧ visitUtf8 value = some scalars ∧
        ∀ scalar ∈ scalars, isUnsafeTextScalar scalar = false := by
  have hloop {result : List ℕ} : decodeScalars value.length [] value = .ok result ↔
      visitUtf8 value = some result ∧ ∀ scalar ∈ result, isUnsafeTextScalar scalar = false := by
    rw [decodeScalars_eq_ok (le_refl value.length)]
    simp
  have hempty : visitUtf8 value = some [] ↔ value = [] := by
    rw [visitUtf8_eq_some]
    simp [eq_comm]
  rw [decodeUtf8Scalars]
  rcases hresult : decodeScalars value.length [] value with diagnostic | result
  · refine iff_of_false (fun h => by cases h) fun h => ?_
    rw [hloop.mpr h.2] at hresult
    cases hresult
  · obtain ⟨hvisit, hsafe⟩ := hloop.mp hresult
    dsimp only
    rw [Guard.ite_error_eq_ok, Except.ok.injEq, hvisit, Option.some.injEq, Ne, ← hempty, hvisit,
      Option.some.injEq]
    constructor
    · rintro ⟨hne, rfl⟩
      exact ⟨hne, rfl, hsafe⟩
    · rintro ⟨hne, rfl, -⟩
      exact ⟨hne, rfl⟩

end Script

/-! ### The encoders -/

theorem appendUtf8_char (c : Char) : JsonParser.appendUtf8 c.toNat = String.utf8EncodeChar c := by
  have hrange := toNat_lt c
  refine Form.eq_utf8EncodeChar ?_
  rw [JsonParser.appendUtf8]
  split
  · exact form_one ‹_›
  split
  · exact form_two ‹_› ‹_›
  split
  · exact form_three ‹_› ‹_›
  · exact form_four ‹_› (by omega)

/-- **One encoding.**  `visitUtf8` accepts the encodings of lists of characters, each of one
list only, and returns their numbers.  The script parser accepts of these the ones that are
not empty and have safe characters only, and returns the same numbers.  What the editor or
the reader of JSON escapes writes for a list of characters is accepted as that list. -/
theorem utf8_codecs_agree :
    (∀ value scalars, visitUtf8 value = some scalars ↔
      ∃ text : List Char, value = text.flatMap String.utf8EncodeChar ∧
        scalars = text.map Char.toNat) ∧
    (∀ left right : List Char,
      left.flatMap String.utf8EncodeChar = right.flatMap String.utf8EncodeChar → left = right) ∧
    (∀ value scalars, Script.decodeUtf8Scalars value = .ok scalars ↔
      value ≠ [] ∧ visitUtf8 value = some scalars ∧
        ∀ scalar ∈ scalars, Script.isUnsafeTextScalar scalar = false) ∧
    ∀ text : List Char,
      visitUtf8 (text.flatMap fun c => encodeUtf8 c.toNat) = some (text.map Char.toNat) ∧
      visitUtf8 (text.flatMap fun c => JsonParser.appendUtf8 c.toNat) =
        some (text.map Char.toNat) := by
  refine ⟨fun _ _ => visitUtf8_eq_some, fun _ _ h => encode_injective h,
    fun _ _ => Script.decodeUtf8Scalars_eq_ok, fun text => ⟨?_, ?_⟩⟩
  · simp only [encodeUtf8_char]
    exact visitUtf8_encode text
  · simp only [appendUtf8_char]
    exact visitUtf8_encode text

end Lora
