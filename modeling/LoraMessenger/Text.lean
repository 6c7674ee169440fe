/-
Validated text: UTF-8 decoding and the two text types of a post.

`visitUtf8` is the decoder every text check runs; it accepts only shortest
encodings of scalar values and returns the scalars in order.  `validateText`
runs the checks in the order of the source, since the first one to fail is
the error that is reported.  `UserId` and `PostBody` carry the proof that
their bytes pass.
-/
import LoraMessenger.Uuid

namespace Lora

def kMaxUserIdBytes : ℕ := 24
def kMaxPostBodyBytes : ℕ := 160
def kMaxMentions : ℕ := 4
def kMaxQueuedLocalPosts : ℕ := 16
def kMaxTimelineEntries : ℕ := 256

inductive TextError where
  | none
  | empty
  | tooLong
  | invalidUtf8
  | forbiddenCharacter
  | edgeWhitespace
deriving DecidableEq

/-! ### Decoding -/

/-- One continuation byte: six more bits, or a failure. -/
def continuation (codepoint : ℕ) (byte : UInt8) : Option ℕ :=
  if byte &&& 0xc0 = 0x80 then some ((codepoint <<< 6) ||| (byte &&& 0x3f).toNat) else none

/-- The checks made once all bytes of a scalar are in: shortest form, no
surrogate, inside the code space. -/
def scalarAllowed (count codepoint : ℕ) : Bool :=
  !((count == 2 && codepoint < 0x80) || (count == 3 && codepoint < 0x800) ||
    (count == 4 && codepoint < 0x10000) || (0xd800 ≤ codepoint && codepoint ≤ 0xdfff) ||
    0x10ffff < codepoint)

/-- The decoder.  The leading byte announces the length; each continuation
byte is folded into the code point before the final checks. -/
def visitUtf8 : Bytes → Option (List ℕ)
  | [] => some []
  | first :: rest =>
    if first ≤ 0x7f then
      (visitUtf8 rest).map (first.toNat :: ·)
    else if 0xc2 ≤ first ∧ first ≤ 0xdf then
      match rest with
      | c₁ :: rest => do
        let codepoint ← continuation (first &&& 0x1f).toNat c₁
        if scalarAllowed 2 codepoint then (visitUtf8 rest).map (codepoint :: ·) else none
      | _ => none
    else if 0xe0 ≤ first ∧ first ≤ 0xef then
      match rest with
      | c₁ :: c₂ :: rest => do
        let codepoint ← continuation (first &&& 0x0f).toNat c₁
        let codepoint ← continuation codepoint c₂
        if scalarAllowed 3 codepoint then (visitUtf8 rest).map (codepoint :: ·) else none
      | _ => none
    else if 0xf0 ≤ first ∧ first ≤ 0xf4 then
      match rest with
      | c₁ :: c₂ :: c₃ :: rest => do
        let codepoint ← continuation (first &&& 0x07).toNat c₁
        let codepoint ← continuation codepoint c₂
        let codepoint ← continuation codepoint c₃
        if scalarAllowed 4 codepoint then (visitUtf8 rest).map (codepoint :: ·) else none
      | _ => none
    else none

def isValidUtf8 (value : Bytes) : Bool := (visitUtf8 value).isSome

/-! ### What the decoder accepts -/

/-- ASCII, and groups of other bytes that are read whatever follows them. -/
inductive Utf8 : Bytes → Prop
  | nil : Utf8 []
  | byte {first : UInt8} {rest : Bytes} (hfirst : first ≤ 0x7f) (hrest : Utf8 rest) :
    Utf8 (first :: rest)
  | group {bytes rest : Bytes} (hbytes : ∀ byte ∈ bytes, ¬byte ≤ 0x7f)
    (hread : ∀ more, isValidUtf8 (bytes ++ more) = isValidUtf8 more) (hrest : Utf8 rest) :
    Utf8 (bytes ++ rest)

theorem isValidUtf8_byte {first : UInt8} (hfirst : first ≤ 0x7f) (rest : Bytes) :
    isValidUtf8 (first :: rest) = isValidUtf8 rest := by
  simp only [isValidUtf8]
  rw [visitUtf8.eq_def]
  simp only [if_pos hfirst, Option.isSome_map]

theorem lt_of_continuation {codepoint result : ℕ} {byte : UInt8}
    (h : continuation codepoint byte = some result) : ¬byte ≤ 0x7f := by
  rw [continuation] at h
  split at h
  · rename_i hmask
    have hle : (byte &&& 0xc0).toNat ≤ byte.toNat := by
      rw [UInt8.toNat_and]
      exact Nat.and_le_left
    rw [hmask] at hle
    rw [UInt8.not_le, UInt8.lt_iff_toNat_lt]
    exact hle
  · cases h

/-- A zero byte is a character of its own. -/
theorem zero_mem_of_visitUtf8 {value : Bytes} {codepoints : List ℕ}
    (h : visitUtf8 value = some codepoints) (hzero : 0 ∈ value) : 0 ∈ codepoints := by
  have hcontinuation {codepoint result : ℕ} {byte : UInt8}
      (hread : continuation codepoint byte = some result) : (0 : UInt8) ≠ byte := by
    rintro rfl
    exact lt_of_continuation hread (by decide)
  induction hn : value.length using Nat.strongRecOn generalizing value codepoints with
  | _ n ih =>
    subst hn
    rcases value with _ | ⟨first, rest⟩
    · cases hzero
    -- What follows a group of bytes is shorter than the whole.
    have hlater {count codepoint : ℕ} {later : Bytes}
      (hlength : later.length < (first :: rest).length)
        (hread : (if scalarAllowed count codepoint then (visitUtf8 later).map (codepoint :: ·)
          else none) = some codepoints) (hmem : 0 ∈ later) : 0 ∈ codepoints := by
      split at hread
      · obtain ⟨tail, htail, rfl⟩ := Option.map_eq_some_iff.mp hread
        exact List.mem_cons_of_mem _ (ih later.length hlength htail hmem rfl)
      · cases hread
    rw [visitUtf8.eq_def] at h
    dsimp only at h
    split at h
    · obtain ⟨tail, htail, rfl⟩ := Option.map_eq_some_iff.mp h
      rcases List.mem_cons.mp hzero with rfl | hzero
      · simp
      · exact List.mem_cons_of_mem _ (ih rest.length (by simp) htail hzero rfl)
    rename_i hfirst
    have hfirst : (0 : UInt8) ≠ first := by
      rintro rfl
      exact hfirst (by decide)
    have hrest := (List.mem_cons.mp hzero).resolve_left hfirst
    split at h
    · rcases rest with _ | ⟨c₁, rest⟩
      · cases h
      obtain ⟨codepoint, hc₁, h⟩ := Option.bind_eq_some_iff.mp h
      refine hlater (by simp only [List.length_cons]; omega) h ?_
      simpa [hcontinuation hc₁] using hrest
    split at h
    · rcases rest with _ | ⟨c₁, _ | ⟨c₂, rest⟩⟩
      · cases h
      · cases h
      obtain ⟨codepoint, hc₁, h⟩ := Option.bind_eq_some_iff.mp h
      obtain ⟨codepoint, hc₂, h⟩ := Option.bind_eq_some_iff.mp h
      refine hlater (by simp only [List.length_cons]; omega) h ?_
      simpa [hcontinuation hc₁, hcontinuation hc₂] using hrest
    split at h
    · rcases rest with _ | ⟨c₁, _ | ⟨c₂, _ | ⟨c₃, rest⟩⟩⟩
      · cases h
      · cases h
      · cases h
      obtain ⟨codepoint, hc₁, h⟩ := Option.bind_eq_some_iff.mp h
      obtain ⟨codepoint, hc₂, h⟩ := Option.bind_eq_some_iff.mp h
      obtain ⟨codepoint, hc₃, h⟩ := Option.bind_eq_some_iff.mp h
      refine hlater (by simp only [List.length_cons]; omega) h ?_
      simpa [hcontinuation hc₁, hcontinuation hc₂, hcontinuation hc₃] using hrest
    · cases h

/-- The continuation bytes of one group. -/
def continueGroup : ℕ → Bytes → Option ℕ
  | codepoint, [] => some codepoint
  | codepoint, byte :: bytes => (continuation codepoint byte).bind (continueGroup · bytes)

theorem lt_of_continueGroup {codepoint result : ℕ} {bytes : Bytes}
    (h : continueGroup codepoint bytes = some result) : ∀ byte ∈ bytes, ¬byte ≤ 0x7f := by
  induction bytes generalizing codepoint with
  | nil => simp
  | cons byte bytes ih =>
    obtain ⟨next, hnext, hlater⟩ := Option.bind_eq_some_iff.mp h
    exact List.forall_mem_cons.mpr ⟨lt_of_continuation hnext, ih hlater⟩

/-- A group is accepted or not whatever follows it. -/
def Groups (first : UInt8) (bytes : Bytes) : Prop :=
  ∃ codepoint, ∀ more, isValidUtf8 (first :: (bytes ++ more)) =
    ((continueGroup codepoint bytes).any (scalarAllowed (bytes.length + 1)) && isValidUtf8 more)

theorem groups_two {first c₁ : UInt8} (hfirst : ¬first ≤ 0x7f)
    (htwo : 0xc2 ≤ first ∧ first ≤ 0xdf) : Groups first [c₁] := by
  refine ⟨(first &&& 0x1f).toNat, fun more => ?_⟩
  rw [isValidUtf8, visitUtf8.eq_def]
  simp only [if_neg hfirst, if_pos htwo, List.cons_append, List.nil_append, continueGroup,
    isValidUtf8]
  generalize continuation (first &&& 0x1f).toNat c₁ = decoded
  rcases decoded with _ | codepoint
  · rfl
  · rcases hscalar : scalarAllowed 2 codepoint <;> simp [hscalar]

theorem groups_three {first c₁ c₂ : UInt8} (hfirst : ¬first ≤ 0x7f)
    (htwo : ¬(0xc2 ≤ first ∧ first ≤ 0xdf)) (hthree : 0xe0 ≤ first ∧ first ≤ 0xef) :
    Groups first [c₁, c₂] := by
  refine ⟨(first &&& 0x0f).toNat, fun more => ?_⟩
  rw [isValidUtf8, visitUtf8.eq_def]
  simp only [if_neg hfirst, if_neg htwo, if_pos hthree, List.cons_append, List.nil_append,
    continueGroup, isValidUtf8]
  rcases continuation (first &&& 0x0f).toNat c₁ with _ | codepoint
  · rfl
  rcases hdecoded : continuation codepoint c₂ with _ | codepoint
  · simp [hdecoded]
  · rcases hscalar : scalarAllowed 3 codepoint <;> simp [hdecoded, hscalar]

theorem groups_four {first c₁ c₂ c₃ : UInt8} (hfirst : ¬first ≤ 0x7f)
    (htwo : ¬(0xc2 ≤ first ∧ first ≤ 0xdf)) (hthree : ¬(0xe0 ≤ first ∧ first ≤ 0xef))
    (hfour : 0xf0 ≤ first ∧ first ≤ 0xf4) : Groups first [c₁, c₂, c₃] := by
  refine ⟨(first &&& 0x07).toNat, fun more => ?_⟩
  rw [isValidUtf8, visitUtf8.eq_def]
  simp only [if_neg hfirst, if_neg htwo, if_neg hthree, if_pos hfour, List.cons_append,
    List.nil_append, continueGroup, isValidUtf8]
  rcases continuation (first &&& 0x07).toNat c₁ with _ | codepoint
  · rfl
  rcases hdecoded : continuation codepoint c₂ with _ | codepoint
  · simp [hdecoded]
  rcases hdecoded' : continuation codepoint c₃ with _ | codepoint
  · simp [hdecoded, hdecoded']
  · rcases hscalar : scalarAllowed 4 codepoint <;> simp [hdecoded, hdecoded', hscalar]

theorem exists_groups {first : UInt8} {rest : Bytes} (hfirst : ¬first ≤ 0x7f)
    (h : isValidUtf8 (first :: rest)) :
    ∃ bytes later, rest = bytes ++ later ∧ Groups first bytes := by
  rw [isValidUtf8, visitUtf8.eq_def] at h
  simp only [if_neg hfirst] at h
  by_cases htwo : 0xc2 ≤ first ∧ first ≤ 0xdf
  · rcases rest with _ | ⟨c₁, rest⟩
    · simp [htwo] at h
    · exact ⟨[c₁], rest, rfl, groups_two hfirst htwo⟩
  by_cases hthree : 0xe0 ≤ first ∧ first ≤ 0xef
  · rcases rest with _ | ⟨c₁, _ | ⟨c₂, rest⟩⟩
    · simp [htwo, hthree] at h
    · simp [htwo, hthree] at h
    · exact ⟨[c₁, c₂], rest, rfl, groups_three hfirst htwo hthree⟩
  by_cases hfour : 0xf0 ≤ first ∧ first ≤ 0xf4
  · rcases rest with _ | ⟨c₁, _ | ⟨c₂, _ | ⟨c₃, rest⟩⟩⟩
    · simp [htwo, hthree, hfour] at h
    · simp [htwo, hthree, hfour] at h
    · simp [htwo, hthree, hfour] at h
    · exact ⟨[c₁, c₂, c₃], rest, rfl, groups_four hfirst htwo hthree hfour⟩
  · simp [htwo, hthree, hfour] at h

theorem utf8_of_isValidUtf8 {value : Bytes} (h : isValidUtf8 value) : Utf8 value := by
  induction hn : value.length using Nat.strongRecOn generalizing value with
  | _ n ih =>
    subst hn
    rcases value with _ | ⟨first, rest⟩
    · exact .nil
    by_cases hfirst : first ≤ 0x7f
    · rw [isValidUtf8_byte hfirst] at h
      exact .byte hfirst (ih rest.length (by simp) h rfl)
    obtain ⟨bytes, later, rfl, codepoint, hgroup⟩ := exists_groups hfirst h
    rw [hgroup, Bool.and_eq_true] at h
    cases hdecoded : continueGroup codepoint bytes with
    | none => simp [hdecoded] at h
    | some result =>
      have hbytes : ∀ byte ∈ first :: bytes, ¬byte ≤ 0x7f :=
        List.forall_mem_cons.mpr ⟨hfirst, lt_of_continueGroup hdecoded⟩
      have hshorter : later.length < (first :: (bytes ++ later)).length := by
        rw [List.length_cons, List.length_append]
        omega
      refine .group hbytes (fun more => ?_) (ih later.length hshorter h.2 rfl)
      rw [List.cons_append, hgroup, h.1, Bool.true_and]

theorem Utf8.isValidUtf8 {value : Bytes} (h : Utf8 value) : isValidUtf8 value := by
  induction h with
  | nil => rfl
  | byte hfirst _ ih => rwa [isValidUtf8_byte hfirst]
  | group _ hread _ ih => rwa [hread]

theorem Utf8.append {value rest : Bytes} (h : Utf8 value) (hrest : Utf8 rest) :
    Utf8 (value ++ rest) := by
  induction h with
  | nil => exact hrest
  | byte hfirst _ ih => exact .byte hfirst ih
  | group hbytes hread _ ih =>
    rw [List.append_assoc]
    exact .group hbytes hread ih

theorem utf8_ascii {value : Bytes} (h : ∀ byte ∈ value, byte ≤ 0x7f) : Utf8 value := by
  induction value with
  | nil => exact .nil
  | cons byte value ih =>
    obtain ⟨hbyte, hvalue⟩ := List.forall_mem_cons.mp h
    exact .byte hbyte (ih hvalue)

/-! ### Character classes -/

def isWhitespace (codepoint : ℕ) : Bool :=
  codepoint ∈ [0x0009, 0x000a, 0x000b, 0x000c, 0x000d, 0x0020, 0x0085, 0x00a0, 0x1680,
    0x2000, 0x2001, 0x2002, 0x2003, 0x2004, 0x2005, 0x2006, 0x2007, 0x2008, 0x2009, 0x200a,
    0x2028, 0x2029, 0x202f, 0x205f, 0x3000]

def isBidiFormat (codepoint : ℕ) : Bool :=
  codepoint == 0x061c || codepoint == 0x200e || codepoint == 0x200f ||
    (0x202a ≤ codepoint && codepoint ≤ 0x202e) || (0x2066 ≤ codepoint && codepoint ≤ 0x2069)

def isUnicodeLineSeparator (codepoint : ℕ) : Bool :=
  codepoint == 0x2028 || codepoint == 0x2029

def isNoncharacter (codepoint : ℕ) : Bool :=
  (0xfdd0 ≤ codepoint && codepoint ≤ 0xfdef) || (codepoint &&& 0xffff) == 0xfffe ||
    (codepoint &&& 0xffff) == 0xffff

def isControl (codepoint : ℕ) : Bool :=
  codepoint ≤ 0x1f || (0x7f ≤ codepoint && codepoint ≤ 0x9f)

/-- The line feed is the one control character a body may hold. -/
def isForbidden (userId : Bool) (codepoint : ℕ) : Bool :=
  (isControl codepoint && !(!userId && codepoint == 0x000a)) ||
    isUnicodeLineSeparator codepoint || isBidiFormat codepoint || isNoncharacter codepoint

def validateText (value : Bytes) (maximumBytes : ℕ) (userId : Bool) : TextError :=
  if value.isEmpty then .empty
  else if value.length > maximumBytes then .tooLong
  else match visitUtf8 value with
    | none => .invalidUtf8
    | some codepoints =>
      if codepoints.any (isForbidden userId) then .forbiddenCharacter
      else if !codepoints.any (!isWhitespace ·) then .empty
      else if userId && (isWhitespace (codepoints.headD 0) ||
          isWhitespace (codepoints.getLastD 0)) then .edgeWhitespace
      else .none

theorem length_le_of_validateText {value : Bytes} {maximumBytes : ℕ} {userId : Bool}
    (h : validateText value maximumBytes userId = .none) : value.length ≤ maximumBytes := by
  by_contra hlong
  rw [validateText] at h
  by_cases hempty : value.isEmpty
  · rw [if_pos hempty] at h
    cases h
  · rw [if_neg hempty, if_pos (by omega)] at h
    cases h

theorem length_pos_of_validateText {value : Bytes} {maximumBytes : ℕ} {userId : Bool}
    (h : validateText value maximumBytes userId = .none) : 0 < value.length := by
  rcases value with _ | ⟨byte, value⟩
  · simp [validateText] at h
  · simp

theorem isValidUtf8_of_validateText {value : Bytes} {maximumBytes : ℕ} {userId : Bool}
    (h : validateText value maximumBytes userId = .none) : isValidUtf8 value := by
  rw [isValidUtf8]
  rw [validateText] at h
  split at h
  · cases h
  split at h
  · cases h
  split at h
  · cases h
  · rw [‹visitUtf8 value = _›]
    rfl

theorem zero_notMem_of_validateText {value : Bytes} {maximumBytes : ℕ} {userId : Bool}
    (h : validateText value maximumBytes userId = .none) : 0 ∉ value := by
  intro hzero
  rw [validateText] at h
  split at h
  · cases h
  split at h
  · cases h
  split at h
  · cases h
  rename_i codepoints hread
  have hforbidden : codepoints.any (isForbidden userId) := by
    refine List.any_eq_true.mpr ⟨0, zero_mem_of_visitUtf8 hread hzero, ?_⟩
    cases userId <;> rfl
  rw [if_pos hforbidden] at h
  cases h

/-! ### The two text types -/

/-- A display name. -/
structure UserId where
  value : Bytes
  valid : validateText value kMaxUserIdBytes true = .none
deriving DecidableEq

def UserId.create (value : Bytes) : Except TextError UserId :=
  if h : validateText value kMaxUserIdBytes true = .none then .ok ⟨value, h⟩
  else .error (validateText value kMaxUserIdBytes true)

/-- The text of a post. -/
structure PostBody where
  value : Bytes
  valid : validateText value kMaxPostBodyBytes false = .none
deriving DecidableEq

def PostBody.create (value : Bytes) : Except TextError PostBody :=
  if h : validateText value kMaxPostBodyBytes false = .none then .ok ⟨value, h⟩
  else .error (validateText value kMaxPostBodyBytes false)

theorem UserId.create_eq_ok {value : Bytes} {text : UserId} :
    UserId.create value = .ok text ↔ text.value = value := by
  rw [UserId.create, Guard.dite_ok_eq_ok]
  constructor
  · rintro ⟨_, rfl⟩
    rfl
  · rintro rfl
    exact ⟨text.valid, rfl⟩

theorem PostBody.create_eq_ok {value : Bytes} {text : PostBody} :
    PostBody.create value = .ok text ↔ text.value = value := by
  rw [PostBody.create, Guard.dite_ok_eq_ok]
  constructor
  · rintro ⟨_, rfl⟩
    rfl
  · rintro rfl
    exact ⟨text.valid, rfl⟩

end Lora
