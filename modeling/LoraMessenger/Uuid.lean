/-
Raw UUIDs, and the two identifiers the messenger builds from them.

A `Uuid` is any sixteen bytes.  `InstallId` and `MessageId` carry the proof
that their UUID is a version-4 one, so a value of either type cannot be built
from anything else; `fromUuid` is the check that produces them.
-/
import LoraMessenger.Guard
import Mathlib.Data.List.Basic

namespace Lora

/-- Byte strings, as `std::vector<std::uint8_t>` and `std::string` hold them. -/
abbrev Bytes := List UInt8

/-- Sixteen raw bytes. -/
structure Uuid where
  bytes : Bytes
  length_bytes : bytes.length = 16
deriving DecidableEq

namespace Uuid

/-- `copy_n` of sixteen bytes; callers have checked that they are there. -/
def read (data : Bytes) : Uuid :=
  ⟨(List.range 16).map fun index => data.getD index 0, by simp⟩

def isNil (uuid : Uuid) : Bool := uuid.bytes.all (· == 0)

def isV4 (uuid : Uuid) : Bool :=
  !uuid.isNil && (uuid.bytes.getD 6 0 &&& 0xf0) == 0x40 &&
    (uuid.bytes.getD 8 0 &&& 0xc0) == 0x80

/-! ### Hexadecimal text -/

def hexValue (value : UInt8) : Option ℕ :=
  if 0x30 ≤ value ∧ value ≤ 0x39 then some (value.toNat - 0x30)
  else if 0x61 ≤ value ∧ value ≤ 0x66 then some (value.toNat - 0x61 + 10)
  else if 0x41 ≤ value ∧ value ≤ 0x46 then some (value.toNat - 0x41 + 10)
  else none

/-- `kHex[nibble]`. -/
def hexDigit (nibble : ℕ) : UInt8 :=
  if nibble < 10 then (0x30 + nibble).toUInt8 else (0x61 + (nibble - 10)).toUInt8

theorem hexValue_hexDigit {nibble : ℕ} (h : nibble < 16) :
    hexValue (hexDigit nibble) = some nibble := by
  have hall : ∀ nibble < 16, hexValue (hexDigit nibble) = some nibble := by decide
  exact hall nibble h

def hexByte (byte : UInt8) : Bytes := [hexDigit (byte.toNat / 16), hexDigit (byte.toNat % 16)]

/-- The positions of the dashes. -/
def dashes : List ℕ := [8, 13, 18, 23]

/-- Two hexadecimal digits for each byte. -/
def parsePairs : Bytes → Option Bytes
  | high :: low :: rest =>
    match hexValue high, hexValue low, parsePairs rest with
    | some high, some low, some bytes => some ((high <<< 4 ||| low).toUInt8 :: bytes)
    | _, _, _ => none
  | [] => some []
  | _ => none

def parse (value : Bytes) : Option Uuid :=
  if value.length ≠ 36 ∨ ¬∀ index ∈ dashes, value[index]? = some 0x2d then none
  else
    match parsePairs ((value.zipIdx.filter fun item => item.2 ∉ dashes).map Prod.fst) with
    | none => none
    | some bytes => if h : bytes.length = 16 then some ⟨bytes, h⟩ else none

def toString (uuid : Uuid) : Bytes :=
  uuid.bytes.zipIdx.flatMap fun item =>
    (if item.2 ∈ [4, 6, 8, 10] then [0x2d] else []) ++ hexByte item.1

theorem parsePairs_hexByte (bytes : Bytes) : parsePairs (bytes.flatMap hexByte) = some bytes := by
  induction bytes with
  | nil => rfl
  | cons byte bytes ih =>
    have hlt : byte.toNat < 256 := byte.toNat_lt
    have hjoin : ∀ n < 256, (n / 16) <<< 4 ||| n % 16 = n := by decide +kernel
    simp only [List.flatMap_cons, hexByte, List.cons_append, List.nil_append, parsePairs, ih,
      hexValue_hexDigit (show byte.toNat / 16 < 16 by omega),
      hexValue_hexDigit (show byte.toNat % 16 < 16 by omega), hjoin _ hlt]
    simp

/-- Every UUID is read back from its text. -/
theorem parse_toString (uuid : Uuid) : parse uuid.toString = some uuid := by
  obtain ⟨bytes, hlength⟩ := uuid
  have hpairs := parsePairs_hexByte bytes
  let [a, b, c, d, e, f, g, h, i, j, k, l, m, n, o, p] := bytes
  have hdashes : ∀ index ∈ dashes,
      (toString ⟨[a, b, c, d, e, f, g, h, i, j, k, l, m, n, o, p], hlength⟩)[index]? =
        some 0x2d := by
    intro index hindex
    simp only [dashes, List.mem_cons, List.not_mem_nil, or_false] at hindex
    rcases hindex with rfl | rfl | rfl | rfl <;> rfl
  have hdigits : ((toString ⟨[a, b, c, d, e, f, g, h, i, j, k, l, m, n, o, p],
      hlength⟩).zipIdx.filter fun item => item.2 ∉ dashes).map Prod.fst =
      [a, b, c, d, e, f, g, h, i, j, k, l, m, n, o, p].flatMap hexByte := rfl
  rw [parse, if_neg (by rw [not_or, not_not, not_not]; exact ⟨rfl, hdashes⟩), hdigits, hpairs]
  rfl

theorem length_toString (uuid : Uuid) : uuid.toString.length = 36 := by
  obtain ⟨bytes, hlength⟩ := uuid
  let [a, b, c, d, e, f, g, h, i, j, k, l, m, n, o, p] := bytes
  rfl

theorem toString_le (uuid : Uuid) : ∀ byte ∈ uuid.toString, byte ≤ 0x7f := by
  have hdigit : ∀ nibble < 16, hexDigit nibble ≤ 0x7f := by decide
  intro byte hbyte
  simp only [toString, hexByte, List.mem_flatMap, List.mem_append, List.mem_cons,
    List.not_mem_nil, or_false] at hbyte
  obtain ⟨item, -, hdash | rfl | rfl⟩ := hbyte
  · split at hdash
    · rw [List.mem_singleton.mp hdash]
      decide
    · simp at hdash
  · exact hdigit _ (by have := item.1.toNat_lt; omega)
  · exact hdigit _ (by omega)

/-- `IRandomBytes::fill` of sixteen bytes, `none` when it refuses, with the
version and variant bits forced. -/
def generateV4 (random : Option (Vector UInt8 16)) : Option Uuid :=
  random.map fun bytes =>
    ⟨((bytes.toList.set 6 ((bytes.toList.getD 6 0 &&& 0x0f) ||| 0x40)).set 8
      ((bytes.toList.getD 8 0 &&& 0x3f) ||| 0x80)), by simp⟩

@[ext] theorem ext_bytes {left right : Uuid} (h : left.bytes = right.bytes) : left = right := by
  cases left
  cases right
  simp only at h
  subst h
  rfl

/-- Reading where sixteen given bytes stand finds exactly them. -/
theorem read_append (uuid : Uuid) (rest : Bytes) : read (uuid.bytes ++ rest) = uuid := by
  ext1
  refine List.ext_getElem (by simp [read, uuid.length_bytes]) fun index h₁ h₂ => ?_
  simp only [read, List.getElem_map, List.getElem_range]
  rw [List.getD_eq_getElem?_getD, List.getElem?_append_left h₂, List.getElem?_eq_getElem h₂,
    Option.getD_some]

/-- The bytes read are the first sixteen. -/
theorem bytes_read {data : Bytes} (h : 16 ≤ data.length) : (read data).bytes = data.take 16 := by
  refine List.ext_getElem (by simp [read]; omega) fun index h₁ h₂ => ?_
  have hi : index < data.length := by
    simp only [List.length_take] at h₂
    omega
  simp [read, List.getElem_take, hi]

end Uuid

inductive IdError where
  | invalidUuidV4
  | randomUnavailable
deriving DecidableEq

/-- The identity of one installation. -/
structure InstallId where
  uuid : Uuid
  v4 : uuid.isV4 = true
deriving DecidableEq

namespace InstallId

def fromUuid (value : Uuid) : Except IdError InstallId :=
  if h : value.isV4 = true then .ok ⟨value, h⟩ else .error .invalidUuidV4

def generate (random : Option (Vector UInt8 16)) : Except IdError InstallId :=
  match Uuid.generateV4 random with
  | none => .error .randomUnavailable
  | some value => fromUuid value

theorem fromUuid_eq_ok {value : Uuid} {id : InstallId} :
    fromUuid value = .ok id ↔ id.uuid = value := by
  rw [fromUuid, Guard.dite_ok_eq_ok]
  constructor
  · rintro ⟨_, rfl⟩
    rfl
  · rintro rfl
    exact ⟨id.v4, rfl⟩

theorem uuid_inj {left right : InstallId} : left.uuid = right.uuid ↔ left = right := by
  cases left
  cases right
  simp

end InstallId

/-- The identity of one post. -/
structure MessageId where
  uuid : Uuid
  v4 : uuid.isV4 = true
deriving DecidableEq

namespace MessageId

def fromUuid (value : Uuid) : Except IdError MessageId :=
  if h : value.isV4 = true then .ok ⟨value, h⟩ else .error .invalidUuidV4

def generate (random : Option (Vector UInt8 16)) : Except IdError MessageId :=
  match Uuid.generateV4 random with
  | none => .error .randomUnavailable
  | some value => fromUuid value

theorem fromUuid_eq_ok {value : Uuid} {id : MessageId} :
    fromUuid value = .ok id ↔ id.uuid = value := by
  rw [fromUuid, Guard.dite_ok_eq_ok]
  constructor
  · rintro ⟨_, rfl⟩
    rfl
  · rintro rfl
    exact ⟨id.v4, rfl⟩

theorem uuid_inj {left right : MessageId} : left.uuid = right.uuid ↔ left = right := by
  cases left
  cases right
  simp

end MessageId

end Lora
