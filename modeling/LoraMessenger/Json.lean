/-
The JSON parser of the settings file.

The parser works on what is left of its input.  Nesting is limited, so a value
is parsed by recursion on the levels that are still allowed; the loops over the
characters of a string and over the members of an object take a bound on their
number of turns, for which the length of the input is enough.

`jsonString` is the writer's side of a string, and `Parses` says that a piece of
text is read back as a value wherever it is followed by something that ends it.

* `parseString_jsonString` — every byte string survives quoting;
* `parses_object` — an object is read back if its members are.
-/
import LoraMessenger.Text

namespace Lora

/-- The bytes of a text of ASCII characters. -/
def ascii (text : String) : Bytes := text.toList.map fun character => character.toNat.toUInt8

inductive SettingsJsonError where
  | tooLarge
  | invalidUtf8
  | malformedJson
  | excessiveNesting
  | duplicateKey
  | unknownKey
  | missingKey
  | wrongType
  | unsupportedFormat
  | unsupportedSchemaVersion
  | invalidGeneration
  | invalidInstallUuid
  | invalidUserId
  | invalidSenderSequence
  | invalidLocale
deriving DecidableEq

inductive JsonValue where
  | null
  | boolean (value : Bool)
  | number (scalar : Bytes)
  | string (scalar : Bytes)
  | object (members : List (Bytes × JsonValue))
  | array (elements : List JsonValue)

namespace JsonParser

def kMaximumJsonNesting : ℕ := 12

/-- What a part of the parser finds, and what is left of the input. -/
abbrev Parsed (α : Type) := Except SettingsJsonError (α × Bytes)

def malformed {α : Type} : Parsed α := .error .malformedJson

def skipWhitespace (input : Bytes) : Bytes :=
  input.dropWhile fun value => value = 0x20 || value = 0x09 || value = 0x0a || value = 0x0d

def isDigit (value : UInt8) : Bool := 0x30 ≤ value && value ≤ 0x39

/-! ### Strings -/

/-- `parse_hex_quad`. -/
def parseHexQuad : Bytes → Parsed ℕ
  | a :: b :: c :: d :: rest =>
    match Uuid.hexValue a, Uuid.hexValue b, Uuid.hexValue c, Uuid.hexValue d with
    | some a, some b, some c, some d =>
      .ok ((((a <<< 4 ||| b) <<< 4 ||| c) <<< 4) ||| d, rest)
    | _, _, _, _ => malformed
  | _ => malformed

def appendUtf8 (codepoint : ℕ) : Bytes :=
  if codepoint ≤ 0x7f then [codepoint.toUInt8]
  else if codepoint ≤ 0x7ff then
    [(0xc0 ||| codepoint >>> 6).toUInt8, (0x80 ||| codepoint &&& 0x3f).toUInt8]
  else if codepoint ≤ 0xffff then
    [(0xe0 ||| codepoint >>> 12).toUInt8, (0x80 ||| codepoint >>> 6 &&& 0x3f).toUInt8,
      (0x80 ||| codepoint &&& 0x3f).toUInt8]
  else
    [(0xf0 ||| codepoint >>> 18).toUInt8, (0x80 ||| codepoint >>> 12 &&& 0x3f).toUInt8,
      (0x80 ||| codepoint >>> 6 &&& 0x3f).toUInt8, (0x80 ||| codepoint &&& 0x3f).toUInt8]

/-- The second half of a surrogate pair. -/
def parseLowSurrogate (high : ℕ) : Bytes → Parsed ℕ
  | 0x5c :: 0x75 :: rest =>
    match parseHexQuad rest with
    | .error error => .error error
    | .ok (low, rest) =>
      if low < 0xdc00 ∨ low > 0xdfff then malformed
      else .ok (0x10000 + ((high - 0xd800) <<< 10) + (low - 0xdc00), rest)
  | _ => malformed

/-- What follows a backslash: the bytes it stands for. -/
def parseEscape : Bytes → Parsed Bytes
  | [] => malformed
  | escaped :: rest =>
    if escaped = 0x22 then .ok ([0x22], rest)
    else if escaped = 0x5c then .ok ([0x5c], rest)
    else if escaped = 0x2f then .ok ([0x2f], rest)
    else if escaped = 0x62 then .ok ([0x08], rest)
    else if escaped = 0x66 then .ok ([0x0c], rest)
    else if escaped = 0x6e then .ok ([0x0a], rest)
    else if escaped = 0x72 then .ok ([0x0d], rest)
    else if escaped = 0x74 then .ok ([0x09], rest)
    else if escaped = 0x75 then
      match parseHexQuad rest with
      | .error error => .error error
      | .ok (codepoint, rest) =>
        if 0xd800 ≤ codepoint ∧ codepoint ≤ 0xdbff then
          match parseLowSurrogate codepoint rest with
          | .error error => .error error
          | .ok (codepoint, rest) => .ok (appendUtf8 codepoint, rest)
        else if 0xdc00 ≤ codepoint ∧ codepoint ≤ 0xdfff then malformed
        else .ok (appendUtf8 codepoint, rest)
    else malformed

/-- The loop of `parse_string`, behind the opening quote. -/
def parseCharacters : (turns : ℕ) → Bytes → Parsed Bytes
  | 0, _ => malformed
  | _ + 1, [] => malformed
  | turns + 1, value :: rest =>
    if value = 0x22 then .ok ([], rest)
    else if value < 0x20 then malformed
    else if value ≠ 0x5c then
      match parseCharacters turns rest with
      | .error error => .error error
      | .ok (output, rest) => .ok (value :: output, rest)
    else
      match parseEscape rest with
      | .error error => .error error
      | .ok (bytes, rest) =>
        match parseCharacters turns rest with
        | .error error => .error error
        | .ok (output, rest) => .ok (bytes ++ output, rest)

def parseString : Bytes → Parsed Bytes
  | 0x22 :: rest => parseCharacters (rest.length + 1) rest
  | _ => malformed

/-! ### Numbers and literals -/

/-- One digit at least, and all that follow it. -/
def parseDigits (input : Bytes) : Parsed Bytes :=
  match input.takeWhile isDigit with
  | [] => malformed
  | digits => .ok (digits, input.dropWhile isDigit)

/-- The digits before the point: a lone zero, or no leading zero. -/
def parseInteger : Bytes → Parsed Bytes
  | 0x30 :: rest => if rest.head?.any isDigit then malformed else .ok ([0x30], rest)
  | input => parseDigits input

def parseFraction : Bytes → Parsed Bytes
  | 0x2e :: rest =>
    match parseDigits rest with
    | .error error => .error error
    | .ok (digits, rest) => .ok (0x2e :: digits, rest)
  | input => .ok ([], input)

def parseSign : Bytes → Bytes × Bytes
  | sign :: rest => if sign = 0x2b ∨ sign = 0x2d then ([sign], rest) else ([], sign :: rest)
  | [] => ([], [])

def parseExponent : Bytes → Parsed Bytes
  | letter :: rest =>
    if letter = 0x65 ∨ letter = 0x45 then
      let (sign, rest) := parseSign rest
      match parseDigits rest with
      | .error error => .error error
      | .ok (digits, rest) => .ok (letter :: (sign ++ digits), rest)
    else .ok ([], letter :: rest)
  | [] => .ok ([], [])

def parseMinus : Bytes → Bytes × Bytes
  | 0x2d :: rest => ([0x2d], rest)
  | input => ([], input)

/-- `parse_number`: the text of the number as it stands in the input. -/
def parseNumber (input : Bytes) : Parsed Bytes :=
  let (minus, rest) := parseMinus input
  match parseInteger rest with
  | .error error => .error error
  | .ok (integer, rest) =>
    match parseFraction rest with
    | .error error => .error error
    | .ok (fraction, rest) =>
      match parseExponent rest with
      | .error error => .error error
      | .ok (exponent, rest) => .ok (minus ++ integer ++ fraction ++ exponent, rest)

def consumeLiteral (literal : Bytes) (value : JsonValue) (input : Bytes) : Parsed JsonValue :=
  if input.take literal.length = literal then .ok (value, input.drop literal.length)
  else malformed

/-! ### Values -/

section Nested

-- The parser for the values one level down.
variable (nested : Bytes → Parsed JsonValue)

/-- The loop of `parse_object`. -/
def parseMembers : (turns : ℕ) → (members : List (Bytes × JsonValue)) → Bytes → Parsed JsonValue
  | 0, _, _ => malformed
  | turns + 1, members, input =>
    match parseString input with
    | .error error => .error error
    | .ok (key, rest) =>
      if members.any (fun existing => existing.1 = key) then .error .duplicateKey
      else
        match skipWhitespace rest with
        | 0x3a :: rest =>
          match nested (skipWhitespace rest) with
          | .error error => .error error
          | .ok (value, rest) =>
            match skipWhitespace rest with
            | 0x7d :: rest => .ok (.object (members ++ [(key, value)]), rest)
            | 0x2c :: rest => parseMembers turns (members ++ [(key, value)]) (skipWhitespace rest)
            | _ => malformed
        | _ => malformed

def parseObject (input : Bytes) : Parsed JsonValue :=
  match skipWhitespace input with
  | 0x7d :: rest => .ok (.object [], rest)
  | rest => parseMembers nested rest.length [] rest

/-- The loop of `parse_array`. -/
def parseElements : (turns : ℕ) → (elements : List JsonValue) → Bytes → Parsed JsonValue
  | 0, _, _ => malformed
  | turns + 1, elements, input =>
    match input with
    | [] => malformed
    | _ =>
      match nested input with
      | .error error => .error error
      | .ok (value, rest) =>
        match skipWhitespace rest with
        | 0x5d :: rest => .ok (.array (elements ++ [value]), rest)
        | 0x2c :: rest => parseElements turns (elements ++ [value]) (skipWhitespace rest)
        | _ => malformed

def parseArray (input : Bytes) : Parsed JsonValue :=
  match skipWhitespace input with
  | 0x5d :: rest => .ok (.array [], rest)
  | rest => parseElements nested rest.length [] rest

end Nested

/-- `parse_value`, given the parser one level down, if there may be one. -/
def parseToken (nested : Option (Bytes → Parsed JsonValue)) : Bytes → Parsed JsonValue
  | [] => malformed
  | token :: rest =>
    if token = 0x7b then
      match nested with
      | none => .error .excessiveNesting
      | some nested => parseObject nested rest
    else if token = 0x5b then
      match nested with
      | none => .error .excessiveNesting
      | some nested => parseArray nested rest
    else if token = 0x22 then
      match parseString (token :: rest) with
      | .error error => .error error
      | .ok (scalar, rest) => .ok (.string scalar, rest)
    else if token = 0x74 then consumeLiteral (ascii "true") (.boolean true) (token :: rest)
    else if token = 0x66 then consumeLiteral (ascii "false") (.boolean false) (token :: rest)
    else if token = 0x6e then consumeLiteral (ascii "null") .null (token :: rest)
    else if token = 0x2d || isDigit token then
      match parseNumber (token :: rest) with
      | .error error => .error error
      | .ok (scalar, rest) => .ok (.number scalar, rest)
    else malformed

/-- `parse_value` with so many levels of nesting still allowed. -/
def parseValue : (levels : ℕ) → Bytes → Parsed JsonValue
  | 0 => parseToken none
  | levels + 1 => parseToken (some (parseValue levels))

def parse (input : Bytes) : Except SettingsJsonError JsonValue :=
  match parseValue kMaximumJsonNesting (skipWhitespace input) with
  | .error error => .error error
  | .ok (value, rest) => if skipWhitespace rest = [] then .ok value else .error .malformedJson

/-! ### Writing strings -/

/-- How `append_json_string` writes one byte. -/
def escapeByte (character : UInt8) : Bytes :=
  if character = 0x22 then [0x5c, 0x22]
  else if character = 0x5c then [0x5c, 0x5c]
  else if character = 0x08 then [0x5c, 0x62]
  else if character = 0x0c then [0x5c, 0x66]
  else if character = 0x0a then [0x5c, 0x6e]
  else if character = 0x0d then [0x5c, 0x72]
  else if character = 0x09 then [0x5c, 0x74]
  else if character < 0x20 then [0x5c, 0x75, 0x30, 0x30] ++ Uuid.hexByte character
  else [character]

/-- `append_json_string`. -/
def jsonString (value : Bytes) : Bytes := 0x22 :: (value.flatMap escapeByte ++ [0x22])

theorem parseEscape_control {character : UInt8} (h : character < 0x20) (rest : Bytes) :
    parseEscape (0x75 :: 0x30 :: 0x30 :: (Uuid.hexByte character ++ rest)) =
      .ok ([character], rest) := by
  have hlt : character.toNat < 32 := UInt8.lt_iff_toNat_lt.mp h
  have hzero : Uuid.hexValue 0x30 = some 0 := by decide
  have hquad : ∀ n < 32, ((((0 <<< 4 ||| 0) <<< 4 ||| n / 16) <<< 4) ||| n % 16) = n := by decide
  simp only [Uuid.hexByte, List.cons_append, List.nil_append, parseEscape, parseHexQuad, hzero,
    Uuid.hexValue_hexDigit (show character.toNat / 16 < 16 by omega),
    Uuid.hexValue_hexDigit (show character.toNat % 16 < 16 by omega), hquad _ hlt]
  rw [if_neg (by decide), if_neg (by decide), if_neg (by decide), if_neg (by decide),
    if_neg (by decide), if_neg (by decide), if_neg (by decide), if_neg (by decide), if_pos trivial,
    if_neg (by omega), if_neg (by omega), appendUtf8, if_pos (by omega)]
  simp

/-- An escaped byte is read as one character. -/
theorem escapeByte_spec (character : UInt8) :
    escapeByte character = [character] ∧ character ≠ 0x22 ∧ ¬character < 0x20 ∧ character ≠ 0x5c ∨
      ∃ escape, escapeByte character = 0x5c :: escape ∧
        ∀ rest, parseEscape (escape ++ rest) = .ok ([character], rest) := by
  by_cases hquote : character = 0x22
  · exact .inr ⟨[0x22], by simp [escapeByte, hquote], fun rest => by simp [parseEscape, hquote]⟩
  by_cases hbackslash : character = 0x5c
  · exact .inr ⟨[0x5c], by simp [escapeByte, hbackslash],
      fun rest => by simp [parseEscape, hbackslash]⟩
  by_cases hcontrol : character < 0x20
  swap
  · have hlarge : ∀ value : UInt8, value < 0x20 → character ≠ value := by
      rintro value hvalue rfl
      exact hcontrol hvalue
    refine .inl ⟨?_, hquote, hcontrol, hbackslash⟩
    simp [escapeByte, hquote, hbackslash, hcontrol, hlarge 0x08 (by decide),
      hlarge 0x0c (by decide), hlarge 0x0a (by decide), hlarge 0x0d (by decide),
      hlarge 0x09 (by decide)]
  -- Five control characters have a letter of their own, the others are written in hexadecimal.
  right
  by_cases hbackspace : character = 0x08
  · exact ⟨[0x62], by simp [escapeByte, hbackspace], fun rest => by simp [parseEscape, hbackspace]⟩
  by_cases hfeed : character = 0x0c
  · exact ⟨[0x66], by simp [escapeByte, hfeed], fun rest => by simp [parseEscape, hfeed]⟩
  by_cases hline : character = 0x0a
  · exact ⟨[0x6e], by simp [escapeByte, hline], fun rest => by simp [parseEscape, hline]⟩
  by_cases hreturn : character = 0x0d
  · exact ⟨[0x72], by simp [escapeByte, hreturn], fun rest => by simp [parseEscape, hreturn]⟩
  by_cases htab : character = 0x09
  · exact ⟨[0x74], by simp [escapeByte, htab], fun rest => by simp [parseEscape, htab]⟩
  refine ⟨0x75 :: 0x30 :: 0x30 :: Uuid.hexByte character, ?_, ?_⟩
  · simp [escapeByte, hquote, hbackslash, hbackspace, hfeed, hline, hreturn, htab, hcontrol]
  · exact parseEscape_control hcontrol

theorem parseCharacters_escaped (value rest : Bytes) {turns : ℕ} (hturns : value.length < turns) :
    parseCharacters turns (value.flatMap escapeByte ++ 0x22 :: rest) = .ok (value, rest) := by
  induction value generalizing turns with
  | nil =>
    obtain ⟨turns, rfl⟩ := Nat.exists_eq_succ_of_ne_zero (Nat.ne_of_gt hturns)
    rfl
  | cons character value ih =>
    rw [List.length_cons] at hturns
    obtain ⟨turns, rfl⟩ := Nat.exists_eq_succ_of_ne_zero (show turns ≠ 0 by omega)
    have hrest := ih (show value.length < turns by omega)
    rw [List.flatMap_cons, List.append_assoc]
    obtain ⟨hplain, hquote, hcontrol, hbackslash⟩ | ⟨escape, hescape, hparse⟩ :=
      escapeByte_spec character
    · rw [hplain, List.singleton_append, parseCharacters, if_neg hquote, if_neg hcontrol,
        if_pos hbackslash, hrest]
    · rw [hescape, List.cons_append, parseCharacters, if_neg (by decide), if_neg (by decide),
        if_neg (by decide), hparse]
      simp only [hrest, List.singleton_append]

theorem length_le_flatMap_escapeByte (value : Bytes) :
    value.length ≤ (value.flatMap escapeByte).length := by
  induction value with
  | nil => exact Nat.le_refl _
  | cons character value ih =>
    have hone : 1 ≤ (escapeByte character).length := by
      obtain ⟨hplain, -⟩ | ⟨escape, hescape, -⟩ := escapeByte_spec character
      · simp [hplain]
      · simp [hescape]
    rw [List.flatMap_cons, List.length_append, List.length_cons]
    omega

/-- Every byte string survives quoting. -/
theorem parseString_jsonString (value rest : Bytes) :
    parseString (jsonString value ++ rest) = .ok (value, rest) := by
  rw [jsonString, List.cons_append, parseString, List.append_assoc, List.singleton_append]
  refine parseCharacters_escaped value rest ?_
  have := length_le_flatMap_escapeByte value
  simp only [List.length_append, List.length_cons]
  omega

theorem escapeByte_of_lt {byte : UInt8} (h : ¬byte ≤ 0x7f) : escapeByte byte = [byte] := by
  obtain ⟨hplain, -⟩ | ⟨escape, hescape, -⟩ := escapeByte_spec byte
  · exact hplain
  · have hlarge : ∀ value : UInt8, value ≤ 0x7f → byte ≠ value := by
      rintro value hvalue rfl
      exact h hvalue
    have hcontrol : ¬byte < 0x20 := by
      intro hlt
      exact h (UInt8.le_of_lt (UInt8.lt_trans hlt (by decide)))
    simp [escapeByte, hcontrol, hlarge 0x22 (by decide), hlarge 0x5c (by decide),
      hlarge 0x08 (by decide), hlarge 0x0c (by decide), hlarge 0x0a (by decide),
      hlarge 0x0d (by decide), hlarge 0x09 (by decide)]

/-- Quoting keeps a text well formed: the bytes it changes are ASCII. -/
theorem utf8_jsonString {value : Bytes} (h : Utf8 value) : Utf8 (jsonString value) := by
  have hcharacters : Utf8 (value.flatMap escapeByte) := by
    induction h with
    | nil => exact .nil
    | @byte first rest hfirst _ ih =>
      have hall : ∀ n : Fin 128, ∀ byte ∈ escapeByte (UInt8.ofNat n), byte ≤ 0x7f := by
        decide +kernel
      have hlt : first.toNat < 128 := Nat.lt_succ_of_le (UInt8.le_iff_toNat_le.mp hfirst)
      rw [List.flatMap_cons]
      exact .append (utf8_ascii (by simpa using hall ⟨first.toNat, hlt⟩)) ih
    | @group bytes rest hbytes hread _ ih =>
      have hsame : bytes.flatMap escapeByte = bytes := by
        rw [List.flatMap_congr fun byte hbyte => escapeByte_of_lt (hbytes byte hbyte),
          List.flatMap_singleton']
      rw [List.flatMap_append, hsame]
      exact .group hbytes hread ih
  exact .byte (by decide) (hcharacters.append (.byte (by decide) .nil))

theorem length_jsonString_le (value : Bytes) :
    (jsonString value).length ≤ 6 * value.length + 2 := by
  have hcharacters : (value.flatMap escapeByte).length ≤ 6 * value.length := by
    induction value with
    | nil => exact Nat.le_refl _
    | cons character value ih =>
      have hone : (escapeByte character).length ≤ 6 := by
        unfold escapeByte
        repeat' split
        all_goals simp [Uuid.hexByte]
      rw [List.flatMap_cons, List.length_append, List.length_cons]
      omega
  simp only [jsonString, List.length_cons, List.length_append, List.length_nil]
  omega

/-! ### Reading back -/

/-- Something that ends a value inside an object. -/
def Ends (rest : Bytes) : Prop := ∃ more, rest = 0x2c :: more ∨ rest = 0x7d :: more

/-- A text that a parser reads back as a value, with no whitespace before it. -/
structure Parses (nested : Bytes → Parsed JsonValue) (text : Bytes) (value : JsonValue) : Prop where
  starts : ∀ rest, skipWhitespace (text ++ rest) = text ++ rest
  reads : ∀ rest, Ends rest → nested (text ++ rest) = .ok (value, rest)

/-- A member of an object: its key, the text of its value and the value. -/
structure Field where
  key : Bytes
  text : Bytes
  value : JsonValue

def Field.member (field : Field) : Bytes × JsonValue := (field.key, field.value)

/-- The members of an object and the brace that closes it. -/
def fieldsText : List Field → Bytes
  | [] => [0x7d]
  | [field] => jsonString field.key ++ 0x3a :: (field.text ++ [0x7d])
  | field :: fields => jsonString field.key ++ 0x3a :: (field.text ++ 0x2c :: fieldsText fields)

def objectText (fields : List Field) : Bytes := 0x7b :: fieldsText fields

variable {nested : Bytes → Parsed JsonValue}

theorem skipWhitespace_cons {value : UInt8} (rest : Bytes)
    (h : (value = 0x20 || value = 0x09 || value = 0x0a || value = 0x0d) = false) :
    skipWhitespace (value :: rest) = value :: rest := by
  rw [skipWhitespace, List.dropWhile_cons_of_neg (by simpa using h)]

theorem parses_string (nested : Option (Bytes → Parsed JsonValue)) (value : Bytes) :
    Parses (parseToken nested) (jsonString value) (.string value) where
  starts rest := skipWhitespace_cons _ (by decide)
  reads rest _ := by
    have hstring := parseString_jsonString value rest
    simp only [jsonString, List.cons_append] at hstring ⊢
    simp only [parseToken, hstring]
    rfl

theorem parses_boolean (nested : Option (Bytes → Parsed JsonValue)) (value : Bool) :
    Parses (parseToken nested) (ascii (if value then "true" else "false")) (.boolean value) := by
  rcases value with _ | _
  · refine ⟨fun rest => skipWhitespace_cons _ (by decide), fun rest _ => ?_⟩
    show parseToken nested (0x66 :: 0x61 :: 0x6c :: 0x73 :: 0x65 :: rest) = _
    simp [parseToken, consumeLiteral, ascii]
  · refine ⟨fun rest => skipWhitespace_cons _ (by decide), fun rest _ => ?_⟩
    show parseToken nested (0x74 :: 0x72 :: 0x75 :: 0x65 :: rest) = _
    simp [parseToken, consumeLiteral, ascii]

/-- The version of the schema, a number of one digit. -/
theorem parses_two (nested : Option (Bytes → Parsed JsonValue)) :
    Parses (parseToken nested) (ascii "2") (.number (ascii "2")) := by
  refine ⟨fun rest => skipWhitespace_cons _ (by decide), ?_⟩
  rintro rest ⟨more, rfl | rfl⟩
  · simp [ascii, parseToken, isDigit, parseNumber, parseMinus, parseInteger, parseDigits,
      parseFraction, parseExponent]
  · simp [ascii, parseToken, isDigit, parseNumber, parseMinus, parseInteger, parseDigits,
      parseFraction, parseExponent]

theorem parseMembers_fieldsText {fields : List Field} (hfields : fields ≠ [])
    (hparses : ∀ field ∈ fields, Parses nested field.text field.value)
    {members : List (Bytes × JsonValue)}
    (hkeys : (members.map Prod.fst ++ fields.map Field.key).Nodup) {turns : ℕ}
    (hturns : fields.length ≤ turns) (rest : Bytes) :
    parseMembers nested turns members (fieldsText fields ++ rest) =
      .ok (.object (members ++ fields.map Field.member), rest) := by
  induction fields generalizing members turns with
  | nil => exact absurd rfl hfields
  | cons field fields ih =>
    obtain ⟨turns, rfl⟩ := Nat.exists_eq_succ_of_ne_zero (show turns ≠ 0 by
      rw [List.length_cons] at hturns
      omega)
    obtain ⟨hfield, hparses⟩ := List.forall_mem_cons.mp hparses
    have hnew : members.any (fun existing => existing.1 = field.key) = false := by
      rw [List.map_cons, List.nodup_append] at hkeys
      rw [List.any_eq_false]
      intro existing hexisting
      have := hkeys.2.2 existing.1 (List.mem_map_of_mem hexisting) field.key (by simp)
      simpa using this
    have hcolon (more : Bytes) : skipWhitespace (0x3a :: more) = 0x3a :: more :=
      skipWhitespace_cons more (by decide)
    have hcomma (more : Bytes) : skipWhitespace (0x2c :: more) = 0x2c :: more :=
      skipWhitespace_cons more (by decide)
    have hbrace (more : Bytes) : skipWhitespace (0x7d :: more) = 0x7d :: more :=
      skipWhitespace_cons more (by decide)
    have hquote (key more : Bytes) : skipWhitespace (jsonString key ++ more) =
        jsonString key ++ more := skipWhitespace_cons _ (by decide)
    rcases fields with _ | ⟨next, fields⟩
    · have hread := hfield.reads (0x7d :: rest) ⟨rest, .inr rfl⟩
      simp only [fieldsText, List.append_assoc, List.cons_append, List.nil_append, parseMembers,
        parseString_jsonString, hnew, Bool.false_eq_true, if_false, hcolon, hfield.starts, hread,
        hbrace, List.map_cons, List.map_nil, Field.member]
    · have hread := hfield.reads (0x2c :: (fieldsText (next :: fields) ++ rest)) ⟨_, .inl rfl⟩
      have hnext : skipWhitespace (fieldsText (next :: fields) ++ rest) =
          fieldsText (next :: fields) ++ rest := by
        rcases fields with _ | ⟨other, fields⟩
        · rw [fieldsText, List.append_assoc, hquote]
        · rw [fieldsText, List.append_assoc, hquote]
          simp
      have hlater : parseMembers nested turns (members ++ [field.member])
          (fieldsText (next :: fields) ++ rest) =
          .ok (.object (members ++ [field.member] ++ (next :: fields).map Field.member), rest) := by
        refine ih (by simp) hparses ?_ ?_
        · simpa [Field.member] using hkeys
        · rw [List.length_cons] at hturns
          omega
      rw [Field.member] at hlater
      rw [fieldsText]
      · simp only [List.append_assoc, List.cons_append, parseMembers, parseString_jsonString, hnew,
          Bool.false_eq_true, if_false, hcolon, hfield.starts, hread, hcomma, hnext, hlater,
          List.map_cons, Field.member, List.nil_append]
      · simp

theorem length_fieldsText (fields : List Field) : fields.length ≤ (fieldsText fields).length := by
  induction fields with
  | nil => exact Nat.zero_le _
  | cons field fields ih =>
    rcases fields with _ | ⟨next, fields⟩
    · simp only [fieldsText, List.length_append, List.length_cons, List.length_nil]
      omega
    · rw [fieldsText]
      · simp only [List.length_append, List.length_cons] at ih ⊢
        omega
      · simp

theorem parseToken_objectText {fields : List Field} (hfields : fields ≠ [])
    (hparses : ∀ field ∈ fields, Parses nested field.text field.value)
    (hkeys : (fields.map Field.key).Nodup) (rest : Bytes) :
    parseToken (some nested) (objectText fields ++ rest) =
      .ok (.object (fields.map Field.member), rest) := by
  have hstart : ∃ more, fieldsText fields = 0x22 :: more := by
    rcases fields with _ | ⟨field, _ | ⟨next, fields⟩⟩
    · exact absurd rfl hfields
    · exact ⟨_, rfl⟩
    · exact ⟨_, rfl⟩
  obtain ⟨more, hmore⟩ := hstart
  have hskip : skipWhitespace (fieldsText fields ++ rest) = fieldsText fields ++ rest := by
    rw [hmore]
    exact skipWhitespace_cons _ (by decide)
  have hturns : fields.length ≤ (fieldsText fields ++ rest).length := by
    have := length_fieldsText fields
    rw [List.length_append]
    omega
  have hmembers : parseMembers nested (fieldsText fields ++ rest).length []
      (fieldsText fields ++ rest) = .ok (.object ([] ++ fields.map Field.member), rest) :=
    parseMembers_fieldsText hfields hparses (by simpa using hkeys) hturns rest
  rw [hmore, List.cons_append, List.nil_append] at hmembers
  rw [hmore, List.cons_append] at hskip
  rw [objectText, hmore, List.cons_append, List.cons_append, parseToken, if_pos rfl]
  simp only [parseObject, hskip]
  exact hmembers

/-- An object is read back if its members are. -/
theorem parses_object {nested : Bytes → Parsed JsonValue} {fields : List Field}
    (hfields : fields ≠ []) (hparses : ∀ field ∈ fields, Parses nested field.text field.value)
    (hkeys : (fields.map Field.key).Nodup) :
    Parses (parseToken (some nested)) (objectText fields) (.object (fields.map Field.member)) :=
  ⟨fun _ => skipWhitespace_cons _ (by decide),
    fun rest _ => parseToken_objectText hfields hparses hkeys rest⟩

end JsonParser

end Lora
