/-
The grammar of JSON, and the scanners of the parser.

The grammar is the one of RFC 8259, over the bytes of a text in UTF-8.  A string denotes a
list of characters, a number its own text.  An escape denotes a character, so one in the
surrogate range has to be half of a pair.  Nothing is said here about nesting and about keys
that occur twice: these are the business of the module on the language.

* `Json.Value` — what a text denotes;
* `parseNumber_sound`, `parseNumber_complete` — the scanner of numbers;
* `parseString_sound`, `parseString_complete` — the scanner of strings.
-/
import LoraMessenger.Utf8Agreement

namespace Lora

open Utf8Codec

namespace Json

/-! ### Tokens -/

/-- `ws`. -/
def Space (text : Bytes) : Prop := ∀ byte ∈ text, byte = 0x20 ∨ byte = 0x09 ∨
    byte = 0x0a ∨ byte = 0x0d

/-- `DIGIT`. -/
def IsDigit (byte : UInt8) : Prop := 0x30 ≤ byte ∧ byte ≤ 0x39

/-- `1*DIGIT`. -/
def Digits (text : Bytes) : Prop := text ≠ [] ∧ ∀ byte ∈ text, IsDigit byte

/-- `int`: no leading zero. -/
inductive Integer : Bytes → Prop
  | zero : Integer [0x30]
  | digits {first : UInt8} {rest : Bytes} (hfirst : 0x31 ≤ first ∧ first ≤ 0x39)
    (hrest : ∀ byte ∈ rest, IsDigit byte) : Integer (first :: rest)

/-- `[ frac ]`. -/
inductive Fraction : Bytes → Prop
  | none : Fraction []
  | digits {digits : Bytes} (h : Digits digits) : Fraction (0x2e :: digits)

/-- `[ exp ]`. -/
inductive Exponent : Bytes → Prop
  | none : Exponent []
  | digits {letter : UInt8} {sign digits : Bytes} (hletter : letter = 0x65 ∨ letter = 0x45)
    (hsign : sign = [] ∨ sign = [0x2b] ∨ sign = [0x2d]) (h : Digits digits) :
    Exponent (letter :: (sign ++ digits))

/-- `number`. -/
inductive Number : Bytes → Prop
  | mk {minus integer fraction exponent : Bytes} (hminus : minus = [] ∨ minus = [0x2d])
    (hinteger : Integer integer) (hfraction : Fraction fraction) (hexponent : Exponent exponent) :
    Number (minus ++ integer ++ fraction ++ exponent)

/-- `HEXDIG`, in either case. -/
def HexDigit (byte : UInt8) (value : ℕ) : Prop :=
  (0x30 ≤ byte ∧ byte ≤ 0x39 ∧ value = byte.toNat - 0x30) ∨
  (0x61 ≤ byte ∧ byte ≤ 0x66 ∧ value = byte.toNat - 0x61 + 10) ∨
  (0x41 ≤ byte ∧ byte ≤ 0x46 ∧ value = byte.toNat - 0x41 + 10)

/-- `4HEXDIG`. -/
inductive Quad : Bytes → ℕ → Prop
  | mk {a b c d : UInt8} {va vb vc vd : ℕ} (ha : HexDigit a va) (hb : HexDigit b vb)
    (hc : HexDigit c vc)
    (hd : HexDigit d vd) : Quad [a, b, c, d] (((va * 16 + vb) * 16 + vc) * 16 + vd)

/-- What follows a backslash, and the character that it denotes.  A character is not a
surrogate, so the number of a single escape is none either. -/
inductive Escape : Bytes → Char → Prop
  | quote : Escape [0x22] '"'
  | backslash : Escape [0x5c] '\\'
  | slash : Escape [0x2f] '/'
  | backspace : Escape [0x62] '\x08'
  | formFeed : Escape [0x66] '\x0c'
  | lineFeed : Escape [0x6e] '\n'
  | carriageReturn : Escape [0x72] '\r'
  | tab : Escape [0x74] '\t'
  | unicode {quad : Bytes} {character : Char} (h : Quad quad character.toNat) :
    Escape (0x75 :: quad) character
  | pair {first second : Bytes} {high low : ℕ} {character : Char} (hfirst : Quad first high)
    (hsecond : Quad second low) (hhigh : 0xd800 ≤ high ∧ high ≤ 0xdbff)
    (hlow : 0xdc00 ≤ low ∧ low ≤ 0xdfff)
    (hcharacter : character.toNat = 0x10000 + (high - 0xd800) * 0x400 + (low - 0xdc00)) :
    Escape (0x75 :: (first ++ 0x5c :: 0x75 :: second)) character

/-- `*char`: what stands between two quotes. -/
inductive Characters : Bytes → List Char → Prop
  | nil : Characters [] []
  | unescaped {character : Char} {text : Bytes} {characters : List Char}
    (hspace : 0x20 ≤ character.toNat) (hquote : character ≠ '"') (hbackslash : character ≠ '\\')
    (h : Characters text characters) :
    Characters (String.utf8EncodeChar character ++ text) (character :: characters)
  | escaped {escape text : Bytes} {character : Char} {characters : List Char}
    (hescape : Escape escape character)
    (h : Characters text characters) : Characters (0x5c :: (escape ++ text))
    (character :: characters)

/-- A string in its quotes. -/
def quoted (text : Bytes) : Bytes := 0x22 :: (text ++ [0x22])

/-! ### Values -/

/-- A value with the space around it, as it stands between commas. -/
structure Element where
  before : Bytes
  text : Bytes
  after : Bytes
  value : JsonValue

/-- `member`: a name, a colon and a value. -/
structure Member where
  before : Bytes
  key : Bytes
  name : List Char
  after : Bytes
  element : Element

def Element.written (element : Element) : Bytes := element.before ++ element.text ++ element.after

def Element.spaced (element : Element) : Prop := Space element.before ∧ Space element.after

def Member.written (member : Member) : Bytes :=
  member.before ++ quoted member.key ++ member.after ++ 0x3a :: member.element.written

def Member.spaced (member : Member) : Prop :=
  Space member.before ∧ Space member.after ∧ member.element.spaced

/-- The member of the object: the name in UTF-8. -/
def Member.denoted (member : Member) : Bytes × JsonValue :=
    (encode member.name, member.element.value)

/-- `item *( value-separator item )`. -/
def separated (items : List Bytes) : Bytes := [0x2c].intercalate items

/-- What a text without space around it denotes. -/
inductive Value : Bytes → JsonValue → Prop
  | null : Value (ascii "null") .null
  | true : Value (ascii "true") (.boolean true)
  | false : Value (ascii "false") (.boolean false)
  | number {text : Bytes} (h : Number text) : Value text (.number text)
  | string {text : Bytes} {characters : List Char} (h : Characters text characters) :
    Value (quoted text) (.string (encode characters))
  | emptyObject {space : Bytes} (hspace : Space space) : Value (0x7b :: (space ++ [0x7d]))
    (.object [])
  | object {members : List Member} (hne : members ≠ []) (hspace : ∀ member ∈ members, member.spaced)
    (hkeys : ∀ member ∈ members, Characters member.key member.name)
    (hvalues : ∀ member ∈ members, Value member.element.text member.element.value) :
    Value (0x7b :: (separated (members.map Member.written) ++ [0x7d]))
      (.object (members.map Member.denoted))
  | emptyArray {space : Bytes} (hspace : Space space) :
    Value (0x5b :: (space ++ [0x5d])) (.array [])
  | array {elements : List Element} (hne : elements ≠ [])
    (hspace : ∀ element ∈ elements, element.spaced)
    (hvalues : ∀ element ∈ elements, Value element.text element.value) :
    Value (0x5b :: (separated (elements.map Element.written) ++ [0x5d]))
      (.array (elements.map Element.value))

/-- `JSON-text`. -/
def Text (text : Bytes) (value : JsonValue) : Prop :=
  ∃ element : Element, element.spaced ∧ Value element.text element.value ∧ text = element.written ∧
    value = element.value

end Json

namespace JsonParser

open Json

/-! ### Space -/

/-- The input does not go on with space. -/
def Unspaced (input : Bytes) :
    Prop := ∀ byte ∈ input.head?, ¬(byte = 0x20 ∨ byte = 0x09 ∨ byte = 0x0a ∨ byte = 0x0d)

theorem skipWhitespace_sound (input : Bytes) :
    ∃ space, input = space ++ skipWhitespace input ∧ Space space ∧
      Unspaced (skipWhitespace input) := by
  induction input with
  | nil => exact ⟨[], rfl, List.forall_mem_nil _, by simp [Unspaced, skipWhitespace]⟩
  | cons byte input ih =>
    rw [skipWhitespace, List.dropWhile_cons]
    split
    · rename_i hbyte
      obtain ⟨space, hinput, hspace, hrest⟩ := ih
      refine ⟨byte :: space, ?_, List.forall_mem_cons.mpr ⟨?_, hspace⟩, hrest⟩
      · rw [List.cons_append, ← skipWhitespace, ← hinput]
      · simpa [or_assoc] using hbyte
    · rename_i hbyte
      refine ⟨[], rfl, List.forall_mem_nil _, ?_⟩
      simpa [Unspaced, or_assoc] using hbyte

theorem skipWhitespace_append {space rest : Bytes} (hspace : Space space) (hrest : Unspaced rest) :
    skipWhitespace (space ++ rest) = rest := by
  induction space with
  | nil =>
    rcases rest with _ | ⟨byte, rest⟩
    · rfl
    · refine skipWhitespace_cons rest ?_
      simpa [Unspaced, and_assoc] using hrest
  | cons byte space ih =>
    obtain ⟨hbyte, hspace⟩ := List.forall_mem_cons.mp hspace
    rw [List.cons_append, skipWhitespace,
      List.dropWhile_cons_of_pos (by simpa [or_assoc] using hbyte)]
    exact ih hspace

theorem skipWhitespace_space {space : Bytes} (hspace : Space space) {byte : UInt8}
    (hbyte : ¬(byte = 0x20 ∨ byte = 0x09 ∨ byte = 0x0a ∨ byte = 0x0d)) (rest : Bytes) :
    skipWhitespace (space ++ byte :: rest) = byte :: rest := by
  refine skipWhitespace_append hspace ?_
  rintro _ ⟨⟩
  exact hbyte

/-! ### Numbers -/

theorem isDigit_iff {byte : UInt8} : isDigit byte = true ↔ IsDigit byte := by
  rw [isDigit, Bool.and_eq_true, decide_eq_true_iff, decide_eq_true_iff, IsDigit]

/-- The input does not go on with a digit. -/
def Undigited (input : Bytes) : Prop := ∀ byte ∈ input.head?, ¬IsDigit byte

theorem parseDigits_sound {input digits rest : Bytes} (h : parseDigits input = .ok (digits, rest)) :
    input = digits ++ rest ∧ Digits digits := by
  rw [parseDigits] at h
  split at h
  · cases h
  · rename_i hne
    obtain ⟨rfl, rfl⟩ := Prod.mk.inj (Except.ok.inj h)
    refine ⟨List.takeWhile_append_dropWhile.symm, fun hnil => hne hnil, fun byte hbyte => ?_⟩
    exact isDigit_iff.mp (List.mem_takeWhile_imp hbyte)

theorem takeWhile_digits {digits rest : Bytes} (hdigits : ∀ byte ∈ digits, IsDigit byte)
    (hrest : Undigited rest) :
    (digits ++ rest).takeWhile isDigit = digits ∧ (digits ++ rest).dropWhile isDigit = rest := by
  have hstop : rest.takeWhile isDigit = [] ∧ rest.dropWhile isDigit = rest := by
    rcases rest with _ | ⟨byte, rest⟩
    · exact ⟨rfl, rfl⟩
    · have hbyte : ¬isDigit byte = true := fun h => hrest byte rfl (isDigit_iff.mp h)
      exact ⟨List.takeWhile_cons_of_neg hbyte, List.dropWhile_cons_of_neg hbyte⟩
  have hall : ∀ byte ∈ digits, isDigit byte = true := fun byte hbyte =>
    isDigit_iff.mpr (hdigits byte hbyte)
  rw [List.takeWhile_append_of_pos hall, List.dropWhile_append_of_pos hall, hstop.1, hstop.2,
    List.append_nil]
  exact ⟨rfl, rfl⟩

theorem parseDigits_complete {digits rest : Bytes} (hdigits : Digits digits)
    (hrest : Undigited rest) :
    parseDigits (digits ++ rest) = .ok (digits, rest) := by
  obtain ⟨htake, hdrop⟩ := takeWhile_digits hdigits.2 hrest
  rw [parseDigits, htake, hdrop]
  rcases digits with _ | ⟨byte, digits⟩
  · exact absurd rfl hdigits.1
  · rfl

theorem parseInteger_sound {input integer rest : Bytes}
    (h : parseInteger input = .ok (integer, rest)) :
    input = integer ++ rest ∧ Integer integer := by
  rw [parseInteger.eq_def] at h
  split at h
  · split at h
    · cases h
    · obtain ⟨rfl, rfl⟩ := Prod.mk.inj (Except.ok.inj h)
      exact ⟨rfl, .zero⟩
  · rename_i hzero
    obtain ⟨hinput, hne, hdigits⟩ := parseDigits_sound h
    refine ⟨hinput, ?_⟩
    rcases integer with _ | ⟨first, integer⟩
    · exact absurd rfl hne
    · obtain ⟨hfirst, hinteger⟩ := List.forall_mem_cons.mp hdigits
      refine .digits ⟨?_, hfirst.2⟩ hinteger
      have hne : first ≠ 0x30 := by
        rintro rfl
        exact hzero _ hinput
      have hmin := UInt8.le_iff_toNat_le.mp hfirst.1
      have htoNat : first.toNat ≠ 0x30 := fun heq => hne (UInt8.toNat_inj.mp heq)
      rw [UInt8.le_iff_toNat_le]
      change 48 ≤ first.toNat at hmin
      change first.toNat ≠ 48 at htoNat
      show 49 ≤ first.toNat
      omega

theorem parseInteger_complete {integer rest : Bytes} (hinteger : Integer integer)
    (hrest : Undigited rest) :
    parseInteger (integer ++ rest) = .ok (integer, rest) := by
  cases hinteger with
  | zero =>
    show (if rest.head?.any isDigit then malformed else .ok ([0x30], rest)) = _
    rw [if_neg]
    rw [Option.any_eq_true]
    rintro ⟨byte, hbyte, hdigit⟩
    exact hrest byte hbyte (isDigit_iff.mp hdigit)
  | @digits first digits hfirst hdigits =>
    rw [parseInteger.eq_def]
    split
    · rename_i heq
      obtain ⟨rfl, -⟩ := List.cons.inj heq
      exact absurd hfirst.1 (by decide)
    · refine parseDigits_complete
        ⟨List.cons_ne_nil _ _, List.forall_mem_cons.mpr ⟨⟨?_, hfirst.2⟩, hdigits⟩⟩ hrest
      exact UInt8.le_trans (by decide) hfirst.1

theorem parseFraction_sound {input fraction rest : Bytes}
    (h : parseFraction input = .ok (fraction, rest)) :
    input = fraction ++ rest ∧ Fraction fraction := by
  rw [parseFraction.eq_def] at h
  split at h
  · rename_i more
    rcases hparsed : parseDigits more with error | ⟨digits, later⟩
    · rw [hparsed] at h
      cases h
    · rw [hparsed] at h
      obtain ⟨rfl, rfl⟩ := Prod.mk.inj (Except.ok.inj h)
      obtain ⟨rfl, hdigits⟩ := parseDigits_sound hparsed
      exact ⟨rfl, .digits hdigits⟩
  · obtain ⟨rfl, rfl⟩ := Prod.mk.inj (Except.ok.inj h)
    exact ⟨rfl, .none⟩

theorem parseFraction_complete {fraction rest : Bytes} (hfraction : Fraction fraction)
    (hrest : Undigited rest)
    (hpoint : ∀ byte ∈ rest.head?, byte ≠ 0x2e) : parseFraction (fraction ++ rest) =
      .ok (fraction, rest) := by
  cases hfraction with
  | none =>
    rw [parseFraction.eq_def]
    split
    · rename_i heq
      rw [List.nil_append] at heq
      rw [heq] at hpoint
      exact absurd rfl (hpoint _ rfl)
    · rfl
  | digits hdigits =>
    rw [List.cons_append, parseFraction, parseDigits_complete hdigits hrest]

theorem parseSign_sound (input : Bytes) :
    input = (parseSign input).1 ++ (parseSign input).2 ∧
      ((parseSign input).1 = [] ∨ (parseSign input).1 = [0x2b] ∨ (parseSign input).1 = [0x2d]) := by
  rw [parseSign.eq_def]
  split
  · split
    · rename_i hsign
      rcases hsign with rfl | rfl
      · exact ⟨rfl, .inr (.inl rfl)⟩
      · exact ⟨rfl, .inr (.inr rfl)⟩
    · exact ⟨rfl, .inl rfl⟩
  · exact ⟨rfl, .inl rfl⟩

theorem parseSign_complete {sign digits rest : Bytes}
    (hsign : sign = [] ∨ sign = [0x2b] ∨ sign = [0x2d])
    (hdigits : Digits digits) : parseSign (sign ++ (digits ++ rest)) = (sign, digits ++ rest) := by
  rcases hsign with rfl | rfl | rfl
  · rcases digits with _ | ⟨first, digits⟩
    · exact absurd rfl hdigits.1
    · have hfirst := hdigits.2 first (List.mem_cons_self)
      refine if_neg ?_
      rintro (rfl | rfl)
      · exact absurd hfirst.1 (by decide)
      · exact absurd hfirst.1 (by decide)
  · rfl
  · rfl

theorem parseExponent_sound {input exponent rest : Bytes}
    (h : parseExponent input = .ok (exponent, rest)) :
    input = exponent ++ rest ∧ Exponent exponent := by
  rw [parseExponent.eq_def] at h
  split at h
  · rename_i letter more
    split at h
    · rename_i hletter
      obtain ⟨hmore, hsign⟩ := parseSign_sound more
      dsimp only at h
      generalize (parseSign more).1 = sign at *
      generalize (parseSign more).2 = unsigned at *
      rcases hparsed : parseDigits unsigned with error | ⟨digits, later⟩
      · rw [hparsed] at h
        cases h
      · rw [hparsed] at h
        obtain ⟨rfl, rfl⟩ := Prod.mk.inj (Except.ok.inj h)
        obtain ⟨rfl, hdigits⟩ := parseDigits_sound hparsed
        exact ⟨by rw [hmore, List.cons_append, List.append_assoc], .digits hletter hsign hdigits⟩
    · obtain ⟨rfl, rfl⟩ := Prod.mk.inj (Except.ok.inj h)
      exact ⟨rfl, .none⟩
  · obtain ⟨rfl, rfl⟩ := Prod.mk.inj (Except.ok.inj h)
    exact ⟨rfl, .none⟩

theorem parseExponent_complete {exponent rest : Bytes} (hexponent : Exponent exponent)
    (hrest : Undigited rest)
    (hletter : ∀ byte ∈ rest.head?, byte ≠ 0x65 ∧ byte ≠ 0x45) :
    parseExponent (exponent ++ rest) = .ok (exponent, rest) := by
  cases hexponent with
  | none =>
    rcases rest with _ | ⟨byte, rest⟩
    · rfl
    · refine if_neg ?_
      rintro (rfl | rfl)
      · exact (hletter _ rfl).1 rfl
      · exact (hletter _ rfl).2 rfl
  | digits hexponent hsign hdigits =>
    rw [List.cons_append, List.append_assoc, parseExponent, if_pos hexponent,
      parseSign_complete hsign hdigits]
    dsimp only
    rw [parseDigits_complete hdigits hrest]

/-- What may follow a number. -/
def EndsNumber (rest : Bytes) : Prop :=
  ∀ byte ∈ rest.head?, ¬IsDigit byte ∧ byte ≠ 0x2e ∧ byte ≠ 0x65 ∧ byte ≠ 0x45

theorem parseNumber_sound {input number rest : Bytes} (h : parseNumber input = .ok (number, rest)) :
    input = number ++ rest ∧ Number number := by
  have hminus : input = (parseMinus input).1 ++ (parseMinus input).2 ∧
      ((parseMinus input).1 = [] ∨ (parseMinus input).1 = [0x2d]) := by
    rw [parseMinus.eq_def]
    split
    · exact ⟨rfl, .inr rfl⟩
    · exact ⟨rfl, .inl rfl⟩
  rw [parseNumber] at h
  dsimp only at h
  generalize (parseMinus input).1 = minus at *
  generalize (parseMinus input).2 = unsigned at *
  rcases hscanned : parseInteger unsigned with error | ⟨integer, fractional⟩ <;> rw [hscanned] at h
  · cases h
  obtain ⟨rfl, hinteger⟩ := parseInteger_sound hscanned
  dsimp only at h
  rcases hscanned' : parseFraction fractional with error | ⟨fraction, exponential⟩
    <;> rw [hscanned'] at h
  · cases h
  obtain ⟨rfl, hfraction⟩ := parseFraction_sound hscanned'
  dsimp only at h
  rcases hscanned'' : parseExponent exponential with error | ⟨exponent, later⟩
    <;> rw [hscanned''] at h
  · cases h
  obtain ⟨rfl, hexponent⟩ := parseExponent_sound hscanned''
  obtain ⟨rfl, rfl⟩ := Prod.mk.inj (Except.ok.inj h)
  exact ⟨by simp [hminus.1], .mk hminus.2 hinteger hfraction hexponent⟩

theorem Undigited.cons {byte : UInt8} (rest : Bytes) (h : ¬IsDigit byte) :
    Undigited (byte :: rest) := by
  rintro _ ⟨⟩
  exact h

/-- What an exponent or the end of a number begins with. -/
theorem exponent_head {exponent rest : Bytes} (hexponent : Exponent exponent)
    (hrest : EndsNumber rest) :
    ∀ byte ∈ (exponent ++ rest).head?, ¬IsDigit byte ∧ byte ≠ 0x2e := by
  cases hexponent with
  | none => exact fun byte hbyte => ⟨(hrest byte hbyte).1, (hrest byte hbyte).2.1⟩
  | digits hletter =>
    rintro _ ⟨⟩
    rcases hletter with rfl | rfl
    · exact ⟨by rw [IsDigit]; decide, by decide⟩
    · exact ⟨by rw [IsDigit]; decide, by decide⟩

theorem fraction_head {fraction rest : Bytes} (hfraction : Fraction fraction)
    (hrest : ∀ byte ∈ rest.head?, ¬IsDigit byte ∧ byte ≠ 0x2e) : Undigited (fraction ++ rest) := by
  cases hfraction with
  | none => exact fun byte hbyte => (hrest byte hbyte).1
  | digits => exact .cons _ (by rw [IsDigit]; decide)

theorem parseMinus_complete {minus integer : Bytes} (hminus : minus = [] ∨ minus = [0x2d])
    (hinteger : Integer integer) (rest : Bytes) : parseMinus (minus ++ (integer ++ rest)) =
    (minus, integer ++ rest) := by
  rcases hminus with rfl | rfl
  · rw [parseMinus.eq_def]
    split
    · rename_i heq
      cases hinteger with
      | zero => cases heq
      | digits hfirst =>
        obtain ⟨rfl, -⟩ := List.cons.inj heq
        exact absurd hfirst.1 (by decide)
    · rfl
  · rfl

theorem parseNumber_complete {number rest : Bytes} (hnumber : Number number)
    (hrest : EndsNumber rest) :
    parseNumber (number ++ rest) = .ok (number, rest) := by
  obtain ⟨hminus, hinteger, hfraction, hexponent⟩ := hnumber
  rename_i minus integer fraction exponent
  have htail := exponent_head hexponent hrest
  rw [parseNumber, List.append_assoc, List.append_assoc, List.append_assoc,
    parseMinus_complete hminus hinteger]
  dsimp only
  rw [parseInteger_complete hinteger (fraction_head hfraction htail)]
  dsimp only
  rw [parseFraction_complete hfraction (fun byte hbyte => (htail byte hbyte).1) fun byte hbyte =>
    (htail byte hbyte).2]
  dsimp only
  rw [parseExponent_complete hexponent (fun byte hbyte => (hrest byte hbyte).1)
    fun byte hbyte => (hrest byte hbyte).2.2]

/-! ### Escapes -/

theorem hexValue_eq_some {byte : UInt8} {value : ℕ} : Uuid.hexValue byte = some value ↔
    HexDigit byte value := by
  rw [Uuid.hexValue, HexDigit]
  constructor
  · intro h
    split_ifs at h with hdigit hlower hupper <;> cases h
    · exact .inl ⟨hdigit.1, hdigit.2, rfl⟩
    · exact .inr (.inl ⟨hlower.1, hlower.2, rfl⟩)
    · exact .inr (.inr ⟨hupper.1, hupper.2, rfl⟩)
  · rintro (⟨hmin, hmax, rfl⟩ | ⟨hmin, hmax, rfl⟩ | ⟨hmin, hmax, rfl⟩)
    · rw [if_pos ⟨hmin, hmax⟩]
    · rw [if_neg fun h => absurd (UInt8.le_trans hmin h.2) (by decide), if_pos ⟨hmin, hmax⟩]
    · rw [if_neg fun h => absurd (UInt8.le_trans hmin h.2) (by decide),
        if_neg fun h => absurd (UInt8.le_trans h.1 hmax) (by decide), if_pos ⟨hmin, hmax⟩]

theorem hexDigit_lt {byte : UInt8} {value : ℕ} (h : HexDigit byte value) : value < 16 := by
  simp only [HexDigit, UInt8.le_iff_toNat_le, UInt8.reduceToNat] at h
  omega

/-- The digits of a quad, shifted together. -/
theorem shift_quad {a b c d : ℕ} (hb : b < 16) (hc : c < 16) (hd : d < 16) :
    (((a <<< 4 ||| b) <<< 4 ||| c) <<< 4) ||| d = ((a * 16 + b) * 16 + c) * 16 + d := by
  have hstep : ∀ n m : ℕ, m < 16 → n <<< 4 ||| m = n * 16 + m := fun n m hm => by
    rw [← Nat.shiftLeft_add_eq_or_of_lt hm, Nat.shiftLeft_eq]
  rw [hstep a b hb, hstep _ c hc, hstep _ d hd]

theorem parseHexQuad_sound {input rest : Bytes} {value : ℕ}
    (h : parseHexQuad input = .ok (value, rest)) :
    ∃ quad, input = quad ++ rest ∧ Quad quad value := by
  rw [parseHexQuad.eq_def] at h
  split at h
  · rename_i a b c d later
    split at h
    · rename_i va vb vc vd ha hb hc hd
      rw [hexValue_eq_some] at ha hb hc hd
      obtain ⟨rfl, rfl⟩ := Prod.mk.inj (Except.ok.inj h)
      refine ⟨[a, b, c, d], rfl, ?_⟩
      rw [shift_quad (hexDigit_lt hb) (hexDigit_lt hc) (hexDigit_lt hd)]
      exact .mk ha hb hc hd
    · cases h
  · cases h

theorem parseHexQuad_complete {quad : Bytes} {value : ℕ} (h : Quad quad value) (rest : Bytes) :
    parseHexQuad (quad ++ rest) = .ok (value, rest) := by
  obtain ⟨ha, hb, hc, hd⟩ := h
  rw [← shift_quad (hexDigit_lt hb) (hexDigit_lt hc) (hexDigit_lt hd)]
  rw [← hexValue_eq_some] at ha hb hc hd
  simp only [List.cons_append, List.nil_append, parseHexQuad, ha, hb, hc, hd]

theorem quad_lt {quad : Bytes} {value : ℕ} (h : Quad quad value) : value < 0x10000 := by
  obtain ⟨ha, hb, hc, hd⟩ := h
  have halt := hexDigit_lt ha
  have hblt := hexDigit_lt hb
  have hclt := hexDigit_lt hc
  have hdlt := hexDigit_lt hd
  omega

theorem parseLowSurrogate_sound {input rest : Bytes} {high codepoint : ℕ}
    (h : parseLowSurrogate high input = .ok (codepoint, rest)) :
    ∃ quad low, input = 0x5c :: 0x75 :: (quad ++ rest) ∧ Quad quad low ∧
      (0xdc00 ≤ low ∧ low ≤ 0xdfff) ∧
      codepoint = 0x10000 + (high - 0xd800) * 0x400 + (low - 0xdc00) := by
  rw [parseLowSurrogate.eq_def] at h
  split at h
  · rename_i quads
    rcases hscanned : parseHexQuad quads with error | ⟨low, later⟩ <;> rw [hscanned] at h
    · cases h
    dsimp only at h
    split at h
    · cases h
    · rename_i hrange
      obtain ⟨quad, rfl, hquad⟩ := parseHexQuad_sound hscanned
      obtain ⟨rfl, rfl⟩ := Prod.mk.inj (Except.ok.inj h)
      exact ⟨quad, low, rfl, hquad, by omega, by rw [Nat.shiftLeft_eq]⟩
  · cases h

theorem parseLowSurrogate_complete {quad : Bytes} {high low : ℕ} (hquad : Quad quad low)
    (hlow : 0xdc00 ≤ low ∧ low ≤ 0xdfff) (rest : Bytes) :
    parseLowSurrogate high (0x5c :: 0x75 :: (quad ++ rest)) =
      .ok (0x10000 + (high - 0xd800) * 0x400 + (low - 0xdc00), rest) := by
  rw [parseLowSurrogate, parseHexQuad_complete hquad]
  dsimp only
  rw [if_neg (by omega), Nat.shiftLeft_eq]

/-- The bytes of an escape are those of the character it denotes. -/
theorem parseEscape_sound {input bytes rest : Bytes} (h : parseEscape input = .ok (bytes, rest)) :
    ∃ escape character, input = escape ++ rest ∧ Escape escape character ∧
      bytes = String.utf8EncodeChar character := by
  rw [parseEscape.eq_def] at h
  split at h
  · cases h
  rename_i escaped later
  have hletter : ∀ {letter : UInt8} {byte : UInt8} {character : Char}, escaped = letter →
      (.ok ([byte], later) : Parsed Bytes) = .ok (bytes, rest) → Escape [letter] character →
      [byte] = String.utf8EncodeChar character →
      ∃ escape character, escaped :: later = escape ++ rest ∧ Escape escape character ∧
        bytes = String.utf8EncodeChar character := by
    rintro letter byte character rfl hok hescape hbyte
    obtain ⟨rfl, rfl⟩ := Prod.mk.inj (Except.ok.inj hok)
    exact ⟨[escaped], character, rfl, hescape, hbyte⟩
  rw [ite_eq_iff] at h
  obtain ⟨hbyte, h⟩ | ⟨-, h⟩ := h
  · exact hletter hbyte h .quote (by decide)
  rw [ite_eq_iff] at h
  obtain ⟨hbyte, h⟩ | ⟨-, h⟩ := h
  · exact hletter hbyte h .backslash (by decide)
  rw [ite_eq_iff] at h
  obtain ⟨hbyte, h⟩ | ⟨-, h⟩ := h
  · exact hletter hbyte h .slash (by decide)
  rw [ite_eq_iff] at h
  obtain ⟨hbyte, h⟩ | ⟨-, h⟩ := h
  · exact hletter hbyte h .backspace (by decide)
  rw [ite_eq_iff] at h
  obtain ⟨hbyte, h⟩ | ⟨-, h⟩ := h
  · exact hletter hbyte h .formFeed (by decide)
  rw [ite_eq_iff] at h
  obtain ⟨hbyte, h⟩ | ⟨-, h⟩ := h
  · exact hletter hbyte h .lineFeed (by decide)
  rw [ite_eq_iff] at h
  obtain ⟨hbyte, h⟩ | ⟨-, h⟩ := h
  · exact hletter hbyte h .carriageReturn (by decide)
  rw [ite_eq_iff] at h
  obtain ⟨hbyte, h⟩ | ⟨-, h⟩ := h
  · exact hletter hbyte h .tab (by decide)
  rw [ite_eq_iff] at h
  obtain ⟨rfl, h⟩ | ⟨-, h⟩ := h
  · rcases hscanned : parseHexQuad later with error | ⟨codepoint, more⟩ <;> rw [hscanned] at h
    · cases h
    obtain ⟨quad, rfl, hquad⟩ := parseHexQuad_sound hscanned
    have hlt := quad_lt hquad
    rw [ite_eq_iff] at h
    obtain ⟨hhigh, h⟩ | ⟨hhigh, h⟩ := h
    · rcases hpair : parseLowSurrogate codepoint more with error | ⟨whole, remaining⟩
        <;> rw [hpair] at h
      · cases h
      obtain ⟨second, low, rfl, hsecond, hlow, hwhole⟩ := parseLowSurrogate_sound hpair
      obtain ⟨rfl, rfl⟩ := Prod.mk.inj (Except.ok.inj h)
      obtain ⟨character, hcharacter⟩ := exists_char
        (show 0x10000 + (codepoint - 0xd800) * 0x400 + (low - 0xdc00) <
          0x110000 by omega) (by omega)
      refine ⟨_, character, ?_, .pair hquad hsecond hhigh hlow hcharacter, ?_⟩
      · simp
      · rw [hwhole, ← hcharacter, appendUtf8_char]
    rw [ite_eq_iff] at h
    obtain ⟨-, h⟩ | ⟨hsingle, h⟩ := h
    · cases h
    · obtain ⟨rfl, rfl⟩ := Prod.mk.inj (Except.ok.inj h)
      obtain ⟨character, rfl⟩ := exists_char (show codepoint < 0x110000 by omega) (by omega)
      exact ⟨_, character, rfl, .unicode hquad, appendUtf8_char character⟩
  · cases h

theorem parseEscape_quad (rest : Bytes) :
    parseEscape (0x75 :: rest) =
      match parseHexQuad rest with
      | .error error => .error error
      | .ok (codepoint, rest) =>
        if 0xd800 ≤ codepoint ∧ codepoint ≤ 0xdbff then
          match parseLowSurrogate codepoint rest with
          | .error error => .error error
          | .ok (codepoint, rest) => .ok (appendUtf8 codepoint, rest)
        else if 0xdc00 ≤ codepoint ∧ codepoint ≤ 0xdfff then malformed
        else .ok (appendUtf8 codepoint, rest) := rfl

theorem parseEscape_complete {escape : Bytes} {character : Char} (h : Escape escape character)
    (rest : Bytes) :
    parseEscape (escape ++ rest) = .ok (String.utf8EncodeChar character, rest) := by
  cases h with
  | unicode hquad =>
    have hrange := toNat_lt character
    have hlt := quad_lt hquad
    rw [← appendUtf8_char, List.cons_append, parseEscape_quad, parseHexQuad_complete hquad]
    dsimp only
    rw [if_neg (by omega), if_neg (by omega)]
  | pair hfirst hsecond hhigh hlow hcharacter =>
    rw [← appendUtf8_char, hcharacter, List.cons_append, List.append_assoc, List.cons_append,
      List.cons_append]
    rw [parseEscape_quad, parseHexQuad_complete hfirst]
    dsimp only
    rw [if_pos hhigh, parseLowSurrogate_complete hsecond hlow]
  | _ => rfl

/-! ### Strings -/

/-- A byte that the loop of `parse_string` takes as it is. -/
def IsPlain (byte : UInt8) : Prop := byte ≠ 0x22 ∧ ¬byte < 0x20 ∧ byte ≠ 0x5c

/-- All bytes of an unescaped character are plain. -/
theorem plain_utf8EncodeChar {character : Char} (hspace : 0x20 ≤ character.toNat)
    (hquote : character ≠ '"')
    (hbackslash : character ≠ '\\') : ∀ byte ∈ String.utf8EncodeChar character, IsPlain byte := by
  have hne : ∀ {byte : UInt8} {other : Char}, byte ∈ String.utf8EncodeChar character →
    byte.toNat < 0x80 →
      other.toNat = byte.toNat → character = other := by
    intro byte other hbyte hlt hother
    exact Char.toNat_inj.mp (((mem_utf8EncodeChar hlt).mp hbyte).trans hother.symm)
  intro byte hbyte
  refine ⟨?_, fun hlt => ?_, ?_⟩
  · rintro rfl
    exact hquote (hne hbyte (by decide) rfl)
  · have hlt : byte.toNat < 0x20 := UInt8.lt_iff_toNat_lt.mp hlt
    have heq := (mem_utf8EncodeChar (show byte.toNat < 0x80 by omega)).mp hbyte
    omega
  · rintro rfl
    exact hbackslash (hne hbyte (by decide) rfl)

theorem parseCharacters_cons_plain {byte : UInt8} (hbyte : IsPlain byte) (turns : ℕ)
    (input : Bytes) :
    parseCharacters (turns + 1) (byte :: input) =
      match parseCharacters turns input with
      | .error error => .error error
      | .ok (output, rest) => .ok (byte :: output, rest) :=
  (if_neg hbyte.1).trans ((if_neg hbyte.2.1).trans (if_pos hbyte.2.2))

theorem parseCharacters_plain {bytes : Bytes} (hbytes : ∀ byte ∈ bytes, IsPlain byte) {turns : ℕ}
    {input output rest : Bytes} (h : parseCharacters turns input = .ok (output, rest)) :
    parseCharacters (turns + bytes.length) (bytes ++ input) = .ok (bytes ++ output, rest) := by
  induction bytes with
  | nil => exact h
  | cons byte bytes ih =>
    obtain ⟨hbyte, hbytes⟩ := List.forall_mem_cons.mp hbytes
    rw [List.length_cons, ← Nat.add_assoc, List.cons_append,
      parseCharacters_cons_plain hbyte, ih hbytes]
    rfl

theorem parseCharacters_of_plain {bytes : Bytes} (hbytes : ∀ byte ∈ bytes, IsPlain byte) {turns : ℕ}
    {input output rest : Bytes} (h : parseCharacters turns (bytes ++ input) = .ok (output, rest)) :
    ∃ fewer later, turns = fewer + bytes.length ∧ parseCharacters fewer input = .ok (later, rest) ∧
      output = bytes ++ later := by
  induction bytes generalizing turns output with
  | nil => exact ⟨turns, output, rfl, h, rfl⟩
  | cons byte bytes ih =>
    obtain ⟨hbyte, hbytes⟩ := List.forall_mem_cons.mp hbytes
    rcases turns with _ | turns
    · cases h
    rw [List.cons_append, parseCharacters_cons_plain hbyte] at h
    rcases hparsed : parseCharacters turns (bytes ++ input) with error | ⟨output', rest'⟩
      <;> rw [hparsed] at h
    · cases h
    obtain ⟨rfl, rfl⟩ := Prod.mk.inj (Except.ok.inj h)
    obtain ⟨fewer, later, rfl, hlater, rfl⟩ := ih hbytes hparsed
    exact ⟨fewer, later, by rw [List.length_cons, Nat.add_assoc], hlater, rfl⟩

theorem isValidUtf8_ascii_append {text : Bytes} (htext : ∀ byte ∈ text, byte ≤ 0x7f)
    (rest : Bytes) :
    isValidUtf8 (text ++ rest) = isValidUtf8 rest := by
  induction text with
  | nil => rfl
  | cons byte text ih =>
    obtain ⟨hbyte, htext⟩ := List.forall_mem_cons.mp htext
    rw [List.cons_append, isValidUtf8_byte hbyte, ih htext]

theorem hexDigit_ascii {byte : UInt8} {value : ℕ} (h : HexDigit byte value) : byte ≤ 0x7f := by
  rcases h with ⟨-, hmax, -⟩ | ⟨-, hmax, -⟩ | ⟨-, hmax, -⟩
  · exact UInt8.le_trans hmax (by decide)
  · exact UInt8.le_trans hmax (by decide)
  · exact UInt8.le_trans hmax (by decide)

theorem quad_ascii {quad : Bytes} {value : ℕ} (h : Quad quad value) :
    ∀ byte ∈ quad, byte ≤ 0x7f := by
  obtain ⟨ha, hb, hc, hd⟩ := h
  simp only [List.forall_mem_cons]
  exact ⟨hexDigit_ascii ha, hexDigit_ascii hb, hexDigit_ascii hc, hexDigit_ascii hd,
    List.forall_mem_nil _⟩

theorem escape_ascii {escape : Bytes} {character : Char} (h : Escape escape character) :
    ∀ byte ∈ escape, byte ≤ 0x7f := by
  cases h with
  | unicode hquad => exact List.forall_mem_cons.mpr ⟨by decide, quad_ascii hquad⟩
  | pair hfirst hsecond =>
    refine List.forall_mem_cons.mpr ⟨by decide, List.forall_mem_append.mpr ⟨quad_ascii hfirst, ?_⟩⟩
    exact List.forall_mem_cons.mpr
      ⟨by decide, List.forall_mem_cons.mpr ⟨by decide, quad_ascii hsecond⟩⟩
  | _ => simp

/-- The loop of `parse_string`, over a valid text.  A character takes as many turns as it
has bytes. -/
theorem parseCharacters_sound {turns : ℕ} {input output rest : Bytes}
    (hutf8 : isValidUtf8 input = true)
    (h : parseCharacters turns input = .ok (output, rest)) :
    ∃ text characters, input = text ++ 0x22 :: rest ∧ Characters text characters ∧
      output = encode characters ∧ isValidUtf8 rest = true := by
  -- a plain character uses one turn for each of its bytes, hence the strong induction
  induction turns using Nat.strongRecOn generalizing input output with
  | _ turns ih =>
    obtain ⟨characters, rfl⟩ := isValidUtf8_iff.mp hutf8
    rcases turns with _ | turns
    · cases h
    rcases characters with _ | ⟨character, characters⟩
    · cases h
    rw [encode_cons] at h ⊢
    by_cases hquote : character = '"'
    · subst hquote
      obtain ⟨rfl, rfl⟩ := Prod.mk.inj (Except.ok.inj h)
      exact ⟨[], [], rfl, .nil, rfl, isValidUtf8_encode characters⟩
    by_cases hbackslash : character = '\\'
    · subst hbackslash
      change parseCharacters (turns + 1) (0x5c :: encode characters) = _ at h
      rw [parseCharacters, if_neg (by decide), if_neg (by decide), if_neg (by decide)] at h
      rcases hescape : parseEscape (encode characters) with error | ⟨bytes, escaped⟩
        <;> rw [hescape] at h
      · cases h
      dsimp only at h
      rcases hlater : parseCharacters turns escaped with error | ⟨later, remaining⟩
        <;> rw [hlater] at h
      · cases h
      obtain ⟨rfl, rfl⟩ := Prod.mk.inj (Except.ok.inj h)
      obtain ⟨escape, denoted, hinput, hdenoted, rfl⟩ := parseEscape_sound hescape
      -- an escape is ASCII, so what follows it is still UTF-8
      have hvalid : isValidUtf8 escaped = true := by
        rw [← isValidUtf8_ascii_append (escape_ascii hdenoted), ← hinput]
        exact isValidUtf8_encode characters
      obtain ⟨text, found, rfl, hfound, rfl, hrest⟩ := ih turns (Nat.lt_succ_self _) hvalid hlater
      refine ⟨0x5c :: (escape ++ text), denoted :: found, ?_, .escaped hdenoted hfound, rfl, hrest⟩
      rw [hinput]
      show [0x5c] ++ _ = _
      simp
    by_cases hspace : 0x20 ≤ character.toNat
    · have hplain := plain_utf8EncodeChar hspace hquote hbackslash
      obtain ⟨fewer, later, hturns, hlater, rfl⟩ := parseCharacters_of_plain hplain h
      obtain ⟨first, tail, hbytes, -⟩ := exists_head character
      have hfewer : fewer < turns + 1 := by
        rw [hturns, hbytes, List.length_cons]
        omega
      obtain ⟨text, found, hinput, hfound, rfl, hrest⟩ :=
        ih fewer hfewer (isValidUtf8_encode characters) hlater
      refine ⟨_, character :: found, ?_, .unescaped hspace hquote hbackslash hfound, rfl, hrest⟩
      rw [hinput, List.append_assoc]
    · -- a control character ends the loop
      have hform := form_utf8EncodeChar character
      generalize String.utf8EncodeChar character = bytes at h hform
      cases hform with
      | @one first hsize hfirst =>
        have hcontrol : first < 0x20 := by
          rw [UInt8.lt_iff_toNat_lt, hfirst]
          exact Nat.lt_of_not_le hspace
        have hne : first ≠ 0x22 := by
          rintro rfl
          exact absurd hcontrol (by decide)
        rw [List.singleton_append, parseCharacters, if_neg hne, if_pos hcontrol] at h
        cases h
      | two => omega
      | three => omega
      | four => omega

theorem parseCharacters_complete {text : Bytes} {characters : List Char}
    (h : Characters text characters)
    {turns : ℕ} (hturns : text.length < turns) (rest : Bytes) :
    parseCharacters turns (text ++ 0x22 :: rest) = .ok (encode characters, rest) := by
  induction h generalizing turns with
  | nil =>
    obtain ⟨turns, rfl⟩ := Nat.exists_eq_succ_of_ne_zero (Nat.ne_of_gt hturns)
    rfl
  | @unescaped character text characters hspace hquote hbackslash h ih =>
    rw [List.length_append] at hturns
    obtain ⟨fewer, rfl⟩ := Nat.exists_eq_add_of_le'
      (show (String.utf8EncodeChar character).length ≤ turns by omega)
    rw [List.append_assoc, encode_cons]
    exact parseCharacters_plain (plain_utf8EncodeChar hspace hquote hbackslash) (ih (by omega))
  | @escaped escape text character characters hescape h ih =>
    rw [List.length_cons, List.length_append] at hturns
    obtain ⟨turns, rfl⟩ := Nat.exists_eq_succ_of_ne_zero (show turns ≠ 0 by omega)
    rw [List.cons_append, List.append_assoc, parseCharacters, if_neg (by decide),
      if_neg (by decide), if_neg (by decide), parseEscape_complete hescape]
    dsimp only
    rw [ih (by omega), encode_cons]

theorem parseString_sound {input output rest : Bytes} (hutf8 : isValidUtf8 input = true)
    (h : parseString input = .ok (output, rest)) :
    ∃ text characters, input = quoted text ++ rest ∧ Characters text characters ∧
      output = encode characters ∧
      isValidUtf8 rest = true := by
  rw [parseString.eq_def] at h
  split at h
  · rename_i more
    rw [isValidUtf8_byte (by decide)] at hutf8
    obtain ⟨text, characters, rfl, hcharacters, houtput, hrest⟩ := parseCharacters_sound hutf8 h
    refine ⟨text, characters, ?_, hcharacters, houtput, hrest⟩
    simp [quoted]
  · cases h

theorem parseString_complete {text : Bytes} {characters : List Char}
    (h : Characters text characters)
    (rest : Bytes) : parseString (quoted text ++ rest) = .ok (encode characters, rest) := by
  rw [quoted, List.cons_append, List.append_assoc, List.singleton_append, parseString]
  refine parseCharacters_complete h ?_ rest
  rw [List.length_append]
  omega

end JsonParser

end Lora
