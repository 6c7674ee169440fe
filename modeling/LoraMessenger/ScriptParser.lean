/-
The parser of application scripts.

A script is a list of tokens between commas.  Each token is trimmed, recognised in any
ASCII case and expanded into actions.  The parser stops at the first error and then
returns no action at all.

Texts are percent-encoded.  Their bytes are decoded by a UTF-8 decoder of the parser's
own, which also refuses control and format characters.
-/
import Mathlib.Data.List.DropRight
import LoraMessenger.Guard
import LoraMessenger.Json
import LoraMessenger.TextScalars

namespace Lora

namespace Script

def kMaximumSourceBytes : ℕ := 16 * 1024
def kMaximumTokenBytes : ℕ := 512
def kMaximumActions : ℕ := 1024
def kMaximumTextBytes : ℕ := 160
def kMaximumWaitTicks : ℕ := 100

inductive ActionType where
  | key
  | wait
  | screenshot
  | expect
  | await
  | closeWindow
deriving DecidableEq

inductive NamedKey where
  | none
  | home
  | escape
  | up
  | down
  | left
  | right
  | enter
  | backspace
  | tab
deriving DecidableEq

structure Action where
  type : ActionType := .wait
  namedKey : NamedKey := .none
  scalar : ℕ := 0
  field : Bytes := []
  value : Bytes := []
deriving DecidableEq

inductive ParseError where
  | none
  | sourceTooLong
  | emptyToken
  | tokenTooLong
  | unknownToken
  | invalidValue
  | invalidTextEncoding
  | unsafeText
  | tooManyActions
  | closeMustBeLast
deriving DecidableEq

structure ParseResult where
  actions : List Action := []
  error : ParseError := .none
  tokenIndex : ℕ := 0
  diagnostic : String := ""
deriving DecidableEq

/-! ### Characters and words -/

def isAsciiSpace (character : UInt8) : Bool :=
  character = 0x20 || character = 0x09 || character = 0x0a || character =
    0x0d || character = 0x0c ||
    character = 0x0b

def trim (value : Bytes) : Bytes := (value.dropWhile isAsciiSpace).rdropWhile isAsciiSpace

def isLower (character : UInt8) : Bool := 0x61 ≤ character && character ≤ 0x7a

def isUpper (character : UInt8) : Bool := 0x41 ≤ character && character ≤ 0x5a

def isDigit (character : UInt8) : Bool := 0x30 ≤ character && character ≤ 0x39

def asciiUpper (character : UInt8) :
    UInt8 := if isLower character then character - 0x20 else character

def asciiEqual (left right : Bytes) : Bool := left.map asciiUpper = right.map asciiUpper

def asciiStartsWith (value start : Bytes) : Bool :=
  value.length ≥ start.length && asciiEqual (value.take start.length) start

/-- One digit of `parse_decimal`; a number over 32 bits is refused. -/
def decimalDigit (accumulator : ℕ) (character : UInt8) : Option ℕ :=
  if !isDigit character then none
  else
    let digit := character.toNat - 0x30
    if accumulator > (2 ^ 32 - 1 - digit) / 10 then none else some (accumulator * 10 + digit)

def parseDecimal (value : Bytes) : Option ℕ :=
  if value = [] then none else value.foldlM decimalDigit 0

def isUnreserved (character : UInt8) : Bool :=
  isLower character || isUpper character || isDigit character || character =
    0x2d || character = 0x2e ||
    character = 0x5f || character = 0x7e

def hexValue (character : UInt8) : Option ℕ :=
  if isDigit character then some (character.toNat - 0x30)
  else if 0x61 ≤ character ∧ character ≤ 0x66 then some (10 + character.toNat - 0x61)
  else if 0x41 ≤ character ∧ character ≤ 0x46 then some (10 + character.toNat - 0x41)
  else none

/-! ### Texts -/

/-- `decoded.push_back`, with the limit that is checked before it. -/
def pushByte (decoded : Bytes) (byte : UInt8) : Except String Bytes :=
  if decoded.length ≥ kMaximumTextBytes then .error "TEXT exceeds 160 decoded UTF-8 bytes"
  else .ok (decoded ++ [byte])

/-- The loop of `percent_decode`. -/
def percentBytes (decoded : Bytes) : Bytes → Except String Bytes
  | [] => .ok decoded
  | first :: rest =>
    if first = 0x25 then
      match rest with
      | high :: low :: rest =>
        match hexValue high, hexValue low with
        | some high, some low =>
          match pushByte decoded (high <<< 4 ||| low).toUInt8 with
          | .error diagnostic => .error diagnostic
          | .ok decoded => percentBytes decoded rest
        | _, _ => .error "TEXT contains a non-hex percent escape"
      | _ => .error "TEXT contains an incomplete percent escape"
    else if first > 0x7f ∨ isUnreserved first = false then
      .error "TEXT reserved and non-ASCII bytes must use percent escapes"
    else
      match pushByte decoded first with
      | .error diagnostic => .error diagnostic
      | .ok decoded => percentBytes decoded rest

def percentDecode (encoded : Bytes) : Except String Bytes :=
  if encoded = [] then .error "TEXT value must not be empty" else percentBytes [] encoded

def isBidiFormat (codepoint : ℕ) : Bool :=
  codepoint = 0x061c || codepoint = 0x200e || codepoint = 0x200f ||
    (0x202a ≤ codepoint && codepoint ≤ 0x202e) || (0x2066 ≤ codepoint && codepoint ≤ 0x2069)

def isNoncharacter (codepoint : ℕ) : Bool :=
  (0xfdd0 ≤ codepoint && codepoint ≤ 0xfdef) || codepoint &&& 0xffff = 0xfffe ||
    codepoint &&& 0xffff = 0xffff

def isUnsafeTextScalar (codepoint : ℕ) : Bool :=
  codepoint ≤ 0x1f || (0x7f ≤ codepoint && codepoint ≤ 0x9f) || codepoint = 0x2028 ||
    codepoint = 0x2029 || isBidiFormat codepoint || isNoncharacter codepoint

/-- What the first byte of a scalar gives, and the number of its bytes. -/
def leadingByte (first : UInt8) : Option (ℕ × ℕ) :=
  if first ≤ 0x7f then some (first.toNat, 1)
  else if 0xc2 ≤ first ∧ first ≤ 0xdf then some ((first &&& 0x1f).toNat, 2)
  else if 0xe0 ≤ first ∧ first ≤ 0xef then some ((first &&& 0x0f).toNat, 3)
  else if 0xf0 ≤ first ∧ first ≤ 0xf4 then some ((first &&& 0x07).toNat, 4)
  else none

def continuationByte (codepoint : ℕ) (byte : UInt8) : Option ℕ :=
  if byte &&& 0xc0 ≠ 0x80 then none else some (codepoint <<< 6 ||| (byte &&& 0x3f).toNat)

def isForbiddenForm (count codepoint : ℕ) : Bool :=
  (count = 2 && codepoint < 0x80) || (count = 3 && codepoint < 0x800) ||
    (count = 4 && codepoint < 0x10000) || (0xd800 ≤ codepoint && codepoint ≤ 0xdfff) ||
    codepoint > 0x10ffff

/-- One turn of `decode_utf8_scalars`: a scalar, and the bytes behind it. -/
def decodeScalar (first : UInt8) (rest : Bytes) : Except String (ℕ × Bytes) :=
  match leadingByte first with
  | none => .error "TEXT is not valid UTF-8"
  | some (codepoint, count) =>
    if count > rest.length + 1 then .error "TEXT is not valid UTF-8"
    else
      match (rest.take (count - 1)).foldlM continuationByte codepoint with
      | none => .error "TEXT is not valid UTF-8"
      | some codepoint =>
        if isForbiddenForm count codepoint then .error "TEXT is not valid scalar UTF-8"
        else if isUnsafeTextScalar codepoint then
          .error "TEXT contains a forbidden control or format scalar"
        else .ok (codepoint, rest.drop (count - 1))

/-- The loop of `decode_utf8_scalars`.  Every turn takes a byte, so that as many turns as
there are bytes are enough. -/
def decodeScalars : (turns : ℕ) → (scalars : List ℕ) → Bytes → Except String (List ℕ)
  | _, scalars, [] => .ok scalars
  | 0, _, _ :: _ => .error ""
  | turns + 1, scalars, first :: rest =>
    match decodeScalar first rest with
    | .error diagnostic => .error diagnostic
    | .ok (codepoint, rest) => decodeScalars turns (scalars ++ [codepoint]) rest

/-- An empty text is refused without a diagnostic. -/
def decodeUtf8Scalars (value : Bytes) : Except String (List ℕ) :=
  match decodeScalars value.length [] value with
  | .error diagnostic => .error diagnostic
  | .ok scalars => if scalars = [] then .error "" else .ok scalars

/-! ### Probes and stems -/

def isStableCharacter (character : UInt8) : Bool :=
  isLower character || isDigit character || character = 0x2e || character = 0x5f || character = 0x2d

def isStableAtom (value : Bytes) (maximum : ℕ) : Bool :=
  match value with
  | [] => false
  | front :: _ => value.length ≤ maximum && isLower front && value.all isStableCharacter

def isStableValue (value : Bytes) (maximum : ℕ) : Bool :=
  match value with
  | [] => false
  | front :: _ => value.length ≤ maximum && (isLower front || isDigit front) &&
    value.all isStableCharacter

def probeFields : List Bytes :=
  [ascii "screen", ascii "modal", ascii "locale", ascii "focus", ascii "status", ascii "count",
    ascii "persistence", ascii "newest-state"]

def isProbeField (field : Bytes) : Bool := field ∈ probeFields

/-- The field and the value of an expectation, around its only colon. -/
def parseProbe (payload : Bytes) : Except String (Bytes × Bytes) :=
  match payload.span (· ≠ 0x3a) with
  | (_, []) => .error "expectation must use field:value"
  | (field, _ :: value) =>
    if 0x3a ∈ value then .error "expectation must use field:value"
    else if !isStableAtom field 16 || !isProbeField field then
      .error "expectation uses an unsupported field"
    else if !isStableValue value 64 then
      .error "expectation value is not a stable lowercase ASCII id"
    else .ok (field, value)

def isSafeScreenshotStem (stem : Bytes) : Bool :=
  match stem.head?, stem.getLast? with
  | some front, some back =>
    stem.length ≤ 64 && (isLower front || isDigit front) && (isLower back || isDigit back) &&
      stem.all isStableCharacter
  | _, _ => false

def namedKeyFor (token : Bytes) : NamedKey :=
  if asciiEqual token (ascii "HOME") then .home
  else if asciiEqual token (ascii "ESC") then .escape
  else if asciiEqual token (ascii "UP") then .up
  else if asciiEqual token (ascii "DOWN") then .down
  else if asciiEqual token (ascii "LEFT") then .left
  else if asciiEqual token (ascii "RIGHT") then .right
  else if asciiEqual token (ascii "ENTER") then .enter
  else if asciiEqual token (ascii "BACKSPACE") then .backspace
  else if asciiEqual token (ascii "TAB") then .tab
  else .none

/-! ### Tokens -/

def failure (error : ParseError) (tokenIndex : ℕ) (diagnostic : String) : ParseResult :=
  { error := error, tokenIndex := tokenIndex, diagnostic := diagnostic }

/-- An error is what the parser returns at once. -/
def appendAction (tokenIndex : ℕ) (result : ParseResult) (action : Action) :
    Except ParseResult ParseResult :=
  if result.actions.length ≥ kMaximumActions then
    .error (failure .tooManyActions tokenIndex "expanded action count exceeds 1024")
  else .ok { result with actions := result.actions ++ [action] }

def appendActions (tokenIndex : ℕ) (result : ParseResult) (actions : List Action) :
    Except ParseResult ParseResult :=
  actions.foldlM (appendAction tokenIndex) result

/-- The key of a character. -/
def Action.ofScalar (scalar : ℕ) : Action := { type := .key, scalar := scalar }

/-- The actions of a trimmed token; `last` says that no comma follows it. -/
def parseToken (tokenIndex : ℕ) (last : Bool) (result : ParseResult) (token : Bytes) :
    Except ParseResult ParseResult :=
  if token = [] then .error (failure .emptyToken tokenIndex "empty script token is not allowed")
  else if token.length > kMaximumTokenBytes then
    .error (failure .tokenTooLong tokenIndex "script token exceeds 512 bytes")
  else if namedKeyFor token ≠ .none then
    appendAction tokenIndex result { type := .key, namedKey := namedKeyFor token }
  else if asciiEqual token (ascii "N") || asciiEqual token (ascii "R") || asciiEqual token
    (ascii "M") ||
      asciiEqual token (ascii "S") || asciiEqual token (ascii "D") then
    appendAction tokenIndex result (.ofScalar (((asciiUpper (token.headD 0)).toNat - 0x41) + 0x61))
  else if asciiEqual token (ascii "WAIT") then appendAction tokenIndex result { type := .wait }
  else if asciiStartsWith token (ascii "WAIT=") then
    match parseDecimal (token.drop 5) with
    | none =>
      .error (failure .invalidValue tokenIndex "WAIT count must be an integer from 1 through 100")
    | some count =>
      if count = 0 ∨ count > kMaximumWaitTicks then
        .error (failure .invalidValue tokenIndex "WAIT count must be an integer from 1 through 100")
      else appendActions tokenIndex result (List.replicate count { type := .wait })
  else if asciiStartsWith token (ascii "TEXT=") then
    match percentDecode (token.drop 5) with
    | .error diagnostic => .error (failure .invalidTextEncoding tokenIndex diagnostic)
    | .ok decoded =>
      match decodeUtf8Scalars decoded with
      | .error diagnostic => .error (failure .unsafeText tokenIndex diagnostic)
      | .ok scalars => appendActions tokenIndex result (scalars.map .ofScalar)
  else if asciiStartsWith token (ascii "SHOT=") then
    let stem := token.drop 5
    if stem ≠ [] ∧ isSafeScreenshotStem stem = false then
      .error (failure .invalidValue tokenIndex "SHOT stem is not a canonical safe lowercase name")
    else appendAction tokenIndex result { type := .screenshot, value := stem }
  else if asciiStartsWith token (ascii "EXPECT=") || asciiStartsWith token (ascii "AWAIT=") then
    let await := asciiStartsWith token (ascii "AWAIT=")
    match parseProbe (token.drop (if await then 6 else 7)) with
    | .error diagnostic => .error (failure .invalidValue tokenIndex diagnostic)
    | .ok (field, value) =>
      appendAction tokenIndex result
        { type := if await then .await else .expect, field := field, value := value }
  else if asciiEqual token (ascii "CLOSE") then
    if !last then .error (failure .closeMustBeLast tokenIndex
      "CLOSE must be the final script token")
    else appendAction tokenIndex result { type := .closeWindow }
  else .error (failure .unknownToken tokenIndex "unknown script token")

/-- The loop of `parse`, over the pieces between the commas. -/
def parsePieces : (tokenIndex : ℕ) → ParseResult → List Bytes → Except ParseResult ParseResult
  | _, result, [] => .ok result
  | tokenIndex, result, piece :: rest => do
    let result ← parseToken tokenIndex rest.isEmpty result (trim piece)
    parsePieces (tokenIndex + 1) result rest

def parse (source : Bytes) : ParseResult :=
  if source.length > kMaximumSourceBytes then failure .sourceTooLong 0
    "script source exceeds 16384 bytes"
  else if source = [] then {}
  else
    match parsePieces 1 {} (source.splitOn 0x2c) with
    | .error result => result
    | .ok result => result

end Script

end Lora
