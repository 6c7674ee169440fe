/-
The language of application scripts.

The grammar is written down without the parser: what a token looks like, and the actions
it stands for.

* `Token`, `Tokens` — the grammar, with the meaning of each token;
* `parseToken_sound`, `parseToken_complete`, `parsePieces_eq_ok` — the parser against it;
* `script_parser_accepts_grammar` — the parser accepts this language and nothing else.
-/
import Mathlib.Data.List.TakeDrop
import LoraMessenger.Utf8Agreement

namespace Lora

open Utf8Codec

namespace Script

/-! ### The grammar -/

/-- A word in any ASCII case. -/
def Spells (word : String) (token : Bytes) : Prop := token.map asciiUpper = ascii word

def keyWords : List (String × NamedKey) :=
  [("HOME", .home), ("ESC", .escape), ("UP", .up), ("DOWN", .down), ("LEFT", .left),
    ("RIGHT", .right), ("ENTER", .enter), ("BACKSPACE", .backspace), ("TAB", .tab)]

/-- The shortcuts, and the characters they stand for. -/
def shortcutWords : List (String × Char) :=
    [("N", 'n'), ("R", 'r'), ("M", 'm'), ("S", 's'), ("D", 'd')]

/-- The number that digits denote. -/
def decimalValue (digits : Bytes) :
    ℕ := digits.foldl (fun value digit => value * 10 + (digit.toNat - 0x30)) 0

/-- Bytes as escapes, or as they are where that is allowed. -/
inductive PercentEncodes : (encoded decoded : Bytes) → Prop
  | nil : PercentEncodes [] []
  | plain {byte : UInt8} {encoded decoded : Bytes} (hbyte : isUnreserved byte)
    (hrest : PercentEncodes encoded decoded) : PercentEncodes (byte :: encoded) (byte :: decoded)
  | escape {high low : UInt8} {first second : ℕ} {encoded decoded : Bytes}
    (hhigh : hexValue high = some first)
    (hlow : hexValue low = some second) (hrest : PercentEncodes encoded decoded) :
    PercentEncodes (0x25 :: high :: low :: encoded) ((16 * first + second).toUInt8 :: decoded)

/-- A text that may be typed. -/
structure SafeText (text : List Char) : Prop where
  nonempty : text ≠ []
  size : (encode text).length ≤ kMaximumTextBytes
  safe : ∀ c ∈ text, isUnsafeTextScalar c.toNat = false

/-- The keys of a text. -/
def keys (text : List Char) : List Action := text.map fun c => .ofScalar c.toNat

/-- A token and its actions; `last` where no other token follows. -/
inductive Token (last : Bool) : Bytes → List Action → Prop
  | key {word : String} {key : NamedKey} {token : Bytes} (hkey : (word, key) ∈ keyWords)
    (htoken : Spells word token) : Token last token [{ type := .key, namedKey := key }]
  | shortcut {word : String} {letter : Char} {token : Bytes}
    (hletter : (word, letter) ∈ shortcutWords)
    (htoken : Spells word token) : Token last token (keys [letter])
  | wait {token : Bytes} (htoken : Spells "WAIT" token) : Token last token [{ type := .wait }]
  | waits {word digits : Bytes} (hword : Spells "WAIT=" word) (hnonempty : digits ≠ [])
    (hdigits : ∀ digit ∈ digits, isDigit digit) (hmin : 1 ≤ decimalValue digits)
    (hmax : decimalValue digits ≤ 100) :
    Token last (word ++ digits) (List.replicate (decimalValue digits) { type := .wait })
  | text {word encoded : Bytes} {text : List Char} (hword : Spells "TEXT=" word)
    (hencoded : PercentEncodes encoded (encode text)) (htext : SafeText text) :
    Token last (word ++ encoded) (keys text)
  | shot {word stem : Bytes} (hword : Spells "SHOT=" word)
    (hstem : stem = [] ∨ isSafeScreenshotStem stem) :
    Token last (word ++ stem) [{ type := .screenshot, value := stem }]
  | expect {word field value : Bytes} (hword : Spells "EXPECT=" word) (hfield : field ∈ probeFields)
    (hvalue : isStableValue value 64) :
    Token last (word ++ (field ++ 0x3a :: value))
      [{ type := .expect, field := field, value := value }]
  | await {word field value : Bytes} (hword : Spells "AWAIT=" word) (hfield : field ∈ probeFields)
    (hvalue : isStableValue value 64) :
    Token last (word ++ (field ++ 0x3a :: value))
      [{ type := .await, field := field, value := value }]
  | close {token : Bytes} (hlast : last = true) (htoken : Spells "CLOSE" token) :
    Token last token [{ type := .closeWindow }]

/-- The pieces between the commas and the actions of all of them. -/
inductive Tokens : List Bytes → List Action → Prop
  | nil : Tokens [] []
  | cons {piece : Bytes} {rest : List Bytes} {actions others : List Action}
    (hnonempty : trim piece ≠ [])
    (hsize : (trim piece).length ≤ kMaximumTokenBytes)
    (htoken : Token rest.isEmpty (trim piece) actions)
    (hrest : Tokens rest others) : Tokens (piece :: rest) (actions ++ others)

/-! ### Appending actions -/

/-- The actions are appended, and there is room for them. -/
def Appends (result : ParseResult) (actions : List Action) (next : ParseResult) : Prop :=
  result.actions.length + actions.length ≤ kMaximumActions ∧
    next = { result with actions := result.actions ++ actions }

theorem appendAction_eq_ok {tokenIndex : ℕ} {result next : ParseResult} {action : Action} :
    appendAction tokenIndex result action = .ok next ↔ Appends result [action] next := by
  rw [appendAction, Guard.ite_error_eq_ok, Except.ok.injEq, Appends, List.length_singleton]
  constructor
  · rintro ⟨hroom, rfl⟩
    exact ⟨by omega, rfl⟩
  · rintro ⟨hroom, rfl⟩
    exact ⟨by omega, rfl⟩

theorem appendActions_eq_ok {tokenIndex : ℕ} {result next : ParseResult} {actions : List Action}
    (hroom : result.actions.length ≤ kMaximumActions) :
    appendActions tokenIndex result actions = .ok next ↔ Appends result actions next := by
  induction actions generalizing result with
  | nil =>
    rw [appendActions, List.foldlM_nil, Appends, List.append_nil, List.length_nil]
    constructor
    · rintro ⟨⟩
      exact ⟨hroom, rfl⟩
    · rintro ⟨-, rfl⟩
      rfl
  | cons action actions ih =>
    rw [appendActions, List.foldlM_cons, Guard.bind_eq_ok]
    constructor
    · rintro ⟨middle, hfirst, hrest⟩
      obtain ⟨hone, rfl⟩ := appendAction_eq_ok.mp hfirst
      obtain ⟨hall, rfl⟩ := (ih (by simpa using hone)).mp hrest
      refine ⟨?_, by simp⟩
      simp only [List.length_append, List.length_cons, List.length_nil] at hall ⊢
      omega
    · rintro ⟨hall, rfl⟩
      rw [List.length_cons] at hall
      refine ⟨{ result with actions := result.actions ++ [action] },
        appendAction_eq_ok.mpr ⟨by rw [List.length_singleton]; omega, rfl⟩, ?_⟩
      refine (ih (by simp only [List.length_append, List.length_singleton]; omega)).mpr
        ⟨?_, by simp⟩
      simp only [List.length_append, List.length_singleton]
      omega

theorem Appends.room {result next : ParseResult} {actions : List Action}
    (h : Appends result actions next) :
    next.actions.length ≤ kMaximumActions := by
  obtain ⟨hroom, rfl⟩ := h
  exact le_of_eq_of_le (List.length_append ..) hroom

theorem Appends.trans {first second third : ParseResult} {left right : List Action}
    (hleft : Appends first left second) (hright : Appends second right third) :
    Appends first (left ++ right) third := by
  obtain ⟨-, rfl⟩ := hleft
  obtain ⟨hroom, rfl⟩ := hright
  refine ⟨?_, by simp⟩
  simp only [List.length_append] at hroom ⊢
  omega

theorem Appends.split {first third : ParseResult} {left right : List Action}
    (h : Appends first (left ++ right) third) :
    ∃ second, Appends first left second ∧ Appends second right third := by
  obtain ⟨hroom, rfl⟩ := h
  rw [List.length_append] at hroom
  refine ⟨{ first with actions := first.actions ++ left }, ⟨by omega, rfl⟩, ?_, by simp⟩
  simp only [List.length_append]
  omega

/-! ### Percent encoding -/

theorem hexValue_lt {character : UInt8} {value : ℕ} (h : hexValue character = some value) :
    value < 16 := by
  have hbyte := character.toNat_lt
  rw [hexValue] at h
  simp only [isDigit, Bool.and_eq_true, decide_eq_true_eq, UInt8.le_iff_toNat_le,
    UInt8.toNat_ofNat] at h
  split_ifs at h
  all_goals
    rw [Option.some.injEq] at h
    omega

theorem pushByte_eq_ok {decoded result : Bytes} {byte : UInt8} :
    pushByte decoded byte = .ok result ↔ decoded.length + 1 ≤ kMaximumTextBytes ∧
      result = decoded ++ [byte] := by
  rw [pushByte, Guard.ite_error_eq_ok, Except.ok.injEq, not_le, Nat.lt_iff_add_one_le, eq_comm]

theorem isUnreserved_le {byte : UInt8} (h : isUnreserved byte = true) : ¬byte > 0x7f ∧
    byte ≠ 0x25 := by
  have hall : ∀ n < 256, isUnreserved (UInt8.ofNat n) = true →
      ¬UInt8.ofNat n > 0x7f ∧ UInt8.ofNat n ≠ 0x25 := by decide +kernel
  have hbyte := hall byte.toNat byte.toNat_lt
  rw [UInt8.ofNat_toNat] at hbyte
  exact hbyte h

/-- One byte was decoded, and there was room for it. -/
theorem percentBytes_push {decoded rest result : Bytes} {byte : UInt8}
    (h : (match pushByte decoded byte with
      | .error diagnostic => (.error diagnostic : Except String Bytes)
      | .ok decoded => percentBytes decoded rest) = .ok result) :
    (decoded ++ [byte]).length ≤ kMaximumTextBytes ∧ percentBytes (decoded ++ [byte]) rest =
      .ok result := by
  split at h
  · cases h
  · rename_i next hnext
    obtain ⟨hsize, rfl⟩ := pushByte_eq_ok.mp hnext
    rw [List.length_append]
    exact ⟨hsize, h⟩

/-- What is decoded is written by the encoding. -/
theorem percentBytes_sound {encoded decoded result : Bytes}
    (h : percentBytes decoded encoded = .ok result)
    (hroom : decoded.length ≤ kMaximumTextBytes) :
    ∃ bytes, PercentEncodes encoded bytes ∧ result = decoded ++ bytes ∧
      result.length ≤ kMaximumTextBytes := by
  induction hlength : encoded.length using Nat.strongRecOn generalizing encoded decoded with
  | _ length ih =>
    rcases encoded with _ | ⟨first, rest⟩
    · rw [percentBytes, Except.ok.injEq] at h
      subst h
      exact ⟨[], .nil, (List.append_nil _).symm, hroom⟩
    -- one more byte is decoded, and the rest is shorter
    have hpush : ∀ {byte : UInt8} {rest' : Bytes}, rest'.length < length →
        (decoded ++ [byte]).length ≤ kMaximumTextBytes ∧ percentBytes (decoded ++ [byte]) rest' =
          .ok result →
        ∃ bytes, PercentEncodes rest' bytes ∧ result = decoded ++ byte :: bytes ∧
          result.length ≤ kMaximumTextBytes := by
      rintro byte rest' hshorter ⟨hsize, hread⟩
      obtain ⟨bytes, hbytes, hresult, hlimit⟩ := ih rest'.length hshorter hread hsize rfl
      exact ⟨bytes, hbytes, by rw [hresult, List.append_assoc]; rfl, hlimit⟩
    rw [percentBytes.eq_def] at h
    dsimp only at h
    split at h
    · rename_i hfirst
      subst hfirst
      rcases rest with _ | ⟨high, _ | ⟨low, rest⟩⟩
      · cases h
      · cases h
      dsimp only at h
      rcases hhigh : hexValue high with _ | first
      · rw [hhigh] at h
        cases h
      rcases hlow : hexValue low with _ | second
      · rw [hhigh, hlow] at h
        cases h
      rw [hhigh, hlow] at h
      have hshorter : rest.length < length := by
        rw [← hlength]
        simp only [List.length_cons]
        omega
      obtain ⟨bytes, hbytes, hresult, hlimit⟩ := hpush hshorter (percentBytes_push h)
      refine ⟨_, .escape hhigh hlow hbytes, ?_, hlimit⟩
      have hbyte : first <<< 4 ||| second = 16 * first + second := by
        rw [← Nat.shiftLeft_add_eq_or_of_lt (hexValue_lt hlow), Nat.shiftLeft_eq, Nat.mul_comm]
      rw [hresult, hbyte]
    · split at h
      · cases h
      · rename_i hbyte
        have hshorter : rest.length < length := by
          rw [← hlength]
          exact Nat.lt_succ_self _
        obtain ⟨bytes, hbytes, hresult, hlimit⟩ := hpush hshorter (percentBytes_push h)
        refine ⟨_, .plain ?_ hbytes, hresult, hlimit⟩
        rw [not_or, Bool.not_eq_false] at hbyte
        exact hbyte.2

/-- Every encoding is decoded. -/
theorem percentBytes_complete {encoded bytes : Bytes} (h : PercentEncodes encoded bytes)
    {decoded : Bytes}
    (hroom : decoded.length + bytes.length ≤ kMaximumTextBytes) :
    percentBytes decoded encoded = .ok (decoded ++ bytes) := by
  induction h generalizing decoded with
  | nil => rw [percentBytes, List.append_nil]
  | @plain byte encoded bytes hbyte hrest ih =>
    rw [List.length_cons] at hroom
    have hpush : pushByte decoded byte = .ok (decoded ++ [byte]) :=
      pushByte_eq_ok.mpr ⟨by omega, rfl⟩
    rw [percentBytes.eq_def]
    dsimp only
    rw [if_neg (isUnreserved_le hbyte).2, if_neg (by simp [isUnreserved_le hbyte, hbyte]), hpush]
    dsimp only
    rw [ih (by simp only [List.length_append, List.length_singleton]; omega), List.append_assoc]
    rfl
  | @escape high low first second encoded bytes hhigh hlow hrest ih =>
    rw [List.length_cons] at hroom
    have hbyte : first <<< 4 ||| second = 16 * first + second := by
      rw [← Nat.shiftLeft_add_eq_or_of_lt (hexValue_lt hlow), Nat.shiftLeft_eq, Nat.mul_comm]
    have hpush : pushByte decoded (16 * first + second).toUInt8 =
        .ok (decoded ++ [(16 * first + second).toUInt8]) := pushByte_eq_ok.mpr ⟨by omega, rfl⟩
    rw [percentBytes.eq_def]
    dsimp only
    rw [if_pos rfl, hhigh, hlow]
    dsimp only
    rw [hbyte, hpush]
    dsimp only
    rw [ih (by simp only [List.length_append, List.length_singleton]; omega), List.append_assoc]
    rfl

/-- Texts with their encodings are what is read. -/
theorem readText_eq_ok {encoded : Bytes} {scalars : List ℕ} :
    (∃ decoded, percentDecode encoded = .ok decoded ∧ decodeUtf8Scalars decoded = .ok scalars) ↔
      ∃ text, SafeText text ∧ PercentEncodes encoded (encode text) ∧
        scalars = text.map Char.toNat := by
  constructor
  · rintro ⟨decoded, hdecoded, hscalars⟩
    rw [percentDecode, Guard.ite_error_eq_ok] at hdecoded
    obtain ⟨bytes, hbytes, rfl, hsize⟩ := percentBytes_sound hdecoded.2 (Nat.zero_le _)
    obtain ⟨hnonempty, hvisit, hsafe⟩ := decodeUtf8Scalars_eq_ok.mp hscalars
    obtain ⟨text, rfl, rfl⟩ := exists_text_of_visitUtf8 hvisit
    refine ⟨text, ⟨fun hnil => hnonempty (by rw [hnil]; rfl), hsize, ?_⟩, hbytes, rfl⟩
    exact fun c hc => hsafe _ (List.mem_map_of_mem hc)
  · rintro ⟨text, ⟨hnonempty, hsize, hsafe⟩, hencoded, rfl⟩
    refine ⟨encode text, ?_, decodeUtf8Scalars_eq_ok.mpr ⟨?_, visitUtf8_encode text, ?_⟩⟩
    · rw [percentDecode, if_neg, percentBytes_complete hencoded (by simpa using hsize),
        List.nil_append]
      rintro rfl
      refine hnonempty (encode_eq_nil.mp ?_)
      generalize encode text = bytes at hencoded
      cases hencoded
      rfl
    · exact fun hnil => hnonempty (encode_eq_nil.mp hnil)
    · intro scalar hscalar
      obtain ⟨c, hc, rfl⟩ := List.mem_map.mp hscalar
      exact hsafe c hc

/-! ### Numbers -/

theorem decimalDigit_eq_some {accumulator next : ℕ} {character : UInt8}
    (h : decimalDigit accumulator character = some next) :
    isDigit character = true ∧ next = accumulator * 10 + (character.toNat - 0x30) := by
  rw [decimalDigit] at h
  dsimp only at h
  split at h
  · cases h
  rename_i hdigit
  split at h
  · cases h
  rw [Bool.not_eq_true', Bool.not_eq_false] at hdigit
  exact ⟨hdigit, (Option.some.inj h).symm⟩

theorem foldlM_decimalDigit {digits : Bytes} {accumulator count : ℕ}
    (h : digits.foldlM decimalDigit accumulator = some count) :
    (∀ digit ∈ digits, isDigit digit = true) ∧
      count = digits.foldl (fun value digit => value * 10 + (digit.toNat - 0x30)) accumulator := by
  induction digits generalizing accumulator with
  | nil => exact ⟨List.forall_mem_nil _, (Option.some.inj h).symm⟩
  | cons digit digits ih =>
    rw [List.foldlM_cons] at h
    obtain ⟨next, hnext, h⟩ := Option.bind_eq_some_iff.mp h
    obtain ⟨hdigit, rfl⟩ := decimalDigit_eq_some hnext
    obtain ⟨hdigits, rfl⟩ := ih h
    exact ⟨List.forall_mem_cons.mpr ⟨hdigit, hdigits⟩, rfl⟩

/-- A number only grows with its digits. -/
theorem le_foldl_digits (digits : Bytes) (accumulator : ℕ) :
    accumulator ≤ digits.foldl (fun value digit => value * 10 + (digit.toNat - 0x30))
      accumulator := by
  induction digits generalizing accumulator with
  | nil => exact le_refl _
  | cons digit digits ih => exact le_trans (by omega) (ih (accumulator * 10 + (digit.toNat - 0x30)))

/-- A small number never comes near the limit of 32 bits. -/
theorem foldlM_decimalDigit_of_le {digits : Bytes} {accumulator : ℕ}
    (hdigits : ∀ digit ∈ digits, isDigit digit = true)
    (hmax : digits.foldl (fun value digit => value * 10 + (digit.toNat - 0x30)) accumulator ≤ 100) :
    digits.foldlM decimalDigit accumulator =
      some (digits.foldl (fun value digit => value * 10 + (digit.toNat - 0x30)) accumulator) := by
  induction digits generalizing accumulator with
  | nil => rfl
  | cons digit digits ih =>
    obtain ⟨hdigit, hdigits⟩ := List.forall_mem_cons.mp hdigits
    rw [List.foldl_cons] at hmax
    have hnext := le_trans (le_foldl_digits digits _) hmax
    have hread : decimalDigit accumulator digit =
        some (accumulator * 10 + (digit.toNat - 0x30)) := by
      rw [decimalDigit, if_neg (by rw [hdigit]; decide)]
      dsimp only
      rw [if_neg (by omega)]
    rw [List.foldlM_cons, hread, List.foldl_cons]
    exact ih hdigits hmax

theorem parseDecimal_eq_some {digits : Bytes} {count : ℕ} (hmax : count ≤ 100) :
    parseDecimal digits = some count ↔
      digits ≠ [] ∧ (∀ digit ∈ digits, isDigit digit = true) ∧ decimalValue digits = count := by
  rw [parseDecimal]
  constructor
  · intro h
    split at h
    · cases h
    · obtain ⟨hdigits, hcount⟩ := foldlM_decimalDigit h
      exact ⟨‹_›, hdigits, hcount.symm⟩
  · rintro ⟨hnonempty, hdigits, rfl⟩
    rw [if_neg hnonempty]
    exact foldlM_decimalDigit_of_le hdigits hmax

/-! ### Probes -/

/-- The supported fields pass the check for atoms and hold no colon. -/
theorem isStableAtom_probeFields :
    ∀ field ∈ probeFields, isStableAtom field 16 = true ∧ 0x3a ∉ field := by decide

theorem colon_not_mem_of_isStableValue {value : Bytes} {maximum : ℕ}
    (h : isStableValue value maximum = true) :
    0x3a ∉ value := by
  intro hmem
  rcases value with _ | ⟨front, rest⟩
  · cases hmem
  rw [isStableValue, Bool.and_eq_true, List.all_eq_true] at h
  have hcolon := h.2 0x3a hmem
  exact absurd hcolon (by decide)

theorem parseProbe_eq_ok {payload field value : Bytes} : parseProbe payload = .ok (field, value) ↔
    payload = field ++ 0x3a :: value ∧ field ∈ probeFields ∧ isStableValue value 64 = true := by
  rw [parseProbe, List.span_eq_takeWhile_dropWhile]
  constructor
  · intro h
    split at h
    · cases h
    · rename_i front colon rest hsplit
      rw [Prod.mk.injEq] at hsplit
      obtain ⟨hfront, hrest⟩ := hsplit
      rw [Guard.ite_error_eq_ok, Guard.ite_error_eq_ok, Guard.ite_error_eq_ok, Except.ok.injEq,
        Prod.mk.injEq] at h
      obtain ⟨-, hfield, hvalue, rfl, rfl⟩ := h
      have hcolon : colon = 0x3a := by
        have := List.head?_dropWhile_not (fun byte => decide (byte ≠ 0x3a)) payload
        rw [hrest] at this
        simpa using this
      subst hcolon
      have hfield : isStableAtom front 16 = true ∧ front ∈ probeFields := by
        simpa [isProbeField] using hfield
      refine ⟨?_, hfield.2, by simpa using hvalue⟩
      rw [← hfront, ← hrest, List.takeWhile_append_dropWhile]
  · rintro ⟨rfl, hfield, hvalue⟩
    obtain ⟨hatom, hcolon⟩ := isStableAtom_probeFields field hfield
    have hfree : ∀ byte ∈ field, decide (byte ≠ 0x3a) = true := by
      intro byte hbyte
      exact decide_eq_true fun h => hcolon (h ▸ hbyte)
    rw [List.takeWhile_append_of_pos hfree, List.dropWhile_append_of_pos hfree,
      List.takeWhile_cons_of_neg (by decide), List.dropWhile_cons_of_neg (by decide),
        List.append_nil]
    dsimp only
    rw [if_neg (colon_not_mem_of_isStableValue hvalue),
      if_neg (by simp [hatom, isProbeField, hfield]),
      if_neg (by simp [hvalue])]

/-! ### Words -/

variable {token : Bytes}

theorem asciiStartsWith_eq (value start : Bytes) :
    asciiStartsWith value start =
      decide ((value.map asciiUpper).take start.length = start.map asciiUpper) := by
  rw [asciiStartsWith, asciiEqual, ← List.map_take]
  by_cases h : (value.take start.length).map asciiUpper = start.map asciiUpper
  · have hlength := congrArg List.length h
    rw [List.length_map, List.length_map, List.length_take] at hlength
    rw [decide_eq_true h, decide_eq_true (show value.length ≥ start.length by omega)]
    rfl
  · rw [decide_eq_false h, Bool.and_false]

theorem spells_of_asciiEqual {word : String} (hword : (ascii word).map asciiUpper = ascii word)
    (h : asciiEqual token (ascii word) = true) : Spells word token := by
  rw [asciiEqual, decide_eq_true_eq] at h
  exact h.trans hword

/-- A token that starts with a word is that word and what follows it. -/
theorem exists_of_asciiStartsWith {word : String} (size : ℕ)
    (hword : (ascii word).map asciiUpper = ascii word ∧ (ascii word).length = size)
    (h : asciiStartsWith token (ascii word) = true) :
    ∃ front rest, Spells word front ∧ token.drop size = rest ∧ token = front ++ rest := by
  rw [asciiStartsWith_eq, decide_eq_true_eq, hword.1, hword.2, ← List.map_take] at h
  exact ⟨token.take size, token.drop size, h, rfl, (List.take_append_drop _ _).symm⟩

theorem Spells.length {word : String} (h : Spells word token) : token.length =
    (ascii word).length := by
  rw [← List.length_map (f := asciiUpper), h]

theorem Spells.drop {word : String} (h : Spells word token) (rest : Bytes) :
    (token ++ rest).drop (ascii word).length = rest := by
  rw [← h.length, List.drop_left]

theorem Spells.map {word : String} (h : Spells word token) (rest : Bytes) :
    (token ++ rest).map asciiUpper = ascii word ++ rest.map asciiUpper := by
  rw [List.map_append, h]

theorem Spells.equals {word : String} (h : Spells word token) (hword : 0x3d ∈ ascii word)
    (rest : Bytes) :
    0x3d ∈ (token ++ rest).map asciiUpper := by
  rw [h.map]
  exact List.mem_append_left _ hword

/-! All tests of words see a token in upper case. -/

theorem asciiEqual_congr {left right : Bytes} (h : left.map asciiUpper = right.map asciiUpper) :
    asciiEqual left = asciiEqual right := by
  funext word
  rw [asciiEqual, h, asciiEqual]

theorem asciiStartsWith_congr {left right : Bytes}
    (h : left.map asciiUpper = right.map asciiUpper) :
    asciiStartsWith left = asciiStartsWith right := by
  funext start
  rw [asciiStartsWith_eq, h, asciiStartsWith_eq]

theorem namedKeyFor_congr {left right : Bytes} (h : left.map asciiUpper = right.map asciiUpper) :
    namedKeyFor left = namedKeyFor right := by
  simp only [namedKeyFor, asciiEqual_congr h]

theorem headD_map (value : Bytes) : (value.map asciiUpper).headD 0 =
    asciiUpper (value.headD 0) := by
  cases value with
  | nil => rfl
  | cons => rfl

theorem namedKeyFor_spells {word : String} {key : NamedKey} (hkey : (word, key) ∈ keyWords)
    (htoken : Spells word token) : namedKeyFor token = key := by
  have hall : ∀ entry ∈ keyWords, (ascii entry.1).map asciiUpper = ascii entry.1 ∧
      namedKeyFor (ascii entry.1) = entry.2 := by decide
  obtain ⟨hupper, hvalue⟩ := hall _ hkey
  exact (namedKeyFor_congr (htoken.trans hupper.symm)).trans hvalue

/-- A key that is found has been spelled. -/
theorem exists_of_namedKeyFor (h : namedKeyFor token ≠ .none) :
    ∃ word, (word, namedKeyFor token) ∈ keyWords ∧ Spells word token := by
  rw [namedKeyFor] at h ⊢
  by_cases hhome : asciiEqual token (ascii "HOME") = true
  · rw [if_pos hhome]
    exact ⟨"HOME", by decide, spells_of_asciiEqual rfl hhome⟩
  rw [if_neg hhome] at h ⊢
  by_cases hesc : asciiEqual token (ascii "ESC") = true
  · rw [if_pos hesc]
    exact ⟨"ESC", by decide, spells_of_asciiEqual rfl hesc⟩
  rw [if_neg hesc] at h ⊢
  by_cases hup : asciiEqual token (ascii "UP") = true
  · rw [if_pos hup]
    exact ⟨"UP", by decide, spells_of_asciiEqual rfl hup⟩
  rw [if_neg hup] at h ⊢
  by_cases hdown : asciiEqual token (ascii "DOWN") = true
  · rw [if_pos hdown]
    exact ⟨"DOWN", by decide, spells_of_asciiEqual rfl hdown⟩
  rw [if_neg hdown] at h ⊢
  by_cases hleft : asciiEqual token (ascii "LEFT") = true
  · rw [if_pos hleft]
    exact ⟨"LEFT", by decide, spells_of_asciiEqual rfl hleft⟩
  rw [if_neg hleft] at h ⊢
  by_cases hright : asciiEqual token (ascii "RIGHT") = true
  · rw [if_pos hright]
    exact ⟨"RIGHT", by decide, spells_of_asciiEqual rfl hright⟩
  rw [if_neg hright] at h ⊢
  by_cases henter : asciiEqual token (ascii "ENTER") = true
  · rw [if_pos henter]
    exact ⟨"ENTER", by decide, spells_of_asciiEqual rfl henter⟩
  rw [if_neg henter] at h ⊢
  by_cases hbackspace : asciiEqual token (ascii "BACKSPACE") = true
  · rw [if_pos hbackspace]
    exact ⟨"BACKSPACE", by decide, spells_of_asciiEqual rfl hbackspace⟩
  rw [if_neg hbackspace] at h ⊢
  by_cases htab : asciiEqual token (ascii "TAB") = true
  · rw [if_pos htab]
    exact ⟨"TAB", by decide, spells_of_asciiEqual rfl htab⟩
  rw [if_neg htab] at h ⊢
  exact absurd rfl h

/-- A token with an equals sign is none of the plain words. -/
theorem asciiEqual_of_equals (hequals : 0x3d ∈ token.map asciiUpper) {word : String}
    (hword : 0x3d ∉ (ascii word).map asciiUpper) : asciiEqual token (ascii word) = false := by
  rw [asciiEqual, decide_eq_false_iff_not]
  exact fun h => hword (h ▸ hequals)

theorem namedKeyFor_of_equals (hequals : 0x3d ∈ token.map asciiUpper) :
    namedKeyFor token = .none := by
  simp (disch := decide) only [namedKeyFor, asciiEqual_of_equals hequals,
    Bool.false_eq_true, if_false]

theorem shortcut_of_equals (hequals : 0x3d ∈ token.map asciiUpper) :
    (asciiEqual token (ascii "N") || asciiEqual token (ascii "R") || asciiEqual token (ascii "M") ||
      asciiEqual token (ascii "S") || asciiEqual token (ascii "D")) = false := by
  simp (disch := decide) only [asciiEqual_of_equals hequals, Bool.or_false]

/-- A shortcut that is found has been spelled, and stands for its small letter. -/
theorem exists_of_shortcut
    (h : (asciiEqual token (ascii "N") || asciiEqual token (ascii "R") || asciiEqual token
    (ascii "M") ||
      asciiEqual token (ascii "S") || asciiEqual token (ascii "D")) = true) :
    ∃ word letter, (word, letter) ∈ shortcutWords ∧ Spells word token ∧
      (asciiUpper (token.headD 0)).toNat - 0x41 + 0x61 = letter.toNat := by
  have hscalar : ∀ {upper : Bytes}, token.map asciiUpper = upper →
      (asciiUpper (token.headD 0)).toNat = (upper.headD 0).toNat := by
    rintro _ rfl
    rw [headD_map]
  simp only [asciiEqual, Bool.or_eq_true, decide_eq_true_eq] at h
  rcases h with (((h | h) | h) | h) | h
  · exact ⟨"N", 'n', by decide, h, by rw [hscalar h]; rfl⟩
  · exact ⟨"R", 'r', by decide, h, by rw [hscalar h]; rfl⟩
  · exact ⟨"M", 'm', by decide, h, by rw [hscalar h]; rfl⟩
  · exact ⟨"S", 's', by decide, h, by rw [hscalar h]; rfl⟩
  · exact ⟨"D", 'd', by decide, h, by rw [hscalar h]; rfl⟩

/-- Two words that differ in a letter are not both at the start. -/
theorem asciiStartsWith_false {word other : String} {front rest : Bytes} (hword : Spells word front)
    (hlength : (ascii other).length ≤ (ascii word).length)
    (hother : (ascii word).take (ascii other).length ≠ (ascii other).map asciiUpper) :
    asciiStartsWith (front ++ rest) (ascii other) = false := by
  rw [asciiStartsWith_eq, hword.map, List.take_append_of_le_length hlength, decide_eq_false_iff_not]
  exact hother

theorem asciiStartsWith_true {word : String} {front rest : Bytes} (hword : Spells word front)
    (hupper : (ascii word).map asciiUpper = ascii word) :
    asciiStartsWith (front ++ rest) (ascii word) = true := by
  rw [asciiStartsWith_eq, hword.map, List.take_left, decide_eq_true_eq, hupper]

/-! ### Tokens -/

section

variable {tokenIndex : ℕ} {last : Bool} {result next : ParseResult} {actions : List Action}

/-- Every token of the grammar is expanded. -/
theorem parseToken_complete (htoken : Token last token actions) (hnonempty : token ≠ [])
    (hsize : token.length ≤ kMaximumTokenBytes) (happends : Appends result actions next) :
    parseToken tokenIndex last result token = .ok next := by
  have hroom : result.actions.length ≤ kMaximumActions := le_trans (Nat.le_add_right _ _) happends.1
  rw [parseToken, if_neg hnonempty, if_neg (Nat.not_lt.mpr hsize)]
  -- One form of a token after the other; each has to fall through the tests in front of it.
  cases htoken with
  | @key word key _ hkey htoken =>
    have hfound : key ≠ .none := by
      have hall : ∀ entry ∈ keyWords, entry.2 ≠ .none := by decide
      exact hall _ hkey
    rw [namedKeyFor_spells hkey htoken, if_pos hfound]
    exact appendAction_eq_ok.mpr happends
  | @shortcut word letter _ hletter htoken =>
    have hall : ∀ entry ∈ shortcutWords, (ascii entry.1).map asciiUpper = ascii entry.1 ∧
        namedKeyFor (ascii entry.1) = .none ∧
        (asciiEqual (ascii entry.1) (ascii "N") || asciiEqual (ascii entry.1) (ascii "R") ||
          asciiEqual (ascii entry.1) (ascii "M") || asciiEqual (ascii entry.1) (ascii "S") ||
          asciiEqual (ascii entry.1) (ascii "D")) = true ∧
        (asciiUpper ((ascii entry.1).headD 0)).toNat - 0x41 + 0x61 = entry.2.toNat := by decide
    obtain ⟨hupper, hkey, hany, hscalar⟩ := hall _ hletter
    have hsame := htoken.trans hupper.symm
    have hhead : asciiUpper (token.headD 0) = asciiUpper ((ascii word).headD 0) := by
      rw [← headD_map, hsame, headD_map]
    rw [namedKeyFor_congr hsame, if_neg (not_not.mpr hkey), asciiEqual_congr hsame, if_pos hany,
      hhead, hscalar]
    exact appendAction_eq_ok.mpr happends
  | wait htoken =>
    have hsame : token.map asciiUpper = (ascii "WAIT").map asciiUpper := htoken
    rw [namedKeyFor_congr hsame, asciiEqual_congr hsame, if_neg (by decide), if_neg (by decide),
      if_pos (by decide)]
    exact appendAction_eq_ok.mpr happends
  | @waits word digits hword hdigits hall hmin hmax =>
    -- The equals sign keeps the token apart from all plain words.
    have hequals := hword.equals (by decide) digits
    rw [if_neg (not_not.mpr (namedKeyFor_of_equals hequals)), shortcut_of_equals hequals,
      asciiEqual_of_equals hequals (by decide), asciiStartsWith_true hword (by decide),
      show (5 : ℕ) = (ascii "WAIT=").length by decide, hword.drop]
    have hcount := (parseDecimal_eq_some hmax).mpr ⟨hdigits, hall, rfl⟩
    simp only [Bool.false_eq_true, if_false, if_true, hcount]
    rw [if_neg (by rw [kMaximumWaitTicks]; omega)]
    exact (appendActions_eq_ok hroom).mpr happends
  | @text word encoded text hword hencoded htext =>
    have hequals := hword.equals (by decide) encoded
    obtain ⟨decoded, hdecoded, hscalars⟩ := readText_eq_ok.mpr ⟨text, htext, hencoded, rfl⟩
    rw [if_neg (not_not.mpr (namedKeyFor_of_equals hequals)), shortcut_of_equals hequals,
      asciiEqual_of_equals hequals (by decide), asciiStartsWith_false hword (by decide) (by decide),
      asciiStartsWith_true hword (by decide), show (5 : ℕ) =
        (ascii "TEXT=").length by decide, hword.drop]
    simp only [Bool.false_eq_true, if_false, if_true, hdecoded, hscalars, List.map_map]
    exact (appendActions_eq_ok hroom).mpr happends
  | @shot word stem hword hstem =>
    have hequals := hword.equals (by decide) stem
    rw [if_neg (not_not.mpr (namedKeyFor_of_equals hequals)), shortcut_of_equals hequals,
      asciiEqual_of_equals hequals (by decide), asciiStartsWith_false hword (by decide) (by decide),
      asciiStartsWith_false hword (by decide) (by decide), asciiStartsWith_true hword (by decide),
      show (5 : ℕ) =
        (ascii "SHOT=").length by decide, hword.drop]
    simp only [Bool.false_eq_true, if_false, if_true]
    rw [if_neg]
    · exact appendAction_eq_ok.mpr happends
    · rintro ⟨hfilled, hunsafe⟩
      rw [hstem.resolve_left hfilled] at hunsafe
      cases hunsafe
  | @expect word field value hword hfield hvalue =>
    have hequals := hword.equals (by decide) (field ++ 0x3a :: value)
    have hprobe := parseProbe_eq_ok.mpr ⟨rfl, hfield, hvalue⟩
    rw [if_neg (not_not.mpr (namedKeyFor_of_equals hequals)), shortcut_of_equals hequals,
      asciiEqual_of_equals hequals (by decide), asciiStartsWith_false hword (by decide) (by decide),
      asciiStartsWith_false hword (by decide) (by decide), asciiStartsWith_false hword (by decide)
        (by decide),
      asciiStartsWith_true hword (by decide), asciiStartsWith_false hword (by decide) (by decide)]
    simp only [Bool.false_eq_true, if_false, if_true, Bool.true_or]
    rw [show (7 : ℕ) = (ascii "EXPECT=").length by decide, hword.drop, hprobe]
    exact appendAction_eq_ok.mpr happends
  | @await word field value hword hfield hvalue =>
    have hequals := hword.equals (by decide) (field ++ 0x3a :: value)
    have hprobe := parseProbe_eq_ok.mpr ⟨rfl, hfield, hvalue⟩
    rw [if_neg (not_not.mpr (namedKeyFor_of_equals hequals)), shortcut_of_equals hequals,
      asciiEqual_of_equals hequals (by decide), asciiStartsWith_false hword (by decide) (by decide),
      asciiStartsWith_false hword (by decide) (by decide), asciiStartsWith_false hword (by decide)
        (by decide),
      asciiStartsWith_true hword (by decide)]
    simp only [Bool.false_eq_true, if_false, if_true, Bool.or_true]
    rw [show (6 : ℕ) = (ascii "AWAIT=").length by decide, hword.drop, hprobe]
    exact appendAction_eq_ok.mpr happends
  | close hlast htoken =>
    have hsame : token.map asciiUpper = (ascii "CLOSE").map asciiUpper := htoken
    rw [namedKeyFor_congr hsame, asciiEqual_congr hsame, asciiStartsWith_congr hsame,
      if_neg (by decide), if_neg (by decide), if_neg (by decide), if_neg (by decide),
      if_neg (by decide),
        if_neg (by decide),
      if_neg (by decide), if_pos (by decide), hlast]
    exact appendAction_eq_ok.mpr happends

/-- Only tokens of the grammar are expanded. -/
theorem parseToken_sound (hroom : result.actions.length ≤ kMaximumActions)
    (h : parseToken tokenIndex last result token = .ok next) :
    token ≠ [] ∧ token.length ≤ kMaximumTokenBytes ∧
      ∃ actions, Token last token actions ∧ Appends result actions next := by
  rw [parseToken, Guard.ite_error_eq_ok, Guard.ite_error_eq_ok, not_lt] at h
  obtain ⟨hnonempty, hsize, h⟩ := h
  refine ⟨hnonempty, hsize, ?_⟩
  rw [ite_eq_iff] at h
  -- The tests in the order of the source, each with the form that it recognises.
  obtain ⟨hkey, h⟩ | ⟨-, h⟩ := h
  · obtain ⟨word, hword, htoken⟩ := exists_of_namedKeyFor hkey
    exact ⟨_, .key hword htoken, appendAction_eq_ok.mp h⟩
  rw [ite_eq_iff] at h
  obtain ⟨hshortcut, h⟩ | ⟨-, h⟩ := h
  · obtain ⟨word, letter, hletter, htoken, hscalar⟩ := exists_of_shortcut hshortcut
    rw [hscalar] at h
    exact ⟨_, .shortcut hletter htoken, appendAction_eq_ok.mp h⟩
  rw [ite_eq_iff] at h
  obtain ⟨hwait, h⟩ | ⟨-, h⟩ := h
  · exact ⟨_, .wait (spells_of_asciiEqual rfl hwait), appendAction_eq_ok.mp h⟩
  rw [ite_eq_iff] at h
  obtain ⟨hstart, h⟩ | ⟨-, h⟩ := h
  · obtain ⟨word, digits, hword, hdrop, rfl⟩ := exists_of_asciiStartsWith 5 ⟨rfl, rfl⟩ hstart
    rw [hdrop] at h
    split at h
    · cases h
    · rename_i count hcount
      rw [Guard.ite_error_eq_ok, not_or, not_lt] at h
      obtain ⟨⟨hmin, hmax⟩, h⟩ := h
      obtain ⟨hdigits, hall, rfl⟩ := (parseDecimal_eq_some hmax).mp hcount
      exact ⟨_, .waits hword hdigits hall (Nat.pos_of_ne_zero hmin) hmax,
        (appendActions_eq_ok hroom).mp h⟩
  rw [ite_eq_iff] at h
  obtain ⟨hstart, h⟩ | ⟨-, h⟩ := h
  · obtain ⟨word, encoded, hword, hdrop, rfl⟩ := exists_of_asciiStartsWith 5 ⟨rfl, rfl⟩ hstart
    rw [hdrop] at h
    split at h
    · cases h
    · rename_i decoded hdecoded
      split at h
      · cases h
      · rename_i scalars hscalars
        obtain ⟨text, htext, hencoded, rfl⟩ := readText_eq_ok.mp ⟨decoded, hdecoded, hscalars⟩
        rw [List.map_map] at h
        exact ⟨_, .text hword hencoded htext, (appendActions_eq_ok hroom).mp h⟩
  rw [ite_eq_iff] at h
  obtain ⟨hstart, h⟩ | ⟨-, h⟩ := h
  · obtain ⟨word, stem, hword, hdrop, rfl⟩ := exists_of_asciiStartsWith 5 ⟨rfl, rfl⟩ hstart
    rw [hdrop] at h
    dsimp only at h
    rw [Guard.ite_error_eq_ok, not_and_or, not_not, Bool.not_eq_false] at h
    exact ⟨_, .shot hword h.1, appendAction_eq_ok.mp h.2⟩
  rw [ite_eq_iff] at h
  obtain ⟨hstart, h⟩ | ⟨-, h⟩ := h
  · dsimp only at h
    -- `AWAIT=` is tested again to tell the two probes apart.
    by_cases hawait : asciiStartsWith token (ascii "AWAIT=") = true
    · rw [hawait, if_pos rfl, if_pos rfl] at h
      obtain ⟨word, payload, hword, hdrop, rfl⟩ := exists_of_asciiStartsWith 6 ⟨rfl, rfl⟩ hawait
      rw [hdrop] at h
      split at h
      · cases h
      · rename_i field value hprobe
        obtain ⟨rfl, hfield, hvalue⟩ := parseProbe_eq_ok.mp hprobe
        exact ⟨_, .await hword hfield hvalue, appendAction_eq_ok.mp h⟩
    · rw [Bool.not_eq_true] at hawait
      rw [hawait, if_neg Bool.false_ne_true, if_neg Bool.false_ne_true] at h
      rw [hawait, Bool.or_false] at hstart
      obtain ⟨word, payload, hword, hdrop, rfl⟩ := exists_of_asciiStartsWith 7 ⟨rfl, rfl⟩ hstart
      rw [hdrop] at h
      split at h
      · cases h
      · rename_i field value hprobe
        obtain ⟨rfl, hfield, hvalue⟩ := parseProbe_eq_ok.mp hprobe
        exact ⟨_, .expect hword hfield hvalue, appendAction_eq_ok.mp h⟩
  rw [ite_eq_iff] at h
  obtain ⟨hclose, h⟩ | ⟨-, h⟩ := h
  · rw [Guard.ite_error_eq_ok, Bool.not_eq_true', Bool.not_eq_false] at h
    exact ⟨_, .close h.1 (spells_of_asciiEqual rfl hclose), appendAction_eq_ok.mp h.2⟩
  · cases h

end

/-! ### Scripts -/

theorem parsePieces_eq_ok {tokenIndex : ℕ} {result next : ParseResult} {pieces : List Bytes}
    (hroom : result.actions.length ≤ kMaximumActions) :
    parsePieces tokenIndex result pieces = .ok next ↔
      ∃ actions, Tokens pieces actions ∧ Appends result actions next := by
  induction pieces generalizing tokenIndex result with
  | nil =>
    rw [parsePieces, Except.ok.injEq]
    constructor
    · rintro rfl
      exact ⟨[], .nil, hroom, by rw [List.append_nil]⟩
    · rintro ⟨actions, htokens, -, rfl⟩
      cases htokens
      rw [List.append_nil]
  | cons piece rest ih =>
    rw [parsePieces, Guard.bind_eq_ok]
    constructor
    · rintro ⟨middle, hfirst, hrest⟩
      obtain ⟨hnonempty, hsize, actions, htoken, happends⟩ := parseToken_sound hroom hfirst
      obtain ⟨others, htokens, hothers⟩ := (ih happends.room).mp hrest
      exact ⟨actions ++ others, .cons hnonempty hsize htoken htokens, happends.trans hothers⟩
    · rintro ⟨_, htokens, happends⟩
      cases htokens with
      | @cons _ _ actions others hnonempty hsize htoken hrest =>
        obtain ⟨middle, hleft, hright⟩ := happends.split
        exact ⟨middle, parseToken_complete htoken hnonempty hsize hleft,
          (ih hleft.room).mpr ⟨others, hrest, hright⟩⟩

/-- What an error returns. -/
def IsFailure (result : ParseResult) : Prop := result.error ≠ .none ∧ result.actions = []

theorem isFailure_of_error {tokenIndex : ℕ} {error : ParseError} {diagnostic : String}
    {failed : ParseResult}
    (herror : error ≠ .none)
    (h : (.error (failure error tokenIndex diagnostic) : Except ParseResult ParseResult) =
      .error failed) :
    IsFailure failed := by
  cases h
  exact ⟨herror, rfl⟩

theorem appendAction_error {tokenIndex : ℕ} {result failed : ParseResult} {action : Action}
    (h : appendAction tokenIndex result action = .error failed) : IsFailure failed := by
  rw [appendAction] at h
  split at h
  · exact isFailure_of_error (by decide) h
  · cases h

theorem appendActions_error {tokenIndex : ℕ} {result failed : ParseResult} {actions : List Action}
    (h : appendActions tokenIndex result actions = .error failed) : IsFailure failed := by
  induction actions generalizing result with
  | nil => cases h
  | cons action actions ih =>
    rw [appendActions, List.foldlM_cons] at h
    rcases hfirst : appendAction tokenIndex result action with error | middle
    · rw [hfirst] at h
      cases h
      exact appendAction_error hfirst
    · rw [hfirst] at h
      exact ih h

theorem parseToken_error {tokenIndex : ℕ} {last : Bool} {result failed : ParseResult}
    (h : parseToken tokenIndex last result token = .error failed) : IsFailure failed := by
  rw [parseToken, Guard.ite_error_eq_error, Guard.ite_error_eq_error] at h
  obtain ⟨-, rfl⟩ | ⟨-, ⟨-, rfl⟩ | ⟨-, h⟩⟩ := h
  · exact isFailure_of_error (by decide) rfl
  · exact isFailure_of_error (by decide) rfl
  rw [ite_eq_iff] at h
  obtain ⟨-, h⟩ | ⟨-, h⟩ := h
  · exact appendAction_error h
  rw [ite_eq_iff] at h
  obtain ⟨-, h⟩ | ⟨-, h⟩ := h
  · exact appendAction_error h
  rw [ite_eq_iff] at h
  obtain ⟨-, h⟩ | ⟨-, h⟩ := h
  · exact appendAction_error h
  -- the tokens with a value: refused, or expanded
  rw [ite_eq_iff] at h
  obtain ⟨-, h⟩ | ⟨-, h⟩ := h
  · split at h
    · exact isFailure_of_error (by decide) h
    · split at h
      · exact isFailure_of_error (by decide) h
      · exact appendActions_error h
  rw [ite_eq_iff] at h
  obtain ⟨-, h⟩ | ⟨-, h⟩ := h
  · split at h
    · exact isFailure_of_error (by decide) h
    · split at h
      · exact isFailure_of_error (by decide) h
      · exact appendActions_error h
  rw [ite_eq_iff] at h
  obtain ⟨-, h⟩ | ⟨-, h⟩ := h
  · dsimp only at h
    split at h
    · exact isFailure_of_error (by decide) h
    · exact appendAction_error h
  rw [ite_eq_iff] at h
  obtain ⟨-, h⟩ | ⟨-, h⟩ := h
  · dsimp only at h
    generalize parseProbe _ = probe at h
    rcases probe with diagnostic | ⟨field, value⟩
    · exact isFailure_of_error (by decide) h
    · exact appendAction_error h
  rw [ite_eq_iff] at h
  obtain ⟨-, h⟩ | ⟨-, h⟩ := h
  · split at h
    · exact isFailure_of_error (by decide) h
    · exact appendAction_error h
  · exact isFailure_of_error (by decide) h

theorem parsePieces_error {tokenIndex : ℕ} {result failed : ParseResult} {pieces : List Bytes}
    (h : parsePieces tokenIndex result pieces = .error failed) : IsFailure failed := by
  induction pieces generalizing tokenIndex result with
  | nil => cases h
  | cons piece rest ih =>
    rw [parsePieces] at h
    rcases hfirst : parseToken tokenIndex rest.isEmpty result (trim piece) with error | middle
    · rw [hfirst] at h
      cases h
      exact parseToken_error hfirst
    · rw [hfirst] at h
      exact ih h

/-- The whole language: nothing, or pieces between commas. -/
def IsScript (source : Bytes) (actions : List Action) : Prop :=
  source = [] ∧ actions = [] ∨
    ∃ pieces, pieces ≠ [] ∧ (∀ piece ∈ pieces, 0x2c ∉ piece) ∧ source = [0x2c].intercalate pieces ∧
      Tokens pieces actions ∧ actions.length ≤ kMaximumActions

theorem comma_not_mem_splitOn (source : Bytes) : ∀ piece ∈ source.splitOn 0x2c, 0x2c ∉ piece := by
  induction source with
  | nil => simp
  | cons byte rest ih =>
    rw [List.splitOn_cons_eq_if_modifyHead]
    split
    · exact List.forall_mem_cons.mpr ⟨List.not_mem_nil, ih⟩
    · rename_i hbyte
      rcases hsplit : rest.splitOn 0x2c with _ | ⟨first, others⟩
      · simp
      · rw [hsplit] at ih
        obtain ⟨hfirst, hothers⟩ := List.forall_mem_cons.mp ih
        refine List.forall_mem_cons.mpr ⟨?_, hothers⟩
        rintro (_ | ⟨_, hmem⟩)
        · exact hbyte rfl
        · exact hfirst hmem

theorem isScript_nil {actions : List Action} : IsScript [] actions ↔ actions = [] := by
  constructor
  · rintro (⟨-, rfl⟩ | ⟨pieces, hpieces, hfree, hsource, htokens, -⟩)
    · rfl
    · -- the only piece of an empty source is empty, and no token is
      have hsplit := List.splitOn_intercalate 0x2c hfree hpieces
      rw [← hsource] at hsplit
      subst hsplit
      cases htokens with
      | cons hnonempty => exact absurd rfl hnonempty
  · rintro rfl
    exact .inl ⟨rfl, rfl⟩

theorem isScript_iff {source : Bytes} {actions : List Action} (hsource : source ≠ []) :
    IsScript source actions ↔ Tokens (source.splitOn 0x2c) actions ∧
      actions.length ≤ kMaximumActions := by
  constructor
  · rintro (⟨rfl, -⟩ | ⟨pieces, hpieces, hfree, rfl, htokens, hlimit⟩)
    · exact absurd rfl hsource
    · rw [List.splitOn_intercalate 0x2c hfree hpieces]
      exact ⟨htokens, hlimit⟩
  · rintro ⟨htokens, hlimit⟩
    exact .inr ⟨source.splitOn 0x2c, List.splitOn_ne_nil 0x2c source, comma_not_mem_splitOn source,
      (List.intercalate_splitOn 0x2c).symm, htokens, hlimit⟩

theorem parse_eq_ok {source : Bytes} {actions : List Action}
    (hsize : source.length ≤ kMaximumSourceBytes) :
    (parse source).error = .none ∧ (parse source).actions = actions ↔ IsScript source actions := by
  rw [parse, if_neg (Nat.not_lt.mpr hsize)]
  by_cases hsource : source = []
  · rw [if_pos hsource, hsource, isScript_nil, eq_comm (a := actions)]
    exact and_iff_right rfl
  rw [if_neg hsource, isScript_iff hsource]
  have hempty : ({} : ParseResult).actions.length ≤ kMaximumActions := Nat.zero_le _
  rcases hresult : parsePieces 1 {} (source.splitOn 0x2c) with failed | next
  · refine iff_of_false (fun h => (parsePieces_error hresult).1 h.1) ?_
    rintro ⟨htokens, hlimit⟩
    have hok : parsePieces 1 {} (source.splitOn 0x2c) = .ok { actions := actions } :=
      (parsePieces_eq_ok hempty).mpr ⟨actions, htokens, le_of_eq_of_le (Nat.zero_add _) hlimit, rfl⟩
    rw [hresult] at hok
    cases hok
  · constructor
    · rintro ⟨-, rfl⟩
      obtain ⟨actions, htokens, happends⟩ := (parsePieces_eq_ok hempty).mp hresult
      have hroom := happends.room
      obtain ⟨-, rfl⟩ := happends
      exact ⟨htokens, hroom⟩
    · rintro ⟨htokens, hlimit⟩
      have hok : parsePieces 1 {} (source.splitOn 0x2c) = .ok { actions := actions } :=
        (parsePieces_eq_ok hempty).mpr
          ⟨actions, htokens, le_of_eq_of_le (Nat.zero_add _) hlimit, rfl⟩
      rw [hresult, Except.ok.injEq] at hok
      rw [hok]
      exact ⟨rfl, rfl⟩

theorem parse_actions_of_error (source : Bytes) (h : (parse source).error ≠ .none) :
    (parse source).actions = [] := by
  rw [parse] at h ⊢
  split
  · rfl
  split
  · rfl
  · rename_i hsize hsource
    rw [if_neg hsize, if_neg hsource] at h
    rcases hresult : parsePieces 1 {} (source.splitOn 0x2c) with failed | next
    · exact (parsePieces_error hresult).2
    · rw [hresult] at h
      obtain ⟨actions, -, -, rfl⟩ := (parsePieces_eq_ok (Nat.zero_le _)).mp hresult
      exact absurd rfl h

/-- Pieces that may stand before others, each with its actions. -/
def Leading : List Bytes → List (List Action) → Prop :=
  List.Forall₂ fun piece actions =>
    trim piece ≠ [] ∧ (trim piece).length ≤ kMaximumTokenBytes ∧ Token false (trim piece) actions

theorem Leading.tokens {left : List Bytes} {before : List (List Action)}
    (hleft : Leading left before)
    {right : List Bytes} {after : List Action} (hright : Tokens right after) (hmore : right ≠ []) :
    Tokens (left ++ right) (before.flatten ++ after) := by
  induction hleft with
  | nil => exact hright
  | @cons piece actions left before hpiece _ ih =>
    obtain ⟨hnonempty, hsize, htoken⟩ := hpiece
    rw [List.flatten_cons, List.append_assoc, List.cons_append]
    refine .cons hnonempty hsize ?_ ih
    have hrest : (left ++ right).isEmpty = false := by
      rw [List.isEmpty_eq_false_iff]
      exact List.append_ne_nil_of_right_ne_nil left hmore
    rwa [hrest]

end Script

/-- **The script parser accepts its grammar.**  A source within the limit is accepted just
when it is a script, and then with the actions of its tokens in order; no other source is,
and an error leaves no action.  A text in any percent-encoding, as a token among others,
is typed character by character. -/
theorem script_parser_accepts_grammar (source : Bytes) :
    (∀ actions, (Script.parse source).error = .none ∧ (Script.parse source).actions = actions ↔
      source.length ≤ 16384 ∧ Script.IsScript source actions) ∧
    ((Script.parse source).error ≠ .none → (Script.parse source).actions = []) ∧
    ∀ (left right : List Bytes) (before : List (List Script.Action)) (after : List Script.Action)
      (piece word encoded : Bytes) (text : List Char),
      source = [0x2c].intercalate (left ++ piece :: right) → source.length ≤ 16384 →
      (∀ other ∈ left ++ piece :: right, 0x2c ∉ other) → Script.Leading left before →
        Script.Tokens right after →
      Script.trim piece = word ++ encoded → (Script.trim piece).length ≤ 512 →
        Script.Spells "TEXT=" word →
      Script.PercentEncodes encoded (encode text) → Script.SafeText text →
      (before.flatten ++ (Script.keys text ++ after)).length ≤ 1024 →
      (Script.parse source).error = .none ∧
        (Script.parse source).actions = before.flatten ++ (Script.keys text ++ after) := by
  refine ⟨fun actions => ?_, Script.parse_actions_of_error source, ?_⟩
  · by_cases hsize : source.length ≤ Script.kMaximumSourceBytes
    · rw [Script.parse_eq_ok hsize]
      exact (and_iff_right hsize).symm
    · refine iff_of_false (fun h => ?_) fun h => hsize h.1
      rw [Script.parse, if_pos (Nat.lt_of_not_le hsize)] at h
      exact absurd h.1 (by decide)
  · intro left right before after piece word encoded text hsource hsize hfree hleft hright hpiece
      htoken hword
      hencoded htext hlimit
    rw [Script.parse_eq_ok hsize]
    refine .inr ⟨left ++ piece :: right, by simp, hfree, hsource, ?_, hlimit⟩
    refine hleft.tokens (.cons ?_ htoken ?_ hright) (List.cons_ne_nil _ _)
    · rw [hpiece]
      intro hnil
      have hlength := congrArg List.length hnil
      rw [List.length_append, hword.length] at hlength
      exact absurd hlength (by simp [ascii])
    · rw [hpiece]
      exact .text hword hencoded htext

end Lora
