/-
The text editor.

The editor keeps a text as bytes and its cursor as an offset.  It finds the ends of a
character by skipping the bytes that only continue one.  What it is for is said by
`Zipper`: the characters before the cursor and those behind it.

* `Zipper.call` — the operations on characters;
* `TextEditor.Stands` — the bytes and the offset stand for a zipper;
* `TextEditor.Stands.call` — each call of the editor is that operation;
* `text_editor_refines_zipper` — and so is every sequence of calls.
-/
import Mathlib.Data.List.GetD
import LoraMessenger.TextScalars

namespace Lora

open Utf8Codec

inductive EditorError where
  | none
  | invalidUtf8
  | invalidCodepoint
  | tooLong
deriving DecidableEq

structure TextEditor where
  maximumBytes : ℕ
  text : Bytes := []
  cursor : ℕ := 0
deriving DecidableEq

/-- `encode_utf8`: no bytes for what is not a scalar value. -/
def encodeUtf8 (codepoint : ℕ) : Bytes :=
  if codepoint ≤ 0x7f then [codepoint.toUInt8]
  else if codepoint ≤ 0x7ff then
    [(0xc0 ||| codepoint >>> 6).toUInt8, (0x80 ||| codepoint &&& 0x3f).toUInt8]
  else if 0xd800 ≤ codepoint ∧ codepoint ≤ 0xdfff then []
  else if codepoint ≤ 0xffff then
    [(0xe0 ||| codepoint >>> 12).toUInt8, (0x80 ||| codepoint >>> 6 &&& 0x3f).toUInt8,
      (0x80 ||| codepoint &&& 0x3f).toUInt8]
  else if codepoint ≤ 0x10ffff then
    [(0xf0 ||| codepoint >>> 18).toUInt8, (0x80 ||| codepoint >>> 12 &&& 0x3f).toUInt8,
      (0x80 ||| codepoint >>> 6 &&& 0x3f).toUInt8, (0x80 ||| codepoint &&& 0x3f).toUInt8]
  else []

namespace TextEditor

def isContinuation (value : UInt8) : Bool := value &&& 0xc0 = 0x80

/-- The loop of `previous_boundary`. -/
def skipBack (text : Bytes) : ℕ → ℕ
  | 0 => 0
  | offset + 1 => if isContinuation (text.getD (offset + 1) 0) then skipBack text offset
    else offset + 1

def previousBoundary (text : Bytes) (offset : ℕ) : ℕ := skipBack text (offset - 1)

/-- The loop passes all bytes that continue a character. -/
def nextBoundary (text : Bytes) (offset : ℕ) : ℕ :=
  offset + 1 + ((text.drop (offset + 1)).takeWhile isContinuation).length

variable (editor : TextEditor)

def setText (text : Bytes) : EditorError × TextEditor :=
  if !isValidUtf8 text then (.invalidUtf8, editor)
  else if text.length > editor.maximumBytes then (.tooLong, editor)
  else (.none, { editor with text := text, cursor := text.length })

/-- `std::string::insert` at the cursor. -/
def insertBytes (bytes : Bytes) : TextEditor :=
  { editor with
    text := editor.text.take editor.cursor ++ bytes ++ editor.text.drop editor.cursor
    cursor := editor.cursor + bytes.length }

def insert (codepoint : ℕ) : EditorError × TextEditor :=
  let encoded := encodeUtf8 codepoint
  if encoded.length = 0 then (.invalidCodepoint, editor)
  else if editor.text.length + encoded.length > editor.maximumBytes then (.tooLong, editor)
  else (.none, editor.insertBytes encoded)

def insertUtf8 (text : Bytes) : EditorError × TextEditor :=
  if !isValidUtf8 text then (.invalidUtf8, editor)
  else if editor.text.length + text.length > editor.maximumBytes then (.tooLong, editor)
  else (.none, editor.insertBytes text)

def moveLeft : Bool × TextEditor :=
  if editor.cursor = 0 then (false, editor)
  else (true, { editor with cursor := previousBoundary editor.text editor.cursor })

def moveRight : Bool × TextEditor :=
  if editor.cursor ≥ editor.text.length then (false, editor)
  else (true, { editor with cursor := nextBoundary editor.text editor.cursor })

def backspace : Bool × TextEditor :=
  if editor.cursor = 0 then (false, editor)
  else
    let previous := previousBoundary editor.text editor.cursor
    (true, { editor with
      text := editor.text.take previous ++ editor.text.drop editor.cursor
      cursor := previous })

def deleteForward : Bool × TextEditor :=
  if editor.cursor ≥ editor.text.length then (false, editor)
  else
    let next := nextBoundary editor.text editor.cursor
    (true, { editor with text := editor.text.take editor.cursor ++ editor.text.drop next })

def clear : TextEditor := { editor with text := [], cursor := 0 }

end TextEditor

inductive EditorCall where
  | setText (text : Bytes)
  | insert (codepoint : ℕ)
  | insertUtf8 (text : Bytes)
  | moveLeft
  | moveRight
  | backspace
  | deleteForward
  | clear

inductive EditorAnswer where
  | error (error : EditorError)
  | moved (moved : Bool)
  | done
deriving DecidableEq

/-- The operation has not been carried out. -/
def EditorAnswer.refused : EditorAnswer → Bool
  | .error e => e ≠ EditorError.none
  | .moved b => !b
  | .done => false

namespace TextEditor

def call (editor : TextEditor) : EditorCall → EditorAnswer × TextEditor
  | .setText text => (editor.setText text).map .error id
  | .insert codepoint => (editor.insert codepoint).map .error id
  | .insertUtf8 text => (editor.insertUtf8 text).map .error id
  | .moveLeft => editor.moveLeft.map .moved id
  | .moveRight => editor.moveRight.map .moved id
  | .backspace => editor.backspace.map .moved id
  | .deleteForward => editor.deleteForward.map .moved id
  | .clear => (.done, editor.clear)

/-- The answers to a sequence of calls, and the editor after it. -/
def run (editor : TextEditor) : List EditorCall → List EditorAnswer × TextEditor
  | [] => ([], editor)
  | c :: calls =>
    let (answer, editor) := editor.call c
    let (answers, editor) := editor.run calls
    (answer :: answers, editor)

end TextEditor

/-! ### Characters around a cursor -/

/-- The character with a number. -/
def charOf (codepoint : ℕ) : Option Char :=
  if codepoint.isValidChar then some (Char.ofNat codepoint) else none

/-- The characters of a text. -/
def decodeText (text : Bytes) : Option (List Char) := (visitUtf8 text).map (·.map Char.ofNat)

/-- The characters before a cursor and those behind it. -/
structure Zipper where
  before : List Char := []
  after : List Char := []

namespace Zipper

def text (zipper : Zipper) : List Char := zipper.before ++ zipper.after

def size (zipper : Zipper) : ℕ := (encode zipper.text).length

def insertText (zipper : Zipper) (text : List Char) : Zipper :=
  { zipper with before := zipper.before ++ text }

/-- The operations of the editor, on characters. -/
def call (maximumBytes : ℕ) (zipper : Zipper) : EditorCall → EditorAnswer × Zipper
  | .setText text =>
    match decodeText text with
    | none => (.error .invalidUtf8, zipper)
    | some text =>
      if (Zipper.mk text []).size > maximumBytes then (.error .tooLong, zipper)
      else (.error .none, ⟨text, []⟩)
  | .insert codepoint =>
    match charOf codepoint with
    | none => (.error .invalidCodepoint, zipper)
    | some c =>
      if (zipper.insertText [c]).size > maximumBytes then (.error .tooLong, zipper)
      else (.error .none, zipper.insertText [c])
  | .insertUtf8 text =>
    match decodeText text with
    | none => (.error .invalidUtf8, zipper)
    | some text =>
      if (zipper.insertText text).size > maximumBytes then (.error .tooLong, zipper)
      else (.error .none, zipper.insertText text)
  | .moveLeft =>
    match zipper.before.getLast? with
    | none => (.moved false, zipper)
    | some c => (.moved true, ⟨zipper.before.dropLast, c :: zipper.after⟩)
  | .moveRight =>
    match zipper.after with
    | [] => (.moved false, zipper)
    | c :: after => (.moved true, ⟨zipper.before ++ [c], after⟩)
  | .backspace =>
    match zipper.before.getLast? with
    | none => (.moved false, zipper)
    | some _ => (.moved true, ⟨zipper.before.dropLast, zipper.after⟩)
  | .deleteForward =>
    match zipper.after with
    | [] => (.moved false, zipper)
    | _ :: after => (.moved true, ⟨zipper.before, after⟩)
  | .clear => (.done, {})

def run (maximumBytes : ℕ) (zipper : Zipper) : List EditorCall → List EditorAnswer × Zipper
  | [] => ([], zipper)
  | c :: calls =>
    let (answer, zipper) := zipper.call maximumBytes c
    let (answers, zipper) := zipper.run maximumBytes calls
    (answer :: answers, zipper)

end Zipper

/-! ### Reading and writing characters -/

theorem toNat_ofNat {codepoint : ℕ} (h : codepoint.isValidChar) :
    (Char.ofNat codepoint).toNat = codepoint := by
  rw [Char.ofNat, dif_pos h]
  rfl

theorem charOf_eq_some {codepoint : ℕ} {c : Char} : charOf codepoint = some c ↔
    codepoint = c.toNat := by
  rw [charOf]
  constructor
  · intro h
    split at h
    · rename_i hvalid
      rw [← Option.some.inj h, toNat_ofNat hvalid]
    · cases h
  · rintro rfl
    rw [if_pos (show c.toNat.isValidChar from c.valid), Char.ofNat_toNat]

theorem decodeText_encode (text : List Char) : decodeText (encode text) = some text := by
  rw [decodeText, visitUtf8_encode, Option.map_some, List.map_map]
  refine congrArg some ((List.map_congr_left fun c _ => ?_).trans (List.map_id text))
  exact Char.ofNat_toNat c

theorem decodeText_eq_some {value : Bytes} {text : List Char} :
    decodeText value = some text ↔ value = encode text := by
  constructor
  · intro h
    obtain ⟨scalars, hscalars, -⟩ := Option.map_eq_some_iff.mp h
    obtain ⟨other, rfl, -⟩ := exists_text_of_visitUtf8 hscalars
    rw [decodeText_encode, Option.some.injEq] at h
    rw [h]
  · rintro rfl
    exact decodeText_encode text

theorem decodeText_eq_none {value : Bytes} : decodeText value = none ↔
    isValidUtf8 value = false := by
  rw [decodeText, Option.map_eq_none_iff, isValidUtf8, Option.isSome_eq_false_iff,
    Option.isNone_iff_eq_none]

theorem encodeUtf8_char (c : Char) : encodeUtf8 c.toNat = String.utf8EncodeChar c := by
  have hrange := toNat_lt c
  refine Form.eq_utf8EncodeChar ?_
  rw [encodeUtf8]
  split
  · exact form_one ‹_›
  split
  · exact form_two ‹_› ‹_›
  rw [if_neg (by omega)]
  split
  · exact form_three ‹_› ‹_›
  · rw [if_pos (by omega)]
    exact form_four ‹_› (by omega)

/-- What is not a scalar value has no bytes. -/
theorem encodeUtf8_eq_nil {codepoint : ℕ} : encodeUtf8 codepoint = [] ↔
    charOf codepoint = none := by
  rcases hchar : charOf codepoint with _ | c
  · refine ⟨fun _ => rfl, fun _ => ?_⟩
    have hinvalid : ¬codepoint.isValidChar := by
      intro hvalid
      rw [charOf, if_pos hvalid] at hchar
      cases hchar
    rw [Nat.isValidChar] at hinvalid
    rw [encodeUtf8, if_neg (by omega), if_neg (by omega)]
    split
    · rfl
    · rw [if_neg (by omega), if_neg (by omega)]
  · rw [charOf_eq_some.mp hchar, encodeUtf8_char]
    simp [String.utf8EncodeChar_ne_nil]

/-! ### Boundaries -/

namespace TextEditor

theorem isContinuation_eq (value : UInt8) : isContinuation value = decide (IsTail value) := by
  rw [isContinuation]
  exact decide_eq_decide.mpr (and_0xc0_eq value)

/-- Going back over tails leads to the first byte of their character. -/
theorem skipBack_tail {left tail right : Bytes} {first : UInt8} (hfirst : ¬IsTail first)
    (htail : ∀ byte ∈ tail, IsTail byte) {count : ℕ} (hcount : count ≤ tail.length) :
    skipBack (left ++ first :: tail ++ right) (left.length + count) = left.length := by
  induction count with
  | zero =>
    -- the first byte, or the start of the text
    rw [Nat.add_zero]
    rcases hleft : left.length with _ | offset
    · rfl
    · have hbyte : (left ++ first :: tail ++ right).getD (offset + 1) 0 = first := by
        rw [← hleft, List.append_assoc, List.getD_append_right _ _ _ _ (le_refl _), Nat.sub_self]
        rfl
      rw [skipBack, hbyte, isContinuation_eq, if_neg (by simpa using hfirst)]
  | succ count ih =>
    have hbyte : (left ++ first :: tail ++ right).getD (left.length + count + 1) 0 =
        tail.get ⟨count, hcount⟩ := by
      rw [List.append_assoc, List.getD_append_right _ _ _ _ (by omega),
        show left.length + count + 1 - left.length = count + 1 by omega, List.cons_append,
        List.getD_cons_succ, List.getD_append _ _ _ _ hcount, List.getD_eq_getElem _ _ hcount]
      rfl
    rw [← Nat.add_assoc, skipBack, hbyte, isContinuation_eq,
      if_pos (by simpa using htail _ (List.get_mem tail ⟨count, hcount⟩))]
    exact ih (by omega)

/-- From behind a character to its start. -/
theorem previousBoundary_encode (before after : List Char) (c : Char) :
    previousBoundary (encode (before ++ [c] ++ after)) (encode (before ++ [c])).length =
      (encode before).length := by
  obtain ⟨first, tail, hbytes, hfirst, htail, -⟩ := exists_head c
  rw [previousBoundary, encode_append, encode_append, encode_singleton, hbytes, List.length_append,
    List.length_cons, ← Nat.add_assoc, Nat.add_sub_cancel]
  exact skipBack_tail hfirst htail (le_refl _)

/-- No text begins with a tail. -/
theorem takeWhile_encode (text : List Char) : (encode text).takeWhile isContinuation = [] := by
  rcases text with _ | ⟨c, text⟩
  · rfl
  · obtain ⟨first, tail, hbytes, hfirst, -⟩ := exists_head c
    rw [encode_cons, hbytes, List.cons_append, List.takeWhile_cons_of_neg]
    rw [isContinuation_eq]
    simpa using hfirst

/-- From the start of a character to its end. -/
theorem nextBoundary_encode (before after : List Char) (c : Char) :
    nextBoundary (encode (before ++ c :: after)) (encode before).length =
      (encode (before ++ [c])).length := by
  obtain ⟨first, tail, hbytes, hfirst, htail, -⟩ := exists_head c
  have hdrop : (encode (before ++ c :: after)).drop ((encode before).length + 1) =
      tail ++ encode after := by
    rw [encode_append, encode_cons, hbytes, ← List.drop_drop, List.drop_left]
    rfl
  have htails : ∀ byte ∈ tail, isContinuation byte = true := by
    intro byte hbyte
    rw [isContinuation_eq]
    simpa using htail byte hbyte
  rw [nextBoundary, hdrop, List.takeWhile_append_of_pos htails, takeWhile_encode, List.append_nil,
    encode_append, encode_singleton, hbytes, List.length_append, List.length_cons]
  omega

/-! ### The simulation -/

/-- The bytes and the offset of the editor stand for a zipper. -/
structure Stands (editor : TextEditor) (zipper : Zipper) : Prop where
  text : editor.text = encode zipper.text
  cursor : editor.cursor = (encode zipper.before).length
  bounded : editor.text.length ≤ editor.maximumBytes

variable {editor : TextEditor} {zipper : Zipper}

theorem Stands.take (h : editor.Stands zipper) : editor.text.take editor.cursor =
    encode zipper.before := by
  rw [h.text, h.cursor, Zipper.text, encode_append, List.take_left]

theorem Stands.drop (h : editor.Stands zipper) : editor.text.drop editor.cursor =
    encode zipper.after := by
  rw [h.text, h.cursor, Zipper.text, encode_append, List.drop_left]

theorem length_insertText (zipper : Zipper) (text : List Char) :
    (zipper.insertText text).size = (encode zipper.text).length + (encode text).length := by
  simp only [Zipper.size, Zipper.text, Zipper.insertText, encode_append, List.length_append]
  omega

theorem Stands.insertBytes (h : editor.Stands zipper) {text : List Char}
    (hsize : ¬(zipper.insertText text).size > editor.maximumBytes) :
    (editor.insertBytes (encode text)).Stands (zipper.insertText text) := by
  have htext : (editor.insertBytes (encode text)).text = encode (zipper.insertText text).text := by
    rw [TextEditor.insertBytes, h.take, h.drop, Zipper.text, Zipper.insertText, encode_append,
      encode_append]
  refine ⟨htext, ?_, ?_⟩
  · rw [TextEditor.insertBytes, h.cursor, Zipper.insertText, encode_append, List.length_append]
  · rw [htext]
    exact Nat.le_of_not_lt hsize

/-- The same answer, and what is left still stands for the zipper. -/
structure Agrees (maximumBytes : ℕ) (left : EditorAnswer × TextEditor)
    (right : EditorAnswer × Zipper) :
    Prop where
  answer : left.1 = right.1
  limit : left.2.maximumBytes = maximumBytes
  stands : left.2.Stands right.2

theorem Stands.agrees (h : editor.Stands zipper) (answer : EditorAnswer) :
    Agrees editor.maximumBytes (answer, editor) (answer, zipper) :=
  ⟨rfl, rfl, h⟩

theorem Stands.setText (h : editor.Stands zipper) (value : Bytes) :
    Agrees editor.maximumBytes (editor.call (.setText value))
      (zipper.call editor.maximumBytes (.setText value)) := by
  rw [TextEditor.call, Zipper.call, TextEditor.setText]
  rcases htext : decodeText value with _ | text
  · rw [decodeText_eq_none.mp htext]
    exact h.agrees (.error .invalidUtf8)
  obtain rfl := decodeText_eq_some.mp htext
  have hsize : (Zipper.mk text []).size = (encode text).length := by
    rw [Zipper.size, Zipper.text, List.append_nil]
  simp only [isValidUtf8_encode, Bool.not_true, Bool.false_eq_true, if_false, hsize]
  split
  · exact h.agrees (.error .tooLong)
  · rename_i hfits
    refine ⟨rfl, rfl, ?_, rfl, Nat.le_of_not_lt hfits⟩
    show encode text = encode (text ++ [])
    rw [List.append_nil]

theorem Stands.insert (h : editor.Stands zipper) (codepoint : ℕ) :
    Agrees editor.maximumBytes (editor.call (.insert codepoint))
      (zipper.call editor.maximumBytes (.insert codepoint)) := by
  rw [TextEditor.call, Zipper.call, TextEditor.insert]
  rcases hchar : charOf codepoint with _ | c
  · rw [encodeUtf8_eq_nil.mpr hchar]
    exact h.agrees (.error .invalidCodepoint)
  obtain rfl := charOf_eq_some.mp hchar
  have hencoded : encodeUtf8 c.toNat = encode [c] := by rw [encodeUtf8_char, encode_singleton]
  have hlength : ¬(encode [c]).length = 0 := by
    rw [List.length_eq_zero_iff, ← hencoded, encodeUtf8_eq_nil, hchar]
    exact Option.some_ne_none c
  simp only [hencoded, if_neg hlength, h.text, ← length_insertText]
  split
  · exact h.agrees (.error .tooLong)
  · exact ⟨rfl, rfl, h.insertBytes ‹_›⟩

theorem Stands.insertUtf8 (h : editor.Stands zipper) (value : Bytes) :
    Agrees editor.maximumBytes (editor.call (.insertUtf8 value))
      (zipper.call editor.maximumBytes (.insertUtf8 value)) := by
  rw [TextEditor.call, Zipper.call, TextEditor.insertUtf8]
  rcases htext : decodeText value with _ | text
  · rw [decodeText_eq_none.mp htext]
    exact h.agrees (.error .invalidUtf8)
  obtain rfl := decodeText_eq_some.mp htext
  simp only [isValidUtf8_encode, Bool.not_true, Bool.false_eq_true, if_false, h.text,
    ← length_insertText]
  split
  · exact h.agrees (.error .tooLong)
  · exact ⟨rfl, rfl, h.insertBytes ‹_›⟩

/-- The cursor is at the start just when no character is before it. -/
theorem Stands.cursor_eq_zero (h : editor.Stands zipper) : editor.cursor = 0 ↔
    zipper.before = [] := by
  rw [h.cursor, List.length_eq_zero_iff, encode_eq_nil]

theorem Stands.length_le_cursor (h : editor.Stands zipper) :
    editor.cursor ≥ editor.text.length ↔ zipper.after = [] := by
  rw [h.text, h.cursor, Zipper.text, encode_append, List.length_append, ← encode_eq_nil,
    ← List.length_eq_zero_iff]
  omega

/-- Moving or deleting to the left acts on the last character before the cursor. -/
theorem Stands.exists_before (h : editor.Stands zipper) (hcursor : ¬editor.cursor = 0) :
    ∃ before c, zipper.before = before ++ [c] ∧
      previousBoundary editor.text editor.cursor = (encode before).length := by
  obtain ⟨before, c, hbefore⟩ := (List.eq_nil_or_concat' zipper.before).resolve_left
    fun hnil => hcursor (h.cursor_eq_zero.mpr hnil)
  refine ⟨before, c, hbefore, ?_⟩
  rw [h.text, h.cursor, Zipper.text, hbefore]
  exact previousBoundary_encode before zipper.after c

/-- Moving or deleting to the right acts on the first character behind the cursor. -/
theorem Stands.exists_after (h : editor.Stands zipper)
    (hcursor : ¬editor.cursor ≥ editor.text.length) :
    ∃ c after, zipper.after = c :: after ∧
      nextBoundary editor.text editor.cursor = (encode (zipper.before ++ [c])).length := by
  obtain ⟨c, after, hafter⟩ := List.exists_cons_of_ne_nil
    fun hnil => hcursor (h.length_le_cursor.mpr hnil)
  refine ⟨c, after, hafter, ?_⟩
  rw [h.text, h.cursor, Zipper.text, hafter]
  exact nextBoundary_encode zipper.before after c

theorem Stands.moveLeft (h : editor.Stands zipper) :
    Agrees editor.maximumBytes (editor.call .moveLeft)
      (zipper.call editor.maximumBytes .moveLeft) := by
  rw [TextEditor.call, Zipper.call, TextEditor.moveLeft]
  by_cases hcursor : editor.cursor = 0
  · rw [if_pos hcursor, h.cursor_eq_zero.mp hcursor]
    exact h.agrees (.moved false)
  obtain ⟨before, c, hbefore, hprevious⟩ := h.exists_before hcursor
  rw [if_neg hcursor, hprevious, hbefore, List.getLast?_concat, List.dropLast_concat]
  refine ⟨rfl, rfl, ?_, rfl, h.bounded⟩
  show editor.text = encode (before ++ c :: zipper.after)
  rw [h.text, Zipper.text, hbefore, List.append_assoc]
  rfl

theorem Stands.moveRight (h : editor.Stands zipper) :
    Agrees editor.maximumBytes (editor.call .moveRight)
      (zipper.call editor.maximumBytes .moveRight) := by
  rw [TextEditor.call, Zipper.call, TextEditor.moveRight]
  by_cases hcursor : editor.cursor ≥ editor.text.length
  · rw [if_pos hcursor, h.length_le_cursor.mp hcursor]
    exact h.agrees (.moved false)
  obtain ⟨c, after, hafter, hnext⟩ := h.exists_after hcursor
  rw [if_neg hcursor, hnext, hafter]
  refine ⟨rfl, rfl, ?_, rfl, h.bounded⟩
  show editor.text = encode (zipper.before ++ [c] ++ after)
  rw [h.text, Zipper.text, hafter, List.append_assoc]
  rfl

/-- Taking bytes away keeps the text within its limit. -/
theorem Stands.shrink (h : editor.Stands zipper) {smaller : Zipper}
    (hsize : smaller.size ≤ zipper.size) :
    (encode smaller.text).length ≤ editor.maximumBytes := by
  have hbounded := h.bounded
  rw [h.text] at hbounded
  exact le_trans hsize hbounded

theorem Stands.backspace (h : editor.Stands zipper) :
    Agrees editor.maximumBytes (editor.call .backspace)
      (zipper.call editor.maximumBytes .backspace) := by
  rw [TextEditor.call, Zipper.call, TextEditor.backspace]
  by_cases hcursor : editor.cursor = 0
  · rw [if_pos hcursor, h.cursor_eq_zero.mp hcursor]
    exact h.agrees (.moved false)
  obtain ⟨before, c, hbefore, hprevious⟩ := h.exists_before hcursor
  have htext : editor.text.take (encode before).length ++ editor.text.drop editor.cursor =
      encode (Zipper.mk before zipper.after).text := by
    rw [h.drop, h.text, Zipper.text, Zipper.text, hbefore, List.append_assoc, encode_append,
      List.take_left, encode_append]
  have hsize : (Zipper.mk before zipper.after).size ≤ zipper.size := by
    simp only [Zipper.size, Zipper.text, hbefore, encode_append, List.length_append]
    omega
  rw [if_neg hcursor, hprevious]
  dsimp only
  rw [htext, hbefore, List.getLast?_concat, List.dropLast_concat]
  exact ⟨rfl, rfl, rfl, rfl, h.shrink hsize⟩

theorem Stands.deleteForward (h : editor.Stands zipper) :
    Agrees editor.maximumBytes (editor.call .deleteForward)
      (zipper.call editor.maximumBytes .deleteForward) := by
  rw [TextEditor.call, Zipper.call, TextEditor.deleteForward]
  by_cases hcursor : editor.cursor ≥ editor.text.length
  · rw [if_pos hcursor, h.length_le_cursor.mp hcursor]
    exact h.agrees (.moved false)
  obtain ⟨c, after, hafter, hnext⟩ := h.exists_after hcursor
  have htext : editor.text.take editor.cursor ++ editor.text.drop
    (encode (zipper.before ++ [c])).length =
      encode (Zipper.mk zipper.before after).text := by
    rw [h.take, h.text, Zipper.text, Zipper.text, hafter, List.append_cons zipper.before c after,
      encode_append (zipper.before ++ [c]), List.drop_left, encode_append]
  have hsize : (Zipper.mk zipper.before after).size ≤ zipper.size := by
    simp only [Zipper.size, Zipper.text, hafter, encode_append, encode_cons, List.length_append]
    omega
  rw [if_neg hcursor, hnext]
  dsimp only
  rw [htext, hafter]
  exact ⟨rfl, rfl, rfl, h.cursor, h.shrink hsize⟩

/-- Each call of the editor is the operation on characters. -/
theorem Stands.call (h : editor.Stands zipper) (c : EditorCall) :
    Agrees editor.maximumBytes (editor.call c) (zipper.call editor.maximumBytes c) := by
  cases c with
  | setText text => exact h.setText text
  | insert codepoint => exact h.insert codepoint
  | insertUtf8 text => exact h.insertUtf8 text
  | moveLeft => exact h.moveLeft
  | moveRight => exact h.moveRight
  | backspace => exact h.backspace
  | deleteForward => exact h.deleteForward
  | clear => exact ⟨rfl, rfl, rfl, rfl, Nat.zero_le _⟩

/-- Simulation along a sequence of calls. -/
theorem Stands.run (calls : List EditorCall) {editor : TextEditor} {zipper : Zipper}
    (h : editor.Stands zipper) :
    (editor.run calls).1 = (zipper.run editor.maximumBytes calls).1 ∧
    (editor.run calls).2.maximumBytes = editor.maximumBytes ∧
    (editor.run calls).2.Stands (zipper.run editor.maximumBytes calls).2 := by
  induction calls generalizing editor zipper with
  | nil => exact ⟨rfl, rfl, h⟩
  | cons c calls ih =>
    obtain ⟨hanswer, hlimit, hstands⟩ := h.call c
    obtain ⟨hanswers, hlimit', hstands'⟩ := ih hstands
    rw [hlimit] at hanswers hlimit' hstands'
    exact ⟨congrArg₂ List.cons hanswer hanswers, hlimit', hstands'⟩

/-- A refused call changes nothing. -/
theorem call_refused {c : EditorCall} (h : (editor.call c).1.refused = true) :
    (editor.call c).2 = editor := by
  -- every branch of every operation answers with an error and the old editor, or with success
  cases c with
  | clear => cases h
  | _ =>
    simp only [TextEditor.call, TextEditor.setText, TextEditor.insert, TextEditor.insertUtf8,
      TextEditor.moveLeft, TextEditor.moveRight, TextEditor.backspace,
        TextEditor.deleteForward] at h ⊢
    split_ifs at h ⊢ <;> first | rfl | cases h

end TextEditor

/-- **The editor edits characters.**  After any calls the text is valid and within its
limit, text and cursor are the encoding of the characters before the cursor and of those
behind it, and all answers are those of the operations on characters.  A further call that
is refused changes nothing. -/
theorem text_editor_refines_zipper (maximumBytes : ℕ) (calls : List EditorCall) :
    let result := (TextEditor.mk maximumBytes [] 0).run calls
    let abstract := (Zipper.mk [] []).run maximumBytes calls
    result.1 = abstract.1 ∧
    result.2.text = encode (abstract.2.before ++ abstract.2.after) ∧
    result.2.cursor = (encode abstract.2.before).length ∧
    isValidUtf8 result.2.text = true ∧
    result.2.text.length ≤ maximumBytes ∧
    ∀ c, (result.2.call c).1.refused = true → (result.2.call c).2 = result.2 := by
  have hstart : (TextEditor.mk maximumBytes [] 0).Stands (Zipper.mk [] []) :=
    ⟨rfl, rfl, Nat.zero_le _⟩
  obtain ⟨hanswers, hlimit, hstands⟩ := hstart.run calls
  refine ⟨hanswers, hstands.text, hstands.cursor, ?_, ?_, fun c => TextEditor.call_refused⟩
  · rw [hstands.text]
    exact isValidUtf8_encode _
  · exact le_of_le_of_eq hstands.bounded hlimit

end Lora
