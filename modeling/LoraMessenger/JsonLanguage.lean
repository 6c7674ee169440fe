/-
The language of the JSON parser.

The parser accepts the texts of the grammar that nest at most so many levels and whose
objects have distinct keys, and finds the value that they denote.  Soundness goes by
induction on the levels, completeness by induction on the derivation, and so does the proof
that a text denotes one value only.

* `parseValue_sound`, `parseValue_complete` — a value at the front of the input;
* `value_unique` — the grammar is unambiguous;
* `json_parser_language` — whole texts.
-/
import LoraMessenger.JsonGrammar
import Mathlib.Data.List.Nodup

namespace Lora

open Utf8Codec

namespace Json

/-- Arrays and objects nest at most so many levels. -/
inductive Nests : ℕ → JsonValue → Prop
  | null {levels : ℕ} : Nests levels .null
  | boolean {levels : ℕ} {value : Bool} : Nests levels (.boolean value)
  | number {levels : ℕ} {scalar : Bytes} : Nests levels (.number scalar)
  | string {levels : ℕ} {scalar : Bytes} : Nests levels (.string scalar)
  | object {levels : ℕ} {members : List (Bytes × JsonValue)}
    (h : ∀ member ∈ members, Nests levels member.2) :
    Nests (levels + 1) (.object members)
  | array {levels : ℕ} {elements : List JsonValue}
    (h : ∀ element ∈ elements, Nests levels element) :
    Nests (levels + 1) (.array elements)

/-- No object in the value has the same key twice. -/
inductive DistinctKeys : JsonValue → Prop
  | null : DistinctKeys .null
  | boolean {value : Bool} : DistinctKeys (.boolean value)
  | number {scalar : Bytes} : DistinctKeys (.number scalar)
  | string {scalar : Bytes} : DistinctKeys (.string scalar)
  | object {members : List (Bytes × JsonValue)} (hkeys : (members.map Prod.fst).Nodup)
    (h : ∀ member ∈ members, DistinctKeys member.2) : DistinctKeys (.object members)
  | array {elements : List JsonValue} (h : ∀ element ∈ elements, DistinctKeys element) :
    DistinctKeys (.array elements)

/-- Every string and every key in the value is valid UTF-8. -/
inductive Utf8Strings : JsonValue → Prop
  | null : Utf8Strings .null
  | boolean {value : Bool} : Utf8Strings (.boolean value)
  | number {scalar : Bytes} : Utf8Strings (.number scalar)
  | string {scalar : Bytes} (hscalar : isValidUtf8 scalar = true) : Utf8Strings (.string scalar)
  | object {members : List (Bytes × JsonValue)}
    (hkeys : ∀ member ∈ members, isValidUtf8 member.1 = true)
    (h : ∀ member ∈ members, Utf8Strings member.2) : Utf8Strings (.object members)
  | array {elements : List JsonValue} (h : ∀ element ∈ elements, Utf8Strings element) :
    Utf8Strings (.array elements)

theorem Value.utf8Strings {text : Bytes} {value : JsonValue} (h : Value text value) :
    Utf8Strings value := by
  induction h with
  | null => exact .null
  | true => exact .boolean
  | false => exact .boolean
  | number => exact .number
  | string => exact .string (isValidUtf8_encode _)
  | emptyObject => exact .object (List.forall_mem_nil _) (List.forall_mem_nil _)
  | object _ _ _ _ ih =>
    refine .object (List.forall_mem_map.mpr fun member _ => isValidUtf8_encode member.name) ?_
    exact List.forall_mem_map.mpr ih
  | emptyArray => exact .array (List.forall_mem_nil _)
  | array _ _ _ ih => exact .array (List.forall_mem_map.mpr ih)

/-! ### Separated items -/

theorem separated_singleton (item : Bytes) : separated [item] = item := by simp [separated]

theorem separated_cons_cons (item next : Bytes) (items : List Bytes) :
    separated (item :: next :: items) = item ++ 0x2c :: separated (next :: items) := by
  simp [separated, List.intercalate]

theorem exists_separated (item : Bytes) (items : List Bytes) :
    ∃ others, separated (item :: items) = item ++ others := by
  rcases items with _ | ⟨next, items⟩
  · exact ⟨[], by rw [separated_singleton, List.append_nil]⟩
  · exact ⟨_, separated_cons_cons item next items⟩

/-- The byte that a value begins with. -/
def Starts (text : Bytes) : Prop :=
  ∃ first rest, text = first :: rest ∧
    ¬(first = 0x20 ∨ first = 0x09 ∨ first = 0x0a ∨ first = 0x0d) ∧ first ≠ 0x5d

theorem Number.head {text : Bytes} (h : Number text) :
    ∃ first rest, text = first :: rest ∧ (first = 0x2d ∨ IsDigit first) := by
  obtain ⟨hminus, hinteger, -, -⟩ := h
  rcases hminus with rfl | rfl
  · cases hinteger with
    | zero => exact ⟨0x30, _, rfl, .inr (by rw [IsDigit]; decide)⟩
    | digits hfirst => exact ⟨_, _, rfl, .inr ⟨UInt8.le_trans (by decide) hfirst.1, hfirst.2⟩⟩
  · exact ⟨0x2d, _, rfl, .inl rfl⟩

theorem Value.starts {text : Bytes} {value : JsonValue} (h : Value text value) : Starts text := by
  cases h with
  | number h =>
    obtain ⟨first, rest, rfl, hfirst⟩ := h.head
    refine ⟨first, rest, rfl, ?_, ?_⟩
    · rcases hfirst with rfl | hfirst
      · decide
      · rintro (rfl | rfl | rfl | rfl) <;> exact absurd hfirst.1 (by decide)
    · rcases hfirst with rfl | hfirst
      · decide
      · rintro rfl
        exact absurd hfirst.2 (by decide)
  | null => exact ⟨_, _, rfl, by decide, by decide⟩
  | true => exact ⟨_, _, rfl, by decide, by decide⟩
  | false => exact ⟨_, _, rfl, by decide, by decide⟩
  | string => exact ⟨_, _, rfl, by decide, by decide⟩
  | emptyObject => exact ⟨_, _, rfl, by decide, by decide⟩
  | object => exact ⟨_, _, rfl, by decide, by decide⟩
  | emptyArray => exact ⟨_, _, rfl, by decide, by decide⟩
  | array => exact ⟨_, _, rfl, by decide, by decide⟩

end Json

namespace JsonParser

open Json

theorem Starts.unspaced {text : Bytes} (h : Starts text) (rest : Bytes) :
    Unspaced (text ++ rest) := by
  obtain ⟨first, more, rfl, hfirst, -⟩ := h
  rintro _ ⟨⟩
  exact hfirst

/-! ### Completeness -/

/-- What may follow a value. -/
def EndsValue (rest : Bytes) : Prop :=
  ∀ byte ∈ rest.head?, byte ∈ [0x20, 0x09, 0x0a, 0x0d, 0x2c, 0x5d, 0x7d]

theorem endsNumber_of_endsValue {rest : Bytes} (h : EndsValue rest) : EndsNumber rest := by
  intro byte hbyte
  have hbyte := h byte hbyte
  simp only [List.mem_cons, List.not_mem_nil, or_false] at hbyte
  rcases hbyte with rfl | rfl | rfl | rfl | rfl | rfl | rfl <;> (rw [IsDigit]; decide)

theorem endsValue_append {space rest : Bytes} (hspace : Space space) (hrest : EndsValue rest) :
    EndsValue (space ++ rest) := by
  rcases space with _ | ⟨byte, space⟩
  · exact hrest
  · rintro _ ⟨⟩
    rcases hspace byte List.mem_cons_self with rfl | rfl | rfl | rfl <;> simp

section Nested

variable {nested : Bytes → Parsed JsonValue}

/-- The parser one level down reads the text as the value, wherever it may end. -/
def Reads (nested : Bytes → Parsed JsonValue) (text : Bytes) (value : JsonValue) : Prop :=
  ∀ rest, EndsValue rest → nested (text ++ rest) = .ok (value, rest)

theorem skipWhitespace_element {element : Element} (hspaced : element.spaced)
    (hstarts : Starts element.text)
    (rest : Bytes) : skipWhitespace (element.written ++ rest) =
      element.text ++ (element.after ++ rest) := by
  rw [Element.written, List.append_assoc, List.append_assoc]
  exact skipWhitespace_append hspaced.1 (Starts.unspaced hstarts _)

/-- What stands behind an element: its space, and the comma or the bracket. -/
theorem endsValue_after {element : Element} (hspaced : element.spaced) {close : UInt8}
    (hclose : close = 0x2c ∨ close = 0x5d ∨ close = 0x7d) (rest : Bytes) :
    EndsValue (element.after ++ close :: rest) ∧ skipWhitespace (element.after ++ close :: rest) =
      close :: rest := by
  refine ⟨endsValue_append hspaced.2 ?_, skipWhitespace_space hspaced.2 ?_ rest⟩
  · rintro _ ⟨⟩
    rcases hclose with rfl | rfl | rfl <;> simp
  · rcases hclose with rfl | rfl | rfl <;> decide

/-- What the loop of `parse_array` does behind a value. -/
def afterElement (nested : Bytes → Parsed JsonValue) (turns : ℕ) (values : List JsonValue) : Bytes →
    Parsed JsonValue
  | 0x5d :: rest => .ok (.array values, rest)
  | 0x2c :: rest => parseElements nested turns values (skipWhitespace rest)
  | _ => malformed

/-- What the loop of `parse_object` does behind a value. -/
def afterMember (nested : Bytes → Parsed JsonValue) (turns : ℕ)
    (members : List (Bytes × JsonValue)) :
    Bytes → Parsed JsonValue
  | 0x7d :: rest => .ok (.object members, rest)
  | 0x2c :: rest => parseMembers nested turns members (skipWhitespace rest)
  | _ => malformed

theorem parseElements_complete {elements : List Element} (hne : elements ≠ [])
    (hspaced : ∀ element ∈ elements, element.spaced)
    (hstarts : ∀ element ∈ elements, Starts element.text)
    (hreads : ∀ element ∈ elements, Reads nested element.text element.value) {turns : ℕ}
    (hturns : elements.length ≤ turns) (before : List JsonValue) (rest : Bytes) :
    parseElements nested turns before
      (skipWhitespace (separated (elements.map Element.written) ++ 0x5d :: rest)) =
      .ok (.array (before ++ elements.map Element.value), rest) := by
  induction elements generalizing turns before with
  | nil => exact absurd rfl hne
  | cons element elements ih =>
    rw [List.length_cons] at hturns
    obtain ⟨turns, rfl⟩ := Nat.exists_eq_succ_of_ne_zero (show turns ≠ 0 by omega)
    obtain ⟨hspace, hspaced⟩ := List.forall_mem_cons.mp hspaced
    obtain ⟨hstart, hstarts⟩ := List.forall_mem_cons.mp hstarts
    obtain ⟨hread, hreads⟩ := List.forall_mem_cons.mp hreads
    -- one turn of the loop, up to what follows the value
    have hturn : ∀ {close : UInt8} (hclose : close = 0x2c ∨ close = 0x5d ∨ close = 0x7d)
      (more : Bytes),
        parseElements nested (turns + 1) before
          (skipWhitespace (element.written ++ close :: more)) =
          afterElement nested turns (before ++ [element.value]) (close :: more) := by
      intro close hclose more
      obtain ⟨hends, hskip⟩ := endsValue_after hspace hclose more
      have hparsed := hread _ hends
      rw [skipWhitespace_element hspace hstart]
      obtain ⟨first, text, htext, -, -⟩ := hstart
      rw [htext, List.cons_append] at hparsed ⊢
      rw [parseElements.eq_def]
      simp only [hparsed, hskip]
      rfl
    rcases elements with _ | ⟨next, elements⟩
    · rw [List.map_singleton, separated_singleton, hturn (.inr (.inl rfl))]
      rfl
    · rw [List.map_cons, List.map_cons, separated_cons_cons, List.append_assoc, List.cons_append,
        hturn (.inl rfl)]
      have hlater := ih (List.cons_ne_nil _ _) hspaced hstarts hreads
        (show (next :: elements).length ≤ turns by omega) (before ++ [element.value])
      rw [List.map_cons] at hlater
      exact hlater.trans (by simp)

theorem skipWhitespace_member {member : Member} (hspaced : member.spaced) (rest : Bytes) :
    skipWhitespace (member.written ++ rest) =
      quoted member.key ++ (member.after ++ 0x3a :: (member.element.written ++ rest)) := by
  rw [Member.written, List.append_assoc, List.append_assoc, List.append_assoc, List.cons_append]
  refine skipWhitespace_append hspaced.1 ?_
  rintro _ ⟨⟩
  decide

theorem parseMembers_complete {members : List Member} (hne : members ≠ [])
    (hspaced : ∀ member ∈ members, member.spaced)
    (hnames : ∀ member ∈ members, Characters member.key member.name)
    (hstarts : ∀ member ∈ members, Starts member.element.text)
    (hreads : ∀ member ∈ members, Reads nested member.element.text member.element.value) {turns : ℕ}
    (hturns : members.length ≤ turns) {before : List (Bytes × JsonValue)}
    (hkeys : (before.map Prod.fst ++ members.map fun member => encode member.name).Nodup)
    (rest : Bytes) :
    parseMembers nested turns before
      (skipWhitespace (separated (members.map Member.written) ++ 0x7d :: rest)) =
      .ok (.object (before ++ members.map Member.denoted), rest) := by
  induction members generalizing turns before with
  | nil => exact absurd rfl hne
  | cons member members ih =>
    rw [List.length_cons] at hturns
    obtain ⟨turns, rfl⟩ := Nat.exists_eq_succ_of_ne_zero (show turns ≠ 0 by omega)
    obtain ⟨hspace, hspaced⟩ := List.forall_mem_cons.mp hspaced
    obtain ⟨hname, hnames⟩ := List.forall_mem_cons.mp hnames
    obtain ⟨hstart, hstarts⟩ := List.forall_mem_cons.mp hstarts
    obtain ⟨hread, hreads⟩ := List.forall_mem_cons.mp hreads
    have hnew : before.any (fun existing => existing.1 = encode member.name) = false := by
      rw [List.map_cons, List.nodup_append] at hkeys
      rw [List.any_eq_false]
      intro existing hexisting
      have hdiffers := hkeys.2.2 existing.1 (List.mem_map_of_mem hexisting)
        (encode member.name) (by simp)
      simpa using hdiffers
    have hcolon (more : Bytes) : skipWhitespace (member.after ++ 0x3a :: more) = 0x3a :: more :=
      skipWhitespace_space hspace.2.1 (by decide) more
    -- one turn of the loop, up to what follows the value
    have hturn : ∀ {close : UInt8} (hclose : close = 0x2c ∨ close = 0x5d ∨ close = 0x7d)
      (more : Bytes),
        parseMembers nested (turns + 1) before (skipWhitespace (member.written ++ close :: more)) =
          afterMember nested turns (before ++ [member.denoted]) (close :: more) := by
      intro close hclose more
      obtain ⟨hends, hskip⟩ := endsValue_after hspace.2.2 hclose more
      have hparsed := hread _ hends
      rw [skipWhitespace_member hspace, parseMembers.eq_def]
      simp only [parseString_complete hname, hnew, hcolon,
        skipWhitespace_element hspace.2.2 hstart, hparsed,
        hskip]
      rfl
    rcases members with _ | ⟨next, members⟩
    · rw [List.map_singleton, separated_singleton, hturn (.inr (.inr rfl))]
      rfl
    · rw [List.map_cons, List.map_cons, separated_cons_cons, List.append_assoc, List.cons_append,
        hturn (.inl rfl)]
      have hlater := ih (List.cons_ne_nil _ _) hspaced hnames hstarts hreads
        (show (next :: members).length ≤ turns by omega)
          (show ((before ++ [member.denoted]).map Prod.fst ++
          (next :: members).map fun member => encode member.name).Nodup
            by simpa [Member.denoted] using hkeys)
      rw [List.map_cons] at hlater
      exact hlater.trans (by simp)

theorem length_separated {items : List Bytes} (hitems : ∀ item ∈ items, item ≠ []) :
    items.length ≤ (separated items).length := by
  induction items with
  | nil => exact Nat.zero_le _
  | cons item items ih =>
    obtain ⟨hitem, hitems⟩ := List.forall_mem_cons.mp hitems
    have hpos := List.length_pos_iff.mpr hitem
    rcases items with _ | ⟨next, items⟩
    · rw [separated_singleton]
      exact hpos
    · have hlater := ih hitems
      rw [separated_cons_cons]
      simp only [List.length_append, List.length_cons] at hlater ⊢
      omega

/-- The first item leaves something behind its space, so there are turns enough. -/
theorem length_skipped {item : Bytes} {items : List Bytes} (hitems : ∀ other ∈ items, other ≠ [])
    (hitem : ∀ rest, rest.length < (skipWhitespace (item ++ rest)).length) (rest : Bytes) :
    (item :: items).length ≤ (skipWhitespace (separated (item :: items) ++ rest)).length := by
  rcases items with _ | ⟨next, items⟩
  · rw [separated_singleton]
    exact Nat.succ_le_of_lt (Nat.lt_of_le_of_lt (Nat.zero_le _) (hitem rest))
  · have hlater := length_separated hitems
    have hfirst := hitem (0x2c :: separated (next :: items) ++ rest)
    rw [separated_cons_cons, List.append_assoc]
    rw [List.length_append, List.length_cons] at hfirst
    rw [List.length_cons]
    omega

end Nested

theorem parseObject_complete {members : List Member} (hne : members ≠ [])
    (hspaced : ∀ member ∈ members, member.spaced)
    (hnames : ∀ member ∈ members, Characters member.key member.name)
    (hstarts : ∀ member ∈ members, Starts member.element.text) {nested : Bytes → Parsed JsonValue}
    (hreads : ∀ member ∈ members, Reads nested member.element.text member.element.value)
    (hkeys : (members.map fun member => encode member.name).Nodup) (rest : Bytes) :
    parseObject nested (separated (members.map Member.written) ++ 0x7d :: rest) =
      .ok (.object (members.map Member.denoted), rest) := by
  obtain ⟨member, others, rfl⟩ := List.exists_cons_of_ne_nil hne
  have hfirst (more : Bytes) :
      ∃ tail, skipWhitespace (member.written ++ more) = 0x22 :: tail ∧
        more.length < tail.length := by
    rw [skipWhitespace_member (hspaced _ List.mem_cons_self)]
    refine ⟨(member.key ++ [0x22]) ++
      (member.after ++ 0x3a :: (member.element.written ++ more)), rfl, ?_⟩
    simp only [List.length_append, List.length_cons]
    omega
  have hturns : (member :: others).length ≤
      (skipWhitespace (separated ((member :: others).map Member.written) ++
        0x7d :: rest)).length := by
    have hlength := @length_skipped member.written (others.map Member.written)
      (List.forall_mem_map.mpr fun _ _ => by simp [Member.written]) (fun more => by
        obtain ⟨tail, htail, hlt⟩ := hfirst more
        rw [htail, List.length_cons]
        omega) (0x7d :: rest)
    simpa using hlength
  have hparsed := parseMembers_complete hne hspaced hnames hstarts hreads hturns
    (show (([] : List (Bytes × JsonValue)).map Prod.fst ++ _).Nodup from hkeys) rest
  rw [parseObject]
  split
  · -- the first key does not close the object
    rename_i heq
    obtain ⟨more, hmore⟩ := exists_separated member.written (others.map Member.written)
    rw [List.map_cons, hmore, List.append_assoc] at heq
    obtain ⟨tail, htail, -⟩ := hfirst (more ++ 0x7d :: rest)
    rw [htail] at heq
    cases heq
  · exact hparsed

theorem parseArray_complete {elements : List Element} (hne : elements ≠ [])
    (hspaced : ∀ element ∈ elements, element.spaced)
    (hstarts : ∀ element ∈ elements, Starts element.text)
    {nested : Bytes → Parsed JsonValue}
    (hreads : ∀ element ∈ elements, Reads nested element.text element.value) (rest : Bytes) :
    parseArray nested (separated (elements.map Element.written) ++ 0x5d :: rest) =
      .ok (.array (elements.map Element.value), rest) := by
  obtain ⟨element, others, rfl⟩ := List.exists_cons_of_ne_nil hne
  obtain ⟨first, text, htext, -, hbracket⟩ := hstarts _ List.mem_cons_self
  have hfirst (more : Bytes) :
      ∃ tail, skipWhitespace (element.written ++ more) = first :: tail ∧
        more.length ≤ tail.length := by
    rw [skipWhitespace_element (hspaced _ List.mem_cons_self) (hstarts _ List.mem_cons_self), htext]
    refine ⟨text ++ (element.after ++ more), rfl, ?_⟩
    simp only [List.length_append]
    omega
  have hturns : (element :: others).length ≤
      (skipWhitespace (separated ((element :: others).map Element.written) ++
        0x5d :: rest)).length := by
    have hnil : ∀ other ∈ others, other.written ≠ [] := by
      intro other hother hnil
      obtain ⟨_, _, hother, -⟩ := hstarts other (List.mem_cons_of_mem _ hother)
      rw [Element.written, hother] at hnil
      simp at hnil
    have hlength := @length_skipped element.written (others.map Element.written)
      (List.forall_mem_map.mpr hnil) (fun more => by
        obtain ⟨tail, htail, hle⟩ := hfirst more
        rw [htail, List.length_cons]
        omega) (0x5d :: rest)
    simpa using hlength
  have hparsed := parseElements_complete hne hspaced hstarts hreads hturns [] rest
  rw [parseArray]
  split
  · -- the first value does not close the array
    rename_i heq
    obtain ⟨more, hmore⟩ := exists_separated element.written (others.map Element.written)
    rw [List.map_cons, hmore, List.append_assoc] at heq
    obtain ⟨tail, htail, -⟩ := hfirst (more ++ 0x5d :: rest)
    rw [htail] at heq
    exact absurd (List.cons.inj heq).1 hbracket
  · exact hparsed

theorem parseToken_number {number : Bytes} (hnumber : Number number)
    (nested : Option (Bytes → Parsed JsonValue)) :
    Reads (parseToken nested) number (.number number) := by
  intro rest hrest
  have hparsed := parseNumber_complete hnumber (endsNumber_of_endsValue hrest)
  obtain ⟨first, more, hfirst, hclass⟩ := hnumber.head
  have hne : ∀ byte : UInt8, byte ≠ 0x2d → ¬IsDigit byte → first ≠ byte := by
    rintro byte hminus hdigit rfl
    exact hclass.elim hminus hdigit
  have hnumeric : (first = 0x2d || isDigit first) = true := by
    rw [Bool.or_eq_true, decide_eq_true_iff, isDigit_iff]
    exact hclass
  rw [hfirst, List.cons_append] at hparsed ⊢
  rw [parseToken.eq_def]
  dsimp only
  rw [if_neg (hne 0x7b (by decide) (by rw [IsDigit]; decide)),
    if_neg (hne 0x5b (by decide) (by rw [IsDigit]; decide)),
      if_neg (hne 0x22 (by decide) (by rw [IsDigit]; decide)),
    if_neg (hne 0x74 (by decide) (by rw [IsDigit]; decide)),
      if_neg (hne 0x66 (by decide) (by rw [IsDigit]; decide)),
    if_neg (hne 0x6e (by decide) (by rw [IsDigit]; decide)), if_pos hnumeric, hparsed]

/-- `parse_value` is `parseToken`, whatever is allowed below. -/
theorem parseValue_eq (levels : ℕ) : ∃ nested, parseValue levels = parseToken nested := by
  cases levels with
  | zero => exact ⟨none, rfl⟩
  | succ levels => exact ⟨some (parseValue levels), rfl⟩

/-- **Completeness.**  A text of the grammar is read as what it denotes. -/
theorem parseValue_complete {text : Bytes} {value : JsonValue} (h : Value text value) {levels : ℕ}
    (hnests : Nests levels value) (hkeys : DistinctKeys value) :
    Reads (parseValue levels) text value := by
  obtain ⟨nested, hnested⟩ := parseValue_eq levels
  -- on the derivation: each nested value gives up one level
  induction h generalizing levels nested with
  | null =>
    intro rest _
    rw [hnested]
    rfl
  | true =>
    intro rest _
    rw [hnested]
    rfl
  | false =>
    intro rest _
    rw [hnested]
    rfl
  | number hnumber =>
    rw [hnested]
    exact parseToken_number hnumber nested
  | string hstring =>
    intro rest _
    have hparsed := parseString_complete hstring rest
    rw [hnested, quoted, List.cons_append]
    rw [quoted, List.cons_append] at hparsed
    simp only [parseToken, hparsed]
    rfl
  | @emptyObject space hspace =>
    cases hnests with
    | @object levels _ _ =>
    intro rest _
    show parseObject (parseValue levels) ((space ++ [0x7d]) ++ rest) = _
    rw [List.append_assoc, List.singleton_append, parseObject,
      skipWhitespace_space hspace (by decide)]
    rfl
  | @object members hne hspaced hnames hvalues ih =>
    cases hnests with
    | @object levels _ hbelow =>
    cases hkeys with
    | object hdistinct hkeys =>
    intro rest _
    rw [List.forall_mem_map] at hbelow hkeys
    rw [List.map_map] at hdistinct
    show parseObject (parseValue levels)
      ((separated (members.map Member.written) ++ [0x7d]) ++ rest) = _
    rw [List.append_assoc, List.singleton_append]
    refine parseObject_complete hne hspaced hnames
      (fun member hmember => (hvalues member hmember).starts) ?_
      hdistinct rest
    intro member hmember
    obtain ⟨below, hnested⟩ := parseValue_eq levels
    exact ih member hmember (hbelow member hmember) (hkeys member hmember) below hnested
  | @emptyArray space hspace =>
    cases hnests with
    | @array levels _ _ =>
    intro rest _
    show parseArray (parseValue levels) ((space ++ [0x5d]) ++ rest) = _
    rw [List.append_assoc, List.singleton_append, parseArray,
      skipWhitespace_space hspace (by decide)]
    rfl
  | @array elements hne hspaced hvalues ih =>
    cases hnests with
    | @array levels _ hbelow =>
    cases hkeys with
    | array hkeys =>
    intro rest _
    rw [List.forall_mem_map] at hbelow hkeys
    show parseArray (parseValue levels)
      ((separated (elements.map Element.written) ++ [0x5d]) ++ rest) = _
    rw [List.append_assoc, List.singleton_append]
    refine parseArray_complete hne hspaced
      (fun element helement => (hvalues element helement).starts) ?_ rest
    intro element helement
    obtain ⟨below, hnested⟩ := parseValue_eq levels
    exact ih element helement (hbelow element helement) (hkeys element helement) below hnested

/-! ### Soundness -/

theorem isValidUtf8_space {space : Bytes} (hspace : Space space) (rest : Bytes) :
    isValidUtf8 (space ++ rest) = isValidUtf8 rest := by
  refine isValidUtf8_ascii_append (fun byte hbyte => ?_) rest
  rcases hspace byte hbyte with rfl | rfl | rfl | rfl <;> decide

theorem isValidUtf8_skipWhitespace {input : Bytes} (h : isValidUtf8 input = true) :
    isValidUtf8 (skipWhitespace input) = true := by
  obtain ⟨space, hinput, hspace, -⟩ := skipWhitespace_sound input
  rw [hinput, isValidUtf8_space hspace] at h
  exact h

/-- What a parser that takes something off a valid input finds there. -/
def Finds (nested : Bytes → Parsed JsonValue) (P : Bytes → JsonValue → Prop) : Prop :=
  ∀ input value rest, isValidUtf8 input = true → nested input = .ok (value, rest) →
    ∃ text, input = text ++ rest ∧ P text value ∧ isValidUtf8 rest = true

theorem parseElements_sound {nested : Bytes → Parsed JsonValue} {P : Bytes → JsonValue → Prop}
    (hnested : Finds nested P) {turns : ℕ} {before : List JsonValue} {input rest : Bytes}
    {value : JsonValue}
    (hutf8 : isValidUtf8 input = true)
    (h : parseElements nested turns before (skipWhitespace input) = .ok (value, rest)) :
    ∃ elements : List Element, elements ≠ [] ∧ (∀ element ∈ elements, element.spaced) ∧
      (∀ element ∈ elements, P element.text element.value) ∧
      input = separated (elements.map Element.written) ++ 0x5d :: rest ∧
      value = .array (before ++ elements.map Element.value) ∧ isValidUtf8 rest = true := by
  induction turns generalizing before input with
  | zero => cases h
  | succ turns ih =>
    obtain ⟨space, hinput, hspace, -⟩ := skipWhitespace_sound input
    have hvalid := isValidUtf8_skipWhitespace hutf8
    generalize skipWhitespace input = skipped at *
    rw [parseElements.eq_def] at h
    dsimp only at h
    split at h
    · cases h
    rcases hparsed : nested skipped with error | ⟨found, later⟩ <;> rw [hparsed] at h
    · cases h
    obtain ⟨text, rfl, hfound, hlater⟩ := hnested _ _ _ hvalid hparsed
    obtain ⟨after, hafter, hspaced, -⟩ := skipWhitespace_sound later
    have hbehind := isValidUtf8_skipWhitespace hlater
    dsimp only at h
    generalize skipWhitespace later = behind at *
    subst hafter hinput
    let element : Element := ⟨space, text, after, found⟩
    split at h
    · -- the bracket
      obtain ⟨rfl, rfl⟩ := Prod.mk.inj (Except.ok.inj h)
      rw [isValidUtf8_byte (by decide)] at hbehind
      refine ⟨[element], List.cons_ne_nil _ _, ?_, ?_, ?_, rfl, hbehind⟩
      · simpa using ⟨hspace, hspaced⟩
      · simpa using hfound
      · rw [List.map_singleton, separated_singleton]
        simp [element, Element.written]
    · -- a comma, and more
      rename_i more
      rw [isValidUtf8_byte (by decide)] at hbehind
      obtain ⟨elements, hne, hspaces, hvalues, rfl, rfl, hrest⟩ := ih hbehind h
      refine ⟨element :: elements, List.cons_ne_nil _ _, ?_, ?_, ?_, ?_, hrest⟩
      · exact List.forall_mem_cons.mpr ⟨⟨hspace, hspaced⟩, hspaces⟩
      · exact List.forall_mem_cons.mpr ⟨hfound, hvalues⟩
      · obtain ⟨next, others, rfl⟩ := List.exists_cons_of_ne_nil hne
        simp only [List.map_cons, separated_cons_cons]
        simp [element, Element.written]
      · simp [element]
    · cases h

theorem parseMembers_sound {nested : Bytes → Parsed JsonValue} {P : Bytes → JsonValue → Prop}
    (hnested : Finds nested P) {turns : ℕ} {before : List (Bytes × JsonValue)} {input rest : Bytes}
    {value : JsonValue} (hutf8 : isValidUtf8 input = true) (hbefore : (before.map Prod.fst).Nodup)
    (h : parseMembers nested turns before (skipWhitespace input) = .ok (value, rest)) :
    ∃ members : List Member, members ≠ [] ∧ (∀ member ∈ members, member.spaced) ∧
      (∀ member ∈ members, Characters member.key member.name) ∧
      (∀ member ∈ members, P member.element.text member.element.value) ∧
      (before.map Prod.fst ++ members.map fun member => encode member.name).Nodup ∧
      input = separated (members.map Member.written) ++ 0x7d :: rest ∧
      value = .object (before ++ members.map Member.denoted) ∧ isValidUtf8 rest = true := by
  induction turns generalizing before input with
  | zero => cases h
  | succ turns ih =>
    obtain ⟨space, hinput, hspace, -⟩ := skipWhitespace_sound input
    have hvalid := isValidUtf8_skipWhitespace hutf8
    generalize skipWhitespace input = skipped at *
    rw [parseMembers.eq_def] at h
    dsimp only at h
    rcases hname : parseString skipped with error | ⟨name, named⟩ <;> rw [hname] at h
    · cases h
    obtain ⟨key, characters, rfl, hcharacters, rfl, hnamed⟩ := parseString_sound hvalid hname
    dsimp only at h
    split at h
    · cases h
    rename_i hnew
    -- the search for the name failed, so the keys so far are still distinct
    have hkeys : (before.map Prod.fst ++ [encode characters]).Nodup := by
      refine List.nodup_append.mpr
        ⟨hbefore, List.nodup_singleton _, fun other hother name hname heq => hnew ?_⟩
      obtain ⟨existing, hexisting, rfl⟩ := List.mem_map.mp hother
      rw [List.mem_singleton.mp hname] at heq
      exact List.any_eq_true.mpr ⟨existing, hexisting, decide_eq_true heq⟩
    obtain ⟨spaceBefore, hcolon, hspaceBefore, -⟩ := skipWhitespace_sound named
    have hpunctuated := isValidUtf8_skipWhitespace hnamed
    generalize skipWhitespace named = punctuated at *
    subst hcolon hinput
    split at h
    swap
    · cases h
    rename_i valued
    rw [isValidUtf8_byte (by decide)] at hpunctuated
    obtain ⟨spaceValue, hspaceValue, hspacedValue, -⟩ := skipWhitespace_sound valued
    have hskipped := isValidUtf8_skipWhitespace hpunctuated
    generalize skipWhitespace valued = unspaced at *
    rcases hparsed : nested unspaced with error | ⟨found, later⟩ <;> rw [hparsed] at h
    · cases h
    obtain ⟨text, rfl, hfound, hlater⟩ := hnested _ _ _ hskipped hparsed
    obtain ⟨after, hafter, hspaced, -⟩ := skipWhitespace_sound later
    have hbehind := isValidUtf8_skipWhitespace hlater
    dsimp only at h
    generalize skipWhitespace later = behind at *
    subst hafter hspaceValue
    -- the five pieces of the input in the order they were read
    let member : Member := ⟨space, key, characters, spaceBefore, ⟨spaceValue, text, after, found⟩⟩
    split at h
    · -- the brace
      obtain ⟨rfl, rfl⟩ := Prod.mk.inj (Except.ok.inj h)
      rw [isValidUtf8_byte (by decide)] at hbehind
      refine ⟨[member], List.cons_ne_nil _ _, ?_, ?_, ?_, hkeys, ?_, rfl, hbehind⟩
      · simpa using ⟨hspace, hspaceBefore, hspacedValue, hspaced⟩
      · simpa using hcharacters
      · simpa using hfound
      · rw [List.map_singleton, separated_singleton]
        simp [member, Member.written, Element.written]
    · -- a comma, and more
      rename_i more
      rw [isValidUtf8_byte (by decide)] at hbehind
      obtain ⟨members, hne, hspaces, hnames, hvalues, hdistinct, rfl, rfl, hrest⟩ :=
        ih hbehind (by simpa using hkeys) h
      refine ⟨member :: members, List.cons_ne_nil _ _, ?_, ?_, ?_, ?_, ?_, ?_, hrest⟩
      · exact List.forall_mem_cons.mpr ⟨⟨hspace, hspaceBefore, hspacedValue, hspaced⟩, hspaces⟩
      · exact List.forall_mem_cons.mpr ⟨hcharacters, hnames⟩
      · exact List.forall_mem_cons.mpr ⟨hfound, hvalues⟩
      · simpa using hdistinct
      · obtain ⟨next, others, rfl⟩ := List.exists_cons_of_ne_nil hne
        simp only [List.map_cons, separated_cons_cons]
        simp [member, Member.written, Element.written]
      · simp [member, Member.denoted]
    · cases h

/-- What the parser accepts as a value with so many levels. -/
def Accepts (levels : ℕ) (text : Bytes) (value : JsonValue) : Prop :=
  Value text value ∧ Nests levels value ∧ DistinctKeys value

theorem parseObject_sound {nested : Bytes → Parsed JsonValue} {levels : ℕ}
    (hnested : Finds nested (Accepts levels))
    {input rest : Bytes} {value : JsonValue} (hutf8 : isValidUtf8 input = true)
    (h : parseObject nested input = .ok (value, rest)) :
    ∃ text, 0x7b :: input = text ++ rest ∧ Accepts (levels + 1) text value ∧
      isValidUtf8 rest = true := by
  rw [parseObject] at h
  split at h
  · rename_i more heq
    obtain ⟨rfl, rfl⟩ := Prod.mk.inj (Except.ok.inj h)
    obtain ⟨space, hinput, hspace, -⟩ := skipWhitespace_sound input
    have hvalid := isValidUtf8_skipWhitespace hutf8
    rw [heq] at hinput hvalid
    rw [isValidUtf8_byte (by decide)] at hvalid
    refine ⟨0x7b :: (space ++ [0x7d]), ?_, ⟨.emptyObject hspace, ?_, ?_⟩, hvalid⟩
    · simp [hinput]
    · exact .object (List.forall_mem_nil _)
    · exact .object List.nodup_nil (List.forall_mem_nil _)
  · obtain ⟨members, hne, hspaced, hnames, hvalues, hkeys, rfl, rfl, hrest⟩ :=
      parseMembers_sound hnested hutf8
        (show (([] : List (Bytes × JsonValue)).map Prod.fst).Nodup from List.nodup_nil) h
    refine ⟨0x7b :: (separated (members.map Member.written) ++ [0x7d]), by simp,
      ⟨?_, ?_, ?_⟩, hrest⟩
    · exact .object hne hspaced hnames fun member hmember => (hvalues member hmember).1
    · exact .object (List.forall_mem_map.mpr fun member hmember => (hvalues member hmember).2.1)
    · refine .object ?_ (List.forall_mem_map.mpr fun member hmember => (hvalues member hmember).2.2)
      rw [List.map_append, List.map_map]
      exact hkeys

theorem parseArray_sound {nested : Bytes → Parsed JsonValue} {levels : ℕ}
    (hnested : Finds nested (Accepts levels))
    {input rest : Bytes} {value : JsonValue} (hutf8 : isValidUtf8 input = true)
    (h : parseArray nested input = .ok (value, rest)) :
    ∃ text, 0x5b :: input = text ++ rest ∧ Accepts (levels + 1) text value ∧
      isValidUtf8 rest = true := by
  rw [parseArray] at h
  split at h
  · rename_i more heq
    obtain ⟨rfl, rfl⟩ := Prod.mk.inj (Except.ok.inj h)
    obtain ⟨space, hinput, hspace, -⟩ := skipWhitespace_sound input
    have hvalid := isValidUtf8_skipWhitespace hutf8
    rw [heq] at hinput hvalid
    rw [isValidUtf8_byte (by decide)] at hvalid
    refine ⟨0x5b :: (space ++ [0x5d]), ?_, ⟨.emptyArray hspace, ?_, ?_⟩, hvalid⟩
    · simp [hinput]
    · exact .array (List.forall_mem_nil _)
    · exact .array (List.forall_mem_nil _)
  · obtain ⟨elements, hne, hspaced, hvalues, rfl, rfl, hrest⟩ := parseElements_sound hnested hutf8 h
    refine ⟨0x5b :: (separated (elements.map Element.written) ++ [0x5d]), by simp,
      ⟨?_, ?_, ?_⟩, hrest⟩
    · exact .array hne hspaced fun element helement => (hvalues element helement).1
    · exact .array (List.forall_mem_map.mpr fun element helement => (hvalues element helement).2.1)
    · exact .array (List.forall_mem_map.mpr fun element helement => (hvalues element helement).2.2)

theorem consumeLiteral_sound {literal input rest : Bytes} {found value : JsonValue} {levels : ℕ}
    (hascii : literal.all (· ≤ 0x7f) = true) (haccepts : Accepts levels literal found)
    (hutf8 : isValidUtf8 input = true)
    (h : consumeLiteral literal found input = .ok (value, rest)) :
    ∃ text, input = text ++ rest ∧ Accepts levels text value ∧ isValidUtf8 rest = true := by
  rw [consumeLiteral] at h
  split at h
  · rename_i htake
    obtain ⟨rfl, rfl⟩ := Prod.mk.inj (Except.ok.inj h)
    have hinput : input = literal ++ input.drop literal.length := by
      conv_lhs => rw [← List.take_append_drop literal.length input, htake]
    refine ⟨literal, hinput, haccepts, ?_⟩
    have hbytes : ∀ byte ∈ literal, byte ≤ 0x7f := fun byte hbyte =>
      of_decide_eq_true (List.all_eq_true.mp hascii byte hbyte)
    rw [hinput, isValidUtf8_ascii_append hbytes] at hutf8
    exact hutf8
  · cases h

theorem number_ascii {number : Bytes} (h : Number number) : ∀ byte ∈ number, byte ≤ 0x7f := by
  have hdigit : ∀ {byte : UInt8}, IsDigit byte →
    byte ≤ 0x7f := fun h => UInt8.le_trans h.2 (by decide)
  obtain ⟨hminus, hinteger, hfraction, hexponent⟩ := h
  simp only [List.forall_mem_append]
  refine ⟨⟨⟨?_, ?_⟩, ?_⟩, ?_⟩
  · rcases hminus with rfl | rfl <;> simp
  · cases hinteger with
    | zero => simp
    | digits hfirst hrest =>
      exact List.forall_mem_cons.mpr
        ⟨UInt8.le_trans hfirst.2 (by decide), fun byte hbyte => hdigit (hrest byte hbyte)⟩
  · cases hfraction with
    | none => exact List.forall_mem_nil _
    | digits h =>
      exact List.forall_mem_cons.mpr
        ⟨by decide, fun byte hbyte => hdigit (h.2 byte hbyte)⟩
  · cases hexponent with
    | none => exact List.forall_mem_nil _
    | digits hletter hsign h =>
      refine List.forall_mem_cons.mpr
        ⟨?_, List.forall_mem_append.mpr ⟨?_, fun byte hbyte => hdigit (h.2 byte hbyte)⟩⟩
      · rcases hletter with rfl | rfl <;> decide
      · rcases hsign with rfl | rfl | rfl <;> simp

theorem parseToken_sound {nested : Option (Bytes → Parsed JsonValue)} {levels : ℕ}
    (hnested : ∀ below ∈ nested, ∃ fewer, levels = fewer + 1 ∧ Finds below (Accepts fewer)) :
    Finds (parseToken nested) (Accepts levels) := by
  intro input value rest hutf8 h
  rw [parseToken.eq_def] at h
  split at h
  · cases h
  rename_i token later
  by_cases hobject : token = 0x7b
  · subst hobject
    rw [if_pos rfl] at h
    rw [isValidUtf8_byte (by decide)] at hutf8
    rcases nested with _ | below
    · cases h
    obtain ⟨fewer, rfl, hbelow⟩ := hnested below rfl
    exact parseObject_sound hbelow hutf8 h
  rw [if_neg hobject] at h
  by_cases harray : token = 0x5b
  · subst harray
    rw [if_pos rfl] at h
    rw [isValidUtf8_byte (by decide)] at hutf8
    rcases nested with _ | below
    · cases h
    obtain ⟨fewer, rfl, hbelow⟩ := hnested below rfl
    exact parseArray_sound hbelow hutf8 h
  rw [if_neg harray] at h
  by_cases hstring : token = 0x22
  · rw [if_pos hstring] at h
    rcases hparsed : parseString (token :: later) with error | ⟨scalar, remaining⟩
      <;> rw [hparsed] at h
    · cases h
    obtain ⟨rfl, rfl⟩ := Prod.mk.inj (Except.ok.inj h)
    obtain ⟨text, characters, hinput, hcharacters, rfl, hrest⟩ := parseString_sound hutf8 hparsed
    exact ⟨quoted text, hinput, ⟨.string hcharacters, .string, .string⟩, hrest⟩
  rw [if_neg hstring] at h
  by_cases htrue : token = 0x74
  · rw [if_pos htrue] at h
    exact consumeLiteral_sound (by decide) ⟨.true, .boolean, .boolean⟩ hutf8 h
  rw [if_neg htrue] at h
  by_cases hfalse : token = 0x66
  · rw [if_pos hfalse] at h
    exact consumeLiteral_sound (by decide) ⟨.false, .boolean, .boolean⟩ hutf8 h
  rw [if_neg hfalse] at h
  by_cases hnull : token = 0x6e
  · rw [if_pos hnull] at h
    exact consumeLiteral_sound (by decide) ⟨.null, .null, .null⟩ hutf8 h
  rw [if_neg hnull] at h
  split at h
  · rcases hparsed : parseNumber (token :: later) with error | ⟨scalar, remaining⟩
      <;> rw [hparsed] at h
    · cases h
    obtain ⟨rfl, rfl⟩ := Prod.mk.inj (Except.ok.inj h)
    obtain ⟨hinput, hnumber⟩ := parseNumber_sound hparsed
    rw [hinput, isValidUtf8_ascii_append (number_ascii hnumber)] at hutf8
    exact ⟨scalar, hinput, ⟨.number hnumber, .number, .number⟩, hutf8⟩
  · cases h

/-- **Soundness.**  What is found at the front of a valid input is a text of the grammar. -/
theorem parseValue_sound (levels : ℕ) : Finds (parseValue levels) (Accepts levels) := by
  induction levels with
  | zero => exact parseToken_sound (fun _ hbelow => by cases hbelow)
  | succ levels ih =>
    refine parseToken_sound fun below hbelow => ⟨levels, rfl, ?_⟩
    cases hbelow
    exact ih

/-! ### One value for a text -/

/-- The grammar finds one value at the front of an input. -/
def Unique (text : Bytes) (value : JsonValue) : Prop :=
  ∀ ⦃rest other otherRest : Bytes⦄ ⦃otherValue : JsonValue⦄, Value other otherValue →
    text ++ rest = other ++ otherRest → EndsValue rest → EndsValue otherRest →
    value = otherValue ∧ rest = otherRest

/-- What stands behind an item. -/
def Closes (close : UInt8) : Prop := close = 0x2c ∨ close = 0x5d ∨ close = 0x7d

/-- What closes an item: a comma and more, or the bracket. -/
theorem separated_closed (close : UInt8) (item : Bytes) (items : List Bytes) (rest : Bytes) :
    ∃ behind, separated (item :: items) ++ close :: rest = item ++ behind ∧
      ((items = [] ∧ behind = close :: rest) ∨
        (items ≠ [] ∧ behind = 0x2c :: (separated items ++ close :: rest))) := by
  rcases items with _ | ⟨next, items⟩
  · exact ⟨_, by rw [separated_singleton], .inl ⟨rfl, rfl⟩⟩
  · refine ⟨_, ?_, .inr ⟨List.cons_ne_nil _ _, rfl⟩⟩
    rw [separated_cons_cons, List.append_assoc, List.cons_append]

/-- Items that can be told apart one by one can be told apart between commas. -/
theorem separated_unique {α β : Type} {written : α → Bytes} {denoted : α → β}
    {items others : List α}
    (hone : ∀ item ∈ items, ∀ other ∈ others, ∀ close otherClose rest otherRest, Closes close →
      Closes otherClose →
      written item ++ close :: rest = written other ++ otherClose :: otherRest →
      denoted item = denoted other ∧ close = otherClose ∧ rest = otherRest)
    (hne : items ≠ []) (hotherNe : others ≠ []) {close : UInt8}
    (hclose : close = 0x5d ∨ close = 0x7d)
    {rest otherRest : Bytes}
    (h : separated (items.map written) ++ close :: rest =
      separated (others.map written) ++ close :: otherRest) :
    items.map denoted = others.map denoted ∧ rest = otherRest := by
  have hcloses : Closes close := .inr hclose
  have hcomma : (0x2c : UInt8) ≠ close := by rcases hclose with rfl | rfl <;> decide
  induction items generalizing others with
  | nil => exact absurd rfl hne
  | cons item items ih =>
    obtain ⟨other, others, rfl⟩ := List.exists_cons_of_ne_nil hotherNe
    have hfirst := hone item List.mem_cons_self other List.mem_cons_self
    obtain ⟨behind, hwritten, hbehind⟩ := separated_closed close (written item)
      (items.map written) rest
    obtain ⟨otherBehind, hotherWritten, hotherBehind⟩ :=
      separated_closed close (written other) (others.map written) otherRest
    rw [List.map_cons, List.map_cons, hwritten, hotherWritten] at h
    rw [ne_eq, List.map_eq_nil_iff] at hbehind hotherBehind
    rcases hbehind with ⟨rfl, rfl⟩ | ⟨hmore, rfl⟩
      <;> rcases hotherBehind with ⟨rfl, rfl⟩ | ⟨hotherMore, rfl⟩
    · obtain ⟨heq, -, hrest⟩ := hfirst _ _ _ _ hcloses hcloses h
      exact ⟨by rw [List.map_singleton, List.map_singleton, heq], hrest⟩
    · obtain ⟨-, heq, -⟩ := hfirst _ _ _ _ hcloses (.inl rfl) h
      exact absurd heq.symm hcomma
    · obtain ⟨-, heq, -⟩ := hfirst _ _ _ _ (.inl rfl) hcloses h
      exact absurd heq hcomma
    · obtain ⟨heq, -, hlater⟩ := hfirst _ _ _ _ (.inl rfl) (.inl rfl) h
      obtain ⟨hdenoted, hrest⟩ := ih (fun item hitem other hother =>
        hone item (List.mem_cons_of_mem _ hitem) other (List.mem_cons_of_mem _ hother)) hmore
          hotherMore hlater
      exact ⟨by rw [List.map_cons, List.map_cons, heq, hdenoted], hrest⟩

theorem element_unique {element other : Element} (hunique : Unique element.text element.value)
    (hspaced : element.spaced) (hotherSpaced : other.spaced) (hstarts : Starts element.text)
    (hother : Value other.text other.value) {close otherClose : UInt8} {rest otherRest : Bytes}
    (hclose : Closes close) (hotherClose : Closes otherClose)
    (h : element.written ++ close :: rest = other.written ++ otherClose :: otherRest) :
    element.value = other.value ∧ close = otherClose ∧ rest = otherRest := by
  obtain ⟨hends, hskip⟩ := endsValue_after hspaced hclose rest
  obtain ⟨hotherEnds, hotherSkip⟩ := endsValue_after hotherSpaced hotherClose otherRest
  have htext := congrArg skipWhitespace h
  rw [skipWhitespace_element hspaced hstarts,
    skipWhitespace_element hotherSpaced hother.starts] at htext
  obtain ⟨hvalue, hafter⟩ := hunique hother htext hends hotherEnds
  have hbehind := congrArg skipWhitespace hafter
  rw [hskip, hotherSkip] at hbehind
  exact ⟨hvalue, List.cons.inj hbehind⟩

theorem member_unique {member other : Member}
    (hunique : Unique member.element.text member.element.value)
    (hspaced : member.spaced) (hotherSpaced : other.spaced)
    (hname : Characters member.key member.name)
    (hotherName : Characters other.key other.name) (hstarts : Starts member.element.text)
    (hother : Value other.element.text other.element.value) {close otherClose : UInt8}
    {rest otherRest : Bytes}
    (hclose : Closes close) (hotherClose : Closes otherClose)
    (h : member.written ++ close :: rest = other.written ++ otherClose :: otherRest) :
    member.denoted = other.denoted ∧ close = otherClose ∧ rest = otherRest := by
  have hkey := congrArg (fun input => parseString (skipWhitespace input)) h
  beta_reduce at hkey
  rw [skipWhitespace_member hspaced, skipWhitespace_member hotherSpaced, parseString_complete hname,
    parseString_complete hotherName] at hkey
  obtain ⟨hnames, hcolon⟩ := Prod.mk.inj (Except.ok.inj hkey)
  have helement := congrArg skipWhitespace hcolon
  rw [skipWhitespace_space hspaced.2.1 (by decide), skipWhitespace_space hotherSpaced.2.1
    (by decide)] at helement
  obtain ⟨hvalue, hrest⟩ := element_unique hunique hspaced.2.2 hotherSpaced.2.2 hstarts hother
    hclose hotherClose
    (List.cons.inj helement).2
  exact ⟨Prod.ext hnames hvalue, hrest⟩

theorem reads_string {text : Bytes} {characters : List Char} (h : Characters text characters) :
    Reads (parseToken none) (quoted text) (.string (encode characters)) :=
  @parseValue_complete _ _ (.string h) 0 .string .string

/-- A value without nesting is read by its first byte, an array or an object is not. -/
theorem scalar_or_nested {text : Bytes} {value : JsonValue} (h : Value text value) :
    Reads (parseToken none) text value ∨
      ∀ rest, parseToken none (text ++ rest) = .error .excessiveNesting := by
  cases h with
  | null => exact .inl fun rest _ => rfl
  | true => exact .inl fun rest _ => rfl
  | false => exact .inl fun rest _ => rfl
  | number h => exact .inl (parseToken_number h none)
  | string h => exact .inl (reads_string h)
  | emptyObject => exact .inr fun rest => rfl
  | object => exact .inr fun rest => rfl
  | emptyArray => exact .inr fun rest => rfl
  | array => exact .inr fun rest => rfl

/-- What begins with a bracket is an array. -/
theorem value_array {text rest tail : Bytes} {value : JsonValue} (h : Value text value)
    (hends : EndsValue rest)
    (heq : 0x5b :: tail = text ++ rest) :
    (∃ space, Space space ∧ value = .array [] ∧ tail = space ++ 0x5d :: rest) ∨
    ∃ elements : List Element, elements ≠ [] ∧ (∀ element ∈ elements, element.spaced) ∧
      (∀ element ∈ elements, Value element.text element.value) ∧
        value = .array (elements.map Element.value) ∧
      tail = separated (elements.map Element.written) ++ 0x5d :: rest := by
  have hscalar : ¬Reads (parseToken none) text value := by
    intro hreads
    have hparsed := hreads rest hends
    rw [← heq] at hparsed
    cases hparsed
  cases h with
  | null => exact absurd (fun rest _ => rfl) hscalar
  | true => exact absurd (fun rest _ => rfl) hscalar
  | false => exact absurd (fun rest _ => rfl) hscalar
  | number h => exact absurd (parseToken_number h none) hscalar
  | string h => exact absurd (reads_string h) hscalar
  | emptyObject => cases heq
  | object => cases heq
  | @emptyArray space hspace =>
    refine .inl ⟨space, hspace, rfl, ?_⟩
    simpa using heq
  | @array elements hne hspaced hvalues =>
    refine .inr ⟨elements, hne, hspaced, hvalues, rfl, ?_⟩
    simpa using heq

/-- What begins with a brace is an object. -/
theorem value_object {text rest tail : Bytes} {value : JsonValue} (h : Value text value)
    (hends : EndsValue rest)
    (heq : 0x7b :: tail = text ++ rest) :
    (∃ space, Space space ∧ value = .object [] ∧ tail = space ++ 0x7d :: rest) ∨
    ∃ members : List Member, members ≠ [] ∧ (∀ member ∈ members, member.spaced) ∧
      (∀ member ∈ members, Characters member.key member.name) ∧
      (∀ member ∈ members, Value member.element.text member.element.value) ∧
      value = .object (members.map Member.denoted) ∧
      tail = separated (members.map Member.written) ++ 0x7d :: rest := by
  have hscalar : ¬Reads (parseToken none) text value := by
    intro hreads
    have hparsed := hreads rest hends
    rw [← heq] at hparsed
    cases hparsed
  cases h with
  | null => exact absurd (fun rest _ => rfl) hscalar
  | true => exact absurd (fun rest _ => rfl) hscalar
  | false => exact absurd (fun rest _ => rfl) hscalar
  | number h => exact absurd (parseToken_number h none) hscalar
  | string h => exact absurd (reads_string h) hscalar
  | emptyArray => cases heq
  | array => cases heq
  | @emptyObject space hspace =>
    refine .inl ⟨space, hspace, rfl, ?_⟩
    simpa using heq
  | @object members hne hspaced hnames hvalues =>
    refine .inr ⟨members, hne, hspaced, hnames, hvalues, rfl, ?_⟩
    simpa using heq

/-- An array that is not empty goes on with a value. -/
theorem empty_ne_elements {elements : List Element} (hne : elements ≠ [])
    (hspaced : ∀ element ∈ elements, element.spaced)
    (hstarts : ∀ element ∈ elements, Starts element.text)
    {space rest otherRest : Bytes} (hspace : Space space) :
    space ++ 0x5d :: rest ≠ separated (elements.map Element.written) ++ 0x5d :: otherRest := by
  intro h
  obtain ⟨element, others, rfl⟩ := List.exists_cons_of_ne_nil hne
  obtain ⟨more, hmore⟩ := exists_separated element.written (others.map Element.written)
  have hskip := congrArg skipWhitespace h
  rw [skipWhitespace_space hspace (by decide), List.map_cons, hmore, List.append_assoc,
    skipWhitespace_element (hspaced _ List.mem_cons_self) (hstarts _ List.mem_cons_self)] at hskip
  obtain ⟨first, text, htext, -, hbracket⟩ := hstarts _ List.mem_cons_self
  rw [htext, List.cons_append] at hskip
  exact hbracket (List.cons.inj hskip).1.symm

/-- An object that is not empty goes on with a key. -/
theorem empty_ne_members {members : List Member} (hne : members ≠ [])
    (hspaced : ∀ member ∈ members, member.spaced) {space rest otherRest : Bytes}
    (hspace : Space space) :
    space ++ 0x7d :: rest ≠ separated (members.map Member.written) ++ 0x7d :: otherRest := by
  intro h
  obtain ⟨member, others, rfl⟩ := List.exists_cons_of_ne_nil hne
  obtain ⟨more, hmore⟩ := exists_separated member.written (others.map Member.written)
  have hskip := congrArg skipWhitespace h
  rw [skipWhitespace_space hspace (by decide), List.map_cons, hmore, List.append_assoc,
    skipWhitespace_member (hspaced _ List.mem_cons_self)] at hskip
  cases hskip

/-- **The grammar is unambiguous.** -/
theorem value_unique {text : Bytes} {value : JsonValue} (h : Value text value) :
    Unique text value := by
  -- a scalar is what its scanner finds, an array or an object is none
  have hscalar : ∀ {text : Bytes} {value : JsonValue}, Reads (parseToken none) text value →
      Unique text value := by
    intro text value hreads rest other otherRest otherValue hother heq hends hotherEnds
    have hparsed := hreads rest hends
    rw [heq] at hparsed
    rcases scalar_or_nested hother with hscalar | hnested
    · obtain ⟨hvalue, hrest⟩ :=
        Prod.mk.inj (Except.ok.inj (hparsed.symm.trans (hscalar _ hotherEnds)))
      exact ⟨hvalue, hrest⟩
    · rw [hnested] at hparsed
      cases hparsed
  induction h with
  | null => exact hscalar fun rest _ => rfl
  | true => exact hscalar fun rest _ => rfl
  | false => exact hscalar fun rest _ => rfl
  | number h => exact hscalar (parseToken_number h none)
  | string h => exact hscalar (reads_string h)
  | @emptyObject space hspace =>
    intro rest other otherRest otherValue hother heq hends hotherEnds
    rw [List.cons_append, List.append_assoc, List.singleton_append] at heq
    rcases value_object hother hotherEnds heq with ⟨otherSpace, hotherSpace, rfl, htail⟩ |
      ⟨members, hne, hspaced, -, -, -, htail⟩
    · have hskip := congrArg skipWhitespace htail
      rw [skipWhitespace_space hspace (by decide), skipWhitespace_space hotherSpace
        (by decide)] at hskip
      exact ⟨rfl, (List.cons.inj hskip).2⟩
    · exact absurd htail (empty_ne_members hne hspaced hspace)
  | @object members hne hspaced hnames hvalues ih =>
    intro rest other otherRest otherValue hother heq hends hotherEnds
    rw [List.cons_append, List.append_assoc, List.singleton_append] at heq
    rcases value_object hother hotherEnds heq with ⟨otherSpace, hotherSpace, rfl, htail⟩ |
      ⟨others, hotherNe, hotherSpaced, hotherNames, hotherValues, rfl, htail⟩
    · exact absurd htail.symm (empty_ne_members hne hspaced hotherSpace)
    · obtain ⟨hdenoted, hrest⟩ := separated_unique (fun member hmember other hother _ _ _ _ =>
        member_unique (ih member hmember) (hspaced member hmember) (hotherSpaced other hother)
          (hnames member hmember) (hotherNames other hother) (hvalues member hmember).starts
          (hotherValues other hother)) hne hotherNe (.inr rfl) htail
      exact ⟨by rw [hdenoted], hrest⟩
  | @emptyArray space hspace =>
    intro rest other otherRest otherValue hother heq hends hotherEnds
    rw [List.cons_append, List.append_assoc, List.singleton_append] at heq
    rcases value_array hother hotherEnds heq with ⟨otherSpace, hotherSpace, rfl, htail⟩ |
      ⟨elements, hne, hspaced, hvalues, -, htail⟩
    · have hskip := congrArg skipWhitespace htail
      rw [skipWhitespace_space hspace (by decide), skipWhitespace_space hotherSpace
        (by decide)] at hskip
      exact ⟨rfl, (List.cons.inj hskip).2⟩
    · exact absurd htail (empty_ne_elements hne hspaced
        (fun element helement => (hvalues element helement).starts) hspace)
  | @array elements hne hspaced hvalues ih =>
    intro rest other otherRest otherValue hother heq hends hotherEnds
    rw [List.cons_append, List.append_assoc, List.singleton_append] at heq
    rcases value_array hother hotherEnds heq with ⟨otherSpace, hotherSpace, rfl, htail⟩ |
      ⟨others, hotherNe, hotherSpaced, hotherValues, rfl, htail⟩
    · exact absurd htail.symm (empty_ne_elements hne hspaced
        (fun element helement => (hvalues element helement).starts) hotherSpace)
    · obtain ⟨hdenoted, hrest⟩ := separated_unique (fun element helement other hother _ _ _ _ =>
        element_unique (ih element helement) (hspaced element helement) (hotherSpaced other hother)
          (hvalues element helement).starts (hotherValues other hother)) hne hotherNe
            (.inl rfl) htail
      exact ⟨by rw [hdenoted], hrest⟩

/-- A text denotes one value at most. -/
theorem text_unique {input : Bytes} {value other : JsonValue} (h : Text input value)
    (hother : Text input other) :
    value = other := by
  obtain ⟨element, hspaced, hvalue, hinput, rfl⟩ := h
  obtain ⟨element', hspaced', hvalue', hinput', rfl⟩ := hother
  have hnil : EndsValue [] := fun _ hbyte => by cases hbyte
  have htext := congrArg skipWhitespace (hinput.symm.trans hinput')
  rw [← List.append_nil element.written, ← List.append_nil element'.written,
    skipWhitespace_element hspaced hvalue.starts, skipWhitespace_element hspaced'
      hvalue'.starts] at htext
  exact (value_unique hvalue hvalue' htext (endsValue_append hspaced.2 hnil)
    (endsValue_append hspaced'.2 hnil)).1

end JsonParser

/-- **The language of the JSON parser.**  A valid UTF-8 text is accepted, with this value, if
and only if it denotes the value by the grammar, arrays and objects nest at most twelve
levels deep and no object has a key twice.  It denotes no other value then, and every string
and every key in it is valid UTF-8. -/
theorem json_parser_language (input : Bytes) (hutf8 : isValidUtf8 input = true)
    (value : JsonValue) :
    (JsonParser.parse input = .ok value ↔
      Json.Text input value ∧ Json.Nests 12 value ∧ Json.DistinctKeys value) ∧
    (JsonParser.parse input = .ok value →
      (∀ other, Json.Text input other → other = value) ∧ Json.Utf8Strings value) := by
  have hparse : JsonParser.parse input = .ok value ↔
      Json.Text input value ∧ Json.Nests 12 value ∧ Json.DistinctKeys value := by
    rw [JsonParser.parse]
    constructor
    · intro h
      obtain ⟨space, hinput, hspace, -⟩ := JsonParser.skipWhitespace_sound input
      have hvalid := JsonParser.isValidUtf8_skipWhitespace hutf8
      rcases hparsed : JsonParser.parseValue JsonParser.kMaximumJsonNesting
          (JsonParser.skipWhitespace input) with
        error | ⟨found, rest⟩ <;> rw [hparsed] at h
      · cases h
      obtain ⟨text, htext, ⟨hvalue, hnests, hkeys⟩, -⟩ :=
        JsonParser.parseValue_sound _ _ _ _ hvalid hparsed
      dsimp only at h
      split at h
      · rename_i hend
        cases h
        obtain ⟨after, hafter, hspaced, -⟩ := JsonParser.skipWhitespace_sound rest
        rw [hend, List.append_nil] at hafter
        refine ⟨⟨⟨space, text, after, value⟩, ⟨hspace, hspaced⟩, hvalue, ?_, rfl⟩, hnests, hkeys⟩
        rw [hinput, htext, hafter, Json.Element.written, List.append_assoc]
      · cases h
    · rintro ⟨⟨element, hspaced, hvalue, rfl, rfl⟩, hnests, hkeys⟩
      have hreads := JsonParser.parseValue_complete hvalue hnests hkeys
      have hskip := JsonParser.skipWhitespace_element hspaced hvalue.starts []
      have hends : JsonParser.EndsValue (element.after ++ []) :=
        JsonParser.endsValue_append hspaced.2 (fun _ hbyte => by cases hbyte)
      have hrest : JsonParser.skipWhitespace (element.after ++ []) = [] :=
        JsonParser.skipWhitespace_append hspaced.2 (fun _ hbyte => by cases hbyte)
      rw [List.append_nil] at hskip
      rw [hskip]
      have hparsed := hreads _ hends
      rw [show JsonParser.kMaximumJsonNesting = 12 from rfl, hparsed]
      exact if_pos hrest
  refine ⟨hparse, fun h => ?_⟩
  obtain ⟨htext, -⟩ := hparse.mp h
  refine ⟨fun other hother => JsonParser.text_unique hother htext, ?_⟩
  obtain ⟨element, -, hvalue, -, rfl⟩ := htext
  exact hvalue.utf8Strings

/-- A text with nesting, space, an escape in its key and two numbers. -/
def sampleJson : Bytes := ascii " \x7b \"\\u0061\" : [1, -2e3 ]\x7d"

theorem json_parser_language_sample :
    isValidUtf8 sampleJson = true ∧ ∃ value, JsonParser.parse sampleJson = .ok value ∧
      Json.Text sampleJson value := by
  have hutf8 : isValidUtf8 sampleJson = true := by
    rw [← List.append_nil sampleJson, JsonParser.isValidUtf8_ascii_append (fun byte hbyte => ?_)]
    · simp [isValidUtf8, visitUtf8]
    · exact of_decide_eq_true
        (List.all_eq_true.mp (show sampleJson.all (· ≤ 0x7f) = true by decide) byte hbyte)
  have haccepted : (JsonParser.parse sampleJson).toOption.isSome = true := by decide +kernel
  rcases hparsed : JsonParser.parse sampleJson with error | value
  · rw [hparsed] at haccepted
    cases haccepted
  · exact ⟨hutf8, value, rfl, ((json_parser_language _ hutf8 value).1.mp hparsed).1⟩

end Lora
