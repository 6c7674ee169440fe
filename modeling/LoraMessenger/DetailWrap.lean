/-
The body of a post on the detail screen.

The body is broken into lines of at most thirteen characters: at every line feed, at the
last space of a full line, and in the middle of a line without a space.  A turn of the loop
that breaks a full line takes nothing of the body.

* `Wrapping.step` — one turn of the loop;
* `Wrapping.Invariant`, `Wrapping.Invariant.step` — what a turn preserves;
* `detail_body_wrapped` — the loop ends, and nothing is lost.
-/
import LoraMessenger.TextEditor

namespace Lora

open Utf8Codec

def kDetailLineColumns : ℕ := 26
def kVisibleDetailLines : ℕ := 2

def utf8ScalarLength (lead : UInt8) : ℕ :=
  if lead ≤ 0x7f then 1
  else if lead ≤ 0xdf then 2
  else if lead ≤ 0xef then 3
  else 4

/-- The loop of `detail_columns`, with a bound on its turns. -/
def columnsFrom : (turns : ℕ) → Bytes → ℕ
  | 0, _ => 0
  | _ + 1, [] => 0
  | turns + 1, lead :: rest => 2 + columnsFrom turns ((lead :: rest).drop (utf8ScalarLength lead))

def detailColumns (line : Bytes) : ℕ := columnsFrom line.length line

/-- `std::string::find_last_of`. -/
def findLastOf (line : Bytes) (character : UInt8) : Option ℕ :=
  (line.reverse.findIdx? (· = character)).map (line.length - 1 - ·)

structure WrappedDetailBody where
  lines : List Bytes
  maximumScrollLine : ℕ := 0

/-- The variables of the loop: the lines but the last, the last one, and the body from
`offset` on. -/
structure Wrapping where
  lines : List Bytes := []
  line : Bytes := []
  columns : ℕ := 0
  lastSpace : Option ℕ := none
  rest : Bytes

namespace Wrapping

/-- The line is full for one more character. -/
def Full (wrapping : Wrapping) : Prop :=
  wrapping.columns > 0 ∧ wrapping.columns + 2 > kDetailLineColumns

instance (wrapping : Wrapping) : Decidable wrapping.Full := inferInstanceAs (Decidable (_ ∧ _))

/-- One turn; there is none at the end of the body. -/
def step (wrapping : Wrapping) : Wrapping :=
  match wrapping.rest with
  | [] => wrapping
  | lead :: rest =>
    if lead = 0x0a then
      { lines := wrapping.lines ++ [wrapping.line], rest := rest }
    else if wrapping.Full then
      match wrapping.lastSpace with
      | some space =>
        let carry := wrapping.line.drop (space + 1)
        { wrapping with
          lines := wrapping.lines ++ [wrapping.line.take space]
          line := carry
          columns := detailColumns carry
          lastSpace := findLastOf carry 0x20 }
      | none =>
        { wrapping with
          lines := wrapping.lines ++ [wrapping.line]
          line := []
          columns := 0
          lastSpace := none }
    else
      { wrapping with
        lastSpace := if lead = 0x20 then some wrapping.line.length else wrapping.lastSpace
        line := wrapping.line ++ wrapping.rest.take (utf8ScalarLength lead)
        columns := wrapping.columns + 2
        rest := wrapping.rest.drop (utf8ScalarLength lead) }

def run : (turns : ℕ) → Wrapping → Wrapping
  | 0, wrapping => wrapping
  | turns + 1, wrapping => run turns wrapping.step

end Wrapping

/-- Two turns for each byte are enough. -/
def wrapDetailBody (body : Bytes) : WrappedDetailBody :=
  let wrapping := Wrapping.run (2 * body.length) { rest := body }
  let lines := wrapping.lines ++ [wrapping.line]
  { lines := lines
    maximumScrollLine := if lines.length > kVisibleDetailLines then lines.length -
      kVisibleDetailLines else 0 }

def detailWindow (wrapped : WrappedDetailBody) (scrollLine : ℕ) : Bytes :=
  if wrapped.lines = [] then []
  else
    let first := min scrollLine wrapped.maximumScrollLine
    let last := min wrapped.lines.length (first + kVisibleDetailLines)
    [0x0a].intercalate ((wrapped.lines.take last).drop first)

/-! ### Breaks -/

/-- Why a line has ended. -/
inductive Break where
  | feed
  | space
  | hard
deriving DecidableEq

/-- What the break has taken out of the body. -/
def Break.bytes : Break → Bytes
  | feed => [0x0a]
  | space => [0x20]
  | hard => []

/-- The break that a turn makes. -/
def Wrapping.turn (wrapping : Wrapping) : Option Break :=
  match wrapping.rest with
  | [] => none
  | lead :: _ =>
    if lead = 0x0a then some .feed
    else if wrapping.Full then
      match wrapping.lastSpace with
      | some _ => some .space
      | none => some .hard
    else none

/-- The breaks of a run. -/
def Wrapping.breaks : (turns : ℕ) → Wrapping → List Break
  | 0, _ => []
  | turns + 1, wrapping => wrapping.turn.toList ++ breaks turns wrapping.step

/-- At the end of the body, nothing changes any more. -/
theorem Wrapping.run_done (wrapping : Wrapping) (hrest : wrapping.rest = []) (turns : ℕ) :
    wrapping.run turns = wrapping ∧ wrapping.breaks turns = [] := by
  induction turns with
  | zero => exact ⟨rfl, rfl⟩
  | succ turns ih =>
    have hstep : wrapping.step = wrapping := by rw [Wrapping.step, hrest]
    have hturn : wrapping.turn = none := by rw [Wrapping.turn, hrest]
    rw [Wrapping.run, Wrapping.breaks, hstep, hturn, Option.toList_none, List.nil_append]
    exact ih

theorem Wrapping.run_of_le {wrapping : Wrapping} {few many : ℕ} (hle : few ≤ many)
    (hrest : (wrapping.run few).rest = []) : wrapping.run many = wrapping.run few := by
  induction few generalizing wrapping many with
  | zero => exact (wrapping.run_done hrest many).1
  | succ few ih =>
    obtain ⟨many, rfl⟩ := Nat.exists_eq_add_of_le' (Nat.one_le_of_lt hle)
    exact ih (by omega) hrest

/-- Lines with what their breaks have taken out. -/
def rejoin : List Bytes → List Break → Bytes
  | [], _ => []
  | line :: lines, [] => line ++ rejoin lines []
  | line :: lines, b :: breaks => line ++ b.bytes ++ rejoin lines breaks

theorem rejoin_append {left right : List Bytes} {before after : List Break}
    (h : left.length = before.length) :
    rejoin (left ++ right) (before ++ after) = rejoin left before ++ rejoin right after := by
  induction left generalizing before with
  | nil =>
    obtain rfl := List.eq_nil_of_length_eq_zero h.symm
    rfl
  | cons line left ih =>
    rcases before with _ | ⟨b, before⟩
    · cases h
    · rw [List.cons_append, List.cons_append, rejoin, rejoin, ih (by simpa using h)]
      simp only [List.append_assoc]

/-! ### Characters -/

theorem utf8ScalarLength_head {c : Char} {first : UInt8} {tail : Bytes}
    (h : String.utf8EncodeChar c = first :: tail) : utf8ScalarLength first = tail.length + 1 := by
  have hrange := toNat_lt c
  have hform := form_utf8EncodeChar c
  rw [h] at hform
  rw [utf8ScalarLength]
  simp only [UInt8.le_iff_toNat_le, UInt8.toNat_ofNat]
  cases hform with
  | one => rw [if_pos (by omega)]; rfl
  | two => rw [if_neg (by omega), if_pos (by omega)]; rfl
  | three => rw [if_neg (by omega), if_neg (by omega), if_pos (by omega)]; rfl
  | four => rw [if_neg (by omega), if_neg (by omega), if_neg (by omega)]; rfl

theorem columnsFrom_encode {turns : ℕ} {text : List Char} (hturns : text.length ≤ turns) :
    columnsFrom turns (encode text) = 2 * text.length := by
  induction turns generalizing text with
  | zero =>
    obtain rfl := List.eq_nil_of_length_eq_zero (Nat.le_zero.mp hturns)
    rfl
  | succ turns ih =>
    rcases text with _ | ⟨c, text⟩
    · rfl
    obtain ⟨first, tail, hbytes, -⟩ := exists_head c
    rw [List.length_cons] at hturns
    rw [encode_cons, hbytes, List.cons_append, columnsFrom, utf8ScalarLength_head hbytes,
      List.drop_succ_cons, List.drop_left, ih (by omega), List.length_cons]
    omega

theorem detailColumns_encode (text : List Char) : detailColumns (encode text) = 2 * text.length :=
  columnsFrom_encode (length_le_encode text)

/-! ### The last space -/

theorem findLastOf_append {left right : Bytes} {character : UInt8} (h : character ∉ right) :
    findLastOf (left ++ character :: right) character = some left.length := by
  have hfind : (left ++ character :: right).reverse.findIdx? (· = character) =
      some right.length := by
    rw [List.reverse_append, List.reverse_cons, List.append_assoc, List.findIdx?_append]
    have hnone : right.reverse.findIdx? (· = character) = none := by
      rw [List.findIdx?_eq_none_iff]
      intro byte hbyte
      exact decide_eq_false fun heq => h (heq ▸ List.mem_reverse.mp hbyte)
    rw [hnone]
    simp [List.findIdx?_cons]
  rw [findLastOf, hfind, Option.map_some, List.length_append, List.length_cons, Option.some.injEq]
  omega

theorem findLastOf_eq_none {line : Bytes} {character : UInt8} (h : character ∉ line) :
    findLastOf line character = none := by
  rw [findLastOf, Option.map_eq_none_iff, List.findIdx?_eq_none_iff]
  intro byte hbyte
  exact decide_eq_false fun heq => h (heq ▸ List.mem_reverse.mp hbyte)

/-- Where the last space of a line is. -/
def LastSpace (line : List Char) : Option ℕ → Prop
  | none => ' ' ∉ line
  | some offset => ∃ before after, line = before ++ ' ' :: after ∧ ' ' ∉ after ∧
    offset = (encode before).length

theorem LastSpace.append {line : List Char} {space : Option ℕ} (h : LastSpace line space) {c : Char}
    (hc : c ≠ ' ') :
    LastSpace (line ++ [c]) space := by
  rcases space with _ | offset
  · rw [LastSpace, List.mem_append, List.mem_singleton, not_or]
    exact ⟨h, hc.symm⟩
  · obtain ⟨before, after, rfl, hafter, rfl⟩ := h
    refine ⟨before, after ++ [c], by simp, ?_, rfl⟩
    rw [List.mem_append, List.mem_singleton, not_or]
    exact ⟨hafter, hc.symm⟩

theorem space_mem_encode {text : List Char} : (0x20 : UInt8) ∈ encode text ↔ ' ' ∈ text := by
  rw [mem_encode (by decide)]
  constructor
  · rintro ⟨c, hc, hnumber⟩
    rwa [show ' ' = c from (Char.toNat_inj.mp hnumber).symm]
  · exact fun h => ⟨' ', h, rfl⟩

theorem lastSpace_findLastOf (text : List Char) :
    LastSpace text (findLastOf (encode text) 0x20) := by
  by_cases hspace : ' ' ∈ text
  · obtain ⟨after, before, hsplit, hafter⟩ :=
      List.eq_append_cons_of_mem (List.mem_reverse.mpr hspace)
    have htext : text = before.reverse ++ ' ' :: after.reverse := by
      rw [← List.reverse_reverse text, hsplit]
      simp
    have hafter : ' ' ∉ after.reverse := by rwa [List.mem_reverse]
    have hfind : findLastOf (encode text) 0x20 = some (encode before.reverse).length := by
      rw [htext, encode_append, encode_cons]
      exact findLastOf_append fun h => hafter (space_mem_encode.mp h)
    rw [hfind]
    exact ⟨before.reverse, after.reverse, htext, hafter, rfl⟩
  · rw [findLastOf_eq_none fun h => hspace (space_mem_encode.mp h)]
    exact hspace

/-! ### The loop -/

/-- A line that fits on the screen. -/
def Fits (line : List Char) : Prop := line.length ≤ 13 ∧ '\n' ∉ line

/-- The variables of the loop in characters, with the breaks that have been made. -/
structure Wrapping.Invariant (body : Bytes) (wrapping : Wrapping) (breaks : List Break)
    (lines : List (List Char))
    (line rest : List Char) : Prop where
  linesEq : wrapping.lines = lines.map encode
  lineEq : wrapping.line = encode line
  restEq : wrapping.rest = encode rest
  columnsEq : wrapping.columns = 2 * line.length
  spaceAt : LastSpace line wrapping.lastSpace
  fitLines : ∀ other ∈ lines, Fits other
  fits : Fits line
  counted : wrapping.lines.length = breaks.length
  whole : rejoin wrapping.lines breaks ++ wrapping.line ++ wrapping.rest = body

/-- The turns that are left, at most. -/
def turnsLeft (line rest : List Char) : ℕ := 2 * rest.length + if line.length = 13 then 1 else 0

namespace Wrapping.Invariant

variable {body : Bytes} {wrapping : Wrapping} {breaks : List Break} {lines : List (List Char)}
  {line rest : List Char}

theorem start (text : List Char) : Invariant (encode text) { rest := encode text } [] []
    [] text where
  linesEq := rfl
  lineEq := rfl
  restEq := rfl
  columnsEq := rfl
  spaceAt := List.not_mem_nil
  fitLines := List.forall_mem_nil _
  fits := ⟨by decide, List.not_mem_nil⟩
  counted := rfl
  whole := rfl

theorem full_iff (h : Invariant body wrapping breaks lines line rest) : wrapping.Full ↔
    line.length = 13 := by
  have hfits := h.fits.1
  rw [Full, h.columnsEq, kDetailLineColumns]
  omega

/-- A line has ended, and the next one begins. -/
theorem endLine (h : Invariant body wrapping breaks lines line rest) {next : Wrapping} {b : Break}
    {left right later : List Char} (hlines : next.lines = wrapping.lines ++ [encode left])
    (hline : next.line = encode right) (hrest : next.rest = encode later)
    (hcolumns : next.columns = 2 * right.length) (hspace : LastSpace right next.lastSpace)
    (hleft : Fits left)
    (hright : Fits right)
    (hwhole : encode left ++ b.bytes ++ encode right ++ encode later =
      wrapping.line ++ wrapping.rest) :
    Invariant body next (breaks ++ [b]) (lines ++ [left]) right later where
  linesEq := by rw [hlines, h.linesEq, List.map_append]; rfl
  lineEq := hline
  restEq := hrest
  columnsEq := hcolumns
  spaceAt := hspace
  fitLines := by
    intro other hother
    rcases List.mem_append.mp hother with hother | hother
    · exact h.fitLines other hother
    · rwa [List.mem_singleton.mp hother]
  fits := hright
  counted := by rw [hlines, List.length_append, List.length_append, h.counted]; rfl
  whole := by
    rw [← h.whole, List.append_assoc _ wrapping.line, ← hwhole, hlines, hline, hrest,
      rejoin_append h.counted]
    simp only [rejoin, List.append_assoc, List.append_nil]

/-- A full line is broken; the rest of the body stays. -/
theorem step_full (h : Invariant body wrapping breaks lines line rest) {first : UInt8}
    {tail : Bytes}
    (hrest : wrapping.rest = first :: tail) (hfeed : first ≠ 0x0a) (hfull : wrapping.Full) :
    ∃ lines' line', Invariant body wrapping.step (breaks ++ wrapping.turn.toList) lines'
      line' rest ∧
      line'.length < 13 := by
  have hlength := h.full_iff.mp hfull
  have hspaceAt := h.spaceAt
  have hlater : first :: tail = encode rest := hrest ▸ h.restEq
  rw [Wrapping.step, Wrapping.turn, hrest]
  dsimp only
  rw [if_neg hfeed, if_neg hfeed, if_pos hfull, if_pos hfull]
  -- the guard is the same in both cases; only the place of the break differs
  rcases hspace : wrapping.lastSpace with _ | offset
  · -- no space: the whole line stands, and the next one is empty
    refine ⟨lines ++ [line], [], h.endLine (by rw [h.lineEq]) rfl hlater rfl List.not_mem_nil h.fits
      ⟨by decide, List.not_mem_nil⟩ ?_, by decide⟩
    rw [h.lineEq, h.restEq]
    simp [Break.bytes]
  · rw [hspace] at hspaceAt
    obtain ⟨before, after, hline, -, rfl⟩ := hspaceAt
    have hbytes : wrapping.line = encode before ++ 0x20 :: encode after := by
      rw [h.lineEq, hline, encode_append, encode_cons]
      rfl
    -- the line is cut at the byte offset of its last space
    have htake : wrapping.line.take (encode before).length = encode before := by
      rw [hbytes, List.take_left]
    have hdrop : wrapping.line.drop ((encode before).length + 1) = encode after := by
      rw [hbytes, ← List.drop_drop, List.drop_left]
      rfl
    rw [hline, List.length_append, List.length_cons] at hlength
    have hfits := h.fits.2
    rw [hline, List.mem_append, List.mem_cons, not_or, not_or] at hfits
    dsimp only
    rw [htake, hdrop]
    refine ⟨lines ++ [before], after, h.endLine rfl rfl hlater (detailColumns_encode after)
      (lastSpace_findLastOf after) ⟨by omega, hfits.1⟩ ⟨by omega, hfits.2.2⟩ ?_, by omega⟩
    rw [hbytes, h.restEq]
    simp [Break.bytes]

/-- One turn: the next variables, and fewer turns left. -/
theorem step {c : Char} (h : Invariant body wrapping breaks lines line (c :: rest)) :
    ∃ lines' line' rest', Invariant body wrapping.step (breaks ++ wrapping.turn.toList) lines'
      line' rest' ∧
      turnsLeft line' rest' < turnsLeft line (c :: rest) := by
  obtain ⟨first, tail, hbytes, -⟩ := exists_head c
  have hrest : wrapping.rest = first :: (tail ++ encode rest) := by
    rw [h.restEq, encode_cons, hbytes, List.cons_append]
  have hnewline : first = 0x0a ↔ c.toNat = 10 := head_eq_iff hbytes (by decide)
  by_cases hfeed : first = 0x0a
  · have hc : c = '\n' := Char.toNat_inj.mp (hnewline.mp hfeed)
    have htail : tail = [] := by
      rw [hc] at hbytes
      cases hbytes
      rfl
    rw [Wrapping.step, Wrapping.turn, hrest]
    dsimp only
    rw [if_pos hfeed, if_pos hfeed, htail, List.nil_append]
    refine ⟨lines ++ [line], [], rest,
      h.endLine (by rw [h.lineEq]) rfl rfl rfl List.not_mem_nil h.fits
      ⟨by decide, List.not_mem_nil⟩ ?_, ?_⟩
    · rw [h.lineEq, hrest, hfeed, htail]
      simp [Break.bytes]
    · rw [turnsLeft, turnsLeft, List.length_cons, if_neg (by decide)]
      omega
  by_cases hfull : wrapping.Full
  · obtain ⟨lines', line', hnext, hshort⟩ := h.step_full hrest hfeed hfull
    refine ⟨lines', line', c :: rest, hnext, ?_⟩
    rw [turnsLeft, turnsLeft, if_neg (by omega), if_pos (h.full_iff.mp hfull)]
    omega
  · -- the character fits
    have hlength : line.length < 13 :=
      lt_of_le_of_ne h.fits.1 fun heq => hfull (h.full_iff.mpr heq)
    have hscalar : (first :: (tail ++ encode rest)).take (utf8ScalarLength first) =
      String.utf8EncodeChar c ∧
        (first :: (tail ++ encode rest)).drop (utf8ScalarLength first) = encode rest := by
      rw [utf8ScalarLength_head hbytes, List.take_succ_cons, List.drop_succ_cons, List.take_left,
        List.drop_left, hbytes]
      exact ⟨rfl, rfl⟩
    have hstep : wrapping.step = { wrapping with
        lastSpace := if first = 0x20 then some wrapping.line.length else wrapping.lastSpace
        line := encode (line ++ [c]), columns := wrapping.columns + 2, rest := encode rest } := by
      rw [Wrapping.step, hrest]
      dsimp only
      rw [if_neg hfeed, if_neg hfull, hscalar.1, hscalar.2, encode_append,
        encode_singleton, h.lineEq]
    have hturn : wrapping.turn = none := by
      rw [Wrapping.turn, hrest]
      dsimp only
      rw [if_neg hfeed, if_neg hfull]
    rw [hstep, hturn, Option.toList_none, List.append_nil]
    refine ⟨lines, line ++ [c], rest,
      ⟨h.linesEq, rfl, rfl, ?_, ?_, h.fitLines, ⟨?_, ?_⟩, h.counted, ?_⟩, ?_⟩
    · show wrapping.columns + 2 = 2 * (line ++ [c]).length
      rw [h.columnsEq, List.length_append, List.length_singleton]
      omega
    · dsimp only
      split
      · rename_i hspace
        have hc : c = ' ' := Char.toNat_inj.mp ((head_eq_iff hbytes (by decide)).mp hspace)
        exact ⟨line, [], by rw [hc], List.not_mem_nil, by rw [h.lineEq]⟩
      · rename_i hspace
        have hc : c ≠ ' ' := fun heq => hspace ((head_eq_iff hbytes (by decide)).mpr (heq ▸ rfl))
        exact h.spaceAt.append hc
    · rw [List.length_append, List.length_singleton]
      omega
    · rw [List.mem_append, List.mem_singleton, not_or]
      exact ⟨h.fits.2, fun heq => hfeed (hnewline.mpr (heq ▸ rfl))⟩
    · rw [← h.whole, h.lineEq, h.restEq, encode_append, encode_singleton, encode_cons]
      simp only [List.append_assoc]
    · rw [turnsLeft, turnsLeft, List.length_cons]
      split
      · omega
      · omega

/-- The loop ends. -/
theorem run {turns : ℕ} (h : Invariant body wrapping breaks lines line rest)
    (hturns : turnsLeft line rest ≤ turns) :
    ∃ lines' line', Invariant body (wrapping.run turns) (breaks ++ wrapping.breaks turns) lines'
      line' [] := by
  induction turns generalizing wrapping breaks lines line rest with
  | zero =>
    rw [turnsLeft] at hturns
    have hrest : rest = [] := List.eq_nil_of_length_eq_zero (by omega)
    rw [Wrapping.breaks, List.append_nil]
    exact ⟨lines, line, hrest ▸ h⟩
  | succ turns ih =>
    rw [Wrapping.run, Wrapping.breaks, ← List.append_assoc]
    rcases rest with _ | ⟨c, rest⟩
    · have hdone := wrapping.run_done h.restEq (turns + 1)
      rw [Wrapping.run, Wrapping.breaks] at hdone
      rw [hdone.1, List.append_assoc, hdone.2, List.append_nil]
      exact ⟨lines, line, h⟩
    · obtain ⟨lines', line', rest', hnext, hfewer⟩ := h.step
      exact ih hnext (by omega)

end Wrapping.Invariant

/-- The window between two lines of the wrapped body. -/
theorem detailWindow_eq {wrapped : WrappedDetailBody} {scrollLine : ℕ}
    (hscroll : scrollLine ≤ wrapped.maximumScrollLine)
    (hlines : wrapped.lines ≠ []) :
    detailWindow wrapped scrollLine =
      [0x0a].intercalate ((wrapped.lines.take (min wrapped.lines.length (scrollLine + 2))).drop
        scrollLine) := by
  rw [detailWindow, if_neg hlines, Nat.min_eq_left hscroll]
  rfl

theorem feed_not_mem_encode {text : List Char} (h : '\n' ∉ text) :
    (0x0a : UInt8) ∉ encode text := by
  rw [mem_encode (by decide)]
  rintro ⟨c, hc, hnumber⟩
  exact h (by rwa [show '\n' = c from (Char.toNat_inj.mp hnumber).symm])

/-- **A wrapped body is complete.**  The loop comes to the end of the body.  Every line is
valid, has at most thirteen characters and no line feed, and the lines with what the breaks
between them have taken out are the body.  Every scroll position shows lines of the body,
and every line is shown at some position. -/
theorem detail_body_wrapped (body : Bytes) (hbody : isValidUtf8 body = true) :
    let wrapped := wrapDetailBody body
    let breaks := Wrapping.breaks (2 * body.length) { rest := body }
    (∀ turns ≥ 2 * body.length, (Wrapping.run turns { rest := body }).rest = [] ∧
      Wrapping.run turns { rest := body } = Wrapping.run (2 * body.length) { rest := body }) ∧
    (∀ line ∈ wrapped.lines, 0x0a ∉ line ∧ ∃ scalars, visitUtf8 line = some scalars ∧
      scalars.length ≤ 13) ∧
    wrapped.lines.length = breaks.length + 1 ∧
    rejoin wrapped.lines breaks = body ∧
    (∀ scrollLine ≤ wrapped.maximumScrollLine,
      scrollLine < min wrapped.lines.length (scrollLine + 2) ∧
      detailWindow wrapped scrollLine =
        [0x0a].intercalate ((wrapped.lines.take (min wrapped.lines.length (scrollLine + 2))).drop
          scrollLine)) ∧
    ∀ index < wrapped.lines.length, ∃ scrollLine ≤ wrapped.maximumScrollLine,
      scrollLine ≤ index ∧ index < min wrapped.lines.length (scrollLine + 2) := by
  intro wrapped breaks
  obtain ⟨text, rfl⟩ := isValidUtf8_iff.mp hbody
  have hrun : ∀ turns ≥ 2 * (encode text).length, ∃ lines line, Wrapping.Invariant (encode text)
      (Wrapping.run turns { rest := encode text }) (Wrapping.breaks turns { rest := encode text })
        lines line [] := by
    intro turns hturns
    have hlength := length_le_encode text
    refine (Wrapping.Invariant.start text).run ?_
    rw [turnsLeft, if_neg (by decide)]
    omega
  -- the bound on the turns that the statement gives is enough to reach the end
  obtain ⟨lines, line, hend⟩ := hrun _ (le_refl _)
  have hlines : wrapped.lines = (lines ++ [line]).map encode := by
    show (Wrapping.run _ _).lines ++ [(Wrapping.run _ _).line] = _
    rw [hend.linesEq, hend.lineEq, List.map_append]
    rfl
  have hcount : wrapped.lines.length = breaks.length + 1 := by
    rw [← hend.counted]
    exact List.length_append ..
  have hmaximum : wrapped.maximumScrollLine = wrapped.lines.length - 2 := by
    show (if wrapped.lines.length > 2 then wrapped.lines.length - 2 else 0) = _
    split
    · rfl
    · omega
  refine ⟨fun turns hturns => ?_, fun other hother => ?_, hcount, ?_,
    fun scrollLine hscroll => ⟨?_, ?_⟩,
    fun index hindex => ?_⟩
  · have hsame := Wrapping.run_of_le hturns hend.restEq
    exact ⟨by rw [hsame]; exact hend.restEq, hsame⟩
  · rw [hlines] at hother
    obtain ⟨chars, hchars, rfl⟩ := List.mem_map.mp hother
    have hfits : Fits chars := by
      rcases List.mem_append.mp hchars with hchars | hchars
      · exact hend.fitLines chars hchars
      · rw [List.mem_singleton.mp hchars]
        exact hend.fits
    refine ⟨feed_not_mem_encode hfits.2, chars.map Char.toNat, visitUtf8_encode chars, ?_⟩
    rw [List.length_map]
    exact hfits.1
  · let last := Wrapping.run (2 * (encode text).length) { rest := encode text }
    calc rejoin wrapped.lines breaks
        = rejoin (last.lines ++ [last.line]) (breaks ++ []) := by rw [List.append_nil]; rfl
      _ = rejoin last.lines breaks ++ (last.line ++ []) := rejoin_append hend.counted
      _ = rejoin last.lines breaks ++ last.line ++ last.rest := by
        rw [hend.restEq, encode_nil, List.append_nil, List.append_nil]
      _ = encode text := hend.whole
  · omega
  · exact detailWindow_eq hscroll (by rw [hlines]; simp)
  · rw [hmaximum]
    by_cases hlast : index ≤ wrapped.lines.length - 2
    · exact ⟨index, hlast, le_refl _, by omega⟩
    · exact ⟨wrapped.lines.length - 2, le_refl _, by omega, by omega⟩

theorem detail_body_words_wrapped :
    let body := encode "some words on the first line\nand another line".toList
    isValidUtf8 body = true ∧
      rejoin (wrapDetailBody body).lines
        (Wrapping.breaks (2 * body.length) { rest := body }) = body :=
  ⟨isValidUtf8_encode _, (detail_body_wrapped _ (isValidUtf8_encode _)).2.2.2.1⟩

end Lora
