import CInventory.Scan.Cursor
import CInventory.Scan.Segment

/-!
# Runs

A run moves one cursor from the start of a source to its end. At every place it tries blanks, a
line comment, a block comment and a word, in this order, and else steps over one character.
Ahead of the cursor it works with byte offsets: it looks for marks, braces and line ends there,
cuts the text out and then moves up to its end.
-/

namespace CInventory.Scan

/-- A segment and where it stands. -/
structure Placed where
  segment : Segment
  span : Span
deriving DecidableEq

namespace Cursor

/-- The text from the cursor up to a byte offset. -/
def upTo? (c : Cursor) (offset : Nat) : Option (List Char) :=
  (Text.cut? c.rest (offset - c.position.offset)).map Prod.fst

/-- The byte offset of the end of the line that holds the byte offset `offset`. -/
def lineEnd (c : Cursor) (offset : Nat) : Nat :=
  match Text.cut? c.rest (offset - c.position.offset) with
  | some (_, rest) => offset + Text.byteLength (rest.takeWhile isNotLineFeed)
  | none => c.source.utf8ByteSize

/-- A declaration from `lead` to the cursor; none when it has no text. -/
def emit (c lead : Cursor) (kind : Kind) (text : List Char) : Except Fault (Option Placed) := do
  let span ← c.spanFrom lead.position
  return if text.isEmpty then none else some ⟨.declaration kind text, span⟩

/-- Capture from `lead` to the end of the line of `offset`, without the blanks at its end. -/
def captureLine (c lead : Cursor) (kind : Kind) (offset : Nat) :
    Except Fault (Option Placed × Cursor) := do
  let text := Text.trimEnd ((lead.upTo? (c.lineEnd offset)).getD [])
  let c ← c.advanceTo (lead.position.offset + Text.byteLength text)
  return (← c.emit lead kind text, c)

/-- Capture from `lead` through the brace that closes the one at `brace`. -/
def captureFunction (c lead : Cursor) (word : List Char) (brace : Nat) :
    Except Fault (Option Placed × Cursor) := do
  match matchingBrace? c.rest (brace - c.position.offset) with
  | some close =>
    let stop := c.position.offset + close + 1
    let after ← c.advanceTo stop
    match lead.upTo? stop with
    | some text => return (← after.emit lead .function text, after)
    | none => return (none, after)
  | none =>
    let after ← c.advanceTo c.source.utf8ByteSize
    return (some ⟨.unclosed word (word ++ c.rest), ← after.spanFrom lead.position⟩, after)

/-- Take what the word from `lead` to the cursor declares. -/
def declare (c lead : Cursor) (word : List Char) : Except Fault (Option Placed × Cursor) := do
  if String.ofList word = constantKeyword then
    c.captureLine lead .constant c.position.offset
  else if isBaseType (String.ofList word) then
    match c.lookahead with
    | .variable mark => c.captureLine lead .variable mark
    | .function brace => c.captureFunction lead word brace
    | .truncated =>
      let after ← c.advanceTo c.source.utf8ByteSize
      return (some ⟨.truncated word (word ++ c.rest), ← after.spanFrom lead.position⟩, after)
  else
    return (some ⟨.word word, ⟨lead.position, c.position⟩⟩, c)

/-- Take the word at the cursor and what it declares. -/
def classify (c : Cursor) : Except Fault (Option Placed × Cursor) := do
  let (word, after) ← c.advanceWhile isWordChar
  after.declare c word

/-- Take what stands at the cursor. -/
def next (c : Cursor) : Except Fault (Option Placed × Cursor) := do
  let (blanks, after) ← c.advanceWhile Text.isAsciiBlank
  if !blanks.isEmpty then
    return (some ⟨.blank blanks, ⟨c.position, after.position⟩⟩, after)
  match lineComment? c.rest, blockComment? c.rest with
  | some (text, rest), _ =>
    let after ← c.moveOver text rest
    return (some ⟨.lineComment text, ⟨c.position, after.position⟩⟩, after)
  | none, some comment =>
    let after ← c.moveOver comment.text comment.rest
    return (some ⟨.blockComment comment.text comment.closed, ← after.spanFrom c.position⟩, after)
  | none, none =>
    match c.rest with
    | [] => return (none, c)
    | x :: rest =>
      if isLead x then c.classify
      else
        let after ← c.moveOver [x] rest
        return (some ⟨.other x, ⟨c.position, after.position⟩⟩, after)

/-! ## Every move takes something -/

theorem rest_of_moveOver {c after : Cursor} {taken rest : List Char}
    (h : c.moveOver taken rest = .ok after) : after.rest = rest := by
  obtain ⟨position, _, hafter⟩ := bind_eq_ok h
  cases hafter
  rfl

theorem length_rest_of_advanceTo {c after : Cursor} {offset : Nat}
    (h : c.advanceTo offset = .ok after) : after.rest.length ≤ c.rest.length := by
  have hrest : after.rest = (Text.takeBytes c.rest (offset - c.position.offset)).2 :=
    rest_of_moveOver h
  have hwhole := congrArg List.length
    (Text.takeBytes_whole c.rest (offset - c.position.offset))
  rw [List.length_append] at hwhole
  rw [hrest]
  omega

theorem length_rest_of_captureLine {c lead after : Cursor} {kind : Kind} {offset : Nat}
    {found : Option Placed} (h : c.captureLine lead kind offset = .ok (found, after)) :
    after.rest.length ≤ c.rest.length := by
  obtain ⟨moved, hmoved, h⟩ := bind_eq_ok h
  obtain ⟨emitted, _, h⟩ := bind_eq_ok h
  cases h
  exact length_rest_of_advanceTo hmoved

theorem length_rest_of_captureFunction {c lead after : Cursor} {word : List Char} {brace : Nat}
    {found : Option Placed} (h : c.captureFunction lead word brace = .ok (found, after)) :
    after.rest.length ≤ c.rest.length := by
  unfold captureFunction at h
  split at h
  · obtain ⟨moved, hmoved, h⟩ := bind_eq_ok h
    split at h
    · obtain ⟨emitted, _, h⟩ := bind_eq_ok h
      cases h
      exact length_rest_of_advanceTo hmoved
    · cases h
      exact length_rest_of_advanceTo hmoved
  · obtain ⟨moved, hmoved, h⟩ := bind_eq_ok h
    obtain ⟨span, _, h⟩ := bind_eq_ok h
    cases h
    exact length_rest_of_advanceTo hmoved

theorem taken_of_advanceWhile {c after : Cursor} {p : Char → Bool} {taken : List Char}
    (h : c.advanceWhile p = .ok (taken, after)) : taken = c.rest.takeWhile p := by
  obtain ⟨moved, _, h⟩ := bind_eq_ok h
  cases h
  rfl

theorem length_rest_of_advanceWhile {c after : Cursor} {p : Char → Bool} {taken : List Char}
    (h : c.advanceWhile p = .ok (taken, after)) :
    after.rest.length + taken.length = c.rest.length := by
  rw [← rest_of_advanceWhile h, List.length_append]
  omega

theorem length_rest_of_declare {c lead after : Cursor} {word : List Char} {found : Option Placed}
    (h : c.declare lead word = .ok (found, after)) : after.rest.length ≤ c.rest.length := by
  unfold declare at h
  split at h
  · exact length_rest_of_captureLine h
  · split at h
    · split at h
      · exact length_rest_of_captureLine h
      · exact length_rest_of_captureFunction h
      · obtain ⟨moved, hmoved, h⟩ := bind_eq_ok h
        obtain ⟨span, _, h⟩ := bind_eq_ok h
        cases h
        exact length_rest_of_advanceTo hmoved
    · cases h
      exact Nat.le_refl _

theorem length_rest_of_classify {c after : Cursor} {x : Char} {rest : List Char}
    {found : Option Placed} (hrest : c.rest = x :: rest) (lead : isLead x = true)
    (h : c.classify = .ok (found, after)) : after.rest.length < c.rest.length := by
  obtain ⟨⟨word, moved⟩, hmoved, h⟩ := bind_eq_ok h
  have hword : 0 < word.length := by
    rw [taken_of_advanceWhile hmoved, hrest,
      List.takeWhile_cons_of_pos (isWordChar_of_isLead lead), List.length_cons]
    omega
  have hmove := length_rest_of_advanceWhile hmoved
  have hdeclare := length_rest_of_declare h
  omega

theorem length_rest_of_next {c after : Cursor} {found : Option Placed} (hc : c.rest ≠ [])
    (h : c.next = .ok (found, after)) : after.rest.length < c.rest.length := by
  obtain ⟨⟨blanks, moved⟩, hmoved, h⟩ := bind_eq_ok h
  dsimp only at h
  split at h
  · next hblanks =>
      cases h
      have hlength := length_rest_of_advanceWhile hmoved
      have hpos : 0 < blanks.length := by
        cases blanks with
        | nil => simp at hblanks
        | cons x blanks => simp
      omega
  · split at h
    · next text rest hline =>
        obtain ⟨moved, hmoved, h⟩ := bind_eq_ok h
        cases h
        have hwhole := congrArg List.length (lineComment?_append hline)
        have hpos := List.length_pos_iff.mpr (lineComment?_ne_nil hline)
        rw [rest_of_moveOver hmoved, ← hwhole, List.length_append]
        omega
    · next comment _ hblock =>
        obtain ⟨moved, hmoved, h⟩ := bind_eq_ok h
        obtain ⟨span, _, h⟩ := bind_eq_ok h
        cases h
        have hwhole := congrArg List.length (blockComment?_append hblock)
        have hpos := List.length_pos_iff.mpr (blockComment?_ne_nil hblock)
        rw [rest_of_moveOver hmoved, ← hwhole, List.length_append]
        omega
    · split at h
      · next hnil => exact absurd hnil hc
      · next x rest hrest =>
          split at h
          · next lead => exact length_rest_of_classify hrest lead h
          · obtain ⟨moved, hmoved, h⟩ := bind_eq_ok h
            cases h
            rw [rest_of_moveOver hmoved, hrest]
            simp

/-- Take what stands at the cursor until nothing is left, behind what is in `done`, last first. -/
def runFrom (done : List Placed) (c : Cursor) : Except Fault (List Placed × Cursor) :=
  if _hc : c.rest = [] then .ok (done.reverse, c)
  else
    match _h : c.next with
    | .error fault => .error fault
    | .ok (found, after) => runFrom (found.toList ++ done) after
termination_by c.rest.length
decreasing_by exact length_rest_of_next _hc _h

theorem runFrom_of_end {c : Cursor} (done : List Placed) (hc : c.rest = []) :
    c.runFrom done = .ok (done.reverse, c) := by
  rw [runFrom, dif_pos hc]

theorem runFrom_of_next {c : Cursor} (done : List Placed) (hc : c.rest ≠ []) :
    c.runFrom done = c.next >>= fun found => found.2.runFrom (found.1.toList ++ done) := by
  rw [runFrom, dif_neg hc]
  split
  · next fault h =>
      rw [h]
      rfl
  · next found after h =>
      rw [h]
      rfl

end Cursor

end CInventory.Scan
