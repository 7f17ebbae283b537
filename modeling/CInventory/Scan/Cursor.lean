import CInventory.Span
import CInventory.Scan.Comment
import CInventory.Scan.Word
import CInventory.Text.Blank

/-!
# Cursors

A cursor stands in a source: it holds the text that is still to come and its position. Every
move consumes whole characters from the front of that text.
-/

namespace CInventory.Scan

structure Cursor where
  source : String
  rest : List Char
  position : Position

/-- What the first mark behind a base type announces, with the byte offset of the mark. -/
inductive Shape where
  | variable (mark : Nat)
  | function (brace : Nat)
  | truncated
deriving DecidableEq

namespace Cursor

def ofSource (source : String) : Cursor := ⟨source, source.toList, .start⟩

/-- The character `n` places ahead. -/
def peek? (c : Cursor) (n : Nat) : Option Char := c.rest[n]?

def isAtEnd (c : Cursor) : Bool := c.rest.isEmpty

/-- Move over `taken`, which leaves `rest`. -/
def moveOver (c : Cursor) (taken rest : List Char) : Except Fault Cursor := do
  return { c with rest, position := ← c.position.advanceAll taken }

def advance (c : Cursor) : Except Fault (Option Char × Cursor) :=
  match c.rest with
  | [] => .ok (none, c)
  | x :: rest => do return (some x, ← c.moveOver [x] rest)

/-- Consume characters until the offset is at least `offset` or the source ends. -/
def advanceTo (c : Cursor) (offset : Nat) : Except Fault Cursor :=
  let (taken, rest) := Text.takeBytes c.rest (offset - c.position.offset)
  c.moveOver taken rest

/-- Consume the characters at the front that satisfy `p`. -/
def advanceWhile (c : Cursor) (p : Char → Bool) : Except Fault (List Char × Cursor) := do
  let taken := c.rest.takeWhile p
  return (taken, ← c.moveOver taken (c.rest.dropWhile p))

/-- Nothing is lost: what was taken stands in front of what is left. -/
theorem rest_of_advanceWhile {c c' : Cursor} {p : Char → Bool} {taken : List Char}
    (h : c.advanceWhile p = .ok (taken, c')) : taken ++ c'.rest = c.rest := by
  unfold advanceWhile moveOver at h
  cases hp : c.position.advanceAll (c.rest.takeWhile p) with
  | error fault => simp [hp, bind, Except.bind] at h
  | ok position =>
    simp only [hp, bind, Except.bind, pure, Except.pure, Except.ok.injEq, Prod.mk.injEq] at h
    obtain ⟨rfl, rfl⟩ := h
    exact List.takeWhile_append_dropWhile

/-- Consume blanks; the answer says whether there were any. -/
def skipBlanks (c : Cursor) : Except Fault (Bool × Cursor) := do
  let (taken, c) ← c.advanceWhile Text.isAsciiBlank
  return (!taken.isEmpty, c)

/-- Consume a line comment; the answer says whether there was one. -/
def skipLineComment (c : Cursor) : Except Fault (Bool × Cursor) :=
  match lineComment? c.rest with
  | some (taken, rest) => do return (true, ← c.moveOver taken rest)
  | none => .ok (false, c)

/-- Consume a block comment; the answer says whether there was one and whether it was closed. -/
def skipBlockComment (c : Cursor) : Except Fault (Option Bool × Cursor) :=
  match blockComment? c.rest with
  | some comment => do return (some comment.closed, ← c.moveOver comment.text comment.rest)
  | none => .ok (none, c)

/-- The first mark ahead, without a move. -/
def lookahead (c : Cursor) : Shape :=
  let offset := c.position.offset + Text.byteLength (c.rest.takeWhile (!isMark ·))
  match c.rest.dropWhile (!isMark ·) with
  | [] => .truncated
  | mark :: _ => if mark = '\x7b' then .function offset else .variable offset

/-- The span from an earlier position to the cursor. -/
def spanFrom (c : Cursor) (mark : Position) : Except Fault Span := Span.ofBounds mark c.position

end Cursor

end CInventory.Scan
