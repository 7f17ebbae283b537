import CInventory.Position

/-!
# Spans

A span is a pair of positions. It may be given in any order; `ofBounds` and `length` refuse a
span whose end lies before its start.
-/

namespace CInventory

structure Span where
  start : Position
  stop : Position
deriving DecidableEq

namespace Span

def ofBounds (start stop : Position) : Except Fault Span :=
  if start.offset ≤ stop.offset then .ok ⟨start, stop⟩ else .error .reversed

/-- The empty span at a position. -/
def point (p : Position) : Span := ⟨p, p⟩

def length (s : Span) : Except Fault Nat :=
  if s.start.offset ≤ s.stop.offset then .ok (s.stop.offset - s.start.offset)
  else .error .underflow

def isEmpty (s : Span) : Bool := s.start.offset == s.stop.offset

/-- The text the span covers, when its offsets lie on character boundaries of `text`. -/
def slice? (s : Span) (text : String) : Option String :=
  (Text.slice? text.toList s.start.offset s.stop.offset).map String.ofList

/-- Start and end column on one line; else both line and column of each end. -/
def shown (s : Span) : String :=
  if s.start.line = s.stop.line then s!"{s.start.shown}-{s.stop.column}"
  else s!"{s.start.shown}-{s.stop.shown}"

end Span

end CInventory
