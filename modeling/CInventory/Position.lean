import CInventory.Text.Utf8

/-!
# Positions

A position counts the bytes, lines and columns in front of it. `step` and `walk` count without
bound. `advance` and `advanceAll` are what a scan uses: offsets are held in 64 bits, lines and
columns in 32, and a count that does not fit is a fault. So it is in builds that check additions,
as those for development and tests do; a release build wraps around instead.
-/

namespace CInventory

/-- What stops a computation on positions. -/
inductive Fault where
  /-- A count no longer fits its width. -/
  | overflow
  /-- A span is measured whose end lies before its start. -/
  | underflow
  /-- A span is built whose end lies before its start. -/
  | reversed
deriving DecidableEq

def Fault.message : Fault → String
  | .overflow => "attempt to add with overflow"
  | .underflow => "attempt to subtract with overflow"
  | .reversed => "Span start must not be after end"

/-- A computation that returns has returned from each of its parts. -/
theorem bind_eq_ok {ε α β : Type} {x : Except ε α} {f : α → Except ε β} {b : β}
    (h : x.bind f = .ok b) : ∃ a, x = .ok a ∧ f a = .ok b := by
  cases x with
  | error e => cases h
  | ok a => exact ⟨a, rfl, h⟩

/-- Bytes before a place in a text, and its line and column, both counted from 1. -/
structure Position where
  offset : Nat
  line : Nat
  column : Nat
deriving DecidableEq

namespace Position

def start : Position := ⟨0, 1, 1⟩

/-- Offsets are held in 64 bits. -/
def offsetBound : Nat := 18446744073709551616

/-- Lines and columns are held in 32 bits. -/
def countBound : Nat := 4294967296

/-- The counts fit the widths they are held in. -/
def fits (p : Position) : Bool :=
  p.offset < offsetBound && p.line < countBound && p.column < countBound

/-- The position behind one more character: a line feed starts a line, any other character
moves one column on. -/
def step (p : Position) (c : Char) : Position :=
  if c = '\n' then ⟨p.offset + 1, p.line + 1, 1⟩
  else ⟨p.offset + c.utf8Size, p.line, p.column + 1⟩

def walk (p : Position) (cs : List Char) : Position := cs.foldl step p

def advance (p : Position) (c : Char) : Except Fault Position :=
  if (p.step c).fits then .ok (p.step c) else .error .overflow

def advanceAll (p : Position) (cs : List Char) : Except Fault Position := cs.foldlM advance p

/-- By offset, then line, then column. -/
def order (p q : Position) : Ordering :=
  (compare p.offset q.offset).then
    ((compare p.line q.line).then (compare p.column q.column))

def shown (p : Position) : String := s!"{p.line}:{p.column}"

@[simp] theorem walk_nil (p : Position) : p.walk [] = p := rfl

@[simp] theorem walk_cons (p : Position) (c : Char) (cs : List Char) :
    p.walk (c :: cs) = (p.step c).walk cs := rfl

@[simp] theorem walk_append (p : Position) (xs ys : List Char) :
    p.walk (xs ++ ys) = (p.walk xs).walk ys := by
  simp [walk]

theorem step_offset (p : Position) (c : Char) : (p.step c).offset = p.offset + c.utf8Size := by
  unfold step
  split
  · next h => subst h; rfl
  · rfl

theorem walk_offset (p : Position) (cs : List Char) :
    (p.walk cs).offset = p.offset + Text.byteLength cs := by
  induction cs generalizing p with
  | nil => simp
  | cons c cs ih => rw [walk_cons, ih, step_offset, Text.byteLength_cons]; omega

/-- A checked walk that succeeds ends where the unbounded one does. -/
theorem advanceAll_eq_ok {p q : Position} {cs : List Char} (h : p.advanceAll cs = .ok q) :
    q = p.walk cs := by
  induction cs generalizing p with
  | nil => cases h; rfl
  | cons c cs ih =>
      rw [advanceAll, List.foldlM_cons] at h
      cases ha : p.advance c with
      | error e => rw [ha] at h; cases h
      | ok r =>
          rw [ha] at h
          have hr : r = p.step c := by
            unfold advance at ha
            split at ha
            · cases ha; rfl
            · cases ha
          rw [walk_cons, ← hr]
          exact ih h

end Position

end CInventory
