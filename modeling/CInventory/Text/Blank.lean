import CInventory.Text.CodeRange

/-!
# Blank characters

Two classes are in use. `isAsciiBlank` is what a scan passes over between declarations; `isBlank`
is the property White_Space, which is trimmed from the ends of captured and entered text.
-/

namespace CInventory.Text

/-- Space, tab, line feed, form feed and carriage return. -/
def isAsciiBlank (c : Char) : Bool :=
  c = ' ' || c = '\t' || c = '\n' || c = '\x0c' || c = '\r'

def blankRanges : List (Nat × Nat) := [
  (0x09, 0x0D), (0x20, 0x20), (0x85, 0x85), (0xA0, 0xA0), (0x1680, 0x1680), (0x2000, 0x200A),
  (0x2028, 0x2029), (0x202F, 0x202F), (0x205F, 0x205F), (0x3000, 0x3000)]

/-- The property White_Space. -/
def isBlank (c : Char) : Bool := inRanges blankRanges c

/-- A text without the blanks at its end. -/
def trimEnd (cs : List Char) : List Char := (cs.reverse.dropWhile isBlank).reverse

/-- A text without the blanks at its two ends. -/
def trim (cs : List Char) : List Char := trimEnd (cs.dropWhile isBlank)

def trimString (s : String) : String := String.ofList (trim s.toList)

def trimEndString (s : String) : String := String.ofList (trimEnd s.toList)

theorem isBlank_of_isAsciiBlank {c : Char} (h : isAsciiBlank c = true) : isBlank c = true := by
  simp only [isAsciiBlank, Bool.or_eq_true, decide_eq_true_eq] at h
  rcases h with (((h | h) | h) | h) | h <;> subst h <;> decide

/-- Trimming only cuts blanks off: what it keeps and what it cuts make up the text. -/
theorem trimEnd_append_cut (cs : List Char) :
    trimEnd cs ++ (cs.reverse.takeWhile isBlank).reverse = cs := by
  rw [trimEnd, ← List.reverse_append, List.takeWhile_append_dropWhile, List.reverse_reverse]

end CInventory.Text
