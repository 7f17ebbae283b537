/-!
# Words

A word is a run of ASCII letters, digits and underscores that does not start with a digit. The
word `const` and the five base types start a declaration.
-/

namespace CInventory.Scan

def isAsciiLetter (c : Char) : Bool := ('a' ≤ c && c ≤ 'z') || ('A' ≤ c && c ≤ 'Z')

def isAsciiDigit (c : Char) : Bool := '0' ≤ c && c ≤ '9'

/-- A character that can start a word. -/
def isLead (c : Char) : Bool := isAsciiLetter c || c = '_'

/-- A character that can continue a word. -/
def isWordChar (c : Char) : Bool := isAsciiLetter c || isAsciiDigit c || c = '_'

theorem isWordChar_of_isLead {c : Char} (h : isLead c = true) : isWordChar c = true := by
  simp only [isLead, isWordChar, Bool.or_eq_true] at h ⊢
  rcases h with h | h
  · exact .inl (.inl h)
  · exact .inr h

def constantKeyword : String := "const"

def baseTypes : List String := ["int", "void", "char", "double", "float"]

def isBaseType (word : String) : Bool := baseTypes.contains word

/-- The marks that decide what a base type declares. -/
def isMark (c : Char) : Bool := c = ';' || c = '=' || c = '\x7b'

end CInventory.Scan
