/-!
# Lines of a text

A line feed ends a line. Text after the last line feed is one more line, unless it is empty.
-/

namespace CInventory.Text

/-- The number of lines; `fresh` says that nothing follows the last line feed so far. -/
def lineCountAux (count : Nat) (fresh : Bool) : List Char → Nat
  | [] => if fresh then count else count + 1
  | c :: cs => if c = '\n' then lineCountAux (count + 1) true cs else lineCountAux count false cs

def lineCount (cs : List Char) : Nat := lineCountAux 0 true cs

/-- Printed texts as lines, with a line feed behind each text. A carriage return in front of a
line feed belongs to it. -/
def printedLines (texts : List String) : List String :=
  texts.flatMap fun text => (text.splitOn "\n").map fun line =>
    if line.endsWith "\r" then String.ofList line.toList.dropLast else line

end CInventory.Text
