import CInventory.Span

/-!
# Declarations

One declaration found in a C source: its kind, the exact text and where it stands.
-/

namespace CInventory

inductive Kind where
  | constant
  | variable
  | function
deriving DecidableEq

namespace Kind

/-- The kinds in the order in which their collections are listed and written. -/
def all : List Kind := [.constant, .variable, .function]

def label : Kind → String
  | .constant => "constant"
  | .variable => "variable"
  | .function => "function"

/-- The name of a kind's collection, of its count and of its output file. -/
def collection : Kind → String
  | .constant => "constants"
  | .variable => "variables"
  | .function => "functions"

end Kind

structure Declaration where
  kind : Kind
  text : String
  span : Span
deriving DecidableEq

namespace Declaration

def line (d : Declaration) : Nat := d.span.start.line

def column (d : Declaration) : Nat := d.span.start.column

def shown (d : Declaration) : String := s!"{d.kind.label} at {d.span.start.shown}"

end Declaration

end CInventory
