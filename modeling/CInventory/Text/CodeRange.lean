/-!
# Sets of code points

A property of characters is a table of inclusive code point ranges in ascending order.
-/

namespace CInventory.Text

/-- Whether a character's code point lies in one of the ranges of `table`. -/
def inRanges (table : List (Nat × Nat)) (c : Char) : Bool :=
  table.any fun range => range.1 ≤ c.toNat && c.toNat ≤ range.2

end CInventory.Text
