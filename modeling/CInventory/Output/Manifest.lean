import CInventory.Inventory
import CInventory.Json

/-!
# Manifests

An inventory as one JSON document: counts, and all declarations in source order.
-/

namespace CInventory

def Position.toJson (p : Position) : Json :=
  .object [("offset", .nat p.offset), ("line", .nat p.line), ("column", .nat p.column)]

def Span.toJson (s : Span) : Json :=
  .object [("start", s.start.toJson), ("end", s.stop.toJson)]

def Declaration.toJson (d : Declaration) : Json :=
  .object [("kind", .string d.kind.label), ("text", .string d.text), ("line", .nat d.line),
    ("column", .nat d.column), ("span", d.span.toJson)]

/-- The three collections by name. -/
def Inventory.toJson (inv : Inventory) : Json :=
  .object (Kind.all.map fun k => (k.collection, .array ((inv.ofKind k).map Declaration.toJson)))

namespace Output

/-- A count for each kind, by name. -/
def countsJson (count : Kind → Nat) : Json :=
  .object ([Kind.constant, .function, .variable].map fun k => (k.collection, .nat (count k)))

/-- The members of a manifest behind the time it was made. -/
def manifestMembers (source : Option String) (inv : Inventory) : List (String × Json) :=
  (match source with
    | some path => [("source", .string path)]
    | none => [])
  ++ [("counts", countsJson inv.count),
    ("records", .array (inv.inSourceOrder.map Declaration.toJson))]

def manifest (timestamp : String) (source : Option String) (inv : Inventory) : Json :=
  .object (("generated_at", .string timestamp) :: manifestMembers source inv)

end Output

end CInventory
