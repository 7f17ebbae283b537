import CInventory.Declaration

/-!
# Inventories

An inventory keeps the declarations of each kind in the order in which they were added. The
three collections are merged by start offset only on request.
-/

namespace CInventory

structure Inventory where
  constants : Array Declaration := #[]
  vars : Array Declaration := #[]
  functions : Array Declaration := #[]
deriving DecidableEq

namespace Inventory

def empty : Inventory := {}

def add (inv : Inventory) (d : Declaration) : Inventory :=
  match d.kind with
  | .constant => { inv with constants := inv.constants.push d }
  | .variable => { inv with vars := inv.vars.push d }
  | .function => { inv with functions := inv.functions.push d }

def addAll (inv : Inventory) (ds : List Declaration) : Inventory := ds.foldl add inv

/-- The declarations of one kind, oldest first. -/
def ofKind (inv : Inventory) : Kind → List Declaration
  | .constant => inv.constants.toList
  | .variable => inv.vars.toList
  | .function => inv.functions.toList

def texts (inv : Inventory) (k : Kind) : List String := (inv.ofKind k).map Declaration.text

def count (inv : Inventory) (k : Kind) : Nat := (inv.ofKind k).length

def size (inv : Inventory) : Nat :=
  inv.count .constant + inv.count .variable + inv.count .function

def isEmpty (inv : Inventory) : Bool := inv.size == 0

/-- Drop the declarations of every kind. -/
def clear (inv : Inventory) : Inventory :=
  { inv with constants := #[], vars := #[], functions := #[] }

/-- All declarations by start offset. Equal offsets keep the order of the kinds, and within a
kind the order in which they were added. -/
def inSourceOrder (inv : Inventory) : List Declaration :=
  (inv.ofKind .constant ++ inv.ofKind .variable ++ inv.ofKind .function).mergeSort
    fun a b => a.span.start.offset ≤ b.span.start.offset

/-- The texts of one kind, each on a line of its own. -/
def render (inv : Inventory) (k : Kind) : String :=
  (inv.texts k).foldl (fun content text => content ++ text ++ "\n") ""

@[simp] theorem ofKind_empty (k : Kind) : empty.ofKind k = [] := by cases k <;> rfl

@[simp] theorem clear_eq (inv : Inventory) : inv.clear = empty := rfl

@[simp] theorem ofKind_add (inv : Inventory) (d : Declaration) (k : Kind) :
    (inv.add d).ofKind k = inv.ofKind k ++ if d.kind = k then [d] else [] := by
  cases k <;> cases h : d.kind <;> simp [add, ofKind, h]

theorem ofKind_addAll (inv : Inventory) (ds : List Declaration) (k : Kind) :
    (inv.addAll ds).ofKind k = inv.ofKind k ++ ds.filter (·.kind = k) := by
  induction ds generalizing inv with
  | nil => simp [addAll]
  | cons d ds ih =>
      rw [addAll, List.foldl_cons, ← addAll, ih, ofKind_add, List.filter_cons]
      by_cases h : d.kind = k <;> simp [h]

theorem size_addAll (inv : Inventory) (ds : List Declaration) :
    (inv.addAll ds).size = inv.size + ds.length := by
  induction ds generalizing inv with
  | nil => rfl
  | cons d ds ih =>
      have hadd : (inv.add d).size = inv.size + 1 := by
        cases hkind : d.kind <;> simp [size, count, hkind] <;> omega
      rw [addAll, List.foldl_cons, ← addAll, ih, hadd, List.length_cons]
      omega

end Inventory

end CInventory
