import CInventory.Text.Utf8

/-!
# Braces

Braces are counted as they stand: those in comments and literals count like any other.
-/

namespace CInventory.Scan

/-- Whether no closing brace comes too early and none is missing, with `depth` groups open. -/
def balancedFrom (depth : Nat) : List Char → Bool
  | [] => depth == 0
  | c :: cs =>
    if c = '\x7b' then balancedFrom (depth + 1) cs
    else if c = '\x7d' then
      match depth with
      | 0 => false
      | depth + 1 => balancedFrom depth cs
    else balancedFrom depth cs

def balanced (cs : List Char) : Bool := balancedFrom 0 cs

/-- The text up to the closing brace that ends all groups, with `depth` groups open and the
characters of `taken` already passed, last first. -/
def closingAux (taken : List Char) (depth : Nat) : List Char → Option (List Char × List Char)
  | [] => none
  | c :: cs =>
    if c = '\x7b' then closingAux (c :: taken) (depth + 1) cs
    else if c = '\x7d' then
      if depth ≤ 1 then some ((c :: taken).reverse, cs)
      else closingAux (c :: taken) (depth - 1) cs
    else closingAux (c :: taken) depth cs

/-- The text through the first closing brace that leaves no group open, and the rest. -/
def closing? (cs : List Char) : Option (List Char × List Char) := closingAux [] 0 cs

/-- The byte offset of the closing brace that matches from the byte offset `start` on. -/
def matchingBrace? (text : List Char) (start : Nat) : Option Nat := do
  let (_, rest) ← Text.cut? text start
  let (group, _) ← closing? rest
  return start + Text.byteLength group - 1

theorem closingAux_append {taken cs group rest : List Char} {depth : Nat}
    (h : closingAux taken depth cs = some (group, rest)) :
    group ++ rest = taken.reverse ++ cs := by
  induction cs generalizing taken depth with
  | nil => simp [closingAux] at h
  | cons c cs ih =>
      rw [closingAux] at h
      split at h
      · simpa using ih h
      · split at h
        · split at h
          · simp only [Option.some.injEq, Prod.mk.injEq] at h
            obtain ⟨rfl, rfl⟩ := h
            simp
          · simpa using ih h
        · simpa using ih h

theorem closing?_append {cs group rest : List Char} (h : closing? cs = some (group, rest)) :
    group ++ rest = cs := by
  simpa using closingAux_append h

end CInventory.Scan
