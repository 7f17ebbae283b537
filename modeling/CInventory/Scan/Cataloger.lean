import CInventory.Scan.Outcome

/-!
# Catalogers

A cataloger scans one source after the other with the same preferences. At each step of a scan it
counts the segment in its metrics, adds what the segment declares to the inventory that it was
given and says what it found. Its metrics stay readable until the next scan starts them afresh.
-/

namespace CInventory.Scan

open Diagnostic

structure Cataloger where
  prefs : ScanPreferences := {}
  /-- Those of the source scanned last, or up to where the scan is. -/
  metrics : Metrics := {}
  /-- Warnings given on that source. -/
  warned : Nat := 0

/-- How far a scan has come. -/
structure Progress where
  cataloger : Cataloger
  inventory : Inventory
  events : Array Event := #[]

namespace Progress

def declare (s : Progress) (limits : Limits) (d : Declaration) : Progress :=
  { s with
    inventory := s.inventory.add d
    events := s.events.push (declarationEvent limits d.kind d.span) }

/-- Report an incomplete construct, as the preferences say. -/
def reportIncomplete (s : Progress) (limits : Limits) (found : Incomplete) (span : Span) :
    Progress :=
  let event := incompleteEvent limits s.cataloger.prefs s.cataloger.warned found span
  { s with
    cataloger.warned := if event.isWarning then s.cataloger.warned + 1 else s.cataloger.warned
    events := s.events.push event }

/-- Count a segment and deal with what it stands for. -/
def take (limits : Limits) (s : Progress) (p : Placed) : Progress :=
  let s := { s with cataloger.metrics := s.cataloger.metrics.count p.segment }
  match p.declaration?, p.segment.incomplete? with
  | some d, _ => s.declare limits d
  | none, some found => s.reportIncomplete limits found p.span
  | none, none => s

/-- Take what stands at the cursor until nothing is left. -/
def runFrom (limits : Limits) (s : Progress) (c : Cursor) : Except Fault Progress :=
  if _hc : c.rest = [] then .ok s
  else
    match _h : c.next with
    | .error fault => .error fault
    | .ok (found, after) => runFrom limits (found.elim s (take limits s)) after
termination_by c.rest.length
decreasing_by exact Cursor.length_rest_of_next _hc _h

theorem runFrom_of_end (limits : Limits) (s : Progress) {c : Cursor} (hc : c.rest = []) :
    s.runFrom limits c = .ok s := by
  rw [runFrom, dif_pos hc]

theorem runFrom_of_next (limits : Limits) (s : Progress) {c : Cursor} (hc : c.rest ≠ []) :
    s.runFrom limits c =
      c.next >>= fun found => (found.1.elim s (take limits s)).runFrom limits found.2 := by
  rw [runFrom, dif_neg hc]
  split
  · next fault h =>
      rw [h]
      rfl
  · next found after h =>
      rw [h]
      rfl

end Progress

namespace Cataloger

/-- Forget the source scanned last. -/
def restart (k : Cataloger) : Cataloger := { k with metrics := {}, warned := 0 }

/-- Scan a source into an inventory. Returned are the metrics, and what the scan has come to. -/
def scan (k : Cataloger) (limits : Limits) (source : String) (inv : Inventory) :
    Except Fault (Metrics × Progress) := do
  let s ← Progress.runFrom limits { cataloger := k.restart, inventory := inv } (.ofSource source)
  let metrics := s.cataloger.metrics
  return (metrics, { s with events := s.events ++ (closingEvents limits metrics).toArray })

end Cataloger

end CInventory.Scan
