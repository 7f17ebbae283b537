import CInventory.Diagnostic.Event
import CInventory.Inventory
import CInventory.Preferences
import CInventory.Scan.Metrics
import CInventory.Scan.Run

/-!
# Outcomes

A scan runs a cursor over its source and reports on the segments that the run placed.
Declarations, metrics and events are three views of them; preferences reach the events alone.
-/

namespace CInventory.Scan

open Diagnostic

/-- Place segments one behind the other from `p` on. -/
def placeAux (done : List Placed) (p : Position) : List Segment → List Placed
  | [] => done.reverse
  | s :: rest =>
    let stop := p.walk s.text
    placeAux (⟨s, ⟨p, stop⟩⟩ :: done) stop rest

def place (p : Position) (segments : List Segment) : List Placed := placeAux [] p segments

theorem placeAux_eq (done : List Placed) (p : Position) (segments : List Segment) :
    placeAux done p segments = done.reverse ++ place p segments := by
  induction segments generalizing done p with
  | nil => simp [place, placeAux]
  | cons s rest ih =>
      rw [place, placeAux, placeAux, ih, ih [_]]
      simp

@[simp] theorem place_nil (p : Position) : place p [] = [] := rfl

theorem place_cons (p : Position) (s : Segment) (rest : List Segment) :
    place p (s :: rest) = ⟨s, ⟨p, p.walk s.text⟩⟩ :: place (p.walk s.text) rest := by
  rw [place, placeAux, placeAux_eq]
  rfl

theorem map_segment_place (p : Position) (parts : List Segment) :
    (place p parts).map Placed.segment = parts := by
  induction parts generalizing p with
  | nil => rfl
  | cons s parts ih => rw [place_cons, List.map_cons, ih]

namespace Placed

def declaration? (p : Placed) : Option Declaration :=
  match p.segment with
  | .declaration kind text => some ⟨kind, String.ofList text, p.span⟩
  | _ => none

end Placed

/-- An incomplete construct as it is reported: code, message and what it starts with. -/
structure Incomplete where
  code : String
  message : String
  lead : String

def Segment.incomplete? : Segment → Option Incomplete
  | .blockComment _ false =>
    some ⟨Code.unclosedComment, "Block comment runs to end of input", "/*"⟩
  | .truncated lead _ =>
    some ⟨Code.truncatedDeclaration,
      "Type keyword without ';', '=' or '\x7b' before end of input", String.ofList lead⟩
  | .unclosed lead _ =>
    some ⟨Code.unclosedBody, "Function body not closed before end of input", String.ofList lead⟩
  | _ => none

/-- What one scan found. -/
structure Outcome where
  declarations : List Declaration
  metrics : Metrics
  events : List Event

/-- The event for a declaration. -/
def declarationEvent (limits : Limits) (kind : Kind) (span : Span) : Event :=
  (Event.debug limits "Declaration classified").withContext [
    ("kind", kind.label), ("line", toString span.start.line),
    ("column", toString span.start.column)]

/-- The event for an incomplete construct: a warning as long as warnings are wanted and fewer
than the limit were given, else a debugging detail. -/
def incompleteEvent (limits : Limits) (prefs : ScanPreferences) (warned : Nat)
    (found : Incomplete) (span : Span) : Event :=
  if prefs.reportIncomplete && warned < limits.maxReportedSkipped then
    let event := (Event.warning limits found.code found.message).withContext [("lead", found.lead)]
    if prefs.positions then event.withSpan span else event
  else
    (Event.debug limits found.message).withContext [
      ("code", found.code), ("line", toString span.start.line),
      ("column", toString span.start.column), ("lead", found.lead)]

/-- The events for placed segments behind `done`, with the number of warnings given so far. -/
def segmentEvents (limits : Limits) (prefs : ScanPreferences) (done : Array Event) (warned : Nat) :
    List Placed → Array Event
  | [] => done
  | p :: rest =>
    match p.segment, p.segment.incomplete? with
    | .declaration kind _, _ =>
      segmentEvents limits prefs (done.push (declarationEvent limits kind p.span)) warned rest
    | _, some found =>
      let event := incompleteEvent limits prefs warned found p.span
      segmentEvents limits prefs (done.push event)
        (if event.isWarning then warned + 1 else warned) rest
    | _, none => segmentEvents limits prefs done warned rest

/-- The events at the end of a scan. -/
def closingEvents (limits : Limits) (m : Metrics) : List Event :=
  (Event.success limits Code.scanComplete "Declaration scan complete").withContext [
      ("constants", toString m.constants), ("variables", toString m.vars),
      ("functions", toString m.functions), ("skipped_constructs", toString m.incomplete)]
    :: if m.declarations > limits.largeCatalogThreshold then
        [(Event.warning limits Code.largeCatalog
            "Catalog exceeds the large catalog threshold").withContext [
          ("records", toString m.declarations),
          ("threshold", toString limits.largeCatalogThreshold)]]
      else []

/-- The outcome for placed segments. -/
def report (limits : Limits) (prefs : ScanPreferences) (placed : List Placed) : Outcome :=
  let metrics := Metrics.ofSegments (placed.map Placed.segment)
  { declarations := placed.filterMap Placed.declaration?
    metrics
    events := (segmentEvents limits prefs #[] 0 placed).toList ++ closingEvents limits metrics }

/-- The outcome for a source, with positions counted without bound. -/
def outcome (limits : Limits) (prefs : ScanPreferences) (source : String) : Outcome :=
  report limits prefs (place .start (segments source.toList))

/-- Scan a source. It fails only when a position in it does not fit its width. -/
def scan (limits : Limits) (prefs : ScanPreferences) (source : String) : Except Fault Outcome := do
  let (placed, _) ← (Cursor.ofSource source).runFrom []
  return report limits prefs placed

end CInventory.Scan
