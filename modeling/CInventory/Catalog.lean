import CInventory.Output.Destination
import CInventory.Scan.Cataloger
import CInventory.SourceFile

/-!
# Catalogs

The catalog of a source file is what a scan of its text finds. A file that cannot be read is
never scanned, and a catalog that cannot be written is kept in the error.
-/

namespace CInventory

open Diagnostic Output

structure Catalog where
  inventory : Inventory
  metrics : Scan.Metrics
  info : Option FileInfo := none

inductive CatalogError where
  | reading (e : ReadError)
  /-- The scan is complete, but its catalog could not be written. -/
  | output (e : WriteError) (kept : Catalog)
  /-- For programs around this one. No catalog here ends with it. -/
  | failed (reason : String)

namespace CatalogError

def message : CatalogError → String
  | .reading e => s!"File processing failed: {e.message}"
  | .output e _ => s!"Catalog output failed: {e.message}"
  | .failed reason => s!"Pipeline error: {reason}"

def code : CatalogError → String
  | .reading e => e.code
  | .output e _ => e.code
  | .failed _ => Code.internalError

def kept? : CatalogError → Option Catalog
  | .output _ kept => some kept
  | _ => none

end CatalogError

namespace Catalog

/-- What was scanned, also after the inventory was cleared. -/
def count (c : Catalog) (k : Kind) : Nat := c.metrics.ofKind k

def total (c : Catalog) : Nat := c.metrics.declarations

def ofOutcome (o : Scan.Outcome) (info : Option FileInfo) : Catalog :=
  ⟨Inventory.empty.addAll o.declarations, o.metrics, info⟩

/-- Scan a text that is in no file. -/
def ofSource (limits : Limits) (prefs : ScanPreferences) (source : String) :
    Except Fault Catalog := do
  let (metrics, scanned) ← Scan.Cataloger.scan { prefs } limits source .empty
  return ⟨scanned.inventory, metrics, none⟩

/-- The catalog of a file's text, and what its scan says. The scan of a file that may be read does
not fault, since accepted limits leave room for every position (`Scan.positionsFit_of_validate`).
Under other limits positions are counted without bound. -/
def ofText (limits : Limits) (prefs : ScanPreferences) (info : FileInfo) (text : String) :
    Catalog × List Event :=
  match Scan.Cataloger.scan { prefs } limits text .empty with
  | .ok (metrics, scanned) => (⟨scanned.inventory, metrics, some info⟩, scanned.events.toList)
  | .error _ =>
    let outcome := Scan.outcome limits prefs text
    (ofOutcome outcome (some info), outcome.events)

/-- The event at the end of work on a source. -/
def doneEvent (c : Catalog) (host : Host) : Event :=
  (Event.success host.limits Code.fileCataloged "File cataloged").withContext [
    ("file", (c.info.map FileInfo.path).getD "<buffer>"),
    ("constants", toString c.metrics.constants), ("variables", toString c.metrics.vars),
    ("functions", toString c.metrics.functions), ("duration_ms", host.elapsedText)]

/-- Read and scan one file. -/
def ofFile (host : Host) (prefs : Preferences) (tree : FileTree) (path : String) (id : Nat) :
    ExceptT CatalogError Logged Catalog :=
  ExceptT.mk <| Logged.within ⟨path, id⟩ do
    Logged.say (Log.post ((Event.info host.limits "Cataloging file").withContext [("file", path)]))
    match ← (SourceFile.read host prefs.reading tree path).run with
    | .error e => return .error (.reading e)
    | .ok file =>
      let (catalog, events) := ofText host.limits prefs.scanning file.info file.text
      Logged.say (Log.post ((Event.debug host.limits "Starting declaration scan").withContext [
        ("file", file.info.path), ("size_bytes", toString file.info.size),
        ("line_count", toString file.info.lineCount)]))
      Logged.say (Log.ofEvents events)
      Logged.say (Log.post (catalog.doneEvent host))
      return .ok catalog

/-- Write a catalog. Once it is written its inventory is cleared. -/
def store {σ : Type} (host : Host) (path : String) (id : Nat) (c : Catalog) (d : Destination σ) :
    ExceptT CatalogError (StateT σ Logged) (Catalog × Written) :=
  ExceptT.mk do
    match ← (d.write c.inventory).run with
    | .ok written => return .ok ({ c with inventory := c.inventory.clear }, written)
    | .error e =>
      let event := (Event.error host.limits e.code "Catalog could not be written").withContext [
        ("destination", d.shown), ("records", toString c.total)]
      StateT.lift (Logged.say (Log.within ⟨path, id⟩ (Log.post event)))
      return .error (.output e c)

/-- Read, scan and write one file. -/
def ofFileTo {σ : Type} (host : Host) (prefs : Preferences) (tree : FileTree) (path : String)
    (id : Nat) (d : Destination σ) :
    ExceptT CatalogError (StateT σ Logged) (Catalog × Written) := do
  let catalog ← ExceptT.mk (StateT.lift (ofFile host prefs tree path id).run)
  store host path id catalog d

/-! ## Reports -/

/-- A catalog for people and tools, taken before the inventory is cleared. -/
structure Report where
  path : Option String
  metrics : Scan.Metrics
  declarations : List Declaration
  output : Option Written := none

def report (c : Catalog) : Report :=
  ⟨c.info.map FileInfo.path, c.metrics, c.inventory.inSourceOrder, none⟩

/-- Read, scan and write one file, and report on it. -/
def reportTo {σ : Type} (host : Host) (prefs : Preferences) (tree : FileTree) (path : String)
    (d : Destination σ) : ExceptT CatalogError (StateT σ Logged) Report := do
  let catalog ← ExceptT.mk (StateT.lift (ofFile host prefs tree path 0).run)
  let (_, written) ← store host path 0 catalog d
  return { catalog.report with output := some written }

/-- The report by name; `measured` stands in front of the output. -/
def Report.members (r : Report) (measured : List (String × Json)) : List (String × Json) :=
  (match r.path with
    | some path => [("path", .string path)]
    | none => [])
  ++ [("counts", countsJson r.metrics.ofKind), ("metrics", .object r.metrics.members),
    ("records", .array (r.declarations.map Declaration.toJson))]
  ++ measured
  ++ (match r.output with
    | some written => [("output", written.toJson)]
    | none => [])

def Report.toJson (r : Report) (host : Host) : Json :=
  .object (r.members [("duration_ms", .real host.clock.elapsed)])

end Catalog

end CInventory
