import CInventory.Diagnostic.Log
import CInventory.FileTree
import CInventory.Host
import CInventory.Output.Manifest
import CInventory.Preferences

/-!
# Destinations

Where an inventory is written: files in a directory, or memory. Writing reads the inventory and
changes only the destination's own state.
-/

namespace CInventory.Output

open Diagnostic

inductive WriteError where
  | directoryUnavailable (path reason : String)
  | writeFailed (path reason : String)
  /-- No writer here ends with it: every manifest has a text. -/
  | serializationFailed (reason : String)
deriving DecidableEq, Repr

namespace WriteError

def message : WriteError → String
  | .directoryUnavailable path reason => s!"Output directory unavailable: {path}: {reason}"
  | .writeFailed path reason => s!"Failed to write {path}: {reason}"
  | .serializationFailed reason => s!"Failed to serialize catalog manifest: {reason}"

def code : WriteError → String
  | .directoryUnavailable _ _ => Code.directoryUnavailable
  | .writeFailed _ _ => Code.writeFailed
  | .serializationFailed _ => Code.manifestFailed

end WriteError

/-- What was written. -/
structure Written where
  destination : String
  files : List String := []
  records : Nat := 0
  bytes : Nat := 0
deriving DecidableEq

def Written.toJson (w : Written) : Json :=
  .object [("destination", .string w.destination),
    ("files_written", .array (w.files.map .string)),
    ("records_written", .nat w.records), ("bytes_written", .nat w.bytes)]

/-- Writing can fail, changes a state of type `σ` and says what it does. -/
abbrev Writing (σ : Type) := ExceptT WriteError (StateT σ Logged)

/-- A place for inventories, named for people. -/
structure Destination (σ : Type) where
  shown : String
  write : Inventory → Writing σ Written

def say {σ : Type} (e : Event) : Writing σ Unit :=
  ExceptT.lift (StateT.lift (Logged.say (Log.post e)))

/-! ## Files in a directory -/

structure FileWriter where
  directory : String
  format : Format := .text
  /-- The file that the inventory was made from. -/
  source : Option String := none

namespace FileWriter

def ofPreferences (prefs : OutputPreferences) : FileWriter :=
  { directory := prefs.directory, format := prefs.format }

def manifestName : String := "catalog.json"

/-- The file for one kind. -/
def file (w : FileWriter) (k : Kind) : String := Path.join w.directory (k.collection ++ ".txt")

def manifestFile (w : FileWriter) : String := Path.join w.directory manifestName

/-- Make the directory, or say why it cannot be had. -/
def ensureDirectory (w : FileWriter) (host : Host) : Writing FileTree Unit := do
  let tree ← get
  if tree.hasPath w.directory && !tree.isDirectory w.directory then
    unavailable "exists and is not a directory"
  else
    let (tree, made) := tree.createDirectories w.directory
    set tree
    match made with
    | .ok () => return ()
    | .error reason => unavailable reason.message
where
  unavailable (reason : String) : Writing FileTree Unit := do
    let e := WriteError.directoryUnavailable w.directory reason
    say ((Event.error host.limits e.code "Output directory unavailable").withContext [
      ("path", w.directory)])
    throw e

/-- Write one file and give the number of its bytes. -/
def writeFile (host : Host) (path content : String) : Writing FileTree Nat := do
  match (← get).write path content.toUTF8 with
  | .ok tree =>
    set tree
    return content.utf8ByteSize
  | .error reason =>
    let e := WriteError.writeFailed path reason.message
    say ((Event.error host.limits e.code "Failed to write catalog file").withContext [
      ("path", path), ("io_error", reason.message)])
    throw e

def writeKind (w : FileWriter) (host : Host) (inv : Inventory) (done : Written) (k : Kind) :
    Writing FileTree Written := do
  let bytes ← writeFile host (w.file k) (inv.render k)
  return { done with
    files := done.files ++ [w.file k]
    records := done.records + inv.count k
    bytes := done.bytes + bytes }

def writeManifest (w : FileWriter) (host : Host) (inv : Inventory) (done : Written) :
    Writing FileTree Written := do
  let document := (manifest host.clock.timestamp w.source inv).pretty
  let bytes ← writeFile host w.manifestFile document
  return { done with files := done.files ++ [w.manifestFile], bytes := done.bytes + bytes }

/-- One file for each kind, in the order of the kinds, and the manifest if it is asked for. -/
def write (w : FileWriter) (host : Host) (inv : Inventory) : Writing FileTree Written := do
  w.ensureDirectory host
  let done ← Kind.all.foldlM (w.writeKind host inv) { destination := w.directory }
  let done ← match w.format with
    | .text => pure done
    | .json => w.writeManifest host inv done
  say ((Event.success host.limits Code.catalogWritten "Catalog written").withContext [
    ("destination", done.destination), ("records", toString done.records),
    ("files", toString done.files.length), ("format", w.format.name)])
  return done

def destination (w : FileWriter) (host : Host) : Destination FileTree :=
  ⟨w.directory, w.write host⟩

end FileWriter

/-! ## Memory -/

/-- The lines last written for each kind, and how often writing was tried. -/
structure Memory where
  lines : Kind → List String := fun _ => []
  writes : Nat := 0

namespace Memory

/-- The bytes of lines with a line feed behind each. -/
def lineBytes (lines : List String) : Nat :=
  lines.foldl (fun n line => n + line.utf8ByteSize + 1) 0

def write (failing : Bool) (inv : Inventory) : Writing Memory Written := do
  modify fun m => { m with writes := m.writes + 1 }
  if failing then throw (.writeFailed "memory" "writer configured to fail")
  modify fun m => { m with lines := inv.texts }
  return {
    destination := "memory"
    records := inv.size
    bytes := Kind.all.foldl (fun n k => n + lineBytes (inv.texts k)) 0 }

def destination (failing : Bool) : Destination Memory := ⟨"memory", write failing⟩

end Memory

end CInventory.Output
