import CInventory.Command.Run
import Std.Time

/-!
# Command line

Takes from the disk what a run is about, carries the run out, prints what it printed, and brings
what it changed back to the disk. The run itself is `Command.run`. This layer reads only paths that
it is given, so the paths below a directory come from the standard input, one a line and each
behind the directories that it is in.
-/

namespace CInventory.Disk

/-- The number of the error that reading a directory ends with. -/
def directoryError : UInt32 := 21

/-- What stands at a place. -/
def node? (place : Location) : IO (Option Node) := do
  match ← (IO.FS.readBinFile (FileTree.locationText place)).toBaseIO with
  | .ok content => return some (.file content)
  | .error (.inappropriateType _ number _) =>
    return if number = directoryError then some .directory else none
  | .error _ => return none

/-- The places that a path leads through. -/
def places (start : Location) (path : String) : List Location :=
  ((Path.pieces path).foldl (fun (seen, place) piece =>
    let place :=
      if Path.isIdle piece then place
      else if piece = ".." then place.dropLast
      else place ++ [piece]
    (place :: seen, place)) ([], start)).1.reverse

/-- Add to a tree what stands along a path. -/
def load (tree : FileTree) (path : String) : IO FileTree :=
  (places (tree.origin path) path).foldlM (fun tree place => do
    match ← node? place with
    | some node => return tree.put place node
    | none => return tree) tree

/-- The working directory and nothing else. -/
def home : IO FileTree := do
  let here := toString (← IO.currentDir)
  let tree ← load {} here
  return { tree with home := (Path.pieces here).filter (!Path.isIdle ·) }

def sameNode : Node → Option Node → Bool
  | .directory, some .directory => true
  | .file new, some (.file old) => new.data == old.data
  | _, _ => false

/-- Bring what differs between two trees to the disk. -/
def store (old new : FileTree) : IO Unit :=
  new.entries.toList.forM fun (place, node) =>
    if sameNode node old.entries[place]? then pure ()
    else
      match node with
      | .directory => IO.FS.createDirAll (FileTree.locationText place)
      | .file content => IO.FS.writeBinFile (FileTree.locationText place) content

/-- The bytes of a stream through its first line feed, and what came along with it. -/
partial def readLine (stream : IO.FS.Stream) (seen : ByteArray) : IO ByteArray := do
  let more ← stream.read 4096
  if more.isEmpty || more.data.contains 10 then return seen ++ more
  readLine stream (seen ++ more)

/-- The rest of a stream. -/
partial def readRest (stream : IO.FS.Stream) (seen : ByteArray) : IO ByteArray := do
  let more ← stream.read 4096
  if more.isEmpty then return seen
  readRest stream (seen ++ more)

def environment : IO Environment := do
  let entries ← Preferences.environmentNames.filterMapM fun name => do
    return (← IO.getEnv name).map ((name, ·))
  return { entries }

def timestamp : IO String := do
  let now := Std.Time.DateTime.ofTimestamp (← Std.Time.Timestamp.now) .UTC
  return now.format "uuuu-MM-dd'T'HH:mm:ss.SSS'Z'"

/-- Whether a run stops for a path: without input it then prints the prompt and nothing else. -/
def asks (host : Host) (env : Environment) (tree : FileTree) (line : List String) : Bool :=
  (Command.run host env tree line []).session.stdout == Command.promptText

def answer : IO (List UInt8) := do
  IO.print Command.promptText
  (← IO.getStdout).flush
  return (← readLine (← IO.getStdin) .empty).toList

/-- Add to a tree what stands at the paths that the rest of the input names. -/
def loadNamed (tree : FileTree) (input : List UInt8) : IO FileTree := do
  let more ← readRest (← IO.getStdin) (Command.firstLine input).2.toByteArray
  let lines := ((String.fromUTF8? more).getD "").splitOn "\n"
  (lines.filter (· ≠ "")).foldlM load tree

/-- Add to a tree what stands where a writer writes. -/
def loadWritten (tree : FileTree) (writer : Output.FileWriter) : IO FileTree :=
  (writer.manifestFile :: Kind.all.map writer.file).foldlM load tree

/-- Add to a tree what stands where a run with these arguments on a path writes. -/
def loadOutput (env : Environment) (path : Option String) (tree : FileTree)
    (args : Command.Args) : IO FileTree :=
  match Command.preferences env tree args, path with
  | .error _, _ => return tree
  | .ok prefs, none => loadWritten tree (.ofPreferences prefs.output)
  | .ok prefs, some path =>
    if tree.isDirectory path then
      (Batch.sources tree path !args.noRecursive).foldlM (fun tree file =>
        loadWritten tree
          { directory := Batch.outputDirectory prefs.output.directory path file }) tree
    else loadWritten tree (.ofPreferences prefs.output)

end CInventory.Disk

open CInventory in
def main (line : List String) : IO UInt32 := do
  let env ← Disk.environment
  let host : Host := { clock := { timestamp := ← Disk.timestamp } }
  let tree ← Disk.home
  let args := (Command.parse line).toOption
  let tree ← (args.bind (·.config)).elim (pure tree) (Disk.load tree)
  let asked := Disk.asks host env tree line
  let input ← if asked then Disk.answer else pure []
  let path := (args.bind (·.path)) <|> (Command.promptedPath input).toOption
  let tree ← path.elim (pure tree) (Disk.load tree)
  let tree ← if path.any tree.isDirectory then Disk.loadNamed tree input else pure tree
  let tree ← args.elim (pure tree) (Disk.loadOutput env path tree)
  let result := Command.run host env tree line input
  Disk.store tree result.tree
  let shown := if asked then Command.promptText.length else 0
  IO.print (String.ofList (result.session.stdout.toList.drop shown))
  result.session.stderr.forM IO.eprintln
  return result.exit.toUInt32
