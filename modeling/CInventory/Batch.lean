import CInventory.Catalog

/-!
# Batches

All sources below a directory, cataloged one after the other or in shares by several workers.
Results are listed by path either way.
-/

namespace CInventory

open Diagnostic Output

namespace Batch

structure Config where
  workers : Nat
  recursive : Bool := true
  /-- Keep only so many files, first by path. -/
  maxFiles : Option Nat := none
  progress : Bool := false
  /-- Stop at the first file that fails. -/
  failFast : Bool := false
  write : Bool := true
  preferences : Preferences := {}

/-- The choices of a batch by name, without workers and preferences. -/
def Config.members (c : Config) : List (String × Json) := [
  ("recursive", .bool c.recursive), ("max_files", .ofOption .nat c.maxFiles),
  ("progress_reporting", .bool c.progress), ("fail_fast", .bool c.failFast),
  ("write_output", .bool c.write)]

structure Success where
  path : String
  catalog : Catalog
  output : Option Written := none

def Success.toJson (s : Success) : Json :=
  .object [("path", .string s.path), ("records", .nat s.catalog.total),
    ("store_len", .nat s.catalog.inventory.size), ("output", .ofOption Written.toJson s.output)]

structure Failure where
  path : String
  error : CatalogError

structure Results where
  successes : List Success := []
  failures : List Failure := []
  processed : Nat := 0
  discovered : Nat := 0
  /-- Elapsed milliseconds. -/
  elapsed : Nat := 0

inductive Error where
  | directoryNotFound (path : String)
  | noFilesFound (path : String)
  | tooManyFiles (count limit : Nat)
  | ioError (reason : String)
  /-- A worker broke down. The workers here do not: their work has a result for every file. -/
  | threadError (reason : String)
deriving DecidableEq, Repr

namespace Error

def message : Error → String
  | .directoryNotFound path => s!"Directory not found: {path}"
  | .noFilesFound path => s!"No C source files found in directory: {path}"
  | .tooManyFiles count limit => s!"Too many files found: {count} (max: {limit})"
  | .ioError reason => s!"IO error during directory traversal: {reason}"
  | .threadError reason => s!"Worker thread error: {reason}"

def code : Error → String
  | .directoryNotFound _ => Code.directoryNotFound
  | .noFilesFound _ => Code.noSources
  | .tooManyFiles _ _ => Code.tooManyFiles
  | .ioError _ => Code.traversalFailed
  | .threadError _ => Code.workerFailed

/-- The error of a search at the directory that `path` leads to. -/
def ofListing (path : String) : ListingFault → Error
  | .closed reason => .ioError s!"{path}: {reason}"
  | .broken reason => .ioError reason

end Error

namespace Results

def successCount (r : Results) : Nat := r.successes.length

def failureCount (r : Results) : Nat := r.failures.length

/-- The share of successes among the processed files, to 53 binary digits. -/
def successRate (r : Results) : Decimal.Ratio :=
  (Decimal.Ratio.mk r.successCount r.processed).rounded

def count (r : Results) (k : Kind) : Nat := r.successes.foldl (fun n s => n + s.catalog.count k) 0

def total (r : Results) : Nat := Kind.all.foldl (fun n k => n + r.count k) 0

def addSuccess (r : Results) (s : Success) : Results :=
  { r with successes := r.successes ++ [s], processed := r.processed + 1 }

def addFailure (r : Results) (f : Failure) : Results :=
  { r with failures := r.failures ++ [f], processed := r.processed + 1 }

def merge (r s : Results) : Results :=
  { r with
    successes := r.successes ++ s.successes
    failures := r.failures ++ s.failures
    processed := r.processed + s.processed }

def sortByPath (r : Results) : Results :=
  { r with
    successes := r.successes.mergeSort fun a b => Path.compare a.path b.path != .gt
    failures := r.failures.mergeSort fun a b => Path.compare a.path b.path != .gt }

/-- The elapsed seconds: whole seconds and the rest, each held in 53 binary digits. -/
def seconds (r : Results) : Decimal.Ratio :=
  ((Decimal.Ratio.mk (r.elapsed / 1000) 1).rounded.add
    (Decimal.Ratio.mk (r.elapsed % 1000) 1000).rounded).rounded

def summary (r : Results) : String :=
  s!"Cataloged {r.successCount} of {r.processed} files "
    ++ "(" ++ (r.successRate.mul 100).rounded.fixed 1 ++ "%), "
    ++ s!"{r.failureCount} failed, {r.total} declarations, " ++ r.seconds.fixed 2 ++ "s total"

end Results

/-! ## Discovery -/

abbrev Discovery := ExceptT Error Logged

def say (e : Event) : Discovery Unit := ExceptT.lift (Logged.say (Log.post e))

def refuse {α : Type} (host : Host) (e : Error) (message : String)
    (context : List (String × String)) : Discovery α := do
  say ((Event.error host.limits e.code message).withContext context)
  throw e

/-- Paths in the order of their components. -/
def byPath (paths : List String) : List String :=
  ((paths.map fun path => (Path.components path, path)).mergeSort
    fun a b => compare a.1 b.1 != .gt).map Prod.snd

/-- The paths of the directories that are listed in a search below a directory, each behind those
that it is in. -/
def listed (tree : FileTree) (directory : String) (recursive : Bool) : List String :=
  match tree.resolve directory with
  | .error _ => []
  | .ok place =>
    directory :: (tree.below place).filterMap fun (names, node) =>
      let path := names.foldl Path.join directory
      match node with
      | .file _ => none
      | .directory => if recursive && tree.isDirectory path then some path else none

/-- List a directory. Only one that cannot be opened is reported. -/
def checkListing (host : Host) (path : String) : Discovery Unit :=
  match host.listingFault? path with
  | none => return ()
  | some fault =>
    match fault with
    | .closed reason =>
      refuse host (.ofListing path fault) "Failed to read directory" [
        ("path", path), ("io_error", reason)]
    | .broken _ => throw (.ofListing path fault)

/-- The paths of the sources below a directory. -/
def sources (tree : FileTree) (directory : String) (recursive : Bool) : List String :=
  match tree.resolve directory with
  | .error _ => []
  | .ok place =>
    (tree.below place).filterMap fun (names, node) =>
      let path := names.foldl Path.join directory
      match node with
      | .directory => none
      | .file _ =>
        if (recursive || names.length = 1) && Path.isSource path && tree.isFile path then some path
        else none

/-- The sources below a directory by path, as many as are wanted. The number of all sources is
limited, and every directory on the way has to be listed. -/
def discover (host : Host) (config : Config) (tree : FileTree) (directory : String) :
    Discovery (List String) := do
  say ((Event.info host.limits "Starting file discovery").withContext [
    ("directory", directory), ("recursive", toString config.recursive)])
  if !tree.isDirectory directory then
    refuse host (.directoryNotFound directory) "Directory not found" [("path", directory)]
  (listed tree directory config.recursive).forM (checkListing host)
  let found := sources tree directory config.recursive
  if found.isEmpty then
    refuse host (.noFilesFound directory) "No C source files found" [("path", directory)]
  if found.length > host.limits.maxFilesPerBatch then
    refuse host (.tooManyFiles found.length host.limits.maxFilesPerBatch)
      "Directory holds more files than one batch allows" [
        ("files_found", toString found.length), ("limit", toString host.limits.maxFilesPerBatch)]
  let sorted := byPath found
  let kept ← match config.maxFiles with
    | none => pure sorted
    | some limit =>
      if sorted.length > limit then
        say ((Event.info host.limits "Reached maximum file limit").withContext [
          ("files_found", toString sorted.length), ("limit", toString limit)])
        pure (sorted.take limit)
      else pure sorted
  say ((Event.success host.limits Code.discoveryComplete "File discovery completed").withContext [
    ("files_found", toString kept.length), ("directory", directory)])
  return kept

/-- Where the catalog of a file goes: its path below the batch's directory, below the output
directory. -/
def outputDirectory (output directory file : String) : String :=
  match Path.stripPrefix? directory file with
  | some relative =>
    if relative = "" then Path.join output ((Path.fileName? file).getD file)
    else Path.join output relative
  | none => Path.join output ((Path.fileName? file).getD file)

/-! ## Work -/

/-- A file and its number. -/
structure Job where
  id : Nat
  path : String

def jobs (files : List String) : List Job := files.zipIdx.map fun (path, id) => ⟨id, path⟩

abbrev Work := StateT FileTree Logged

def note (log : Log) : Work Unit := StateT.lift (Logged.say log)

/-- Catalog one file, and write the catalog if that is wanted. -/
def catalogOne (host : Host) (config : Config) (directory : String) (job : Job) :
    Work (Except CatalogError Success) := do
  let tree ← get
  if config.write then
    let writer : FileWriter :=
      { directory := outputDirectory config.preferences.output.directory directory job.path
        format := config.preferences.output.format
        source := some job.path }
    let result ← (Catalog.ofFileTo host config.preferences tree job.path job.id
      (writer.destination host)).run
    return result.map fun (catalog, written) => ⟨job.path, catalog, some written⟩
  else
    let result ← StateT.lift (Catalog.ofFile host config.preferences tree job.path job.id).run
    return result.map fun catalog => ⟨job.path, catalog, none⟩

/-- Catalog one file and add what came of it; the answer says whether it went well. -/
def process (host : Host) (config : Config) (directory : String) (r : Results) (job : Job) :
    Work (Results × Bool) := do
  match ← catalogOne host config directory job with
  | .ok success => return (r.addSuccess success, true)
  | .error e =>
    note (Log.post ((Event.debug host.limits "File cataloging failed").withContext [
      ("file", job.path), ("error", e.message)]))
    return (r.addFailure ⟨job.path, e⟩, false)

def doneEvent (host : Host) (r : Results) (workers : Nat) : Event :=
  (Event.success host.limits Code.batchComplete "Batch cataloging completed").withContext [
    ("files_processed", toString r.processed), ("successful", toString r.successCount),
    ("failed", toString r.failureCount), ("declarations", toString r.total),
    ("threads", toString workers), ("duration_ms", host.elapsedText)]

/-- The jobs in turn, up to the first failure if that is where to stop. -/
def runInTurn (host : Host) (config : Config) (directory : String) (count : Nat) (r : Results) :
    List Job → Work Results
  | [] => return r
  | job :: rest => do
    if config.progress then
      note [.print s!"Cataloging file {job.id + 1} of {count}: {job.path}"]
    let (r, ok) ← process host config directory r job
    if !ok && config.failFast then
      note (Log.post ((Event.info host.limits "Fail-fast enabled, stopping batch").withContext [
        ("file", job.path)]))
      return r
    else runInTurn host config directory count r rest

def sequential (host : Host) (config : Config) (directory : String) :
    ExceptT Error Work Results :=
  ExceptT.mk do
    note (Log.post ((Event.info host.limits "Starting sequential batch cataloging").withContext [
      ("directory", directory)]))
    match ← StateT.lift (discover host config (← get) directory).run with
    | .error e => return .error e
    | .ok files =>
      let r ← runInTurn host config directory files.length { discovered := files.length }
        (jobs files)
      let r := { r with elapsed := host.clock.elapsed }
      note (Log.post (doneEvent host r 1))
      return .ok r

/-- The list in pieces of `size`, the last one possibly shorter. -/
def shares {α : Type} (size : Nat) (fuel : Nat) (xs : List α) : List (List α) :=
  match fuel, xs with
  | 0, _ => []
  | _, [] => []
  | fuel + 1, xs => xs.take size :: shares size fuel (xs.drop size)

/-- One worker's share. Whether to stop is known to all workers. -/
def runShare (host : Host) (config : Config) (directory : String) (r : Results) (stop : Bool) :
    List Job → Work (Results × Bool)
  | [] => return (r, stop)
  | job :: rest =>
    if stop then return (r, stop)
    else do
      let (r, ok) ← process host config directory r job
      runShare host config directory r (!ok && config.failFast) rest

/-- The shares of all workers, each with results of its own that are merged. -/
def runShares (host : Host) (config : Config) (directory : String) (r : Results) (stop : Bool) :
    List (List Job) → Work Results
  | [] => return r
  | share :: rest => do
    let (part, stop) ← runShare host config directory {} stop share
    runShares host config directory (r.merge part) stop rest

/-- The shares of the workers. A file's number is counted from the number of files that each
worker in front has. -/
def assignments (workers : Nat) (files : List String) : List (List Job) :=
  let perWorker := (files.length + workers - 1) / workers
  (shares (max 1 perWorker) files.length files).zipIdx.map fun (share, worker) =>
    share.zipIdx.map fun (path, i) => ⟨worker * perWorker + i, path⟩

def Config.activeWorkers (config : Config) (host : Host) : Nat :=
  max 1 (min config.workers host.limits.maxWorkers)

/-- The files in shares, one worker's share behind the other's. That is one of the schedules that
workers at the same time may keep to; `Crew.Runs` has them all. -/
def parallel (host : Host) (config : Config) (directory : String) :
    ExceptT Error Work Results :=
  ExceptT.mk do
    let workers := config.activeWorkers host
    note (Log.post ((Event.info host.limits "Starting parallel batch cataloging").withContext [
      ("directory", directory), ("max_threads", toString workers)]))
    match ← StateT.lift (discover host config (← get) directory).run with
    | .error e => return .error e
    | .ok files =>
      let r ← runShares host config directory { discovered := files.length } false
        (assignments workers files)
      let r := { r.sortByPath with elapsed := host.clock.elapsed }
      note (Log.post (doneEvent host r workers))
      return .ok r

/-- One worker catalogs in turn, several in shares. -/
def run (host : Host) (config : Config) (directory : String) : ExceptT Error Work Results :=
  if config.workers ≤ 1 then sequential host config directory
  else parallel host config directory

end Batch

end CInventory
