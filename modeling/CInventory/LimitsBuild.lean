import CInventory.FileTree
import CInventory.Toml.Decode

/-!
# Building with limits

A build reads the limits of its profile from a document, checks them and writes them as
constants for the compiler.
-/

namespace CInventory.LimitsBuild

structure Request where
  /-- The directory of the package; the workspace lies above it. -/
  package : String
  profile : Option String := none
  configDirectory : Option String := none

namespace Request

def profileName (r : Request) : String := r.profile.getD "development"

def directory (r : Request) : String := r.configDirectory.getD "config"

def workspace (r : Request) : String := (Path.parent? r.package).getD ""

def configFile (r : Request) : String :=
  Path.join (Path.join r.workspace r.directory) (r.profileName ++ ".toml")

/-- What the build tool has to watch. -/
def watchLines (r : Request) : String :=
  "cargo:rerun-if-changed=build.rs\ncargo:rerun-if-env-changed=CATALOG_BUILD_PROFILE\n"
    ++ s!"cargo:rerun-if-env-changed=CATALOG_CONFIG_DIR\ncargo:rerun-if-changed={r.configFile}\n"

end Request

inductive Failure where
  | missing (r : Request)
  | unreadable (path reason : String)
  | malformed (path : String)
  | refused (why : Limits.Refusal)

def Failure.message : Failure → String
  | .missing r =>
    s!"Configuration file not found: {r.configFile}\nWorkspace root: {r.workspace}\n"
      ++ s!"Looking for: {r.workspace}/{r.directory}/{r.profileName}.toml"
  | .unreadable path reason => s!"Failed to read {path}: {reason}"
  | .malformed path => s!"Invalid TOML in {path}: malformed document"
  | .refused why => why.message

/-- One module of constants. -/
def group (name : String) (constants : List (String × String × Nat)) : String :=
  s!"    pub mod {name} \x7b\n"
    ++ String.join (constants.map fun (name, type, n) =>
      s!"        pub const {name}: {type} = {n};\n")
    ++ "    \x7d\n"

def constants (profile : String) (l : Limits) : String :=
  "\n// Generated compile-time constants from TOML configuration\n"
    ++ s!"// Profile: {profile}\n// DO NOT EDIT - Generated by build.rs\n\n"
    ++ "pub mod compile_time \x7b\n"
    ++ "\n".intercalate [
      group "file_processing" [
        ("MAX_FILE_SIZE", "u64", l.maxFileSize),
        ("LARGE_FILE_THRESHOLD", "u64", l.largeFileThreshold),
        ("MAX_LINE_COUNT_FOR_ANALYSIS", "usize", l.maxLineCount)],
      group "scanning" [
        ("LARGE_CATALOG_THRESHOLD", "usize", l.largeCatalogThreshold),
        ("MAX_REPORTED_SKIPPED_CONSTRUCTS", "usize", l.maxReportedSkipped)],
      group "batch_processing" [
        ("MAX_WORKER_THREADS", "usize", l.maxWorkers),
        ("MAX_FILES_PER_BATCH", "usize", l.maxFilesPerBatch)],
      group "logging" [
        ("LOG_BUFFER_SIZE", "usize", l.logBufferSize),
        ("MAX_LOG_EVENTS_PER_FILE", "usize", l.maxEventsPerFile),
        ("MAX_LOG_MESSAGE_LENGTH", "usize", l.maxMessageLength)]]
    ++ "\x7d\n"

/-- The constants for a request. -/
def run (tree : FileTree) (r : Request) : Except Failure String := do
  let path := r.configFile
  if !tree.hasPath path then throw (.missing r)
  let text ← (tree.readText path).mapError fun e => .unreadable path e.message
  match Toml.limits? text with
  | none => throw (.malformed path)
  | some limits =>
    (limits.validate r.profileName).mapError .refused
    return constants r.profileName limits

end CInventory.LimitsBuild
