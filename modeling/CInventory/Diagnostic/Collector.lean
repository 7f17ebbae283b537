import CInventory.Diagnostic.Event
import CInventory.Path

/-!
# Collectors

A collector keeps the events of each file up to a limit for the file and a limit for all files
together, and counts those it drops. Paths with the same components are one file, shown in the
spelling that came first.
-/

namespace CInventory.Diagnostic

/-- The file that is being worked on, and its number in the run. -/
structure FileContext where
  path : String
  id : Nat
deriving DecidableEq

structure FileEvents where
  /-- The path as it was first spelled. -/
  path : String
  events : Array Event := #[]

structure Collector where
  files : List (List Path.Component × FileEvents) := []
  contexts : List (List Path.Component × FileContext) := []
  dropped : Nat := 0

namespace Collector

def empty : Collector := {}

/-- The number of events that are kept. -/
def total (c : Collector) : Nat := c.files.foldl (fun n (_, file) => n + file.events.size) 0

def events (c : Collector) (path : String) : List Event :=
  match Assoc.get? (Path.components path) c.files with
  | some file => file.events.toList
  | none => []

def errors (c : Collector) (path : String) : List Event := (c.events path).filter Event.isError

def warnings (c : Collector) (path : String) : List Event := (c.events path).filter Event.isWarning

/-- Keep an event of a file, or count it as dropped when a limit is reached. -/
def record (c : Collector) (limits : Limits) (path : String) (e : Event) : Collector :=
  let key := Path.components path
  let kept := (c.events path).length < limits.maxEventsPerFile && c.total < limits.logBufferSize
  { c with
    files := Assoc.alter key
      (fun file =>
        let file := file.getD { path }
        if kept then { file with events := file.events.push e } else file)
      c.files
    dropped := if kept then c.dropped else c.dropped + 1 }

/-- Note that a file was visited. -/
def visit (c : Collector) (ctx : FileContext) : Collector :=
  { c with contexts := Assoc.insert (Path.components ctx.path) ctx c.contexts }

/-- Start again with nothing kept and nothing dropped. -/
def clear (_ : Collector) : Collector := empty

structure Summary where
  totalFiles : Nat := 0
  successfulFiles : Nat := 0
  failedFiles : Nat := 0
  filesWithWarnings : Nat := 0
  totalErrors : Nat := 0
  totalWarnings : Nat := 0
  droppedEvents : Nat := 0
deriving DecidableEq

def Summary.hasErrors (s : Summary) : Bool := s.totalErrors > 0

def Summary.toJson (s : Summary) : Json :=
  .object [("total_files", .nat s.totalFiles), ("successful_files", .nat s.successfulFiles),
    ("failed_files", .nat s.failedFiles), ("files_with_warnings", .nat s.filesWithWarnings),
    ("total_errors", .nat s.totalErrors), ("total_warnings", .nat s.totalWarnings),
    ("dropped_events", .nat s.droppedEvents), ("has_errors", .bool s.hasErrors)]

/-- Count one file by its events: it failed if there are errors. -/
def Summary.addFile (s : Summary) (events : List Event) : Summary :=
  let errors := events.countP Event.isError
  let warnings := events.countP Event.isWarning
  { s with
    totalFiles := s.totalFiles + 1
    successfulFiles := if errors > 0 then s.successfulFiles else s.successfulFiles + 1
    failedFiles := if errors > 0 then s.failedFiles + 1 else s.failedFiles
    filesWithWarnings :=
      if errors = 0 && warnings > 0 then s.filesWithWarnings + 1 else s.filesWithWarnings
    totalErrors := s.totalErrors + errors
    totalWarnings := s.totalWarnings + warnings }

/-- Visited files first, then those that only have events. -/
def summary (c : Collector) : Summary :=
  let visited := c.contexts.map fun (key, _) =>
    ((Assoc.get? key c.files).map (·.events.toList)).getD []
  let others := (c.files.filter fun (key, _) => !Assoc.contains key c.contexts).map
    fun (_, file) => file.events.toList
  (visited ++ others).foldl Summary.addFile { droppedEvents := c.dropped }

/-- Details that the heading of a file already gives. -/
def isFileDetail (key : String) : Bool := key = "file" || key = "file_id"

/-- An error or warning with its place, its details and, for errors, advice. -/
def reportEvent (path : String) (e : Event) : String :=
  let label := if e.isError then "error" else "warning"
  let place := match e.span with
    | some span => s!"\n  --> {path}:{span.start.shown}"
    | none => ""
  let details := (e.context.filter fun (k, _) => !isFileDetail k).map
    fun (k, v) => "  = " ++ k ++ ": " ++ v ++ "\n"
  let help :=
    if e.isError && e.codeInfo.action != "No specific action available" then
      "  = help: " ++ e.codeInfo.action ++ "\n"
    else ""
  s!"{label}[{e.code}]: {e.message}{place}\n" ++ String.join details ++ help

def reportFile (file : FileEvents) : String :=
  let shown := file.events.toList.filter fun e => e.isError || e.isWarning
  if shown.isEmpty then ""
  else s!"Cataloging {file.path}...\n" ++ String.join (shown.map (reportEvent file.path)) ++ "\n"

/-- The errors and warnings file by file, with the totals at the end. -/
def report (c : Collector) : String :=
  let s := c.summary
  String.join (c.files.map fun (_, file) => reportFile file)
    ++ (if s.totalErrors > 0 then s!"Total errors: {s.totalErrors}\n" else "")
    ++ (if s.totalWarnings > 0 then s!"Total warnings: {s.totalWarnings}\n" else "")
    ++ (if s.droppedEvents > 0 then s!"Events dropped over limit: {s.droppedEvents}\n" else "")

end Collector

end CInventory.Diagnostic
