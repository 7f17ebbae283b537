import CInventory.Diagnostic.Log
import CInventory.Preferences
import CInventory.Text.Blank

/-!
# Sessions

A session is what a run keeps for its events: the installed preferences, the logger, the
collector and the current file, and the lines that were printed. Without installed preferences
those of the environment hold.
-/

namespace CInventory.Diagnostic

/-- Where events are printed, and from which level on. -/
structure Logger where
  structured : Bool
  level : Level
deriving DecidableEq

/-- The line that a logger prints for an event it shows. -/
def Logger.line (l : Logger) (timestamp : String) (e : Event) : String :=
  if l.structured then (e.toJson timestamp).compact else e.format

structure Session where
  limits : Limits
  environment : Environment := {}
  timestamp : String := ""
  preferences : Option LogPreferences := none
  logger : Option Logger := none
  collector : Option Collector := none
  context : Option FileContext := none
  stdout : String := ""
  /-- What was printed on the error output, one text for each line feed behind it. -/
  stderr : Array String := #[]

namespace Session

/-- The preferences in force. -/
def settings (s : Session) : LogPreferences :=
  s.preferences.getD (.ofEnvironment s.environment)

def printError (s : Session) (line : String) : Session := { s with stderr := s.stderr.push line }

def print (s : Session) (text : String) : Session := { s with stdout := s.stdout ++ text }

def printLine (s : Session) (line : String) : Session := s.print (line ++ "\n")

/-- Print an event if there is a logger and its level is shown. -/
def emit (s : Session) (e : Event) : Session :=
  match s.logger with
  | some logger =>
    if e.level.shownAt logger.level then s.printError (logger.line s.timestamp e) else s
  | none => s

/-- Add the file to an event's details, if that is wanted. -/
def decorate (s : Session) (ctx : Option FileContext) (e : Event) : Event :=
  match ctx with
  | some ctx =>
    if s.settings.fileContext then
      e.withContext [("file", ctx.path), ("file_id", toString ctx.id)]
    else e
  | none => e

/-- Errors and warnings about a file are collected; then the event is printed. -/
def dispatch (s : Session) (ctx : Option FileContext) (e : Event) : Session :=
  let e := s.decorate ctx e
  let collector :=
    if e.isError || e.isWarning then
      match ctx, s.collector with
      | some ctx, some c => some (c.record s.limits ctx.path e)
      | _, c => c
    else s.collector
  { s with collector }.emit e

/-- Make a file the current one. -/
def enter (s : Session) (ctx : FileContext) : Session :=
  { s with collector := s.collector.map (·.visit ctx), context := some ctx }

def leave (s : Session) (previous : Option FileContext) : Session := { s with context := previous }

def perform (s : Session) : Entry → Session
  | .visit ctx => { s with collector := s.collector.map (·.visit ctx) }
  | .post (some ctx) e => s.dispatch (some ctx) e
  | .post none e => s.dispatch s.context e
  | .print line => s.printLine line

def replay (s : Session) (log : Log) : Session := log.foldl perform s

/-- Why a session cannot be set up. -/
inductive SetupError where
  | preferencesInstalled
  | invalidLimits (fault : String)
  | missingCode (code : String)
  | loggerInstalled
  | unregisteredCode (code : String)
  | unusableLimits (fault : String)
deriving DecidableEq

def SetupError.message : SetupError → String
  | .preferencesInstalled => "Runtime logging preferences already initialized"
  | .invalidLimits fault => s!"Configuration validation failed: {fault}"
  | .missingCode code => s!"Missing metadata for code: {code}"
  | .loggerInstalled => "Global logger already initialized"
  | .unregisteredCode code => s!"Code {code} has no registered metadata"
  | .unusableLimits fault => fault

def installPreferences (s : Session) (prefs : LogPreferences) : Except SetupError Session :=
  match s.preferences with
  | some _ => .error .preferencesInstalled
  | none => .ok { s with preferences := some prefs }

/-- Install the logger that the preferences ask for, and an empty collector. -/
def start (s : Session) : Except SetupError Session := do
  if let some fault := s.limits.loggingFault? then throw (.invalidLimits fault)
  if let some code := Code.required.find? fun code => (Code.find? code).isNone then
    throw (.missingCode code)
  if s.logger.isSome then throw .loggerInstalled
  let logger : Logger := ⟨s.settings.structured, s.settings.level⟩
  let s := { s with logger := some logger, collector := some .empty }
  return s.emit (.success s.limits Code.initialized "Global logging system initialized")

/-- Where the limits of this build come from. -/
def limitsOrigin : String := "Generated from config/development.toml"

/-- Check the registry and the limits before any file is worked on. -/
def validate (s : Session) : Session × Except SetupError Unit :=
  let s := s.dispatch s.context (.debug s.limits "Validating catalog pipeline configuration")
  match Code.required.find? (fun code => (Code.find? code).isNone), s.limits.loggingFault? with
  | some code, _ => (s, .error (.unregisteredCode code))
  | none, some fault => (s, .error (.unusableLimits fault))
  | none, none =>
    let done := (Event.success s.limits Code.initialized "Catalog pipeline validated").withContext [
      ("required_codes", toString Code.required.length), ("config", limitsOrigin)]
    (s.dispatch s.context done, .ok ())

def configSummary (s : Session) : String :=
  let p := s.settings
  s!"Logging Configuration ({limitsOrigin}):\n  Min level: {p.level.label}\n"
    ++ s!"  Structured: {p.structured}\n  Cargo-style summary: {p.summary}\n"
    ++ s!"  File context: {p.fileContext}\n  Buffer size: {s.limits.logBufferSize}\n"
    ++ s!"  Events per file: {s.limits.maxEventsPerFile}\n"

/-- The state of the session by name. -/
def members (s : Session) : List (String × Json) :=
  let p := s.settings
  [("logger_level", .ofOption (.string ·.level.label) s.logger),
    ("has_collector", .bool s.collector.isSome),
    ("debug_enabled", .bool (s.logger.any fun l => Level.debug.shownAt l.level)),
    ("min_level", .string p.level.label), ("structured", .bool p.structured),
    ("cargo_style", .bool p.summary), ("file_context", .bool p.fileContext),
    ("buffer", .nat s.limits.logBufferSize), ("per_file", .nat s.limits.maxEventsPerFile),
    ("config_summary", .string s.configSummary)]

def summary (s : Session) : Collector.Summary := (s.collector.map Collector.summary).getD {}

/-- Print what was collected, if that is wanted and there is anything. -/
def printReport (s : Session) : Session :=
  match s.settings.summary, s.collector with
  | true, some c =>
    let report := Text.trimEndString c.report
    if report = "" then s else s.printError report
  | _, _ => s

end Session

end CInventory.Diagnostic
