import CInventory.Batch
import CInventory.Command.Args
import CInventory.Diagnostic.Session
import CInventory.Toml.Decode

/-!
# Runs

One run of the command, from its arguments to what it prints and its exit status. The outer
layer only supplies the file tree and the input, and carries out what is returned.
-/

namespace CInventory.Command

open Diagnostic Output

inductive ConfigError where
  | unreadable (path reason : String)
  | malformed (path : String)
deriving DecidableEq

def ConfigError.message : ConfigError → String
  | .unreadable path reason => s!"Failed to read configuration file {path}: {reason}"
  | .malformed path => s!"Invalid configuration in {path}: malformed document"

/-- The preferences that a text says, with those of the environment for the rest. -/
def preferencesOfText (env : Environment) (path text : String) : Except ConfigError Preferences :=
  match Toml.preferences? (.ofEnvironment env) text with
  | some prefs => .ok prefs
  | none => .error (.malformed path)

def preferencesOfFile (env : Environment) (tree : FileTree) (path : String) :
    Except ConfigError Preferences :=
  match tree.readText path with
  | .ok text => preferencesOfText env path text
  | .error e => .error (.unreadable path e.message)

/-- Defaults, then the configuration file, then the arguments. -/
def preferences (env : Environment) (tree : FileTree) (args : Args) :
    Except ConfigError Preferences := do
  let base ← match args.config with
    | some path => preferencesOfFile env tree path
    | none => pure (.ofEnvironment env)
  return { base with
    output := {
      directory := args.outputDirectory.getD base.output.directory
      format := args.format.getD base.output.format }
    logging := { base.logging with
      structured := args.structuredLogs || base.logging.structured
      level := args.logLevel.getD base.logging.level } }

def batchConfig (host : Host) (args : Args) (prefs : Preferences) : Batch.Config where
  workers := max 1 (args.workers.getD host.processors)
  recursive := !args.noRecursive
  maxFiles := args.maxFiles
  progress := !args.quiet
  failFast := args.failFast
  preferences := prefs

/-! ## The prompt -/

inductive PromptError where
  | noPath
  | invalidText
deriving DecidableEq

def PromptError.message : PromptError → String
  | .noPath => "no input path given"
  | .invalidText => "stream did not contain valid UTF-8"

def promptText : String := "Enter the path of the C source file: "

/-- The bytes through the first line feed, and the rest. -/
def firstLine (input : List UInt8) : List UInt8 × List UInt8 :=
  let line := input.takeWhile (· != 10)
  match input.dropWhile (· != 10) with
  | [] => (line, [])
  | feed :: rest => (line ++ [feed], rest)

/-- The path on the first line of the input, without the blanks around it. -/
def promptedPath (input : List UInt8) : Except PromptError String :=
  match String.fromUTF8? (firstLine input).1.toByteArray with
  | none => .error .invalidText
  | some line =>
    let path := Text.trimString line
    if path = "" then .error .noPath else .ok path

/-! ## Reports for people -/

def padRight (width : Nat) (s : String) : String := s.pushn ' ' (width - s.length)

def countLine (name : String) (n : Nat) : String := s!"  {padRight 10 name} {n}"

def printCounts (s : Session) (r : Catalog.Report) : Session :=
  let s := [Kind.constant, .function, .variable].foldl
    (fun s k => s.printLine (countLine k.collection (r.metrics.ofKind k))) s
  let s :=
    if r.metrics.incomplete > 0 then
      s.printLine s!"  skipped    {r.metrics.incomplete} (truncated or unterminated constructs)"
    else s
  match r.output with
  | some written => s.printLine s!"Wrote {written.records} declarations to {written.destination}"
  | none => s

def printFailures (s : Session) (r : Batch.Results) : Session :=
  if r.failureCount > 0 then
    r.failures.foldl
      (fun s f => s.printLine s!"  {f.path}: [{f.error.code}] {f.error.message}")
      (s.printLine "\nFailed Files:")
  else s

/-- Up to ten files are listed, more are only counted. -/
def printSuccesses (s : Session) (r : Batch.Results) : Session :=
  if r.successCount > 10 then s.printLine s!"\n{r.successCount} files cataloged"
  else if r.successCount > 0 then
    r.successes.foldl
      (fun s f => s.printLine s!"  {f.path}: {f.catalog.total} declarations")
      (s.printLine "\nCataloged Files:")
  else s

def printResults (s : Session) (r : Batch.Results) : Session :=
  let s := ((s.printLine "\nBatch Summary:").printLine s!"  Files discovered: {r.discovered}")
    |>.printLine s!"  {r.summary}"
  let s := Kind.all.foldl (fun s k => s.printLine (countLine k.collection (r.count k))) s
  let s := printSuccesses (printFailures s r) r
  let found := s.summary
  if found.totalErrors > 0 || found.totalWarnings > 0 then
    s.printLine s!"\nDiagnostics: {found.totalErrors} errors, {found.totalWarnings} warnings"
  else s

/-! ## Work -/

/-- What a run leaves behind. -/
structure Result where
  exit : Nat
  session : Session
  tree : FileTree

def catalogFile (host : Host) (prefs : Preferences) (quiet : Bool) (s : Session)
    (tree : FileTree) (path : String) : Result :=
  let s := if quiet then s else s.printLine s!"Cataloging file: {path}"
  let writer := { FileWriter.ofPreferences prefs.output with source := some path }
  let ⟨(result, tree), log⟩ :=
    ((Catalog.reportTo host prefs tree path (writer.destination host)).run).run tree
  let s := s.replay log
  match result with
  | .ok report =>
    let s := match prefs.output.format with
      | .json => s.printLine (report.toJson host).pretty
      | .text => printCounts s report
    ⟨0, s.printReport, tree⟩
  | .error e =>
    let s := s.printError s!"\nFAILED: {e.message}"
    let s := match e.kept? with
      | some catalog =>
        printCounts (s.printError "Scan completed but nothing was written:") catalog.report
      | none => s
    ⟨1, s.printReport, tree⟩

def catalogDirectory (host : Host) (config : Batch.Config) (s : Session) (tree : FileTree)
    (path : String) : Result :=
  let s :=
    if config.progress then
      let s := (s.printLine s!"Starting batch cataloging: {path}").printLine
        (s!"Configuration: {config.workers} threads, recursive={config.recursive}, "
          ++ s!"fail_fast={config.failFast}")
      match config.maxFiles with
      | some limit => s.printLine s!"File limit: {limit} files maximum"
      | none => s
    else s
  let ⟨(result, tree), log⟩ := ((Batch.run host config path).run).run tree
  let s := s.replay log
  match result with
  | .ok results =>
    ⟨if results.failureCount = 0 then 0 else 1, (printResults s results).printReport, tree⟩
  | .error e =>
    let s := s.printError s!"Batch cataloging failed: [{e.code}] {e.message}"
    ⟨1, s.printReport, tree⟩

/-- Give up before any file is worked on. -/
def abort (s : Session) (tree : FileTree) (reason : String) : Result :=
  ⟨1, (s.printError s!"Error: {reason}").printReport, tree⟩

/-- Install preferences and logger, and check that work can start. -/
def setUp (s : Session) (prefs : LogPreferences) : Session × Except Session.SetupError Unit :=
  match s.installPreferences prefs with
  | .error e => (s, .error e)
  | .ok s =>
    match s.start with
    | .error e => (s, .error e)
    | .ok s => s.validate

/-- A run with arguments that were understood. -/
def runWith (host : Host) (env : Environment) (tree : FileTree) (args : Args)
    (input : List UInt8) : Result :=
  let s : Session :=
    { limits := host.limits, environment := env, timestamp := host.clock.timestamp }
  match preferences env tree args with
  | .error e => abort s tree e.message
  | .ok prefs =>
    match setUp s prefs.logging with
    | (s, .error e) => abort s tree e.message
    | (s, .ok ()) =>
      let (s, path) : Session × Except PromptError String := match args.path with
        | some path => (s, .ok path)
        | none => (s.print promptText, promptedPath input)
      match path with
      | .error e => abort s tree e.message
      | .ok path =>
        if tree.isDirectory path then
          catalogDirectory host (batchConfig host args prefs) s tree path
        else catalogFile host prefs args.quiet s tree path

def versionText : String := "catalog 0.1.0"

def usageText : String :=
  "Catalog constant, variable and function declarations in C sources\n\n"
    ++ "Usage: catalog [OPTIONS] [PATH]"

def ArgError.message : ArgError → String
  | .unknownArgument => "error: unexpected argument"
  | .invalidValue => "error: a value is required"
  | .valueValidation => "error: invalid value"
  | .argumentConflict => "error: an argument cannot be used multiple times"
  | .tooManyValues => "error: unexpected value"
  | .displayHelp => usageText
  | .displayVersion => versionText

/-- One run. Arguments that are not understood end it with status 2. -/
def run (host : Host) (env : Environment) (tree : FileTree) (line : List String)
    (input : List UInt8) : Result :=
  let s : Session := { limits := host.limits, environment := env }
  match parse line with
  | .ok args => runWith host env tree args input
  | .error .displayHelp => ⟨0, s.printLine usageText, tree⟩
  | .error .displayVersion => ⟨0, s.printLine versionText, tree⟩
  | .error e => ⟨2, s.printError e.message, tree⟩

end CInventory.Command
