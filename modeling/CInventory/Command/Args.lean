import CInventory.Preferences

/-!
# Arguments

The command line as data. Options take one value, given behind an equals sign or as the next
argument; a value that came as an argument of its own is looked at only when the next option is
met or the line ends.
-/

namespace CInventory.Command

structure Args where
  path : Option String := none
  outputDirectory : Option String := none
  format : Option Format := none
  config : Option String := none
  noRecursive : Bool := false
  workers : Option Nat := none
  maxFiles : Option Nat := none
  failFast : Bool := false
  quiet : Bool := false
  structuredLogs : Bool := false
  logLevel : Option Diagnostic.Level := none
deriving DecidableEq

/-- The arguments by name; `workers` is the number of workers that is shown. -/
def Args.members (a : Args) (workers : Json) : List (String × Json) := [
  ("path", .ofOption .string a.path), ("output_dir", .ofOption .string a.outputDirectory),
  ("format", .ofOption (.string ·.name) a.format), ("config", .ofOption .string a.config),
  ("no_recursive", .bool a.noRecursive), ("threads", workers),
  ("max_files", .ofOption .nat a.maxFiles), ("fail_fast", .bool a.failFast),
  ("quiet", .bool a.quiet), ("structured_logs", .bool a.structuredLogs),
  ("log_level", .ofOption (.string ·.label) a.logLevel)]

inductive ArgError where
  | unknownArgument
  | invalidValue
  | valueValidation
  | argumentConflict
  | tooManyValues
  | displayHelp
  | displayVersion
deriving DecidableEq, Repr

/-- What an argument can set. -/
inductive Target where
  | path
  | outputDirectory
  | format
  | config
  | workers
  | maxFiles
  | logLevel
  | noRecursive
  | failFast
  | quiet
  | structuredLogs
  | help
  | version
deriving DecidableEq

namespace Target

def takesValue : Target → Bool
  | .path | .outputDirectory | .format | .config | .workers | .maxFiles | .logLevel => true
  | _ => false

def longNames : List (String × Target) := [
  ("output-dir", .outputDirectory), ("format", .format), ("config", .config),
  ("no-recursive", .noRecursive), ("threads", .workers), ("max-files", .maxFiles),
  ("fail-fast", .failFast), ("quiet", .quiet), ("structured-logs", .structuredLogs),
  ("log-level", .logLevel), ("help", .help), ("version", .version)]

def shortNames : List (Char × Target) := [('q', .quiet), ('h', .help), ('V', .version)]

end Target

/-- A number of at most 64 bits: digits, with or without a plus in front. -/
def count? (s : String) : Option Nat :=
  let digits := match s.toList with
    | '+' :: rest => rest
    | cs => cs
  if digits.isEmpty || !digits.all (fun c => '0' ≤ c && c ≤ '9') then none
  else
    let n := digits.foldl (fun n c => 10 * n + (c.toNat - '0'.toNat)) 0
    if n < 18446744073709551616 then some n else none

/-- A path, which must not be empty. -/
def pathValue (s : String) : Except ArgError String :=
  if s = "" then .error .invalidValue else .ok s

def parsed {α : Type} (value : Option α) : Except ArgError α :=
  match value with
  | some a => .ok a
  | none => .error .valueValidation

/-- Set an option to a value. -/
def Args.setValue (a : Args) (value : String) : Target → Except ArgError Args
  | .path => do return { a with path := some (← pathValue value) }
  | .outputDirectory => do return { a with outputDirectory := some (← pathValue value) }
  | .config => do return { a with config := some (← pathValue value) }
  | .format => do return { a with format := some (← parsed (Format.parse? value)) }
  | .workers => do return { a with workers := some (← parsed (count? value)) }
  | .maxFiles => do return { a with maxFiles := some (← parsed (count? value)) }
  | .logLevel => do return { a with logLevel := some (← parsed (Diagnostic.Level.parse? value)) }
  | _ => .ok a

def Args.setFlag (a : Args) : Target → Except ArgError Args
  | .noRecursive => .ok { a with noRecursive := true }
  | .failFast => .ok { a with failFast := true }
  | .quiet => .ok { a with quiet := true }
  | .structuredLogs => .ok { a with structuredLogs := true }
  | .help => .error .displayHelp
  | .version => .error .displayVersion
  | _ => .ok a

/-- How far a command line has been read. -/
structure Progress where
  args : Args := {}
  seen : List Target := []
  /-- An option whose value is not looked at yet, if it has one. -/
  pending : Option (Target × Option String) := none
  /-- The next argument may be the value of the pending option. -/
  awaiting : Bool := false
  hasPath : Bool := false
  /-- Options have ended. -/
  trailing : Bool := false

namespace Progress

/-- Set a target, which may be set only once. -/
def apply (p : Progress) (t : Target) (value : Option String) : Except ArgError Progress := do
  if t.takesValue && value.isNone then throw .invalidValue
  if p.seen.contains t then throw .argumentConflict
  let args ← match value with
    | some value => p.args.setValue value t
    | none => p.args.setFlag t
  return { p with args, seen := t :: p.seen }

/-- Look at the pending value. -/
def settle (p : Progress) : Except ArgError Progress :=
  match p.pending with
  | some (t, value) => { p with pending := none }.apply t value
  | none => .ok p

def set (p : Progress) (t : Target) (value : Option String) : Except ArgError Progress := do
  return { ← (← p.settle).apply t value with awaiting := false }

/-- An argument that starts with two dashes, as its name and the value behind an equals sign. -/
def readLong (p : Progress) (name : String) (value : Option String) :
    Except ArgError Progress :=
  match Target.longNames.lookup name, value with
  | none, _ => .error .unknownArgument
  | some t, some value => if t.takesValue then p.set t (some value) else .error .tooManyValues
  | some t, none =>
    if t.takesValue then do
      return { ← p.settle with pending := some (t, none), awaiting := true }
    else p.set t none

/-- The letters of an argument that starts with one dash. -/
def readShort (p : Progress) : List Char → Except ArgError Progress
  | [] => .ok p
  | c :: rest =>
    match Target.shortNames.lookup c with
    | none => .error .unknownArgument
    | some t => do (← p.set t none).readShort rest

def readPath (p : Progress) (arg : String) : Except ArgError Progress :=
  if p.hasPath then .error .unknownArgument
  else do
    return { ← p.settle with pending := some (.path, some arg), awaiting := false, hasPath := true }

/-- The name of a long option and the value behind the first equals sign. -/
def splitLong (cs : List Char) : String × Option String :=
  let name := String.ofList (cs.takeWhile (· != '='))
  match cs.dropWhile (· != '=') with
  | [] => (name, none)
  | _ :: value => (name, some (String.ofList value))

/-- An argument that names no option. -/
def readPlain (p : Progress) (arg : String) : Except ArgError Progress :=
  match p.awaiting, p.pending with
  | true, some (t, _) => .ok { p with pending := some (t, some arg), awaiting := false }
  | _, _ => p.readPath arg

def read (p : Progress) (arg : String) : Except ArgError Progress :=
  if p.trailing then p.readPath arg
  else
    match arg.toList with
    | ['-', '-'] => .ok { p with trailing := true }
    | '-' :: '-' :: rest =>
      let (name, value) := splitLong rest
      p.readLong name value
    | '-' :: c :: rest => p.readShort (c :: rest)
    | _ => p.readPlain arg

end Progress

/-- Read a command line, without the name of the program. -/
def parse (line : List String) : Except ArgError Args := do
  return (← (← line.foldlM Progress.read {}).settle).args

end CInventory.Command
