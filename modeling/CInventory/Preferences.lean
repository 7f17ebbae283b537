import CInventory.Diagnostic.Level
import CInventory.Environment
import CInventory.Json

/-!
# Preferences

What a user chooses for a run. What is not chosen comes from the environment, and else has a
fixed value.
-/

namespace CInventory

/-- How an inventory is written. -/
inductive Format where
  /-- One text file for each kind. -/
  | text
  /-- The text files and a manifest. -/
  | json
deriving DecidableEq

namespace Format

def name : Format → String
  | .text => "text"
  | .json => "json"

/-- The format of exactly this name. -/
def ofName? (s : String) : Option Format := [Format.text, .json].find? (·.name = s)

/-- The format that a name or its short form stands for, in any case. -/
def parse? (s : String) : Option Format :=
  match Text.lower s with
  | "text" | "txt" => some .text
  | "json" => some .json
  | _ => none

end Format

structure ReadPreferences where
  /-- Refuse files that are neither sources nor headers. -/
  requireExtension : Bool := true
  /-- Log size and throughput of every file. -/
  performance : Bool := true
deriving DecidableEq

structure ScanPreferences where
  /-- Report incomplete constructs as warnings. -/
  reportIncomplete : Bool := false
  /-- Give these warnings a span. -/
  positions : Bool := true
deriving DecidableEq

structure OutputPreferences where
  directory : String := "output_files"
  format : Format := .text
deriving DecidableEq

structure LogPreferences where
  /-- Write events as JSON lines. -/
  structured : Bool := false
  level : Diagnostic.Level := .warning
  /-- Print what was collected at the end of a run. -/
  summary : Bool := true
  /-- Add the current file to each event. -/
  fileContext : Bool := true
deriving DecidableEq

structure Preferences where
  reading : ReadPreferences := {}
  scanning : ScanPreferences := {}
  output : OutputPreferences := {}
  logging : LogPreferences := {}
deriving DecidableEq

def ReadPreferences.ofEnvironment (env : Environment) : ReadPreferences where
  requireExtension := (env.bool? "CATALOG_REQUIRE_C_EXTENSION").getD true
  performance := (env.bool? "CATALOG_ENABLE_PERFORMANCE_LOGGING").getD true

def ScanPreferences.ofEnvironment (env : Environment) : ScanPreferences where
  reportIncomplete := (env.bool? "CATALOG_SCAN_REPORT_SKIPPED").getD false
  positions := (env.bool? "CATALOG_SCAN_INCLUDE_POSITIONS").getD true

def OutputPreferences.ofEnvironment (env : Environment) : OutputPreferences where
  directory := (env.get? "CATALOG_OUTPUT_DIR").getD "output_files"
  format := ((env.get? "CATALOG_OUTPUT_FORMAT").bind Format.parse?).getD .text

def LogPreferences.ofEnvironment (env : Environment) : LogPreferences where
  structured := (env.bool? "CATALOG_LOGGING_USE_STRUCTURED").getD false
  level := ((env.get? "CATALOG_LOGGING_MIN_LEVEL").bind Diagnostic.Level.parse?).getD .warning
  summary := (env.bool? "CATALOG_LOGGING_CARGO_STYLE").getD true
  fileContext := (env.bool? "CATALOG_LOGGING_INCLUDE_FILE_CONTEXT").getD true

/-- The variables that preferences are taken from. -/
def Preferences.environmentNames : List String := [
  "CATALOG_REQUIRE_C_EXTENSION", "CATALOG_ENABLE_PERFORMANCE_LOGGING",
  "CATALOG_SCAN_REPORT_SKIPPED", "CATALOG_SCAN_INCLUDE_POSITIONS",
  "CATALOG_OUTPUT_DIR", "CATALOG_OUTPUT_FORMAT",
  "CATALOG_LOGGING_USE_STRUCTURED", "CATALOG_LOGGING_MIN_LEVEL",
  "CATALOG_LOGGING_CARGO_STYLE", "CATALOG_LOGGING_INCLUDE_FILE_CONTEXT"]

def Preferences.ofEnvironment (env : Environment) : Preferences where
  reading := .ofEnvironment env
  scanning := .ofEnvironment env
  output := .ofEnvironment env
  logging := .ofEnvironment env

/-- The preferences by section. -/
def Preferences.members (p : Preferences) : List (String × Json) := [
  ("file_processor", .object [
    ("require_c_extension", .bool p.reading.requireExtension),
    ("enable_performance_logging", .bool p.reading.performance)]),
  ("scanning", .object [
    ("report_skipped_constructs", .bool p.scanning.reportIncomplete),
    ("include_positions_in_logs", .bool p.scanning.positions)]),
  ("output", .object [
    ("output_dir", .string p.output.directory), ("format", .string p.output.format.name)]),
  ("logging", .object [
    ("use_structured_logging", .bool p.logging.structured),
    ("min_log_level", .string p.logging.level.name),
    ("enable_cargo_style_output", .bool p.logging.summary),
    ("include_file_context", .bool p.logging.fileContext)])]

end CInventory
