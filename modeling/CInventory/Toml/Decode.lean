import CInventory.Limits
import CInventory.Preferences
import CInventory.Toml.Document

/-!
# Settings from documents

How preferences and limits are read from a document. A section is a table; a list gives its
fields by position. Members that mean nothing are passed over.
-/

namespace CInventory.Toml

/-- A section as its fields: by name, or by position. -/
inductive Section where
  | named (members : List (String × Value))
  | positional (items : List Value)

namespace Section

/-- A date has no field that a section asks for. -/
def ofValue? : Value → Option Section
  | .table members => some (.named members)
  | .array items => some (.positional items)
  | .datetime => some (.named [])
  | _ => none

def field? (s : Section) (name : String) (index : Nat) : Option Value :=
  match s with
  | .named members => members.lookup name
  | .positional items => items[index]?

end Section

/-- A field that may be missing; if it is there it has to be well formed. -/
def optionalField {α : Type} (s : Section) (name : String) (index : Nat)
    (decode : Value → Option α) (default : α) : Option α :=
  match s.field? name index with
  | some v => decode v
  | none => some default

def boolean? : Value → Option Bool
  | .boolean b => some b
  | _ => none

def string? : Value → Option String
  | .string s => some s
  | _ => none

def isEmptyGroup : Value → Bool
  | .table [] => true
  | .array [] => true
  | _ => false

/-- A choice by its name, as a text or as the one member of a table with nothing in it. -/
def choice? {α : Type} (ofName? : String → Option α) : Value → Option α
  | .string s => ofName? s
  | .table [(name, v)] => if isEmptyGroup v then ofName? name else none
  | _ => none

/-- A section that may be missing. -/
def optionalSection {α : Type} (root : Section) (name : String) (index : Nat)
    (decode : Section → Option α) (default : α) : Option α :=
  optionalField root name index (fun v => (Section.ofValue? v).bind decode) default

def readPreferences? (d : ReadPreferences) (s : Section) : Option ReadPreferences := do
  return {
    requireExtension := ← optionalField s "require_c_extension" 0 boolean? d.requireExtension
    performance := ← optionalField s "enable_performance_logging" 1 boolean? d.performance }

def scanPreferences? (d : ScanPreferences) (s : Section) : Option ScanPreferences := do
  return {
    reportIncomplete :=
      ← optionalField s "report_skipped_constructs" 0 boolean? d.reportIncomplete
    positions := ← optionalField s "include_positions_in_logs" 1 boolean? d.positions }

def outputPreferences? (d : OutputPreferences) (s : Section) : Option OutputPreferences := do
  return {
    directory := ← optionalField s "output_dir" 0 string? d.directory
    format := ← optionalField s "format" 1 (choice? Format.ofName?) d.format }

def logPreferences? (d : LogPreferences) (s : Section) : Option LogPreferences := do
  return {
    structured := ← optionalField s "use_structured_logging" 0 boolean? d.structured
    level := ← optionalField s "min_log_level" 1 (choice? Diagnostic.Level.ofName?) d.level
    summary := ← optionalField s "enable_cargo_style_output" 2 boolean? d.summary
    fileContext := ← optionalField s "include_file_context" 3 boolean? d.fileContext }

/-- The preferences of a document. What it leaves out keeps its default. -/
def preferences? (defaults : Preferences) (source : String) : Option Preferences := do
  let root := Section.named (← parse? source)
  return {
    reading := ← optionalSection root "file_processor" 0
      (readPreferences? defaults.reading) defaults.reading
    scanning := ← optionalSection root "scanning" 1
      (scanPreferences? defaults.scanning) defaults.scanning
    output := ← optionalSection root "output" 2
      (outputPreferences? defaults.output) defaults.output
    logging := ← optionalSection root "logging" 3
      (logPreferences? defaults.logging) defaults.logging }

/-! ## Limits -/

def natural? : Value → Option Nat
  | .integer (.ofNat n) => some n
  | _ => none

def requiredSection? (root : Section) (name : String) : Option Section :=
  (root.field? name 0).bind Section.ofValue?

def requiredNatural? (s : Section) (name : String) (index : Nat) : Option Nat :=
  (s.field? name index).bind natural?

/-- The limits of a document, all of which have to be given. -/
def limits? (source : String) : Option Limits := do
  let root := Section.named (← parse? source)
  let files ← requiredSection? root "file_processing"
  let scanning ← requiredSection? root "scanning"
  let batch ← requiredSection? root "batch_processing"
  let logging ← requiredSection? root "logging"
  return {
    maxFileSize := ← requiredNatural? files "max_file_size" 0
    largeFileThreshold := ← requiredNatural? files "large_file_threshold" 1
    maxLineCount := ← requiredNatural? files "max_line_count_for_analysis" 2
    largeCatalogThreshold := ← requiredNatural? scanning "large_catalog_threshold" 0
    maxReportedSkipped := ← requiredNatural? scanning "max_reported_skipped_constructs" 1
    maxWorkers := ← requiredNatural? batch "max_worker_threads" 0
    maxFilesPerBatch := ← requiredNatural? batch "max_files_per_batch" 1
    logBufferSize := ← requiredNatural? logging "log_buffer_size" 0
    maxEventsPerFile := ← requiredNatural? logging "max_log_events_per_file" 1
    maxMessageLength := ← requiredNatural? logging "max_log_message_length" 2 }

end CInventory.Toml
