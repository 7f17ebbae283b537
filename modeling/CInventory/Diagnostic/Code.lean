/-!
# Diagnostic codes

Every code that the program emits is registered with a category, a severity and advice. A code
that is not registered has the entry `Code.unknown`.
-/

namespace CInventory.Diagnostic

inductive Severity where
  | critical
  | high
  | medium
  | low
deriving DecidableEq

def Severity.label : Severity → String
  | .critical => "Critical"
  | .high => "High"
  | .medium => "Medium"
  | .low => "Low"

structure CodeInfo where
  code : String
  category : String
  severity : Severity
  recoverable : Bool
  requiresHalt : Bool
  description : String
  action : String
deriving DecidableEq

namespace Code

def internalError : String := "ERR001"
def initializationFailure : String := "ERR002"
def configurationError : String := "ERR003"
def fileNotFound : String := "E005"
def invalidExtension : String := "E006"
def fileTooLarge : String := "E007"
def tooManyLines : String := "E008"
def permissionDenied : String := "E009"
def invalidEncoding : String := "E010"
def readFailure : String := "E011"
def invalidPath : String := "E012"
def unclosedComment : String := "W020"
def truncatedDeclaration : String := "W021"
def unclosedBody : String := "W022"
def largeCatalog : String := "W023"
def directoryUnavailable : String := "E040"
def writeFailed : String := "E041"
def manifestFailed : String := "E042"
def directoryNotFound : String := "E060"
def noSources : String := "E061"
def traversalFailed : String := "E062"
def workerFailed : String := "E063"
def tooManyFiles : String := "E064"
def initialized : String := "I004"
def fileRead : String := "I006"
def scanComplete : String := "I020"
def catalogWritten : String := "I040"
def fileCataloged : String := "I050"
def discoveryComplete : String := "I060"
def batchComplete : String := "I061"

/-- Codes of events that carry none of their own. -/
def plainWarning : String := "W000"
def plainInfo : String := "I000"
def plainDebug : String := "D000"

def registry : List CodeInfo := [
  ⟨internalError, "System", .critical, false, true,
    "Critical internal error",
    "File a bug report with the input that triggered it"⟩,
  ⟨initializationFailure, "System", .critical, false, true,
    "Logging or runtime initialization failed",
    "Check that initialization runs once per process"⟩,
  ⟨configurationError, "System", .high, false, true,
    "Runtime configuration could not be loaded",
    "Fix the configuration file or remove the --config flag"⟩,
  ⟨fileNotFound, "FileProcessing", .high, false, true,
    "Input file does not exist",
    "Check the path passed to the catalog"⟩,
  ⟨invalidExtension, "FileProcessing", .medium, false, true,
    "Input is not a C source (.c) or header (.h) file",
    "Pass a .c or .h file or disable the extension requirement"⟩,
  ⟨fileTooLarge, "FileProcessing", .high, false, true,
    "Input exceeds the compile-time size limit",
    "Split the file or build with a profile that allows larger inputs"⟩,
  ⟨tooManyLines, "FileProcessing", .high, false, true,
    "Input exceeds the compile-time line limit",
    "Split the file or build with a profile that allows more lines"⟩,
  ⟨permissionDenied, "FileProcessing", .high, false, true,
    "Input file cannot be read due to permissions",
    "Grant read permission on the file"⟩,
  ⟨invalidEncoding, "FileProcessing", .medium, false, true,
    "Input file is not valid UTF-8",
    "Convert the file to UTF-8"⟩,
  ⟨readFailure, "FileProcessing", .high, false, true,
    "I/O failure while reading the input",
    "Check the file system and retry"⟩,
  ⟨invalidPath, "FileProcessing", .medium, false, true,
    "Input path is empty or not a regular file",
    "Pass the path of a regular file"⟩,
  ⟨unclosedComment, "Scanning", .low, true, false,
    "Block comment reaches end of input without */",
    "Close the comment if the trailing text should be cataloged"⟩,
  ⟨truncatedDeclaration, "Scanning", .low, true, false,
    "Type keyword without ';', '=' or '\x7b' before end of input",
    "Complete the declaration"⟩,
  ⟨unclosedBody, "Scanning", .low, true, false,
    "Function body is not closed before end of input",
    "Balance the braces of the function body"⟩,
  ⟨largeCatalog, "Scanning", .low, true, false,
    "Catalog holds more records than the large-catalog threshold",
    "No action needed unless the count is unexpected"⟩,
  ⟨directoryUnavailable, "Output", .high, true, false,
    "Output directory cannot be created or is not a directory",
    "Choose a writable output directory"⟩,
  ⟨writeFailed, "Output", .high, true, false,
    "Writing a catalog file failed",
    "Check free space and permissions on the output directory"⟩,
  ⟨manifestFailed, "Output", .medium, true, false,
    "Catalog manifest could not be serialized",
    "Use the text output format"⟩,
  ⟨directoryNotFound, "Batch", .high, false, true,
    "Input directory does not exist",
    "Check the directory path"⟩,
  ⟨noSources, "Batch", .medium, false, true,
    "No .c or .h files found in the directory",
    "Point the catalog at a directory containing C sources"⟩,
  ⟨traversalFailed, "Batch", .high, false, true,
    "Directory traversal failed",
    "Check directory permissions"⟩,
  ⟨workerFailed, "Batch", .critical, false, true,
    "A batch worker thread panicked",
    "Rerun with --threads 1 and file a bug report"⟩,
  ⟨tooManyFiles, "Batch", .medium, false, true,
    "Directory holds more files than the batch limit",
    "Use --max-files or catalog subdirectories separately"⟩,
  ⟨initialized, "Success", .low, true, false,
    "Logging initialized",
    "None"⟩,
  ⟨fileRead, "Success", .low, true, false,
    "Input file read",
    "None"⟩,
  ⟨scanComplete, "Success", .low, true, false,
    "Scan completed",
    "None"⟩,
  ⟨catalogWritten, "Success", .low, true, false,
    "Catalog written",
    "None"⟩,
  ⟨fileCataloged, "Success", .low, true, false,
    "File cataloged",
    "None"⟩,
  ⟨discoveryComplete, "Success", .low, true, false,
    "Source discovery completed",
    "None"⟩,
  ⟨batchComplete, "Success", .low, true, false,
    "Batch completed",
    "None"⟩]

/-- The entry that stands for a code outside the registry. -/
def unknown (code : String) : CodeInfo :=
  ⟨code, "Unknown", .medium, true, false, "Unknown error", "No specific action available"⟩

def find? (code : String) : Option CodeInfo := registry.find? (·.code = code)

def info (code : String) : CodeInfo := (find? code).getD (unknown code)

/-- Codes without which the program does not start. -/
def required : List String := [
  internalError, fileNotFound, invalidEncoding, truncatedDeclaration, writeFailed, noSources,
  scanComplete]

end Code

end CInventory.Diagnostic
