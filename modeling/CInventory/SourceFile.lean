import CInventory.Decimal
import CInventory.Diagnostic.Log
import CInventory.FileTree
import CInventory.Host
import CInventory.Preferences
import CInventory.Text.Lines
import CInventory.Text.Quoted

/-!
# Source files

Reading checks a path, the size and the name of the file behind it, its encoding and its number
of lines, in this order. A source file is read completely or not at all.
-/

namespace CInventory

open Diagnostic

inductive ReadError where
  | fileNotFound (path : String)
  | invalidExtension (extension : Option String)
  | fileTooLarge (size limit : Nat)
  /-- No reading here ends with it: file trees have no permissions. -/
  | permissionDenied (path : String)
  | invalidEncoding (path : String)
  | ioError (message : String)
  | invalidPath (path : String)
  | tooManyLines (lines limit : Nat)
deriving DecidableEq, Repr

namespace ReadError

def message : ReadError → String
  | .fileNotFound path => s!"File not found: {path}"
  | .invalidExtension ext =>
    "Invalid file extension: expected .c or .h, found " ++ Text.quoteOption ext
  | .fileTooLarge size limit => s!"File too large: {size} bytes (max: {limit})"
  | .permissionDenied path => s!"Permission denied: {path}"
  | .invalidEncoding path => s!"Invalid UTF-8 encoding in file: {path}"
  | .ioError message => s!"I/O error reading file: {message}"
  | .invalidPath path => s!"Invalid file path: {path}"
  | .tooManyLines lines limit => s!"File exceeds maximum line count: {lines} (max: {limit})"

def code : ReadError → String
  | .fileNotFound _ => Code.fileNotFound
  | .invalidExtension _ => Code.invalidExtension
  | .fileTooLarge _ _ => Code.fileTooLarge
  | .permissionDenied _ => Code.permissionDenied
  | .invalidEncoding _ => Code.invalidEncoding
  | .ioError _ => Code.readFailure
  | .invalidPath _ => Code.invalidPath
  | .tooManyLines _ _ => Code.tooManyLines

end ReadError

/-- What is known of a file besides its text. -/
structure FileInfo where
  path : String
  size : Nat
  /-- In lower case. -/
  extension : Option String
  lineCount : Nat := 0
deriving DecidableEq

namespace FileInfo

def isSource (i : FileInfo) : Bool :=
  match i.extension with
  | some ext => Path.sourceExtensions.contains ext
  | none => false

def isHeader (i : FileInfo) : Bool := i.extension = some "h"

def isLarge (i : FileInfo) (limits : Limits) : Bool := i.size > limits.largeFileThreshold

def humanSize (i : FileInfo) : String := Decimal.humanSize i.size

/-- The last name of the path, or the path itself when it ends in none. -/
def fileName (i : FileInfo) : String := (Path.fileName? i.path).getD i.path

def extensionText (i : FileInfo) : String := i.extension.getD "none"

def toJson (i : FileInfo) (limits : Limits) : Json :=
  .object [("path", .string i.path), ("size", .nat i.size),
    ("extension", .ofOption .string i.extension), ("line_count", .nat i.lineCount),
    ("is_c_source", .bool i.isSource), ("header", .bool i.isHeader),
    ("large", .bool (i.isLarge limits)), ("human", .string i.humanSize),
    ("file_name", .string i.fileName)]

end FileInfo

structure SourceFile where
  text : String
  info : FileInfo

namespace SourceFile

/-- Reading can fail, and says what it does. -/
abbrev Reading := ExceptT ReadError Logged

def say (e : Event) : Reading Unit := ExceptT.lift (Logged.say (Log.post e))

/-- Report an error and give up. -/
def refuse {α : Type} (host : Host) (e : ReadError) (message : String)
    (context : List (String × String)) : Reading α := do
  say ((Event.error host.limits e.code message).withContext context)
  throw e

/-- The place of the file that a path names. The way there from the root has to be one that can be
followed as well, for the file is read by it. -/
def locate (host : Host) (tree : FileTree) (path : String) : Reading Location := do
  if path = "" then
    refuse host (.invalidPath path) "Empty file path provided" []
  match tree.resolve path with
  | .error _ => refuse host (.fileNotFound path) "File not found" [("path", path)]
  | .ok place =>
    if tree.isFile path then
      match tree.resolve (FileTree.locationText place) with
      | .ok _ => return place
      | .error e =>
        refuse host (.ioError s!"Failed to resolve path '{path}': {e.message}")
          "Failed to canonicalize path" [("path", path), ("io_error", e.message)]
    else refuse host (.invalidPath path) "Path is not a file" [("path", path)]

/-- Size and name of the file at a place. -/
def inspect (host : Host) (tree : FileTree) (place : Location) : Reading FileInfo := do
  let path := FileTree.locationText place
  match tree.readBytes path with
  | .error e =>
    refuse host (.ioError s!"Failed to read metadata for '{path}': {e.message}")
      "Failed to read file metadata" [("path", path), ("io_error", e.message)]
  | .ok content =>
    let info : FileInfo :=
      { path, size := content.size, extension := (Path.extension? path).map Text.lower }
    say ((Event.debug host.limits "File metadata collected").withContext [
      ("size_human", info.humanSize), ("extension", info.extensionText),
      ("is_c_source", toString info.isSource)])
    return info

/-- Refuse a file for its size or its name. -/
def accept (host : Host) (prefs : ReadPreferences) (info : FileInfo) : Reading Unit := do
  if info.size > host.limits.maxFileSize then
    refuse host (.fileTooLarge info.size host.limits.maxFileSize)
      "File exceeds maximum size limit" [
        ("file", info.path), ("size_human", info.humanSize),
        ("limit_human", Decimal.humanSize host.limits.maxFileSize)]
  if prefs.requireExtension && !info.isSource then
    refuse host (.invalidExtension info.extension) "File is not a C source or header" [
      ("file", info.path), ("extension", info.extensionText), ("required", ".c or .h")]

def readContent (host : Host) (tree : FileTree) (path : String) : Reading String := do
  match tree.readText path with
  | .ok text => return text
  | .error e =>
    let error := match e with
      | .invalidText => ReadError.invalidEncoding path
      | e => .ioError s!"Failed to read file '{path}': {e.message}"
    refuse host error "Failed to read file" [("file", path), ("io_error", e.message)]

/-- Characters for each elapsed millisecond, with two places. -/
def throughput (host : Host) (chars : Nat) : String :=
  if host.clock.elapsed = 0 then "0.00"
  else (Decimal.Ratio.mk chars host.clock.elapsed).rounded.fixed 2

def readEvent (host : Host) (prefs : ReadPreferences) (file : SourceFile) : Event :=
  let info := file.info
  if prefs.performance then
    (Event.success host.limits Code.fileRead "File read with performance metrics").withContext [
      ("file", info.path), ("size_human", info.humanSize), ("lines", toString info.lineCount),
      ("chars", toString file.text.length), ("duration_ms", host.elapsedText),
      ("chars_per_ms", throughput host file.text.length),
      ("is_large_file", toString (info.isLarge host.limits))]
  else
    (Event.success host.limits Code.fileRead "File read").withContext [
      ("file", info.path), ("size_bytes", toString info.size),
      ("lines", toString info.lineCount), ("duration_ms", host.elapsedText)]

/-- Read the file that a path names. -/
def read (host : Host) (prefs : ReadPreferences) (tree : FileTree) (path : String) :
    Reading SourceFile := do
  say ((Event.debug host.limits "Starting file processing").withContext [("file", path)])
  let place ← locate host tree path
  let info ← inspect host tree place
  accept host prefs info
  let text ← readContent host tree info.path
  let lines := Text.lineCount text.toList
  if lines > host.limits.maxLineCount then
    refuse host (.tooManyLines lines host.limits.maxLineCount) "File exceeds maximum line count" [
      ("file", info.path), ("lines", toString lines),
      ("max_lines", toString host.limits.maxLineCount)]
  let file : SourceFile := ⟨text, { info with lineCount := lines }⟩
  say (readEvent host prefs file)
  return file

end SourceFile

end CInventory
