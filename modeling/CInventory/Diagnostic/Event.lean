import CInventory.Assoc
import CInventory.Diagnostic.Code
import CInventory.Diagnostic.Level
import CInventory.Json
import CInventory.Limits
import CInventory.Span

/-!
# Events

What the program has to say about a run. An event is a value; when it is written as JSON the
time is given from outside.
-/

namespace CInventory.Diagnostic

structure Event where
  level : Level
  code : String
  message : String
  span : Option Span := none
  /-- Named details in order of their names. -/
  context : List (String × String) := []
deriving DecidableEq

namespace Event

/-- An event whose message is cut to the length that the limits allow. -/
def make (limits : Limits) (level : Level) (code message : String) : Event :=
  { level, code, message := Text.bounded limits.maxMessageLength message }

def error (limits : Limits) (code message : String) : Event := make limits .error code message

def warning (limits : Limits) (code message : String) : Event := make limits .warning code message

/-- An event of level info that carries a code. -/
def success (limits : Limits) (code message : String) : Event := make limits .info code message

def info (limits : Limits) (message : String) : Event := make limits .info Code.plainInfo message

def debug (limits : Limits) (message : String) : Event := make limits .debug Code.plainDebug message

/-- Add details. A later value of a name replaces an earlier one. -/
def withContext (e : Event) (pairs : List (String × String)) : Event :=
  { e with context := pairs.foldl (fun context (k, v) => Assoc.insert k v context) e.context }

def withSpan (e : Event) (span : Span) : Event := { e with span := some span }

def isError (e : Event) : Bool := e.level = .error

def isWarning (e : Event) : Bool := e.level = .warning

/-- What the registry says about the event's code. -/
def codeInfo (e : Event) : CodeInfo := Code.info e.code

/-- One line: level, code, message, place and details. -/
def format (e : Event) : String :=
  let place := match e.span with
    | some span => s!" at {span.start.shown}"
    | none => ""
  let details :=
    if e.context.isEmpty then ""
    else " \x7b" ++ ", ".intercalate (e.context.map fun (k, v) => k ++ "=" ++ v) ++ "\x7d"
  s!"[{e.level.label}] {e.code} - {e.message}{place}{details}"

def spanMembers (span : Span) : List (String × Json) := [
  ("end_column", .nat span.stop.column), ("end_line", .nat span.stop.line),
  ("start_column", .nat span.start.column), ("start_line", .nat span.start.line)]

def metadataMembers (info : CodeInfo) : List (String × Json) := [
  ("description", .string info.description), ("recommended_action", .string info.action),
  ("recoverable", .bool info.recoverable), ("requires_halt", .bool info.requiresHalt)]

/-- The event as JSON, with the members of every object in order of their names. -/
def toJson (e : Event) (timestamp : String) : Json :=
  .object <|
    [("category", .string e.codeInfo.category), ("code", .string e.code)]
    ++ (if e.context.isEmpty then []
      else [("context", .object (e.context.map fun (k, v) => (k, .string v)))])
    ++ (if e.isError then [("error_metadata", .object (metadataMembers e.codeInfo))] else [])
    ++ [("level", .string e.level.label), ("message", .string e.message),
      ("severity", .string e.codeInfo.severity.label)]
    ++ (match e.span with
      | some span => [("span", .object (spanMembers span))]
      | none => [])
    ++ [("timestamp", .string timestamp)]

end Event

end CInventory.Diagnostic
