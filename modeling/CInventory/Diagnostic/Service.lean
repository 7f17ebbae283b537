import CInventory.Diagnostic.Event

/-!
# Logging services

A service passes the events from a level on to one sink: memory, plain lines or JSON lines.
-/

namespace CInventory.Diagnostic

inductive Sink where
  | memory
  | plain
  | structured
deriving DecidableEq

structure Service where
  sink : Sink
  level : Level
  /-- What the memory holds. -/
  kept : Array Event := #[]
  /-- What was printed, one text for each line feed behind it. -/
  printed : Array String := #[]

namespace Service

def shows (s : Service) (level : Level) : Bool := level.shownAt s.level

def log (s : Service) (timestamp : String) (e : Event) : Service :=
  if s.shows e.level then
    match s.sink with
    | .memory => { s with kept := s.kept.push e }
    | .plain => { s with printed := s.printed.push e.format }
    | .structured => { s with printed := s.printed.push (e.toJson timestamp).compact }
  else s

def events (s : Service) : List Event := s.kept.toList

def errors (s : Service) : List Event := s.events.filter Event.isError

def warnings (s : Service) : List Event := s.events.filter Event.isWarning

def hasCode (s : Service) (code : String) : Bool := s.events.any (·.code = code)

def clear (s : Service) : Service := { s with kept := #[] }

end Service

end CInventory.Diagnostic
