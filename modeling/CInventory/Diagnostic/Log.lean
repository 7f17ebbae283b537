import CInventory.Diagnostic.Collector

/-!
# Logs

Work that has something to say returns it as a log beside its result. A log is replayed later,
in order.
-/

namespace CInventory.Diagnostic

inductive Entry where
  /-- Work on a file starts. -/
  | visit (ctx : FileContext)
  /-- An event, with the file it belongs to if that is already known. -/
  | post (ctx : Option FileContext) (event : Event)
  /-- A line for the standard output. -/
  | print (line : String)

/-- An entry of work on a file: an event that belongs to no file yet belongs to it. -/
def Entry.within (ctx : FileContext) : Entry → Entry
  | .post none e => .post (some ctx) e
  | entry => entry

abbrev Log := List Entry

namespace Log

def post (e : Event) : Log := [.post none e]

def ofEvents (events : List Event) : Log := events.map (.post none)

/-- The log of work on one file. -/
def within (ctx : FileContext) (log : Log) : Log := .visit ctx :: log.map (Entry.within ctx)

end Log

/-- A result and what was said on the way to it. -/
structure Logged (α : Type) where
  value : α
  log : Log := []

namespace Logged

instance : Monad Logged where
  pure value := { value }
  bind x f :=
    let y := f x.value
    ⟨y.value, x.log ++ y.log⟩

def say (log : Log) : Logged Unit := ⟨(), log⟩

/-- Do the work as work on one file. -/
def within {α : Type} (ctx : FileContext) (x : Logged α) : Logged α :=
  ⟨x.value, Log.within ctx x.log⟩

end Logged

end CInventory.Diagnostic
