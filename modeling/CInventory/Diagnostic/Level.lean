import CInventory.Text.Lower

/-!
# Levels

How much an event matters, from errors down to debugging details.
-/

namespace CInventory.Diagnostic

inductive Level where
  | error
  | warning
  | info
  | debug
deriving DecidableEq

namespace Level

def rank : Level → Nat
  | .error => 0
  | .warning => 1
  | .info => 2
  | .debug => 3

/-- Whether an event of level `l` is shown where `least` is the last level that is. -/
def shownAt (l least : Level) : Bool := l.rank ≤ least.rank

def label : Level → String
  | .error => "ERROR"
  | .warning => "WARN"
  | .info => "INFO"
  | .debug => "DEBUG"

/-- The name in configuration files. -/
def name : Level → String
  | .error => "error"
  | .warning => "warning"
  | .info => "info"
  | .debug => "debug"

def all : List Level := [.error, .warning, .info, .debug]

/-- The level of exactly this name. -/
def ofName? (s : String) : Option Level := all.find? (·.name = s)

theorem ofName?_name (l : Level) : ofName? l.name = some l := by cases l <;> rfl

/-- The level that a name, its short form or its rank stands for, in any case. -/
def parse? (s : String) : Option Level :=
  match Text.lower s with
  | "error" | "0" => some .error
  | "warning" | "warn" | "1" => some .warning
  | "info" | "2" => some .info
  | "debug" | "3" => some .debug
  | _ => none

end Level

end CInventory.Diagnostic
