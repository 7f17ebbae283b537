/-!
# Environments

The variables that a run sees.
-/

namespace CInventory

structure Environment where
  entries : List (String × String) := []

namespace Environment

def get? (env : Environment) (name : String) : Option String := env.entries.lookup name

/-- A variable that says exactly `true` or `false`; any other text counts as unset. -/
def bool? (env : Environment) (name : String) : Option Bool :=
  match env.get? name with
  | some "true" => some true
  | some "false" => some false
  | _ => none

end Environment

end CInventory
