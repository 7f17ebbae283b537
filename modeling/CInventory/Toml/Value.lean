/-!
# TOML values

What a document of settings says. Floats and dates are checked when they are read; no setting
has such a value, so their content is not kept.
-/

namespace CInventory.Toml

inductive Value where
  | string (s : String)
  | integer (n : Int)
  | float
  | boolean (b : Bool)
  | datetime
  | array (items : List Value)
  | table (members : List (String × Value))

end CInventory.Toml
