/-!
# JSON values

Values with the members of an object in the order in which they are written, and two printers:
one line without blanks, and indented lines.
-/

namespace CInventory

inductive Json where
  | null
  | bool (b : Bool)
  | nat (n : Nat)
  /-- A whole number of a measured quantity, written with a point. -/
  | real (n : Nat)
  | string (s : String)
  | array (items : List Json)
  | object (members : List (String × Json))

namespace Json

def strings (xs : List String) : Json := .array (xs.map .string)

/-- A value that may be missing. -/
def ofOption {α : Type} (f : α → Json) : Option α → Json
  | some a => f a
  | none => .null

mutual

/-- The value with every text in it changed. -/
def mapStrings (f : String → String) : Json → Json
  | .string s => .string (f s)
  | .array items => .array (mapItems f items)
  | .object members => .object (mapMembers f members)
  | value => value

def mapItems (f : String → String) : List Json → List Json
  | [] => []
  | item :: rest => item.mapStrings f :: mapItems f rest

def mapMembers (f : String → String) : List (String × Json) → List (String × Json)
  | [] => []
  | (key, value) :: rest => (key, value.mapStrings f) :: mapMembers f rest

end

def hexDigit (n : Nat) : Char := "0123456789abcdef".toList.getD n '0'

/-- The form of one character inside quotes: quotes, backslashes and control characters are
escaped. -/
def escape (c : Char) : String :=
  if c = '"' then "\\\""
  else if c = '\\' then "\\\\"
  else if c = '\x08' then "\\b"
  else if c = '\x0c' then "\\f"
  else if c = '\n' then "\\n"
  else if c = '\r' then "\\r"
  else if c = '\t' then "\\t"
  else if c.toNat < 0x20 then
    (("\\u00".push (hexDigit (c.toNat / 16))).push (hexDigit (c.toNat % 16)))
  else c.toString

def quoted (s : String) : String := (s.foldl (fun out c => out ++ escape c) "\"").push '"'

def scalar : Json → String
  | .null => "null"
  | .bool true => "true"
  | .bool false => "false"
  | .nat n => toString n
  | .real n => s!"{n}.0"
  | .string s => quoted s
  | .array _ => "[]"
  | .object _ => "\x7b\x7d"

mutual

/-- Write a value behind `out` without blanks. -/
def compactOnto (out : String) : Json → String
  | .array items => (compactItems (out.push '[') "" items).push ']'
  | .object members => (compactMembers (out.push '\x7b') "" members).push '\x7d'
  | value => out ++ value.scalar

def compactItems (out sep : String) : List Json → String
  | [] => out
  | item :: rest => compactItems (compactOnto (out ++ sep) item) "," rest

def compactMembers (out sep : String) : List (String × Json) → String
  | [] => out
  | (key, value) :: rest =>
    compactMembers (compactOnto (out ++ sep ++ quoted key ++ ":") value) "," rest

end

def compact (value : Json) : String := compactOnto "" value

/-- A line end and two blanks for each level. -/
def lineStart (level : Nat) : String := "\n".pushn ' ' (2 * level)

mutual

/-- Write a value behind `out` with each item and member on a line of its own. -/
def prettyOnto (level : Nat) (out : String) : Json → String
  | .array (item :: rest) =>
    (prettyItems (level + 1) (out.push '[') "" (item :: rest)) ++ lineStart level ++ "]"
  | .object (member :: rest) =>
    (prettyMembers (level + 1) (out.push '\x7b') "" (member :: rest)) ++ lineStart level ++ "\x7d"
  | value => out ++ value.scalar

def prettyItems (level : Nat) (out sep : String) : List Json → String
  | [] => out
  | item :: rest =>
    prettyItems level (prettyOnto level (out ++ sep ++ lineStart level) item) "," rest

def prettyMembers (level : Nat) (out sep : String) : List (String × Json) → String
  | [] => out
  | (key, value) :: rest =>
    prettyMembers level
      (prettyOnto level (out ++ sep ++ lineStart level ++ quoted key ++ ": ") value) "," rest

end

def pretty (value : Json) : String := prettyOnto 0 "" value

end Json

end CInventory
