import CInventory.Text.Printable

/-!
# Quoted text

The form in which an optional text stands inside a message: between double quotes, with escapes
for the quote, the backslash and every character that cannot be shown as itself.
-/

namespace CInventory.Text

def hexDigits (n : Nat) : List Char := Nat.toDigits 16 n

/-- A code point written in hexadecimal between braces. -/
def codeEscape (c : Char) : List Char :=
  ['\\', 'u', '\x7b'] ++ hexDigits c.toNat ++ ['\x7d']

def quoteChar (c : Char) : List Char :=
  if c.toNat = 0 then ['\\', '0']
  else if c = '\t' then ['\\', 't']
  else if c = '\r' then ['\\', 'r']
  else if c = '\n' then ['\\', 'n']
  else if c = '"' || c = '\\' then ['\\', c]
  else if isGraphemeExtending c then codeEscape c
  else if isPrintable c then [c]
  else codeEscape c

def quote (s : String) : String :=
  String.ofList (['"'] ++ s.toList.flatMap quoteChar ++ ['"'])

/-- How an optional text is shown: `None`, or `Some` with the quoted text in parentheses. -/
def quoteOption : Option String → String
  | none => "None"
  | some s => "Some(" ++ quote s ++ ")"

end CInventory.Text
