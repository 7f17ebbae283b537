import CInventory.Toml.Value

/-!
# Scalars and keys

Readers for the parts of a document that hold no other values: blanks and comments, keys,
strings, numbers and dates.
-/

namespace CInventory.Toml

/-- A reader takes something from the front of a text or fails. -/
abbrev Reader := StateT (List Char) Option

namespace Reader

def peek? : Reader (Option Char) := return (← get).head?

/-- One character that satisfies `p`. -/
def satisfy (p : Char → Bool) : Reader Char := do
  match ← get with
  | c :: rest => if p c then set rest; return c else failure
  | [] => failure

def char (c : Char) : Reader Unit := do let _ ← satisfy (· = c)

def text (s : String) : Reader Unit := s.toList.forM char

/-- The longest run of characters that satisfy `p`. -/
def takeWhile (p : Char → Bool) : Reader (List Char) := do
  let cs ← get
  set (cs.dropWhile p)
  return cs.takeWhile p

def atEnd : Reader Unit := do
  match ← get with
  | [] => return ()
  | _ => failure

/-- As many of `x` as there are, at most `fuel`, with `done` those already read, last first. -/
def manyAux {α : Type} (x : Reader α) : Nat → List α → Reader (List α)
  | 0, done => return done.reverse
  | fuel + 1, done => do
    match ← optional x with
    | some a => manyAux x fuel (a :: done)
    | none => return done.reverse

/-- As many of `x` as there are. Each has to take something. -/
def many {α : Type} (x : Reader α) : Reader (List α) := do
  manyAux x (← get).length []

/-- At least one `x`, with a `sep` between each two. -/
def separated {α : Type} (x : Reader α) (sep : Reader Unit) : Reader (List α) := do
  let first ← x
  let rest ← many (do sep; x)
  return first :: rest

end Reader

open Reader

/-! ## Blanks and comments -/

def isBlankChar (c : Char) : Bool := c = ' ' || c = '\t'

def blanks : Reader Unit := do let _ ← takeWhile isBlankChar

/-- A line feed, alone or behind a carriage return. -/
def newline : Reader Unit := char '\n' <|> (do char '\r'; char '\n')

/-- Tabs and all characters but the other controls. -/
def isPlain (c : Char) : Bool := c = '\t' || (' ' ≤ c && c != '\x7f')

def comment : Reader Unit := do
  char '#'
  let _ ← takeWhile isPlain

def lineEnd : Reader Unit := newline <|> atEnd

/-- The rest of a line behind a statement. -/
def lineRest : Reader Unit := do
  blanks
  let _ ← optional comment
  lineEnd

/-- Blanks, line ends and comments in any order. -/
def filler : Reader Unit := do
  let _ ← many ((do let _ ← satisfy isBlankChar) <|> newline <|> comment)

/-! ## Strings -/

def hexValue? (c : Char) : Option Nat :=
  if '0' ≤ c && c ≤ '9' then some (c.toNat - '0'.toNat)
  else if 'a' ≤ c && c ≤ 'f' then some (c.toNat - 'a'.toNat + 10)
  else if 'A' ≤ c && c ≤ 'F' then some (c.toNat - 'A'.toNat + 10)
  else none

/-- A number of exactly `count` digits in base 16. -/
def hexNumber : Nat → Nat → Reader Nat
  | 0, n => return n
  | count + 1, n => do
    let c ← satisfy fun c => (hexValue? c).isSome
    hexNumber count (16 * n + (hexValue? c).getD 0)

/-- A character by its number, which must not be that of a surrogate. -/
def scalar (n : Nat) : Reader Char :=
  if n < 0xd800 || (0xdfff < n && n < 0x110000) then return Char.ofNat n else failure

/-- The character behind a backslash. -/
def escaped : Reader Char := do
  match ← satisfy (fun _ => true) with
  | 'b' => return '\x08'
  | 't' => return '\t'
  | 'n' => return '\n'
  | 'f' => return '\x0c'
  | 'r' => return '\r'
  | '"' => return '"'
  | '\\' => return '\\'
  | 'u' => do scalar (← hexNumber 4 0)
  | 'U' => do scalar (← hexNumber 8 0)
  | _ => failure

def basicString : Reader String := do
  char '"'
  let cs ← many (satisfy (fun c => isPlain c && c != '"' && c != '\\') <|>
    (do char '\\'; escaped))
  char '"'
  return String.ofList cs

def literalString : Reader String := do
  char '\''
  let cs ← takeWhile fun c => isPlain c && c != '\''
  char '\''
  return String.ofList cs

/-- Up to two quotes at the end of a long string stand in front of the closing three. -/
def closingQuotes (quote : Char) : Reader (List Char) := do
  let run := (← get).takeWhile (· = quote)
  if run.length < 3 then failure
  let extra := min 2 (run.length - 3)
  set ((← get).drop (extra + 3))
  return run.take extra

/-- One or two quotes inside a long string, with something else behind them. -/
def innerQuotes (quote : Char) : Reader (List Char) := do
  let run ← takeWhile (· = quote)
  if run.length = 0 || run.length > 2 then failure
  return run

/-- A backslash at the end of a line drops everything up to the next text. -/
def continuation : Reader (List Char) := do
  char '\\'
  blanks
  newline
  let _ ← many ((do let _ ← satisfy isBlankChar) <|> newline)
  return []

def longBasicString : Reader String := do
  text "\"\"\""
  let _ ← optional newline
  let parts ← many (
    (do return [← satisfy fun c => isPlain c && c != '"' && c != '\\'])
    <|> (do newline; return ['\n'])
    <|> continuation
    <|> (do char '\\'; return [← escaped])
    <|> innerQuotes '"')
  let extra ← closingQuotes '"'
  return String.ofList (parts.flatten ++ extra)

def longLiteralString : Reader String := do
  text "'''"
  let _ ← optional newline
  let parts ← many (
    (do return [← satisfy fun c => isPlain c && c != '\''])
    <|> (do newline; return ['\n'])
    <|> innerQuotes '\'')
  let extra ← closingQuotes '\''
  return String.ofList (parts.flatten ++ extra)

/-- Three quotes always open a long string. -/
def string : Reader String := do
  match ← get with
  | '"' :: '"' :: '"' :: _ => longBasicString
  | '"' :: _ => basicString
  | '\'' :: '\'' :: '\'' :: _ => longLiteralString
  | _ => literalString

/-! ## Keys -/

def isBareKeyChar (c : Char) : Bool :=
  ('a' ≤ c && c ≤ 'z') || ('A' ≤ c && c ≤ 'Z') || ('0' ≤ c && c ≤ '9') || c = '-' || c = '_'

def simpleKey : Reader String := do
  match ← peek? with
  | some '"' => basicString
  | some '\'' => literalString
  | _ => do
    let cs ← takeWhile isBareKeyChar
    if cs.isEmpty then failure
    return String.ofList cs

/-- The bound on nested values and on the parts of a key. -/
def depthLimit : Nat := 80

/-- The parts of a dotted key, with blanks around each. -/
def key : Reader (List String) := do
  let parts ← separated (do blanks; let part ← simpleKey; blanks; return part) (char '.')
  if parts.length < depthLimit then return parts else failure

/-! ## Numbers -/

def isDigit (c : Char) : Bool := '0' ≤ c && c ≤ '9'

/-- Digits with single underscores between them. -/
def digits (p : Char → Bool) : Reader (List Char) := do
  let first ← satisfy p
  let rest ← many (satisfy p <|> (do char '_'; satisfy p))
  return first :: rest

def valueOf (base : Nat) (ds : List Char) : Nat :=
  ds.foldl (fun n c => base * n + (hexValue? c).getD 0) 0

/-- A sign, where there is one; true for minus. -/
def sign : Reader Bool := do
  match ← peek? with
  | some '-' => do char '-'; return true
  | some '+' => do char '+'; return false
  | _ => return false

/-- A number in base ten that starts with zero only if it is zero. -/
def decimal : Reader (Bool × List Char) := do
  let negative ← sign
  match ← peek? with
  | some '0' => do char '0'; return (negative, ['0'])
  | _ => return (negative, ← digits isDigit)

def inRange (n : Int) : Bool := -9223372036854775808 ≤ n && n ≤ 9223372036854775807

def checked (n : Int) : Reader Int := if inRange n then return n else failure

def based (base : Nat) (p : Char → Bool) : Reader Int := do
  char '0'
  let _ ← satisfy fun _ => true
  checked (valueOf base (← digits p))

def integer : Reader Int := do
  match ← get with
  | '0' :: 'x' :: _ => based 16 fun c => (hexValue? c).isSome
  | '0' :: 'o' :: _ => based 8 fun c => '0' ≤ c && c ≤ '7'
  | '0' :: 'b' :: _ => based 2 fun c => c = '0' || c = '1'
  | _ => do
    let (negative, ds) ← decimal
    let n := Int.ofNat (valueOf 10 ds)
    checked (if negative then -n else n)

/-- Whether `mantissa * 10 ^ exponent` lies beyond the floats. -/
def overflows (mantissa : Nat) (exponent : Int) : Bool :=
  let magnitude := (Nat.toDigits 10 mantissa).length + exponent
  if mantissa = 0 || magnitude < 300 then false
  else if magnitude > 320 then true
  else
    let bound := Nat.pow 2 1024 - Nat.pow 2 970
    match exponent with
    | .ofNat e => mantissa * Nat.pow 10 e ≥ bound
    | .negSucc e => mantissa ≥ bound * Nat.pow 10 (e + 1)

def exponent : Reader Int := do
  let _ ← satisfy fun c => c = 'e' || c = 'E'
  let negative ← sign
  let n := Int.ofNat (valueOf 10 (← digits isDigit))
  return if negative then -n else n

/-- A float in digits. One that is too large is refused. -/
def floatDigits : Reader Unit := do
  let (negative, whole) ← decimal
  let (fraction, exp) ← (do return ([], ← exponent)) <|> (do
    char '.'
    let fraction ← digits isDigit
    return (fraction, (← optional exponent).getD 0))
  if !negative && overflows (valueOf 10 (whole ++ fraction)) (exp - fraction.length) then failure

def float : Reader Unit := floatDigits <|> (do
  let _ ← sign
  text "inf" <|> text "nan")

/-! ## Dates and times -/

/-- A number of exactly `count` digits between two bounds. -/
def field (count low high : Nat) : Reader Nat := do
  let ds ← (List.range count).mapM fun _ => satisfy isDigit
  let n := valueOf 10 ds
  if low ≤ n && n ≤ high then return n else failure

def isLeapYear (year : Nat) : Bool := year % 4 = 0 && (year % 100 != 0 || year % 400 = 0)

def daysInMonth (year month : Nat) : Nat :=
  if month = 2 then (if isLeapYear year then 29 else 28)
  else if month = 4 || month = 6 || month = 9 || month = 11 then 30
  else 31

def date : Reader Unit := do
  let year ← field 4 0 9999
  char '-'
  let month ← field 2 1 12
  char '-'
  let _ ← field 2 1 (daysInMonth year month)

def time : Reader Unit := do
  let _ ← field 2 0 23
  char ':'
  let _ ← field 2 0 59
  char ':'
  let _ ← field 2 0 60
  let _ ← optional (do
    char '.'
    let ds ← takeWhile isDigit
    if ds.isEmpty then failure)

def zone : Reader Unit :=
  (do let _ ← satisfy fun c => c = 'Z' || c = 'z') <|> (do
    let _ ← satisfy fun c => c = '+' || c = '-'
    let _ ← field 2 0 23
    char ':'
    let _ ← field 2 0 59)

/-- A date, a time, or both with or without a zone. -/
def datetime : Reader Unit := (do
    date
    let _ ← optional (do
      let _ ← satisfy fun c => c = 'T' || c = 't' || c = ' '
      time
      let _ ← optional zone))
  <|> time

end CInventory.Toml
