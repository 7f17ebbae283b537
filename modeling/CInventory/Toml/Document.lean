import CInventory.Toml.Scalar

/-!
# Documents

A document is a list of headers and settings. A table is defined once: by a header, by dotted
keys, or in braces, and these do not mix. Tables above a header exist without being defined.
-/

namespace CInventory.Toml

open Reader

mutual

/-- What stands under a key while a document is read. -/
inductive Node where
  | leaf (value : Value)
  | table (t : Table)
  /-- The tables that double brackets list, last first. -/
  | tables (items : List Table)

inductive Table where
  | mk (implicit dotted : Bool) (members : List (String × Node))

end

namespace Table

/-- No header or brace has defined the table. -/
def implicit : Table → Bool
  | .mk implicit _ _ => implicit

/-- The table comes from a dotted key. -/
def dotted : Table → Bool
  | .mk _ dotted _ => dotted

def members : Table → List (String × Node)
  | .mk _ _ members => members

def get? (t : Table) (k : String) : Option Node := t.members.lookup k

def replace (k : String) (n : Node) : List (String × Node) → List (String × Node)
  | [] => [(k, n)]
  | (k', n') :: rest => if k' = k then (k, n) :: rest else (k', n') :: replace k n rest

def put (t : Table) (k : String) (n : Node) : Table :=
  .mk t.implicit t.dotted (replace k n t.members)

/-- Change the table at the end of a path, with `viaDots` for a path in a dotted key. Missing
tables on the way are made; of listed tables the last is meant. -/
def change (viaDots : Bool) (f : Table → Option Table) : List String → Table → Option Table
  | [], t => f t
  | k :: path, t =>
    match t.get? k with
    | none => do
      let child ← change viaDots f path (.mk true viaDots [])
      return t.put k (.table child)
    | some (.leaf _) => none
    | some (.tables []) => none
    | some (.tables (last :: before)) => do
      let last ← change viaDots f path last
      return t.put k (.tables (last :: before))
    | some (.table child) =>
      if viaDots && !child.implicit then none
      else do
        let child ← change viaDots f path child
        return t.put k (.table child)

/-- Add a setting under a dotted key whose last part is `k`. -/
def assign (path : List String) (k : String) (n : Node) (t : Table) : Option Table :=
  change true (fun owner =>
    if owner.dotted = path.isEmpty || (owner.get? k).isSome then none
    else some (owner.put k n)) path t

/-- Define a table by a header. -/
def define (path : List String) (k : String) (t : Table) : Option Table :=
  change false (fun owner =>
    match owner.get? k with
    | none => some (owner.put k (.table (.mk false false [])))
    | some (.table child) =>
      if child.implicit && !child.dotted then
        some (owner.put k (.table (.mk false false child.members)))
      else none
    | some _ => none) path t

/-- List one more table by a header in double brackets. -/
def extend (path : List String) (k : String) (t : Table) : Option Table :=
  change false (fun owner =>
    match owner.get? k with
    | none => some (owner.put k (.tables [.mk false false []]))
    | some (.tables items) => some (owner.put k (.tables (.mk false false [] :: items)))
    | some _ => none) path t

end Table

mutual

def Node.value : Node → Value
  | .leaf v => v
  | .table t => t.value
  | .tables items => .array (tableValues items).reverse

def Table.value : Table → Value
  | .mk _ _ members => .table (memberValues members)

def tableValues : List Table → List Value
  | [] => []
  | t :: rest => t.value :: tableValues rest

def memberValues : List (String × Node) → List (String × Value)
  | [] => []
  | (k, n) :: rest => (k, n.value) :: memberValues rest

end

/-! ## Values -/

/-- The part of a key that names the setting, and the path to it. -/
def splitKey (parts : List String) : Reader (List String × String) :=
  match parts.getLast? with
  | some last => return (parts.dropLast, last)
  | none => failure

/-- Items in brackets, with an optional comma behind the last. -/
def array (item : Reader Value) : Reader Value := do
  char '['
  let items ← optional (separated (do filler; let v ← item; filler; return v) (char ','))
  if items.isSome then
    let _ ← optional (char ',')
  filler
  char ']'
  return .array (items.getD [])

/-- Settings in braces, on one line and without a comma behind the last. -/
def inlineTable (item : Reader Value) : Reader Value := do
  char '\x7b'
  let settings ← optional (separated (do
    let parts ← key
    char '='
    blanks
    let v ← item
    blanks
    return (parts, v)) (char ','))
  blanks
  char '\x7d'
  let table ← (settings.getD []).foldlM (fun table (parts, v) => do
    let (path, k) ← splitKey parts
    match table.assign path k (.leaf v) with
    | some table => return table
    | none => failure) (Table.mk false false [])
  return table.value

def number : Reader Value :=
  (do datetime; return Value.datetime) <|> (do float; return Value.float)
    <|> (do return Value.integer (← integer))

/-- A value that holds no others. -/
def flatValue : Reader Value := do
  match ← peek? with
  | some '"' => return .string (← string)
  | some '\'' => return .string (← string)
  | some 't' => do text "true"; return .boolean true
  | some 'f' => do text "false"; return .boolean false
  | some 'i' => do text "inf"; return .float
  | some 'n' => do text "nan"; return .float
  | _ => number

/-- A value with at most so many brackets and braces around its innermost part. -/
def value : Nat → Reader Value
  | 0 => flatValue
  | depth + 1 => do
    match ← peek? with
    | some '[' => array (value depth)
    | some '\x7b' => inlineTable (value depth)
    | _ => flatValue

/-! ## Statements -/

/-- The document so far, and the table that settings go to. -/
structure Draft where
  root : Table := .mk false false []
  path : List String := []

def header (d : Draft) : Reader Draft := do
  char '['
  let double := (← peek?) = some '['
  if double then char '['
  let parts ← key
  text (if double then "]]" else "]")
  lineRest
  let (path, k) ← splitKey parts
  match if double then d.root.extend path k else d.root.define path k with
  | some root => return ⟨root, parts⟩
  | none => failure

def setting (d : Draft) : Reader Draft := do
  let parts ← key
  char '='
  blanks
  let v ← value (depthLimit - 1)
  lineRest
  let (path, k) ← splitKey parts
  match Table.change false (Table.assign path k (.leaf v)) d.path d.root with
  | some root => return { d with root }
  | none => failure

def statement (d : Draft) : Reader Draft := do
  match ← peek? with
  | some '#' => do comment; lineEnd; return d
  | some '[' => header d
  | some '\n' => do newline; return d
  | some '\r' => do newline; return d
  | _ => setting d

/-- All statements, at most `fuel`. -/
def statements : Nat → Draft → Reader Draft
  | 0, _ => failure
  | fuel + 1, d => do
    blanks
    match ← get with
    | [] => return d
    | _ => statements fuel (← statement d)

def document : Reader Table := do
  let _ ← optional (char '\ufeff')
  return (← statements ((← get).length + 1) {}).root

/-- The members of the document's own table; none when it is malformed. -/
def parse? (source : String) : Option (List (String × Value)) := do
  let (table, _) ← document.run source.toList
  return memberValues table.members

end CInventory.Toml
