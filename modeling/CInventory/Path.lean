import CInventory.Text.Lower

/-!
# Paths

A path is kept as it was spelled. Its meaning is its list of components: separators and single
dots between names do not count, a dot in front does. Two paths with the same components are one
path.
-/

namespace CInventory.Path

inductive Component where
  | root
  /-- A single dot, which counts only in front. -/
  | current
  | parent
  | name (text : String)
deriving DecidableEq

namespace Component

def rank : Component → Nat
  | .root => 0
  | .current => 1
  | .parent => 2
  | .name _ => 3

def text : Component → String
  | .root => "/"
  | .current => "."
  | .parent => ".."
  | .name text => text

/-- The root comes first, then one dot, then two dots, then names in order of their bytes. -/
instance : Ord Component where
  compare := compareLex (compareOn rank) (compareOn text)

instance : Std.TransOrd Component :=
  inferInstanceAs (Std.TransCmp (compareLex (compareOn rank) (compareOn text)))

/-- Components in the same place of the order are the same. -/
instance : Std.LawfulEqOrd Component where
  eq_of_compare {a b} h := by
    obtain ⟨hrank, htext⟩ := compareLex_eq_eq.mp h
    have hrank : a.rank = b.rank := Std.LawfulEqOrd.eq_of_compare hrank
    have htext : a.text = b.text := Std.LawfulEqOrd.eq_of_compare htext
    cases a <;> cases b <;> simp_all [rank, text]

end Component

/-- The pieces between separators. -/
def pieces (path : String) : List String := (path.toList.splitOn '/').map String.ofList

/-- Pieces that name nothing. -/
def isIdle (piece : String) : Bool := piece = "" || piece = "."

/-- A path in two parts: the root or the dot in front, if there is one, and the pieces behind it. -/
structure Parts where
  front : Option Component
  body : List String

def parts (path : String) : Parts :=
  match path.toList with
  | '/' :: rest => ⟨some .root, pieces (String.ofList rest)⟩
  | ['.'] => ⟨some .current, []⟩
  | '.' :: '/' :: rest => ⟨some .current, pieces (String.ofList ('/' :: rest))⟩
  | _ => ⟨none, pieces path⟩

def isAbsolute (path : String) : Bool := path.startsWith "/"

def pieceComponent (piece : String) : Component := if piece = ".." then .parent else .name piece

def components (path : String) : List Component :=
  let p := parts path
  p.front.toList ++ (p.body.filter (!isIdle ·)).map pieceComponent

def compare (a b : String) : Ordering := Ord.compare (components a) (components b)

/-- Pieces without the idle ones at the end. -/
def trimPieces (body : List String) : List String := (body.reverse.dropWhile isIdle).reverse

/-- The text of a path without idle pieces at its end. -/
def Parts.shown (p : Parts) : String :=
  (p.front.elim "" Component.text) ++ "/".intercalate (trimPieces p.body)

/-- The last component, when it is a name. -/
def fileName? (path : String) : Option String :=
  match (components path).getLast? with
  | some (.name text) => some text
  | _ => none

/-- The path without its last component. The root and the empty path have none. -/
def parent? (path : String) : Option String :=
  let p := parts path
  match (trimPieces p.body).getLast?, p.front with
  | some _, _ => some (Parts.shown ⟨p.front, (trimPieces p.body).dropLast⟩)
  | none, some .current => some ""
  | none, _ => none

/-- The part of a name behind its last dot; a dot in front of everything does not count. -/
def extensionOf? (name : String) : Option String :=
  let cs := name.toList
  let tail := cs.reverse.takeWhile (· != '.')
  if tail.length + 1 < cs.length then some (String.ofList tail.reverse) else none

def extension? (path : String) : Option String := (fileName? path).bind extensionOf?

/-- Follow `path` from `base`. -/
def join (base path : String) : String :=
  if isAbsolute path then path
  else if base = "" || base.endsWith "/" then base ++ path
  else base ++ "/" ++ path

/-- Drop the pieces of the first `n` components from a body. -/
def dropNamed : Nat → List String → List String
  | 0, body => body
  | _ + 1, [] => []
  | n + 1, piece :: body => if isIdle piece then dropNamed (n + 1) body else dropNamed n body

/-- What is left of `path` behind `base`, when the components of `base` come first. -/
def stripPrefix? (base path : String) : Option String :=
  let p := parts path
  let baseParts := components base
  if baseParts.isPrefixOf (components path) then
    if baseParts.isEmpty then some p.shown
    else
      let named := if p.front.isSome then baseParts.length - 1 else baseParts.length
      some ("/".intercalate (trimPieces ((dropNamed named p.body).dropWhile isIdle)))
  else none

def sourceExtensions : List String := ["c", "h"]

/-- Whether the name ends like a source or a header, in any case. -/
def isSource (path : String) : Bool :=
  match extension? path with
  | some ext => sourceExtensions.contains (Text.lower ext)
  | none => false

end CInventory.Path
