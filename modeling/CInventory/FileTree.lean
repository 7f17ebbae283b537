import CInventory.Path
import Std.Data.ExtTreeMap

/-!
# File trees

The files and directories that a run sees, as one map from the names on the way from the root to
what stands there. Paths are followed as an operating system does: every step must start in a
directory, and two dots lead to the directory above.

Names and paths are Unicode texts and there are no links. Permissions, space and the number of open
files are left out, so what stands in the tree can be read and a write puts the whole content in
place or nothing. Directories that cannot be listed are the host's: `Host.listingFault?`.
-/

namespace CInventory

inductive Node where
  | file (content : ByteArray)
  | directory

/-- Why an operation on files fails. -/
inductive FileError where
  | notFound
  | alreadyExists
  | notDirectory
  | isDirectory
  | nameTooLong
  | nulByte
  /-- The content is no text. -/
  | invalidText
deriving DecidableEq

def FileError.message : FileError → String
  | .notFound => "No such file or directory (os error 2)"
  | .alreadyExists => "File exists (os error 17)"
  | .notDirectory => "Not a directory (os error 20)"
  | .isDirectory => "Is a directory (os error 21)"
  | .nameTooLong => "File name too long (os error 36)"
  | .nulByte => "file name contained an unexpected NUL byte"
  | .invalidText => "stream did not contain valid UTF-8"

/-- The names on the way from the root. -/
abbrev Location := List String

structure FileTree where
  entries : Std.ExtTreeMap Location Node := ∅
  /-- Where relative paths start. -/
  home : Location := []

namespace FileTree

/-- The root is always there and is a directory. -/
def at? (t : FileTree) (place : Location) : Option Node :=
  if place.isEmpty then some .directory else t.entries[place]?

def isDirectoryAt (t : FileTree) (place : Location) : Bool :=
  match t.at? place with
  | some .directory => true
  | _ => false

def maxNameBytes : Nat := 255
def maxPathBytes : Nat := 4095

/-- What is wrong with a path before it is followed. -/
def pathFault? (path : String) : Option FileError :=
  if path.toList.contains '\x00' then some .nulByte
  else if path = "" then some .notFound
  else if path.utf8ByteSize > maxPathBytes then some .nameTooLong
  else none

/-- One step from `place`, which has to be a directory. -/
def step (t : FileTree) (place : Location) (piece : String) : Except FileError Location :=
  if !t.isDirectoryAt place then .error .notDirectory
  else if Path.isIdle piece then .ok place
  else if piece = ".." then .ok place.dropLast
  else if piece.utf8ByteSize > maxNameBytes then .error .nameTooLong
  else if (t.at? (place ++ [piece])).isSome then .ok (place ++ [piece])
  else .error .notFound

def walk (t : FileTree) (place : Location) (pieces : List String) : Except FileError Location :=
  pieces.foldlM t.step place

def origin (t : FileTree) (path : String) : Location :=
  if Path.isAbsolute path then [] else t.home

/-- Where a path leads, if something is there. -/
def resolve (t : FileTree) (path : String) : Except FileError Location :=
  match pathFault? path with
  | some fault => .error fault
  | none => t.walk (t.origin path) (Path.pieces path)

def node (t : FileTree) (path : String) : Except FileError Node := do
  match t.at? (← t.resolve path) with
  | some node => return node
  | none => throw .notFound

def hasPath (t : FileTree) (path : String) : Bool :=
  match t.node path with
  | .ok _ => true
  | .error _ => false

def isFile (t : FileTree) (path : String) : Bool :=
  match t.node path with
  | .ok (.file _) => true
  | _ => false

def isDirectory (t : FileTree) (path : String) : Bool :=
  match t.node path with
  | .ok .directory => true
  | _ => false

def locationText (place : Location) : String := "/" ++ "/".intercalate place

def readBytes (t : FileTree) (path : String) : Except FileError ByteArray := do
  match ← t.node path with
  | .file content => return content
  | .directory => throw .isDirectory

/-- The content of a file as text. -/
def readText (t : FileTree) (path : String) : Except FileError String := do
  match String.fromUTF8? (← t.readBytes path) with
  | some text => return text
  | none => throw .invalidText

/-- The directory that the last piece of a path is looked up in, and that piece. Separators
behind the piece do not count. -/
def lastStep (t : FileTree) (path : String) : Except FileError (Location × String) :=
  match pathFault? path with
  | some fault => .error fault
  | none =>
    match (Path.pieces path).reverse.dropWhile (· = "") with
    | [] => .ok ([], ".")
    | last :: before => do
      let place ← t.walk (t.origin path) before.reverse
      if t.isDirectoryAt place then return (place, last) else throw .notDirectory

def put (t : FileTree) (place : Location) (node : Node) : FileTree :=
  { t with entries := t.entries.insert place node }

def createDirectory (t : FileTree) (path : String) : Except FileError FileTree := do
  let (place, name) ← t.lastStep path
  if name = "." || name = ".." then throw .alreadyExists
  if name.utf8ByteSize > maxNameBytes then throw .nameTooLong
  if (t.at? (place ++ [name])).isSome then throw .alreadyExists
  return t.put (place ++ [name]) .directory

/-- A path and the paths above it, nearest first, down to one without a parent. -/
def ancestorsAux : Nat → String → List String
  | 0, path => [path]
  | fuel + 1, path =>
    match Path.parent? path with
    | some parent => path :: ancestorsAux fuel parent
    | none => [path]

def ancestors (path : String) : List String := ancestorsAux path.length path

/-- Create the first path of a list; if nothing is there to hold it, the others first. The
directories made before a failure stay. -/
def createChain (t : FileTree) : List String → FileTree × Except FileError Unit
  | [] => (t, .ok ())
  | path :: above =>
    if path = "" then (t, .ok ())
    else
      match t.createDirectory path with
      | .ok t => (t, .ok ())
      | .error .notFound =>
        match t.createChain above with
        | (t, .error e) => (t, .error e)
        | (t, .ok ()) =>
          match t.createDirectory path with
          | .ok t => (t, .ok ())
          | .error e => (t, if t.isDirectory path then .ok () else .error e)
      | .error e => (t, if t.isDirectory path then .ok () else .error e)

/-- Create a directory and those above it that are missing. One that exists is fine. -/
def createDirectories (t : FileTree) (path : String) : FileTree × Except FileError Unit :=
  t.createChain (ancestors path)

/-- Give a file a content, whether it exists or not. -/
def write (t : FileTree) (path : String) (content : ByteArray) : Except FileError FileTree := do
  let (place, name) ← t.lastStep path
  if name = "." || name = ".." then throw .isDirectory
  if name.utf8ByteSize > maxNameBytes then throw .nameTooLong
  match t.at? (place ++ [name]) with
  | some .directory => throw .isDirectory
  | some (.file _) =>
    if path.endsWith "/" then throw .notDirectory
    else return t.put (place ++ [name]) (.file content)
  | none =>
    if path.endsWith "/" then throw .isDirectory else return t.put (place ++ [name]) (.file content)

/-- Write a file below directories that are made where they are missing. -/
def writeBelow (t : FileTree) (path : String) (content : ByteArray) :
    Except FileError FileTree := do
  let (t, made) := t.createDirectories ((Path.parent? path).getD "")
  made
  t.write path content

/-- Everything below a place, with the names on the way from it. -/
def below (t : FileTree) (place : Location) : List (Location × Node) :=
  t.entries.toList.filterMap fun (there, node) =>
    if place.isPrefixOf there && place.length < there.length then
      some (there.drop place.length, node)
    else none

end FileTree

end CInventory
