/-
# Files and variables

A tree has texts as files, and folders, which hold files or are named as such.
A path is followed part by part from a folder; two points lead to the folder
around it, and nothing can be followed through a file or out of the tree.

The variables of the process are given as bytes: each as its name, an equals sign
and its value, with a zero byte behind it. One that is no text is left out.
-/
import VersionTrail.OrderedMap
import VersionTrail.Text

namespace VersionTrail

open VersionTrail.Text

/-- What a path leads to. -/
inductive PathState where
  | absent
  | file (content : String)
  /-- Something that cannot be read as a text, for the given cause. -/
  | unreadable (cause : String)
  deriving DecidableEq, Repr

/-- The cause for which a folder cannot be read as a text. -/
def folderCause : String :=
  "Is a directory (os error 21)"

/-- A path from a folder, unless it is a full one. -/
def pathFrom (folder path : String) : String :=
  if path.toList.head? == some '/' then path else folder ++ "/" ++ path

/-- The last name of a path, behind the path of the folder around it. -/
def splitLast (path : String) : String × String :=
  let names := path.splitOn "/"
  (String.intercalate "/" names.dropLast, names.getLast?.getD "")

/-- The folder with a full path and those around it, from the inside out. The
outermost one has an empty path. -/
def foldersAround (path : String) : List String :=
  let parts := (path.splitOn "/").filter fun part => !part.isEmpty
  (List.range (parts.length + 1)).reverse.map fun n =>
    String.join ((parts.take n).map fun part => "/" ++ part)

/-- Files and folders by the names on their paths. -/
structure FileTree where
  files : List (List String × String)
  folders : List (List String)
  deriving Repr

namespace FileTree

/-- The names in a path. -/
def splitPath (path : String) : List String :=
  path.splitOn "/"

/-- The tree of some files and folders. -/
def ofPaths (files : List (String × String)) (folders : List String) : FileTree :=
  ⟨files.map fun (path, content) => (splitPath path, content), folders.map splitPath⟩

/-- Whether there is a folder at a place: a named one, or one with something in
it. -/
def isFolder (t : FileTree) (place : List String) : Bool :=
  place.isEmpty || t.folders.any (place.isPrefixOf ·) ||
    t.files.any fun f => place.isPrefixOf f.1 && place != f.1

/-- Follows the names of a path from a place. -/
def follow (t : FileTree) (place : List String) : List String → Option (List String)
  | [] => some place
  | name :: rest =>
    if !t.isFolder place then none
    else if name = "" ∨ name = "." then t.follow place rest
    else if name = ".." then if place.isEmpty then none else t.follow place.dropLast rest
    else t.follow (place ++ [name]) rest

/-- The place that a path leads to from a folder. -/
def place? (t : FileTree) (base : List String) (path : String) : Option (List String) :=
  if path.isEmpty || path.toList.head? == some '/' then none else t.follow base (splitPath path)

/-- Whether a path does nothing but lead to folders around the tree. -/
def leadsOut (path : String) : Bool :=
  !path.isEmpty && (splitPath path).all fun name => name == "" || name == "." || name == ".."

/-- What is at a place. -/
def stateAt (t : FileTree) (place : List String) : PathState :=
  if t.isFolder place then .unreadable folderCause
  else
    match t.files.lookup place with
    | some content => .file content
    | none => .absent

/-- What a path leads to from a folder. Around the tree there are folders. -/
def state (t : FileTree) (base : List String) (path : String) : PathState :=
  match t.place? base path with
  | some place => t.stateAt place
  | none => if leadsOut path then .unreadable folderCause else .absent

end FileTree

/-- The parts of some bytes between zero bytes. `part` is the present one, its
last byte first. -/
def zeroSplit (part : List UInt8) : List UInt8 → List (List UInt8)
  | [] => [part.reverse]
  | b :: bytes =>
    if b = 0 then part.reverse :: zeroSplit [] bytes else zeroSplit (b :: part) bytes

/-- The name and the value of a variable. -/
def readVariable? (bytes : List UInt8) : Option (String × String) := do
  let text ← String.fromUTF8? ⟨bytes.toArray⟩
  let (name, value) ← splitFirst? '=' text.toList
  if name.isEmpty then none else some (String.ofList name, String.ofList value)

/-- The variables of a process. The first value of a name counts. -/
def readProcess (bytes : List UInt8) : OrderedMap String :=
  .ofList ((zeroSplit [] bytes).filterMap readVariable?).reverse

end VersionTrail
