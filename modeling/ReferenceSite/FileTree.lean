import ReferenceSite.Path

/-!
# File trees

A file tree is the part of the world that a run reads and writes: directories and files by location, and a
working directory from which relative paths start. There are no links, so a path leads to at most one
location. Every operation is a function on trees; what it cannot do is a `FileTree.Failure`.
-/

namespace ReferenceSite

/-- The content of a file. -/
inductive FileTree.Content where
  /-- A text in UTF-8. -/
  | text (s : String)
  /-- Bytes that are not a text in UTF-8. -/
  | binary (bytes : List UInt8)
deriving DecidableEq, Repr, Inhabited

/-- What stands at a location. -/
inductive FileTree.Node where
  /-- A directory. -/
  | directory
  /-- A file. -/
  | file (content : FileTree.Content)
deriving DecidableEq, Repr, Inhabited

/-- A place in a file tree: the names from the root. -/
abbrev FileTree.Location := List String

/-- A tree of directories and files. -/
structure FileTree where
  /-- What stands at each location other than the root, which is always a directory. -/
  nodes : List (FileTree.Location × FileTree.Node) := []
  /-- The working directory. -/
  current : FileTree.Location := []
deriving Repr, Inhabited

namespace FileTree

/-- Why an operation fails. -/
inductive Failure where
  /-- Nothing stands at the path. -/
  | notFound
  /-- A file stands where a directory is needed. -/
  | notDirectory
  /-- A directory stands where a file is needed. -/
  | isDirectory
  /-- The path, or a component of it, is longer than the file system allows. -/
  | nameTooLong
  /-- The path has a character that cannot stand in one. -/
  | badCharacter
  /-- The file is not a text in UTF-8. -/
  | notText
deriving DecidableEq, Repr

/-- The content made of some bytes. -/
def Content.ofBytes (bytes : List UInt8) : Content :=
  match String.fromUTF8? ⟨bytes.toArray⟩ with
  | some s => .text s
  | none => .binary bytes

/-- The number of bytes of a content. -/
def Content.size : Content → Nat
  | text s => s.utf8ByteSize
  | binary bytes => bytes.length

/-- The size reported for a directory. -/
def directorySize : Nat := 4096

/-- The longest name of a directory or a file, in bytes. -/
def maxNameBytes : Nat := 255

/-- The longest path, in bytes. -/
def maxPathBytes : Nat := 4095

/-! ## Locations -/

/-- What stands at a location. -/
def node? (t : FileTree) (loc : Location) : Option Node :=
  if loc.isEmpty then some .directory else (t.nodes.find? (·.1 == loc)).map (·.2)

/-- The content of the file at a location. -/
def file? (t : FileTree) (loc : Location) : Option Content :=
  match t.node? loc with
  | some (.file content) => some content
  | _ => none

/-- Replace the first pair with a location, or append one. -/
def putNode (loc : Location) (node : Node) : List (Location × Node) → List (Location × Node)
  | [] => [(loc, node)]
  | (l, n) :: rest => if l == loc then (l, node) :: rest else (l, n) :: putNode loc node rest

/-- Put a node at a location. -/
def put (t : FileTree) (loc : Location) (node : Node) : FileTree :=
  { t with nodes := putNode loc node t.nodes }

/-- The path of the working directory. -/
def currentPath (t : FileTree) : Path := "/" ++ String.intercalate "/" t.current

/-- One step of a path from a location. -/
def step (t : FileTree) (loc : Location) (piece : String) : Except Failure Location :=
  match t.node? loc with
  | none => .error .notFound
  | some (.file _) => .error .notDirectory
  | some .directory =>
    if piece == "." then .ok loc
    else if piece == ".." then .ok loc.dropLast
    else if maxNameBytes < piece.utf8ByteSize then .error .nameTooLong
    else .ok (loc ++ [piece])

/-- The location from which a path starts. -/
def start (t : FileTree) (p : Path) : Location := if p.isAbsolute then [] else t.current

/-- Why a path is refused before anything is looked at: the null character may not stand in it, and it may
not be too long. -/
def refusal? (p : Path) : Option Failure :=
  if Text.hasChar '\x00' p then some .badCharacter
  else if maxPathBytes < p.utf8ByteSize then some .nameTooLong
  else none

/-- The location of a path. Everything before the last component has to be a directory. -/
def locate (t : FileTree) (p : Path) : Except Failure Location :=
  match refusal? p with
  | some failure => .error failure
  | none => if p.isEmpty then .error .notFound else p.pieces.foldlM t.step (t.start p)

/-- What stands at a path. A path that ends with a separator is the path of a directory. -/
def stat (t : FileTree) (p : Path) : Except Failure Node := do
  let loc ← t.locate p
  match t.node? loc with
  | none => .error .notFound
  | some .directory => .ok .directory
  | some (.file content) =>
    if p.endsWithSeparator then .error .notDirectory else .ok (.file content)

/-! ## Reading -/

/-- A file stands at the path. -/
def isFile (t : FileTree) (p : Path) : Bool :=
  match t.stat p with
  | .ok (.file _) => true
  | _ => false

/-- Something stands at the path. -/
def exists? (t : FileTree) (p : Path) : Bool := (t.stat p).isOk

/-- The size of what stands at a path. -/
def size (t : FileTree) (p : Path) : Except Failure Nat := do
  match ← t.stat p with
  | .directory => .ok directorySize
  | .file content => .ok content.size

/-- The text of the file at a path. -/
def readText (t : FileTree) (p : Path) : Except Failure String := do
  match ← t.stat p with
  | .directory => .error .isDirectory
  | .file (.binary _) => .error .notText
  | .file (.text s) => .ok s

/-! ## Writing -/

/-- Walk along the pieces of a path and create the directories that are missing. The directories created
before a failure stay. -/
def createAlong (t : FileTree) (loc : Location) : List String → Except Failure Unit × FileTree
  | [] => (.ok (), t)
  | piece :: pieces =>
    match t.step loc piece with
    | .error e => (.error e, t)
    | .ok next =>
      match t.node? next with
      | some .directory => t.createAlong next pieces
      | some (.file _) => (.error .notDirectory, t)
      | none => (t.put next .directory).createAlong next pieces

/-- Create a directory and the directories around it, as far as they are missing. -/
def createDirectories (t : FileTree) (p : Path) : Except Failure Unit × FileTree :=
  match refusal? p with
  | some failure => (.error failure, t)
  | none => t.createAlong (t.start p) p.pieces

/-- Write a file into an existing directory. -/
def write (t : FileTree) (p : Path) (content : Content) : Except Failure FileTree := do
  let loc ← t.locate p
  if p.endsWithSeparator then .error .isDirectory
  else match t.node? loc with
    | some .directory => .error .isDirectory
    | _ => .ok (t.put loc (.file content))

/-- Remove what stands at a location, with everything below it. -/
def remove (t : FileTree) (loc : Location) : FileTree :=
  { t with nodes := t.nodes.filter fun n => !loc.isPrefixOf n.1 }

/-- The files below a location and the directories there that hold nothing, by path from the location. -/
def listing (t : FileTree) (loc : Location) : List (Path × Option Content) :=
  t.nodes.filterMap fun (l, n) =>
    if loc.isPrefixOf l && l != loc then
      let name := String.intercalate "/" (l.drop loc.length)
      match n with
      | .file content => some (name, some content)
      | .directory =>
        if t.nodes.any fun (k, _) => l.isPrefixOf k && k != l then none else some (name ++ "/", none)
    else none

end FileTree

end ReferenceSite
