import ReferenceSite.Text.Blank

/-!
# Paths

A path is a text whose components are separated by slashes; one that starts with a slash is absolute.
Components are never normalised in the text itself, so a path is shown as it was given. The readings of a
path are `Path.pieces`, which drops empty components only, and `Path.components`, which also drops every
component that stands for the directory it is in, except at the start of a relative path.
-/

namespace ReferenceSite

/-- A path as it was given. -/
abbrev Path := String

/-- A component of a path. -/
inductive Path.Component where
  /-- The root. -/
  | root
  /-- The directory itself, at the start of a relative path. -/
  | current
  /-- The parent directory. -/
  | parent
  /-- An entry of the directory. -/
  | normal (name : String)
deriving DecidableEq, Repr

namespace Path

/-- The path starts at the root. -/
def isAbsolute (p : Path) : Bool := p.toList.head? == some '/'

/-- The path ends with a separator. -/
def endsWithSeparator (p : Path) : Bool := p.toList.getLast? == some '/'

/-- The texts between separators. -/
def segments (p : Path) : List String := Text.splitAt '/' p

/-- The texts between separators that are not empty. -/
def pieces (p : Path) : List String := p.segments.filter (!·.isEmpty)

/-- The components. -/
def components (p : Path) : List Component :=
  let rest := p.pieces.filterMap fun s =>
    if s == "." then none else if s == ".." then some .parent else some (.normal s)
  if p.isAbsolute then .root :: rest
  else if p.segments.head? == some "." then .current :: rest
  else rest

/-- A path read from inside a directory: an absolute path stays, any other is appended. -/
def join (directory p : Path) : Path :=
  if p.isAbsolute || directory.isEmpty then p
  else if directory.endsWithSeparator then directory ++ p
  else directory ++ "/" ++ p

/-- Drop the segments at the end that name nothing: empty ones and dots, a leading dot excepted. -/
def dropIdle : List String → List String
  | [] => []
  | s :: rest =>
    match Text.dropEndWhile (fun t => t.isEmpty || t == ".") rest with
    | [] => if s.isEmpty then [] else [s]
    | kept => s :: kept

/-- The path without its last component, or nothing for an empty path and for the root. -/
def parent? (p : Path) : Option Path :=
  match dropIdle p.segments with
  | [] => none
  | kept =>
    let rest := dropIdle kept.dropLast
    if rest.isEmpty && p.isAbsolute then some "/" else some (String.intercalate "/" rest)

/-- The directory that holds the last component; a bare name is held by the empty path. -/
def directory (p : Path) : Path := (parent? p).getD ""

/-- The components behind those of a directory, if the path starts with them. -/
def componentsBelow? (p directory : Path) : Option (List Component) :=
  let base := directory.components
  if base.isPrefixOf p.components then some (p.components.drop base.length) else none

/-- A path and the paths of its enclosing directories, the innermost first; `fuel` bounds their number. -/
def ancestorsFrom : (fuel : Nat) → Path → List Path
  | 0, _ => []
  | fuel + 1, p =>
    p :: match p.parent? with
      | some q => ancestorsFrom fuel q
      | none => []

/-- A path and the paths of its enclosing directories, the innermost first. -/
def ancestors (p : Path) : List Path := ancestorsFrom (p.segments.length + 1) p

end Path

end ReferenceSite
