import ReferenceSite.Address
import ReferenceSite.Manifest.Update
import ReferenceSite.Page.Renderer

/-!
# Errors of a run

An error tells what kind of trouble stopped a run and, as far as known, the item, the file, some detail and
the cause.
-/

namespace ReferenceSite.Generation

/-- What stops a run. -/
inductive ErrorKind where
  /-- The name of an item gives no safe address. -/
  | invalidPath
  /-- Two items have the same address but for case. -/
  | pathCollision
  /-- The walk went too deep. -/
  | depthExceeded
  /-- The run took too long. -/
  | timeExceeded
  /-- A page is too large. -/
  | fileTooLarge
  /-- All pages together are too large. -/
  | totalSizeExceeded
  /-- A page cannot be rendered. -/
  | render
  /-- A page cannot be written. -/
  | io
  /-- The manifest cannot be updated. -/
  | manifest
deriving DecidableEq, Repr, Inhabited

namespace ErrorKind

/-- The words for a kind of error. -/
def text : ErrorKind → String
  | invalidPath => "Invalid path"
  | pathCollision => "Path collision"
  | depthExceeded => "Depth limit exceeded"
  | timeExceeded => "Time limit exceeded"
  | fileTooLarge => "File size limit exceeded"
  | totalSizeExceeded => "Total size limit exceeded"
  | render => "Render failed"
  | io => "I/O error"
  | manifest => "Manifest error"

/-- The error comes from a limit. -/
def isBudget : ErrorKind → Bool
  | depthExceeded | timeExceeded | fileTooLarge | totalSizeExceeded => true
  | _ => false

end ErrorKind

/-- What caused an error. -/
inductive Cause where
  /-- The file system, with what it says. -/
  | io (text : String)
  /-- An address. -/
  | address (error : Address.Error)
  /-- A renderer. -/
  | render (error : RenderError)
  /-- The update of the manifest. -/
  | manifest (error : Manifest.UpdateError)
deriving DecidableEq, Repr

/-- The message of a cause. -/
def Cause.message : Cause → String
  | io text => text
  | address error => error.message
  | render error => error.message
  | manifest error => error.message

/-- The cause that a failure of the file system is. -/
def Cause.ofFailure (f : FileTree.Failure) : Cause :=
  .io (match f with
    | .notFound => "no such file or directory"
    | .notDirectory => "not a directory"
    | .isDirectory => "is a directory"
    | .nameTooLong => "file name too long"
    | .badCharacter => "null character in a path"
    | .notText => "not a text in UTF-8")

/-- An error that stops a run. -/
structure Error where
  /-- The kind. -/
  kind : ErrorKind
  /-- The name of the item. -/
  item : Option String := none
  /-- The file or the address. -/
  path : Option Path := none
  /-- What exactly happened. -/
  detail : Option String := none
  /-- The cause. -/
  cause : Option Cause := none
deriving DecidableEq, Repr, Inhabited

/-- The message of an error. -/
def Error.message (e : Error) : String :=
  let behind := fun (s : Option String) => (s.map (": " ++ ·)).getD ""
  let noted := fun (name : String) (s : Option String) =>
    (s.map fun s => " (" ++ name ++ ": " ++ s ++ ")").getD ""
  e.kind.text ++ behind e.detail ++ behind (e.cause.map Cause.message)
    ++ noted "item" e.item ++ noted "path" e.path

/-- A failure of the file system at a path. -/
def Error.ofFailure (f : FileTree.Failure) (path : Path) : Error :=
  { kind := .io, path := some path, cause := some (Cause.ofFailure f) }

end ReferenceSite.Generation
