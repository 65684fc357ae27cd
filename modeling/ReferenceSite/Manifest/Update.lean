import ReferenceSite.FileTree
import ReferenceSite.Manifest

/-!
# Updating the manifest file

An update reads the manifest, merges the group and writes the file again if its text changes. The group's
page references and the size of the text are checked before anything is written, and the new text replaces
the old in one step, so a failure leaves every file as it was. A file that is missing or holds no document
counts as an empty manifest.
-/

namespace ReferenceSite.Manifest

/-- Why an update fails. -/
inductive UpdateError where
  /-- The file or the new text is larger than allowed. -/
  | tooLarge (size limit : Nat)
  /-- The group has an unsafe page reference. -/
  | invalidRef (error : NavGroup.InvalidRef)
  /-- The path cannot be read or written. -/
  | io (path : Path)
deriving DecidableEq, Repr

/-- The message of an error, up to the part that the file system would add. -/
def UpdateError.message : UpdateError → String
  | tooLarge size limit =>
    "Manifest is " ++ toString size ++ " bytes, limit is " ++ toString limit ++ " bytes"
  | invalidRef error => error.message
  | io path => "I/O error on " ++ path ++ ":"

/-- What an update did. -/
inductive Outcome where
  /-- The file was written. -/
  | written
  /-- The file has the text already. -/
  | unchanged
deriving DecidableEq, Repr

/-- The text of the manifest file, if there is one that holds a text. A path that cannot be inspected and a
file that is too large are errors. -/
def readExisting (t : FileTree) (path : Path) (maxBytes : Nat) :
    Except UpdateError (Option String) :=
  match t.size path with
  | .error .notFound => .ok none
  | .error _ => .error (.io path)
  | .ok size =>
    if maxBytes < size then .error (.tooLarge size maxBytes)
    else .ok (t.readText path).toOption

/-- The directory of a file, which for a bare name is the working directory. -/
def directoryOf (path : Path) : Path :=
  if path.directory.isEmpty then "." else path.directory

/-- Replace a file in one step, creating its directory if needed. -/
def replaceFile (t : FileTree) (path : Path) (text : String) : Except UpdateError Unit × FileTree :=
  let directory := directoryOf path
  match t.createDirectories directory with
  | (.error _, t) => (.error (.io directory), t)
  | (.ok (), t) =>
    match t.write path (.text text) with
    | .error _ => (.error (.io path), t)
    | .ok t => (.ok (), t)

/-- The text of the manifest after merging a group into the text before. -/
def mergedText (existing : Option String) (target : Target) (group : NavGroup) : String :=
  (((existing.map ofText).getD {}).merge target group).toText

/-- Merge a group into the manifest file. -/
def update (t : FileTree) (path : Path) (target : Target) (group : NavGroup) (maxBytes : Nat) :
    Except UpdateError Outcome × FileTree :=
  match group.invalidRef? with
  | some error => (.error (.invalidRef error), t)
  | none =>
    match readExisting t path maxBytes with
    | .error error => (.error error, t)
    | .ok existing =>
      let text := mergedText existing target group
      if maxBytes < text.utf8ByteSize then
        (.error (.tooLarge text.utf8ByteSize maxBytes), t)
      else if existing == some text then (.ok .unchanged, t)
      else
        let (result, t) := replaceFile t path text
        (result.map fun () => .written, t)

end ReferenceSite.Manifest
