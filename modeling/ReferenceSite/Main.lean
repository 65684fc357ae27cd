import ReferenceSite.Command

/-!
# The program

Everything that touches the world: the program takes a picture of the files that a call may look at, lets
`Command.run` work on the picture, and writes the differences back.
-/

namespace ReferenceSite.Program

/-- The path of a location. -/
def pathOf (loc : FileTree.Location) : Path := "/" ++ String.intercalate "/" loc

/-- Take what stands at a location into the picture. -/
def look (t : FileTree) (loc : FileTree.Location) : IO FileTree := do
  if (t.node? loc).isSome then return t
  match ← (IO.FS.readBinFile (pathOf loc)).toBaseIO with
  | .ok bytes => return t.put loc (.file (FileTree.Content.ofBytes bytes.toList))
  | .error (.noFileOrDirectory ..) => return t
  | .error _ => return t.put loc .directory

/-- Take everything on the way of a path into the picture. -/
def observe (t : FileTree) (p : Path) : IO FileTree := do
  let (t, _) ← p.pieces.foldlM
    (fun (t, loc) piece => do
      match loc.map (FileTree.step t · piece) with
      | some (.ok next) => return (← look t next, some next)
      | _ => return (t, none))
    (t, some (t.start p))
  return t

/-- Take everything on the way of some paths into the picture. -/
def observeAll (t : FileTree) (ps : List Path) : IO FileTree := ps.foldlM observe t

/-- The variable that some bytes of the form `NAME=value` set. -/
def variableOf? (bytes : List UInt8) : Option (String × Environment.Value) := do
  let (name, value) ← Text.splitFirst (· == 61) bytes
  match FileTree.Content.ofBytes name, FileTree.Content.ofBytes value with
  | .text name, .text value => return (name, .text value)
  | .text name, .binary _ => return (name, .notText)
  | .binary _, _ => none

/-- The environment of the program. -/
def environment : IO Environment := do
  match ← (IO.FS.readBinFile "/proc/self/environ").toBaseIO with
  | .ok bytes => return { values := (Text.splitWhere (· == 0) bytes.toList).filterMap variableOf? }
  | .error _ =>
    let value ← IO.getEnv Command.configurationVariable
    return { values := (value.map fun s => (Command.configurationVariable, .text s)).toList }

/-- The picture of all files that a call may look at. -/
def picture (env : Environment) (words : List String) : IO FileTree := do
  let current := Path.pieces (toString (← IO.currentDir))
  let t ← observe { current } (pathOf current)
  match Command.Request.ofWords? env words with
  | some (.act action o) =>
    let t ← observeAll t (Command.configurationFiles t o)
    match Command.configurationOf t env o with
    | .error _ => return t
    | .ok c =>
      let t ← observeAll t (Command.inputFiles c)
      match action, Command.taskOf t c with
      | .generate, .ok task => observeAll t (Command.pageFiles task)
      | _, _ => return t
  | _ => return t

/-- Write what is new in a tree; a file replaces another in one step. -/
def writeBack (before after : FileTree) : IO Unit :=
  after.nodes.forM fun (loc, node) => do
    if before.node? loc == some node then return
    let path := pathOf loc
    match node with
    | .directory => IO.FS.createDirAll path
    | .file content =>
      let fresh := path ++ ".new"
      match content with
      | .text s => IO.FS.writeFile fresh s
      | .binary bytes => IO.FS.writeBinFile fresh ⟨bytes.toArray⟩
      IO.FS.rename fresh path

/-- A time in seconds with two digits behind the point. -/
def seconds (milliseconds : Nat) : String :=
  let hundredths := (milliseconds + 5) / 10
  let rest := hundredths % 100
  toString (hundredths / 100) ++ "." ++ (if rest < 10 then "0" else "") ++ toString rest ++ "s"

end ReferenceSite.Program

open ReferenceSite ReferenceSite.Program in
/-- Do what the arguments ask for. -/
def main (words : List String) : IO UInt32 := do
  let start ← IO.monoMsNow
  let env ← environment
  let before ← picture env words
  let outcome := Command.run before env words
  let written ← (writeBack before outcome.tree).toBaseIO
  let duration := seconds ((← IO.monoMsNow) - start)
  IO.print outcome.output
  outcome.lines.forM fun line => IO.eprintln (line.toText duration)
  match written with
  | .ok () =>
    if outcome.status == 2 then IO.eprintln (Command.helpText env none)
    return UInt32.ofNat outcome.status
  | .error e =>
    IO.eprintln ("error: I/O error: " ++ toString e)
    return 1
