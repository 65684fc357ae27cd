import ReferenceSite.Command.Arguments
import ReferenceSite.Configuration
import ReferenceSite.Generation
import ReferenceSite.Model.Source

/-!
# The command

`Command.run` does what the arguments ask for on a file tree. The outcome is a new tree, a text for the
standard output, lines for the standard error and an exit status: zero for success, one for an error of the
action, two for arguments that are not understood.

The lines are kept as data (`Line`), because one of them tells how long a run took and the command itself
takes no time; `Line.toText` writes them.
-/

namespace ReferenceSite.Command

/-- The name and the version. -/
def versionText : String := "apidocs 0.1.0\n"

/-! ## Lines -/

/-- A line for the standard error. -/
inductive Line where
  /-- A message behind a label. -/
  | labelled (label message : String)
  /-- The end of a run, which took some time. -/
  | finished (written unchanged : Nat)
  /-- An error. -/
  | error (message : String)
deriving DecidableEq, Repr

/-- The width of labels. -/
def labelWidth : Nat := 12

/-- A label, moved to the right end of its place, with a message. -/
def labelText (label message : String) : String :=
  .ofList (List.replicate (labelWidth - label.length) ' ') ++ label ++ " " ++ message

/-- The text of a line, given the time that the run took. -/
def Line.toText (duration : String) : Line → String
  | labelled label message => labelText label message
  | finished written unchanged =>
    labelText "Finished"
      (toString (written + unchanged) ++ " pages (" ++ toString written ++ " written, "
        ++ toString unchanged ++ " unchanged) in " ++ duration)
  | error message => "error: " ++ message

/-! ## Actions -/

/-- Why an action fails. -/
inductive Error where
  /-- There is no configuration. -/
  | configuration (error : Configuration.Error)
  /-- There is no model. -/
  | model (error : Model.LoadError)
  /-- There is no renderer. -/
  | renderer (error : RenderError)
  /-- The run failed. -/
  | generation (error : Generation.Error)
deriving DecidableEq, Repr

/-- The message of an error. -/
def Error.message : Error → String
  | configuration e => e.message
  | model e => e.message
  | renderer e => e.message
  | generation e => e.message

/-- What comes of an action: the lines before the end or the error, and the tree. -/
structure Result where
  /-- Whether the action succeeded. -/
  result : Except Error Unit
  /-- The lines. -/
  lines : List Line := []
  /-- The tree. -/
  tree : FileTree

/-- The configuration that the options ask for. -/
def configurationOf (t : FileTree) (env : Environment) (o : Options) :
    Except Configuration.Error Configuration :=
  Configuration.load t env o.configuration
    { model := o.model
      outputDirectory := o.outputDirectory
      manifest := o.manifest
      cacheEnabled := if o.noCache then some false else none }

/-- The lines that tell where a run reads and writes. -/
def placeLines (c : Configuration) : List Line :=
  [.labelled "Model" c.model, .labelled "Output" c.outputDirectory, .labelled "Manifest" c.manifest]

/-- The message about the use of the cache. -/
def cacheMessage (s : Cache.Stats) : String :=
  if s.enabled then
    s.hitPercentage ++ "% hit rate (" ++ toString s.hits ++ " hits, " ++ toString s.misses ++ " misses)"
  else "disabled"

/-- The lines that sum up a run. -/
def summaryLines (r : Report) : List Line :=
  [.finished r.written r.unchanged, .labelled "Bytes" (toString r.totalBytes),
    .labelled "Navigation" (toString r.navigationEntries ++ " entries"),
    .labelled "Cache" (cacheMessage r.cache)]
  ++ (r.manifestWritten.map fun written =>
    .labelled "Manifest" (if written then "updated" else "unchanged")).toList
  ++ if r.pages == 0 then [.labelled "warning" "model contains no documented items"] else []

/-- What a run needs: the model and the renderer that a configuration names. -/
def taskOf (t : FileTree) (c : Configuration) : Except Error Generation.Task := do
  let model ← (Model.ofFile t c.model).mapError Error.model
  let library ← (Renderer.loadLibrary t c.templates).mapError Error.renderer
  return { model, renderer := Renderer.ofLibrary library c.codeLanguage, settings := c.runSettings }

/-- Write the pages of the model and update the manifest. -/
def generate (t : FileTree) (env : Environment) (o : Options) : Result :=
  match (configurationOf t env o).bind Configuration.checked with
  | .error e => { result := .error (.configuration e), tree := t }
  | .ok c =>
    match taskOf t c with
    | .error e => { result := .error e, lines := placeLines c, tree := t }
    | .ok task =>
      let before := placeLines c ++ [.labelled "Generating" (toString task.model.size ++ " items")]
      match (Generator.ofTask task c.cache).run t Model.root with
      | (.error e, _, t) => { result := .error (.generation e), lines := before, tree := t }
      | (.ok report, _, t) => { result := .ok (), lines := before ++ summaryLines report, tree := t }

/-- Count the items of the model. -/
def inspect (t : FileTree) (env : Environment) (o : Options) : Result :=
  match configurationOf t env o with
  | .error e => { result := .error (.configuration e), tree := t }
  | .ok c =>
    match Model.ofFile t c.model with
    | .error e => { result := .error (.model e), tree := t }
    | .ok m =>
      { result := .ok ()
        lines :=
          .labelled "Inspected" (c.model ++ " (" ++ toString m.size ++ " items)")
            :: m.kindCounts.map fun (k, n) => .labelled k.label (toString n)
        tree := t }

/-! ## What an action looks at -/

/-- The files that may hold the configuration. -/
def configurationFiles (t : FileTree) (o : Options) : List Path :=
  match o.configuration with
  | some path => [path]
  | none => Configuration.candidates t

/-- The files that a configuration names, and the output directory. -/
def inputFiles (c : Configuration) : List Path :=
  [c.model, c.manifest, c.outputDirectory]
    ++ c.templates.toList.flatMap fun d => Renderer.bundled.map fun (name, _) => Path.join d name

/-- The files of the pages of a run. -/
def pageFiles (k : Generation.Task) : List Path :=
  (k.model.itinerary Model.root 0 none).filterMap fun v =>
    if (k.model.item v.item).kind.producesPage then
      ((k.model.address v.item).toOption).map fun a =>
        Path.join k.settings.outputDirectory (a.file "mdx")
    else none

/-! ## Help -/

/-- What a flag is for, and the environment variable that can stand for it with its value. -/
def Flag.purpose (env : Environment) : Flag → String
  | model => "API model JSON file (overrides config)"
  | outputDirectory => "Directory receiving the generated pages (overrides config)"
  | manifest => "Site navigation manifest to update (overrides config)"
  | noCache => "Disable the reference resolution cache"
  | verbose => "Enable verbose output"
  | configuration =>
    "Path to configuration file (default: auto-discover apidocs.toml) [env: " ++ configurationVariable
      ++ "=" ++ (env.get configurationVariable).toOption.getD "" ++ "]"
  | help => "Print help"

/-- What an action is for. -/
def Action.purpose : Action → String
  | generate => "Generate reference pages and navigation"
  | inspect => "Print item counts of an API model"

/-- How a flag is written. -/
def Flag.usage (f : Flag) : String :=
  (match f.short? with
    | some c => "-" ++ .ofList [c] ++ ", "
    | none => "    ")
  ++ "--" ++ f.long
  ++ if f.takesValue then
      " <" ++ .ofList (f.long.toList.map fun c => if c == '-' then '_' else c.toUpper) ++ ">"
    else ""

/-- Two columns, the first as wide as its widest text. -/
def columns (rows : List (String × String)) : String :=
  let width := (rows.map fun r => r.1.length).foldl max 0
  String.join (rows.map fun (left, right) =>
    "  " ++ left ++ .ofList (List.replicate (width - left.length) ' ') ++ "  " ++ right ++ "\n")

/-- How to call the command, or an action. -/
def helpText (env : Environment) : Option Action → String
  | none =>
    "API reference generator - CLI\n\nUsage: apidocs <COMMAND>\n\nCommands:\n"
      ++ columns (Action.all.map (fun a => (a.name, a.purpose))
        ++ [("help", "Print this message or the help of the given subcommand(s)")])
      ++ "\nOptions:\n" ++ columns [("-h, --help", "Print help"), ("-V, --version", "Print version")]
  | some a =>
    a.purpose ++ "\n\nUsage: apidocs " ++ a.name ++ " [OPTIONS]\n\nOptions:\n"
      ++ columns (a.flags.map fun f => (f.usage, f.purpose env))

/-! ## The command -/

/-- What comes of a call. -/
structure Outcome where
  /-- The exit status. -/
  status : Nat
  /-- The text for the standard output. -/
  output : String := ""
  /-- The lines for the standard error. -/
  lines : List Line := []
  /-- The tree. -/
  tree : FileTree

/-- The outcome of an action. -/
def Outcome.ofResult (r : Result) : Outcome :=
  match r.result with
  | .ok () => { status := 0, lines := r.lines, tree := r.tree }
  | .error e => { status := 1, lines := r.lines ++ [.error e.message], tree := r.tree }

/-- Do what some words ask for. -/
def run (t : FileTree) (env : Environment) (words : List String) : Outcome :=
  match Request.ofWords? env words with
  | none => { status := 2, tree := t }
  | some .version => { status := 0, output := versionText, tree := t }
  | some (.help topic) => { status := 0, output := helpText env topic, tree := t }
  | some (.act .generate o) => .ofResult (generate t env o)
  | some (.act .inspect o) => .ofResult (inspect t env o)

end ReferenceSite.Command
