import ReferenceSite.Configuration.File
import ReferenceSite.FileTree

/-!
# Configurations

A configuration tells where the model, the pages and the manifest are and how a run behaves. It is read
from a file and checked (`Configuration.load`); settings given with a command then replace those of the file
(`Overrides.apply`). Without a file the defaults hold, as seen from the working directory.
-/

namespace ReferenceSite

/-- A configuration. -/
structure Configuration where
  /-- The model file. -/
  model : Path
  /-- The directory of the pages. -/
  outputDirectory : Path
  /-- The manifest file. -/
  manifest : Path
  /-- The directory with templates, if any. -/
  templates : Option Path := none
  /-- The language of code blocks. -/
  codeLanguage : String := "typescript"
  /-- The heading of the generated group. -/
  group : String := "API Reference"
  /-- The tab of the generated group. -/
  tab : Option String := none
  /-- The path of the pages in the site; without one it is found by `Configuration.defaultPageBase`. -/
  pageBase : Option String := none
  /-- The largest size of the manifest, in bytes. -/
  maxManifestBytes : Nat := 2 * 1024 * 1024
  /-- How large a run may grow. -/
  limits : Generation.Limits := {}
  /-- How the cache behaves. -/
  cache : Cache.Settings := {}
  /-- The file that was read. -/
  file : Option Path := none
deriving DecidableEq, Repr, Inhabited

namespace Configuration

/-- The name of a configuration file. -/
def fileName : String := "apidocs.toml"

/-- The defaults, as seen from a directory. -/
def ofDirectory (directory : Path) : Configuration where
  model := Path.join directory "api.json"
  outputDirectory := Path.join directory "docs/api"
  manifest := Path.join directory "docs/docs.json"

/-- The configuration that a file gives, its relative paths as seen from the directory of the file. -/
def ofFile (path : Path) (f : ConfigurationFile) : Configuration :=
  let d := ofDirectory path.directory
  let within := fun (p : Option String) (fallback : Path) =>
    (p.map (Path.join path.directory)).getD fallback
  { model := within f.model d.model
    outputDirectory := within f.outputDirectory d.outputDirectory
    manifest := within f.manifest d.manifest
    templates := f.templates.map (Path.join path.directory)
    codeLanguage := f.codeLanguage.getD d.codeLanguage
    group := f.group.getD d.group
    tab := f.tab
    pageBase := f.pageBase.map (Text.stripChar '/')
    maxManifestBytes := f.maxManifestBytes.getD d.maxManifestBytes
    limits := f.limits
    cache := f.cache
    file := some path }

/-! ## Checks -/

/-- A rule that a configuration breaks. -/
inductive Violation where
  /-- A number is zero. -/
  | zero (setting : String)
  /-- A page may be larger than all pages together. -/
  | fileAboveTotal
  /-- The cache is enabled and has no room. -/
  | noCapacity
  /-- A text is blank. -/
  | blank (setting : String)
  /-- The path of the pages in the site climbs to a parent directory. -/
  | climbingPageBase
deriving DecidableEq, Repr

/-- The reason given for a violation. -/
def Violation.reason : Violation → String
  | zero setting => setting ++ " must be greater than 0"
  | fileAboveTotal => "limits.max_file_bytes cannot exceed limits.max_total_bytes"
  | noCapacity => "cache.capacity must be greater than 0 when the cache is enabled"
  | blank setting => setting ++ " cannot be empty"
  | climbingPageBase => "navigation.page_prefix cannot contain '..'"

/-- The rules, in the order of the checks, each with whether the configuration breaks it. -/
def checks (c : Configuration) : List (Violation × Bool) :=
  [(.zero "limits.max_depth", c.limits.maxDepth == 0),
    (.zero "limits.max_duration_secs", c.limits.maxDurationSecs == 0),
    (.zero "limits.max_file_bytes", c.limits.maxFileBytes == 0),
    (.zero "limits.max_total_bytes", c.limits.maxTotalBytes == 0),
    (.fileAboveTotal, c.limits.maxTotalBytes < c.limits.maxFileBytes),
    (.noCapacity, c.cache.enabled && c.cache.capacity == 0),
    (.blank "navigation.group", Text.isBlankText c.group),
    (.blank "navigation.tab", (c.tab.map Text.isBlankText).getD false),
    (.climbingPageBase, (c.pageBase.map fun p => (Text.splitAt '/' p).contains "..").getD false),
    (.zero "navigation.max_manifest_bytes", c.maxManifestBytes == 0),
    (.blank "output.code_language", Text.isBlankText c.codeLanguage)]

/-- The first rule that the configuration breaks. -/
def violation? (c : Configuration) : Option Violation := (c.checks.find? (·.2)).map (·.1)

/-! ## Loading -/

/-- Why there is no configuration. -/
inductive Error where
  /-- Nothing stands at the path given for the file. -/
  | notFound (path : Path)
  /-- The file cannot be read as text. -/
  | unreadable
  /-- The text is not the TOML form of a configuration file. -/
  | malformed
  /-- A setting has a variable without a text. -/
  | expansion (error : ConfigurationFile.ExpansionError)
  /-- The configuration breaks a rule. -/
  | invalid (violation : Violation)
deriving DecidableEq, Repr

/-- The message of an error, up to the part that the file system or the TOML grammar would add. -/
def Error.message : Error → String
  | notFound path => "Configuration file not found: " ++ path
  | unreadable => "I/O error:"
  | malformed => "TOML parse error:"
  | expansion e => "Environment variable error in " ++ e.setting ++ ": " ++ e.failure.message
  | invalid violation => "Configuration error: " ++ violation.reason

/-- The configuration, if it breaks no rule. -/
def checked (c : Configuration) : Except Error Configuration :=
  match c.violation? with
  | none => .ok c
  | some v => .error (.invalid v)

/-- The files that may hold the configuration: in the working directory or in a directory around it, the
nearest first. -/
def candidates (t : FileTree) : List Path := t.currentPath.ancestors.map (Path.join · fileName)

/-- The configuration in the file at a path. -/
def ofPath (t : FileTree) (env : Environment) (path : Path) : Except Error Configuration :=
  match t.readText path with
  | .error _ => .error .unreadable
  | .ok text =>
    match ConfigurationFile.ofText? text with
    | none => .error .malformed
    | some f =>
      match f.expand env with
      | .error e => .error (.expansion e)
      | .ok f => (ofFile path f).checked

/-- The configuration in the file at a given path or else in the nearest file there is, or the defaults. -/
def loadFile (t : FileTree) (env : Environment) (path : Option Path) : Except Error Configuration :=
  match path with
  | some p => if t.exists? p then ofPath t env p else .error (.notFound p)
  | none =>
    match (candidates t).find? t.isFile with
    | some p => ofPath t env p
    | none => .ok (ofDirectory t.currentPath)

/-- Settings that replace those of the file. -/
structure Overrides where
  /-- The model file. -/
  model : Option Path := none
  /-- The directory of the pages. -/
  outputDirectory : Option Path := none
  /-- The manifest file. -/
  manifest : Option Path := none
  /-- Whether the cache stores anything. -/
  cacheEnabled : Option Bool := none
deriving DecidableEq, Repr, Inhabited

/-- The configuration with some settings replaced. -/
def Overrides.apply (o : Overrides) (c : Configuration) : Configuration :=
  { c with
    model := o.model.getD c.model
    outputDirectory := o.outputDirectory.getD c.outputDirectory
    manifest := o.manifest.getD c.manifest
    cache := { c.cache with enabled := o.cacheEnabled.getD c.cache.enabled } }

/-- Load a configuration and replace some settings. -/
def load (t : FileTree) (env : Environment) (path : Option Path) (o : Overrides) :
    Except Error Configuration :=
  (loadFile t env path).map o.apply

/-! ## Settings of a run -/

/-- The path of the pages in the site when none is given: the output directory as seen from the directory
of the manifest, and the empty path if it is not below it. -/
def defaultPageBase (outputDirectory manifest : Path) : String :=
  let names := fun (cs : List Path.Component) => cs.filterMap fun
    | .normal name => some name
    | _ => none
  match Path.componentsBelow? outputDirectory manifest.directory with
  | some components => String.intercalate "/" (names components)
  | none => ""

/-- The settings of a run. -/
def runSettings (c : Configuration) : Generation.Settings :=
  Generation.Settings.withPageBase
    { outputDirectory := c.outputDirectory
      limits := c.limits
      manifest := some {
        path := c.manifest
        target := { group := c.group, tab := c.tab }
        maxBytes := c.maxManifestBytes } }
    (c.pageBase.getD (defaultPageBase c.outputDirectory c.manifest))

end Configuration

end ReferenceSite
