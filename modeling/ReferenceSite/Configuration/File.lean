import ReferenceSite.Cache
import ReferenceSite.Environment
import ReferenceSite.Generation.Settings
import ReferenceSite.Toml.Reader

/-!
# Configuration files

A configuration file is a TOML document with up to five sections, each with settings that may be missing.
Unknown sections and settings are ignored. A section may also be written as an array of its settings in
order, of which the last ones may be missing.

Texts that name places or headings may refer to environment variables; `ConfigurationFile.expand` replaces
the references.
-/

namespace ReferenceSite

/-- The settings of a configuration file, as they are written. -/
structure ConfigurationFile where
  /-- The model file. -/
  model : Option String := none
  /-- The directory of the pages. -/
  outputDirectory : Option String := none
  /-- The language of code blocks. -/
  codeLanguage : Option String := none
  /-- The directory with templates. -/
  templates : Option String := none
  /-- The manifest file. -/
  manifest : Option String := none
  /-- The heading of the generated group. -/
  group : Option String := none
  /-- The tab of the generated group. -/
  tab : Option String := none
  /-- The path of the pages in the site. -/
  pageBase : Option String := none
  /-- The largest size of the manifest, in bytes. -/
  maxManifestBytes : Option Nat := none
  /-- How large a run may grow. -/
  limits : Generation.Limits := {}
  /-- How the cache behaves. -/
  cache : Cache.Settings := {}
deriving DecidableEq, Repr, Inhabited

namespace ConfigurationFile

/-! ## Sections -/

/-- The settings of a section that are present. Those without a meaning are dropped, but have to be
readable. A date in place of a section has none. -/
def settings? (names : List String) : Toml → Option Toml.Entries
  | .table _ entries =>
    let (known, unknown) := entries.partition fun (k, _) => names.contains k
    if Toml.entriesReadable unknown then some known else none
  | .array vs => some (names.zip vs)
  | .tables ts => some (names.zip (ts.map (.table .header)))
  | .moment => some []
  | _ => none

/-- Read a section by a function from its settings; a missing section has none. -/
def readSection? {α : Type} (name : String) (names : List String) (read : Toml.Entries → Option α)
    (document : Toml.Entries) : Option α :=
  match document.lookup name with
  | none => read []
  | some v => (settings? names v).bind read

/-- Read a setting that may be missing. -/
def setting? {α : Type} (name : String) (read : Toml → Option α) (entries : Toml.Entries) :
    Option (Option α) :=
  match entries.lookup name with
  | none => some none
  | some v => (read v).map some

/-- Read a setting that has a default. -/
def settingOr {α : Type} (name : String) (fallback : α) (read : Toml → Option α)
    (entries : Toml.Entries) : Option α :=
  (setting? name read entries).map (·.getD fallback)

/-- Read a text. -/
def text? : Toml → Option String
  | .string s => some s
  | _ => none

/-- Read a truth value. -/
def truth? : Toml → Option Bool
  | .boolean b => some b
  | _ => none

/-- Read a natural number of 64 bits. -/
def natural? : Toml → Option Nat
  | .integer n => if 0 ≤ n && n < UInt64.size then some n.toNat else none
  | _ => none

/-- Read the limits. -/
def limits? (s : Toml.Entries) : Option Generation.Limits := do
  let d : Generation.Limits := {}
  return {
    maxDepth := ← settingOr "max_depth" d.maxDepth natural? s
    maxDurationSecs := ← settingOr "max_duration_secs" d.maxDurationSecs natural? s
    maxFileBytes := ← settingOr "max_file_bytes" d.maxFileBytes natural? s
    maxTotalBytes := ← settingOr "max_total_bytes" d.maxTotalBytes natural? s }

/-- Read the settings of the cache. -/
def cache? (s : Toml.Entries) : Option Cache.Settings := do
  let d : Cache.Settings := {}
  return {
    enabled := ← settingOr "enabled" d.enabled truth? s
    capacity := ← settingOr "capacity" d.capacity natural? s }

/-- Extend a file by the settings of the output. -/
def withOutput (f : ConfigurationFile) (s : Toml.Entries) : Option ConfigurationFile := do
  return { f with
    outputDirectory := ← setting? "dir" text? s
    codeLanguage := ← setting? "code_language" text? s
    templates := ← setting? "templates_dir" text? s }

/-- Extend a file by the settings of the navigation. -/
def withNavigation (f : ConfigurationFile) (s : Toml.Entries) : Option ConfigurationFile := do
  return { f with
    manifest := ← setting? "manifest" text? s
    group := ← setting? "group" text? s
    tab := ← setting? "tab" text? s
    pageBase := ← setting? "page_prefix" text? s
    maxManifestBytes := ← setting? "max_manifest_bytes" natural? s }

/-- The settings of a document. -/
def ofDocument? (document : Toml.Entries) : Option ConfigurationFile := do
  let document ← settings? ["model", "output", "navigation", "limits", "cache"] (.table .header document)
  let f : ConfigurationFile := {
    model := ← readSection? "model" ["path"] (setting? "path" text?) document
    limits := ← readSection? "limits"
      ["max_depth", "max_duration_secs", "max_file_bytes", "max_total_bytes"] limits? document
    cache := ← readSection? "cache" ["enabled", "capacity"] cache? document }
  let f ← readSection? "output" ["dir", "code_language", "templates_dir"] f.withOutput document
  readSection? "navigation" ["manifest", "group", "tab", "page_prefix", "max_manifest_bytes"]
    f.withNavigation document

/-- The settings written in a text. -/
def ofText? (text : String) : Option ConfigurationFile := (Toml.ofText? text).bind ofDocument?

/-! ## Environment variables -/

/-- A setting with a variable that has no text. -/
structure ExpansionError where
  /-- The section and the name of the setting. -/
  setting : String
  /-- The variable. -/
  failure : Environment.Failure
deriving DecidableEq, Repr

/-- Replace the references to environment variables in a setting. -/
def expandSetting (env : Environment) (setting : String) :
    Option String → Except ExpansionError (Option String)
  | none => .ok none
  | some s => ((env.expand s).mapError fun failure => { setting, failure }).map some

/-- Replace the references to environment variables. -/
def expand (env : Environment) (f : ConfigurationFile) : Except ExpansionError ConfigurationFile := do
  return { f with
    model := ← expandSetting env "model.path" f.model
    outputDirectory := ← expandSetting env "output.dir" f.outputDirectory
    templates := ← expandSetting env "output.templates_dir" f.templates
    manifest := ← expandSetting env "navigation.manifest" f.manifest
    group := ← expandSetting env "navigation.group" f.group
    tab := ← expandSetting env "navigation.tab" f.tab
    pageBase := ← expandSetting env "navigation.page_prefix" f.pageBase }

end ConfigurationFile

end ReferenceSite
