import ReferenceSite.Generation.Walk

/-!
# Generating pages

A generator writes the pages of a model and keeps the navigation and the cache of its last run.
`Generator.generate` walks the items below a root; `Generator.run` also merges the navigation into the
manifest, once the whole walk has succeeded. Every run starts with an empty navigation and an empty cache.
-/

namespace ReferenceSite

open Generation

/-- What a run did. -/
structure Report where
  /-- How many pages were written. -/
  written : Nat
  /-- How many pages had their text already. -/
  unchanged : Nat
  /-- The size of all pages, in bytes. -/
  totalBytes : Nat
  /-- How many entries the navigation has. -/
  navigationEntries : Nat
  /-- The counters of the cache. -/
  cache : Cache.Stats
  /-- Whether the manifest was written, if there is one to update. -/
  manifestWritten : Option Bool := none
deriving DecidableEq, Repr, Inhabited

/-- The number of pages. -/
def Report.pages (r : Report) : Nat := r.written + r.unchanged

/-- A generator. -/
structure Generator extends Task where
  /-- The cache of resolutions of the last run. -/
  cache : ResolutionCache
  /-- The navigation of the last run. -/
  navigation : Navigation := {}

namespace Generator

/-- A generator before its first run. -/
def ofTask (task : Task) (cache : Cache.Settings) : Generator :=
  { task with cache := Cache.ofSettings cache }

/-- The error for a root that is no item of the model. -/
def unknownRoot (root : Nat) : Error :=
  { kind := .invalidPath, detail := some ("item #" ++ toString root ++ " is not part of the model") }

/-- The walk before its first visit. -/
def startWalk (g : Generator) (t : FileTree) : Walk := { tree := t, cache := g.cache.clear }

/-- Write the pages of the items below a root. -/
def generate (g : Generator) (t : FileTree) (root : Nat) :
    Except Error Report × Generator × FileTree :=
  if !g.model.contains root then (.error (unknownRoot root), g, t)
  else
    let (result, w) := Walk.visitAll g.toTask (g.startWalk t) (g.model.itinerary root 0 none)
    let g := { g with cache := w.cache, navigation := w.navigation }
    let report : Report := {
      written := w.written
      unchanged := w.unchanged
      totalBytes := w.totalBytes
      navigationEntries := w.navigation.entries.length
      cache := w.cache.stats }
    (result.map fun () => report, g, w.tree)

/-- The error of a manifest that cannot be updated. -/
def manifestError (path : Path) (e : Manifest.UpdateError) : Error :=
  { kind := .manifest, path := some path, cause := some (.manifest e) }

/-- Write the pages of the items below a root, then update the manifest if there is one. -/
def run (g : Generator) (t : FileTree) (root : Nat) : Except Error Report × Generator × FileTree :=
  match g.generate t root with
  | (.error e, g, t) => (.error e, g, t)
  | (.ok report, g, t) =>
    match g.settings.manifest with
    | none => (.ok report, g, t)
    | some s =>
      let group := g.navigation.group s.target.group
      match Manifest.update t s.path s.target group s.maxBytes with
      | (.error e, t) => (.error (manifestError s.path e), g, t)
      | (.ok outcome, t) =>
        (.ok { report with manifestWritten := some (outcome == .written) }, g, t)

end Generator

end ReferenceSite
