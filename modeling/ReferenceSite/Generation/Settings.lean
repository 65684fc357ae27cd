import ReferenceSite.Manifest
import ReferenceSite.Path

/-!
# Settings of a run

Where the pages of a run go, under which path of the site they are referenced, how large the run may grow
and which manifest it updates.
-/

namespace ReferenceSite.Generation

/-- How large a run may grow. -/
structure Limits where
  /-- The greatest depth of an item below the root of the run, wrappers included. -/
  maxDepth : Nat := 64
  /-- The longest time that a run may take, in seconds. -/
  maxDurationSecs : Nat := 300
  /-- The largest size of a page, in bytes. -/
  maxFileBytes : Nat := 5 * 1024 * 1024
  /-- The largest size of all pages together, in bytes. -/
  maxTotalBytes : Nat := 512 * 1024 * 1024
deriving DecidableEq, Repr, Inhabited

/-- The manifest that a run updates. -/
structure ManifestSettings where
  /-- The manifest file. -/
  path : Path
  /-- The slot of the group. -/
  target : Manifest.Target
  /-- The largest size of the manifest, in bytes. -/
  maxBytes : Nat
deriving DecidableEq, Repr, Inhabited

/-- The settings of a run. -/
structure Settings where
  /-- The directory of the pages. -/
  outputDirectory : Path
  /-- The path of the pages in the site, without slashes at its ends. -/
  pageBase : String := ""
  /-- How large the run may grow. -/
  limits : Limits := {}
  /-- The manifest to update, if any. -/
  manifest : Option ManifestSettings := none
deriving DecidableEq, Repr, Inhabited

/-- The settings with a path of the pages in the site. -/
def Settings.withPageBase (s : Settings) (base : String) : Settings :=
  { s with pageBase := Text.stripChar '/' base }

end ReferenceSite.Generation
