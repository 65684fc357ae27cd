import ReferenceSite.Cache.Key
import ReferenceSite.Generation.Content
import ReferenceSite.Generation.Error
import ReferenceSite.Generation.Settings
import ReferenceSite.Navigation

/-!
# The walk of a run

A run visits the items below its root in depth-first order, members of enumerations excepted
(`Model.itinerary`), and writes a page for each item that produces one. The first visit that fails ends the
walk; what was written before it stays. `Walk` is the state between two visits.

A walk is a function and takes no time, so the limit on its duration is exceeded only if it is zero.
-/

namespace ReferenceSite

/-- A visit of the walk. -/
structure Visit where
  /-- The item. -/
  item : Nat
  /-- The depth below the root of the walk. -/
  depth : Nat
  /-- The nearest enclosing item of the walk that groups its members in the navigation. -/
  owner : Option Nat
deriving DecidableEq, Repr, Inhabited

/-- The visits below an item, the item first and its members in order, each with everything below it. -/
def Model.itinerary (m : Model) (id depth : Nat) (owner : Option Nat) : List Visit :=
  { item := id, depth, owner } ::
    (m.item id).members.flatMap fun c =>
      if _h : id < c ∧ c < m.size then
        if (m.item c).kind.isInlineMember then []
        else m.itinerary c (depth + 1) (if (m.item id).kind.ownsNavigation then some id else owner)
      else []
termination_by m.size - id
decreasing_by omega

namespace Generation

/-- What a walk is made for. -/
structure Task where
  /-- The model. -/
  model : Model
  /-- The renderer. -/
  renderer : Renderer
  /-- The settings. -/
  settings : Settings

/-- The state between two visits. -/
structure Walk where
  /-- The files. -/
  tree : FileTree
  /-- The cache of resolutions. -/
  cache : ResolutionCache
  /-- The pages registered for the navigation. -/
  navigation : Navigation := {}
  /-- The addresses in use, in lower case, with their items. -/
  claimed : List (String × Nat) := []
  /-- The page references of the pages written so far, by item. -/
  pageRefs : List (Nat × String) := []
  /-- How many pages were written. -/
  written : Nat := 0
  /-- How many pages had their text already. -/
  unchanged : Nat := 0
  /-- The size of all pages so far, in bytes. -/
  totalBytes : Nat := 0

/-! ## Links -/

/-- Resolve references through a cache, one after the other. -/
def resolveAll (m : Model) :
    ResolutionCache → List (Reference × Nat) → List ((Reference × Nat) × Resolution) × ResolutionCache
  | cache, [] => ([], cache)
  | cache, (r, context) :: rest =>
    let (answer, cache) := cache.resolve m.resolve r (some context)
    let (answers, cache) := resolveAll m cache rest
    (((r, context), answer) :: answers, cache)

/-- The addresses that links lead to, given some answers that are known already. -/
def linksOf (m : Model) (base : String) (answers : List ((Reference × Nat) × Resolution)) : Links :=
  fun r context =>
    match (answers.lookup (r, context)).getD (m.resolve r (some context)) with
    | .ok id => m.documentedAt? base id
    | .error _ => none

/-! ## Pages -/

/-- Write a page, unless its file has the text already; the answer is whether it was written. -/
def writePage (t : FileTree) (path : Path) (text : String) : Except Error Bool × FileTree :=
  let write := fun (t : FileTree) =>
    match t.write path (.text text) with
    | .ok t => (.ok true, t)
    | .error f => (.error (Error.ofFailure f path), t)
  match t.stat path with
  | .ok (.file content) => if content == .text text then (.ok false, t) else write t
  | .ok .directory => write t
  | .error .notFound =>
    let directory := path.directory
    match t.createDirectories directory with
    | (.ok (), t) => write t
    | (.error f, t) => (.error (Error.ofFailure f directory), t)
  | .error f => (.error (Error.ofFailure f path), t)

/-- The limit that a page of some size would break, with the size that breaks it. -/
def exceeded? (limits : Limits) (total size : Nat) : Option (ErrorKind × String) :=
  if limits.maxFileBytes < size then
    some (.fileTooLarge,
      "page is " ++ toString size ++ " bytes, limit " ++ toString limits.maxFileBytes ++ " bytes")
  else if limits.maxTotalBytes < total + size then
    some (.totalSizeExceeded,
      "output would reach " ++ toString (total + size) ++ " bytes, limit "
        ++ toString limits.maxTotalBytes ++ " bytes")
  else none

/-- Register a written page. A page without an owner whose item has no name is left out. -/
def register (nav : Navigation) (item : Declaration) (title pageRef : String)
    (owner : Option String) : Navigation :=
  if owner.isNone && item.isAnonymous then nav
  else nav.add { page := pageRef, category := Category.ofKind item.kind, name := title, parent := owner }

/-- Account for a page that is in its file. -/
def Walk.finishPage (w : Walk) (k : Task) (v : Visit) (a : Address) (title : String) (size : Nat)
    (written : Bool) : Walk :=
  let pageRef := a.pageRef k.settings.pageBase
  let owner := v.owner.bind (w.pageRefs.lookup ·)
  { w with
    written := w.written + if written then 1 else 0
    unchanged := w.unchanged + if written then 0 else 1
    totalBytes := w.totalBytes + size
    navigation := register w.navigation (k.model.item v.item).toDeclaration title pageRef owner
    pageRefs := (v.item, pageRef) :: w.pageRefs }

/-- Render the page of an item that has an address, and write it. -/
def Walk.writeItem (w : Walk) (k : Task) (v : Visit) (a : Address) : Except Error Unit × Walk :=
  let name := k.model.canonicalName v.item
  let page := Page.ofItem k.model k.settings.pageBase w.pageRefs v.item
  let (answers, cache) := resolveAll k.model w.cache page.links
  let w := { w with cache }
  match k.renderer page (linksOf k.model k.settings.pageBase answers) with
  | .error e =>
    (.error { kind := .render, item := some name, path := some a.toText, cause := some (.render e) }, w)
  | .ok text =>
    let file := a.file "mdx"
    match exceeded? k.settings.limits w.totalBytes text.utf8ByteSize with
    | some (kind, detail) =>
      (.error { kind, item := some name, path := some file, detail := some detail }, w)
    | none =>
      match writePage w.tree (Path.join k.settings.outputDirectory file) text with
      | (.error e, tree) => (.error e, { w with tree })
      | (.ok written, tree) =>
        (.ok (), { w with tree }.finishPage k v a page.title text.utf8ByteSize written)

/-- Give an item its address and write its page. -/
def Walk.emit (w : Walk) (k : Task) (v : Visit) : Except Error Unit × Walk :=
  let name := k.model.canonicalName v.item
  match k.model.address v.item with
  | .error e => (.error { kind := .invalidPath, item := some name, cause := some (.address e) }, w)
  | .ok a =>
    let folded := Text.lowercase a.toText
    match w.claimed.lookup folded with
    | some other =>
      (.error {
        kind := .pathCollision
        item := some name
        path := some a.toText
        detail := some ("output path already used by " ++ k.model.canonicalName other) }, w)
    | none => { w with claimed := (folded, v.item) :: w.claimed }.writeItem k v a

/-- The error of a visit beyond the greatest depth. -/
def depthError (k : Task) (v : Visit) : Error where
  kind := .depthExceeded
  item := some (k.model.canonicalName v.item)
  detail := some ("depth " ++ toString v.depth ++ " exceeds limit "
    ++ toString k.settings.limits.maxDepth)

/-- The error of a visit when there is no time. -/
def timeError (k : Task) (v : Visit) : Error where
  kind := .timeExceeded
  item := some (k.model.canonicalName v.item)
  detail := some "0ms elapsed, limit 0ms"

/-- One visit. -/
def Walk.visit (w : Walk) (k : Task) (v : Visit) : Except Error Unit × Walk :=
  if k.settings.limits.maxDepth < v.depth then (.error (depthError k v), w)
  else if k.settings.limits.maxDurationSecs == 0 then (.error (timeError k v), w)
  else if (k.model.item v.item).kind.producesPage then w.emit k v
  else (.ok (), w)

/-- Visits one after the other, up to the first that fails. -/
def Walk.visitAll (k : Task) : Walk → List Visit → Except Error Unit × Walk
  | w, [] => (.ok (), w)
  | w, v :: vs =>
    match w.visit k v with
    | (.error e, w) => (.error e, w)
    | (.ok (), w) => visitAll k w vs

end Generation

end ReferenceSite
