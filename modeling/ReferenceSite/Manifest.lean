import ReferenceSite.Navigation.Group
import ReferenceSite.Json.Printer

/-!
# The site manifest

The manifest is a JSON object that people maintain; one group of its navigation is generated. Merging a
group replaces what stands in the slot that the target names and leaves everything else where it is. The
navigation is an array of groups, or an object with an array of tabs that have groups.
-/

namespace ReferenceSite

/-- A manifest: the members of its document. -/
structure Manifest where
  /-- The members, each key once. -/
  members : List (String × Json) := []
deriving Repr, Inhabited

/-- The slot of the generated group. -/
structure Manifest.Target where
  /-- The heading of the group. -/
  group : String
  /-- The tab, where the navigation has tabs; without one the tab is named like the group. -/
  tab : Option String := none
deriving DecidableEq, Repr, Inhabited

namespace Manifest

/-- The name of the tab. -/
def Target.tabName (t : Target) : String := t.tab.getD t.group

/-- The document. -/
def toJson (m : Manifest) : Json := .obj m.members

instance : BEq Manifest := ⟨fun a b => a.toJson == b.toJson⟩

/-- The manifest of a document; only an object is one, and anything else counts as empty. -/
def ofJson : Json → Manifest
  | .obj members => ⟨members⟩
  | _ => {}

/-- The manifest written in a text; a text without a document counts as empty. -/
def ofText (text : String) : Manifest :=
  match (Json.ofText? text).bind Json.document? with
  | some v => ofJson v
  | none => {}

/-- The text of the manifest. -/
def toText (m : Manifest) : String := m.toJson.pretty ++ "\n"

/-- The value of a key. -/
def find? (m : Manifest) (key : String) : Option Json := Json.find? key m.members

/-! ## Merging -/

/-- The value is an object with a string under a key. -/
def isNamed (key name : String) (v : Json) : Bool := (v.get? key).bind Json.string? == some name

/-- Change the first element with a name under a key, or append a new element. -/
def upsert (key name : String) (change : Json → Json) (fresh : Json) : List Json → List Json
  | [] => [fresh]
  | v :: vs =>
    if isNamed key name v then change v :: vs else v :: upsert key name change fresh vs

/-- Put a group in its place in an array of groups. -/
def putGroup (t : Target) (group : Json) : List Json → List Json :=
  upsert "group" t.group (fun _ => group) group

/-- The elements of an array; anything else has none. -/
def elementsOf : Option Json → List Json
  | some (.arr vs) => vs
  | _ => []

/-- Put a group in its place in a tab; a tab that is no object gives way to one. -/
def putInTab (t : Target) (group : Json) : Json → Json
  | .obj tab =>
    .obj (Json.put "groups" (.arr (putGroup t group (elementsOf (Json.find? "groups" tab)))) tab)
  | _ => .obj [("tab", .str t.tabName), ("groups", .arr [group])]

/-- A tab without groups. -/
def newTab (t : Target) : Json := .obj [("tab", .str t.tabName)]

/-- Put a group in its place in an array of tabs. -/
def putInTabs (t : Target) (group : Json) : List Json → List Json :=
  upsert "tab" t.tabName (putInTab t group) (putInTab t group (newTab t))

/-- Put a group in its place in the navigation. -/
def putInNavigation (t : Target) (group : Json) : Option Json → Json
  | some (.arr groups) => .arr (putGroup t group groups)
  | some (.obj members) =>
    match Json.find? "tabs" members with
    | some (.arr tabs) => .obj (Json.put "tabs" (.arr (putInTabs t group tabs)) members)
    | _ => .arr [group]
  | _ => .arr [group]

/-- Put a group in its place in the manifest. -/
def merge (m : Manifest) (t : Target) (group : NavGroup) : Manifest :=
  ⟨Json.put "navigation" (putInNavigation t group.toDocument (m.find? "navigation")) m.members⟩

end Manifest

end ReferenceSite
