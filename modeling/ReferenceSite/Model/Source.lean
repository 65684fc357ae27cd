import ReferenceSite.FileTree
import ReferenceSite.Json.Reader
import ReferenceSite.Model

/-!
# Model files

A model file is a JSON tree of items (`Source`). `Model.ofSource` lays the tree out in depth-first order;
it refuses a tree whose top is not a model, that has a model further down, or that gives members to an item
that is no container, and tells the first such node of that order.
-/

namespace ReferenceSite

/-- A tree of items. -/
inductive Source where
  /-- An item with its members. -/
  | node (declaration : Declaration) (members : List Source)
deriving Repr, Inhabited

namespace Source

/-- What is declared about the item at the top. -/
def declaration : Source → Declaration
  | node d _ => d

/-- The members of the item at the top. -/
def members : Source → List Source
  | node _ ms => ms

/-- The fields of an item in a model file, in order. -/
def fieldNames : List String :=
  ["kind", "name", "members", "overloadIndex", "releaseTag", "docs", "excerpt"]

/-- Read a tree of items that nests at most `room` containers. -/
def ofJson? : (room : Nat) → Json → Option Source
  | 0, _ => none
  | room + 1, v => do
    let fields ← v.fields? fieldNames
    let d : Declaration := {
      kind := ← Json.required "kind" (Json.within? .whole room (Json.word? Kind.ofName?)) fields
      name := ← Json.withDefault "name" "" Json.string? fields
      overloadIndex := ← Json.withDefault "overloadIndex" 0 Json.word32? fields
      releaseTag := ← Json.withDefault "releaseTag" .untagged
        (Json.within? .whole room (Json.word? ReleaseTag.ofName?)) fields
      docs := ← Json.optional "docs" (Json.within? Doc.Comment.shape room Doc.Comment.ofJson?) fields
      excerpt := ← Json.withDefault "excerpt" []
        (Json.within? Excerpt.shape room Excerpt.ofJson?) fields }
    let members ← match room with
      | 0 => Json.withDefault "members" [] (fun _ => none) fields
      | room + 1 => Json.withDefault "members" [] (Json.list? (ofJson? room)) fields
    return node d members

end Source

namespace Model

/-- A rule that a tree of items breaks. -/
inductive Violation where
  /-- The top is not a model. -/
  | topLevel (found : Kind)
  /-- A model is a member of another item. -/
  | nestedModel (name : String) (under : Kind)
  /-- An item that is no container has members. -/
  | misplacedMembers (kind : Kind) (name : String)
deriving DecidableEq, Repr

/-- The reason given for a violation. -/
def Violation.reason : Violation → String
  | topLevel found => "top-level item must be a Model, found " ++ found.label
  | nestedModel name under => "nested Model item '" ++ name ++ "' under " ++ under.label
  | misplacedMembers kind name => kind.label ++ " '" ++ name ++ "' cannot have members"

mutual

/-- Append a tree under a parent of a given kind, the items in depth-first order. -/
def addSource (m : Model) (parent : Nat) (parentKind : Kind) : Source → Except Violation Model
  | .node d members =>
    if d.kind == .model then .error (.nestedModel d.name parentKind)
    else if !members.isEmpty && !d.kind.isContainer then
      .error (.misplacedMembers d.kind d.name)
    else addSources (m.add parent d) m.size d.kind members

/-- Append trees under a parent, one after the other. -/
def addSources (m : Model) (parent : Nat) (parentKind : Kind) :
    List Source → Except Violation Model
  | [] => .ok m
  | s :: ss => do addSources (← addSource m parent parentKind s) parent parentKind ss

end

/-- The model of a tree. Of the top only the documentation comment and the excerpt are kept. -/
def ofSource (s : Source) : Except Violation Model :=
  let d := s.declaration
  if d.kind != .model then .error (.topLevel d.kind)
  else addSources (ofRoot d.docs d.excerpt) root .model s.members

/-- Why a model file is not accepted. -/
inductive LoadError where
  /-- The file cannot be read as text. -/
  | unreadable (path : String)
  /-- The text is not the JSON form of a tree of items. -/
  | malformed
  /-- The tree breaks a rule. -/
  | invalid (violation : Violation)
deriving DecidableEq, Repr

/-- The message of an error, up to the part that the file system or the JSON grammar would add. -/
def LoadError.message : LoadError → String
  | unreadable path => "Failed to read model " ++ path ++ ":"
  | malformed => "Invalid model JSON:"
  | invalid violation => "Invalid model: " ++ violation.reason

/-- The model written in a JSON text. -/
def ofJsonText (text : String) : Except LoadError Model :=
  match (Json.ofText? text).bind (Source.ofJson? Json.nestingLimit) with
  | none => .error .malformed
  | some s => (ofSource s).mapError .invalid

/-- The model written in the file at a path. -/
def ofFile (t : FileTree) (path : Path) : Except LoadError Model :=
  match t.readText path with
  | .ok text => ofJsonText text
  | .error _ => .error (.unreadable path)

end Model

end ReferenceSite
