import ReferenceSite.Model

/-!
# Resolving references

A reference with a package is followed from the first visible package of that name; one without is
followed from each scope around a context item in turn, the innermost first and the nearest package last.
Following a reference from a scope goes through visible members by name. At the last step an overload
selects by number and its absence selects the least number; at the other steps a container is preferred.
-/

namespace ReferenceSite

/-- Why a reference names no item. -/
inductive Unresolved where
  /-- No visible package has the name. -/
  | packageNotFound (name : String)
  /-- There is neither a package nor a context item. -/
  | noContext (reference : Reference)
  /-- An item, given by its name in messages, has no visible member of the name. -/
  | memberNotFound (member scope : String)
  /-- No container surrounds the context item. -/
  | noScope (reference : Reference)
deriving DecidableEq, Repr

/-- The message of a failed resolution. -/
def Unresolved.message : Unresolved → String
  | packageNotFound name => "package '" ++ name ++ "' not found"
  | noContext r => "reference '" ++ r.toText ++ "' has no package and no context item"
  | memberNotFound member scope => "member '" ++ member ++ "' not found in '" ++ scope ++ "'"
  | noScope r => "no enclosing scope for '" ++ r.toText ++ "'"

/-- What a reference is resolved to: an item, or the reason why there is none. -/
abbrev Resolution := Except Unresolved Nat

/-- A way to resolve references as seen from a context item. -/
abbrev Resolver := Reference → (context : Option Nat) → Resolution

/-- The first element with the least value. -/
def firstMinBy? (f : Nat → Nat) : List Nat → Option Nat
  | [] => none
  | a :: as =>
    match firstMinBy? f as with
    | none => some a
    | some b => if f b < f a then some b else some a

namespace Model

/-- The first visible package of the root with a name. -/
def findPackage? (m : Model) (name : String) : Option Nat :=
  (m.visibleMembers root).find? fun id => (m.item id).kind == .package && (m.item id).name == name

/-- The visible members of an item with a name. -/
def membersNamed (m : Model) (id : Nat) (name : String) : List Nat :=
  (m.visibleMembers id).filter fun c => (m.item c).name == name

/-- The containers among an item and its ancestors, the innermost first, up to the nearest package. -/
def scopes (m : Model) (id : Nat) : List Nat :=
  (upToPackage (id :: m.ancestors id)).filter fun i =>
    !(m.item i).kind.isWrapper && (m.item i).kind.isContainer
where
  /-- The items up to the first package, it included. -/
  upToPackage : List Nat → List Nat
    | [] => []
    | i :: is => if (m.item i).kind == .package then [i] else i :: upToPackage is

/-- The member chosen at the last step of a reference. -/
def lastStep? (m : Model) (id : Nat) (name : String) (overload : Option UInt32) : Option Nat :=
  let ordinal := fun c => (m.item c).overloadOrdinal
  match overload with
  | some k => (m.membersNamed id name).find? fun c => ordinal c == max k.toNat 1
  | none => firstMinBy? ordinal (m.membersNamed id name)

/-- The member chosen at a step that is not the last. -/
def innerStep? (m : Model) (id : Nat) (name : String) : Option Nat :=
  let candidates := m.membersNamed id name
  (candidates.find? fun c => (m.item c).kind.isContainer).or candidates.head?

/-- Follow the names of members from an item inwards. -/
def follow (m : Model) (overload : Option UInt32) (id : Nat) : List String → Resolution
  | [] => .ok id
  | [name] =>
    match m.lastStep? id name overload with
    | some c => .ok c
    | none => .error (.memberNotFound name (m.canonicalName id))
  | name :: names =>
    match m.innerStep? id name with
    | some c => m.follow overload c names
    | none => .error (.memberNotFound name (m.canonicalName id))

/-- The first scope from which a reference can be followed decides; without one, the last scope tells why. -/
def followFrom (m : Model) (r : Reference) (failure : Unresolved) : List Nat → Resolution
  | [] => .error failure
  | scope :: scopes =>
    match m.follow r.overload scope r.members with
    | .ok id => .ok id
    | .error e => m.followFrom r e scopes

/-- Resolve a reference as seen from a context item. -/
def resolve (m : Model) : Resolver := fun r context =>
  match r.package with
  | some name =>
    match m.findPackage? name with
    | some scope => m.follow r.overload scope r.members
    | none => .error (.packageNotFound name)
  | none =>
    match context.filter m.contains with
    | some id => m.followFrom r (.noScope r) (m.scopes id)
    | none => .error (.noContext r)

end Model

end ReferenceSite
