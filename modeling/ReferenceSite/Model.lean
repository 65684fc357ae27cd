import ReferenceSite.Docs
import ReferenceSite.Kind

/-!
# The item model

A model holds its items in one array, in order of creation, and items point at their parent and at their
members by position. Position zero is the root. `Model.add` appends an item under a parent, so
parents always precede their members; the walks over a model follow a link only in that direction and
therefore end on every model.

`Model.lineage` is the chain from the root to an item, `Model.visibleMembers` the members of an item with
wrappers looked through, and `Model.referenceTo` a reference built from the names on the lineage.
-/

namespace ReferenceSite

/-- What is declared about an item, apart from its place in the model. -/
structure Declaration where
  /-- The kind. -/
  kind : Kind
  /-- The name as declared; it may be blank. -/
  name : String := ""
  /-- The number among overloads, counted from one; zero means that there are none. -/
  overloadIndex : UInt32 := 0
  /-- The release tag. -/
  releaseTag : ReleaseTag := .untagged
  /-- The documentation comment. -/
  docs : Option Doc.Comment := none
  /-- The signature. -/
  excerpt : List Excerpt.Token := []
deriving DecidableEq, Repr, Inhabited

namespace Declaration

/-- The name is blank. -/
def isAnonymous (d : Declaration) : Bool := Text.isBlankText d.name

/-- The number among overloads, an item without overloads being the first. -/
def overloadOrdinal (d : Declaration) : Nat := max d.overloadIndex.toNat 1

end Declaration

/-- An item of a model. -/
structure Item extends Declaration where
  /-- The enclosing item; only the root has none. -/
  parent : Option Nat := none
  /-- The members, in order of declaration. -/
  members : List Nat := []
deriving DecidableEq, Repr, Inhabited

/-- A tree of items, held in one array. -/
structure Model where
  /-- The items, in order of creation. -/
  items : Array Item
deriving Repr, Inhabited

namespace Model

/-- The position of the root. -/
def root : Nat := 0

/-- The number of items. -/
def size (m : Model) : Nat := m.items.size

/-- The position belongs to an item of the model. -/
def contains (m : Model) (id : Nat) : Bool := id < m.size

/-- The item at a position; a position outside the model has an item without links. -/
def item (m : Model) (id : Nat) : Item := m.items.getD id { kind := .model }

/-- The model that holds only a root with a documentation comment and an excerpt. -/
def ofRoot (docs : Option Doc.Comment) (excerpt : List Excerpt.Token) : Model :=
  ⟨#[{ kind := .model, docs, excerpt }]⟩

/-- The model that holds only a bare root. -/
def empty : Model := ofRoot none []

/-- Append an item as the last member of a parent; its position is the size of the model before. -/
def add (m : Model) (parent : Nat) (d : Declaration) : Model :=
  ⟨(m.items.modify parent fun p => { p with members := p.members ++ [m.size] }).push
    { d with parent := some parent }⟩

/-! ## Walks -/

/-- The enclosing items, the nearest first. -/
def ancestors (m : Model) (id : Nat) : List Nat :=
  match (m.item id).parent with
  | none => []
  | some p => if p < id then p :: m.ancestors p else []
termination_by id

/-- The chain from the root to an item, the item included. -/
def lineage (m : Model) (id : Nat) : List Nat := (id :: m.ancestors id).reverse

/-- The item itself if it is a package, and otherwise the nearest enclosing package. -/
def packageOf (m : Model) (id : Nat) : Option Nat :=
  (id :: m.ancestors id).find? fun i => (m.item i).kind == .package

/-- The members of an item; a wrapper among them stands for its own visible members. -/
def visibleMembers (m : Model) (id : Nat) : List Nat :=
  (m.item id).members.flatMap fun c =>
    if (m.item c).kind.isWrapper then
      if _h : id < c ∧ c < m.size then m.visibleMembers c else []
    else [c]
termination_by m.size - id
decreasing_by omega

/-! ## Names -/

/-- Extend a reference by one step of a lineage. -/
def referenceStep (m : Model) (r : Reference) (id : Nat) : Reference :=
  let item := m.item id
  if item.kind == .package then { r with package := some item.name }
  else if item.kind.isWrapper then r
  else { r with members := r.members ++ [item.name] }

/-- The reference that names an item by its lineage. -/
def referenceTo (m : Model) (id : Nat) : Reference :=
  let named := (m.lineage id).foldl m.referenceStep {}
  let index := (m.item id).overloadIndex
  if 1 < index then { named with overload := some index } else named

/-- The name of an item in messages; it tells items without a name apart. -/
def canonicalName (m : Model) (id : Nat) : String :=
  let item := m.item id
  if item.kind == .model then "(model)"
  else
    let name := (m.referenceTo id).toText
    if item.isAnonymous then
      name ++ "<anonymous " ++ item.kind.slug ++ "#" ++ toString id ++ ">"
    else name

/-- How many items there are of each kind that occurs, in the order of kinds. -/
def kindCounts (m : Model) : List (Kind × Nat) :=
  Kind.all.filterMap fun k =>
    let n := m.items.toList.countP (·.kind == k)
    if n == 0 then none else some (k, n)

end Model

end ReferenceSite
