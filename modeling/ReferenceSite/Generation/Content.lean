import ReferenceSite.Address
import ReferenceSite.Navigation.Category
import ReferenceSite.Page

/-!
# The page of an item

What the page of an item shows: a title, a description of one line, the way to the page and the members of
the item. Members of an enumeration are described on its own page; other members are linked, gathered by
category.
-/

namespace ReferenceSite

namespace Model

/-- The title of the page of an item: its name, or the fallback segment for a blank one, and the number of an
overload other than the first. -/
def pageTitle (m : Model) (id : Nat) : String :=
  let item := m.item id
  let name := if item.isAnonymous then m.fallbackSegment id else item.shownName
  if 1 < item.overloadIndex then name ++ " (" ++ toString item.overloadIndex.toNat ++ ")" else name

/-- The address of the page of an item in the site. -/
def pageAddress? (m : Model) (base : String) (id : Nat) : Option String :=
  match m.address id with
  | .ok a => some ("/" ++ a.pageRef base)
  | .error _ => none

/-- The nearest item with a page among an item and its ancestors. -/
def pageItem? (m : Model) (id : Nat) : Option Nat :=
  (id :: m.ancestors id).find? fun i => (m.item i).kind.producesPage

/-- The address in the site of the page that documents an item. -/
def documentedAt? (m : Model) (base : String) (id : Nat) : Option String :=
  (m.pageItem? id).bind (m.pageAddress? base)

end Model

namespace Page

/-- The longest description, in characters. -/
def maxDescriptionLength : Nat := 160

/-- The text up to and including the first full stop before a space, or all of it. -/
def firstSentence : List Char → List Char
  | '.' :: ' ' :: _ => ['.']
  | c :: cs => c :: firstSentence cs
  | [] => []

/-- A text of limited length; what is cut off leaves an ellipsis. -/
def shorten (limit : Nat) (cs : List Char) : List Char :=
  if cs.length ≤ limit then cs else Text.trimEnd (cs.take (limit - 1)) ++ [Char.ofNat 0x2026]

/-- The description of an item: the first sentence of its summary, or its kind and title without one. -/
def describe (d : Declaration) (title : String) : String :=
  let summary := Doc.plainText (d.docs.getD {}).summary
  if summary.isEmpty then d.kind.label ++ " " ++ title
  else .ofList (shorten maxDescriptionLength (firstSentence summary.toList))

/-- The way to the page of an item: its named ancestors other than wrappers, with the addresses of the pages
written so far, and the item itself. -/
def crumbs (m : Model) (pageRefs : List (Nat × String)) (id : Nat) (title : String) : List Crumb :=
  let ancestors := (m.ancestors id).reverse.filter fun a =>
    !(m.item a).kind.isWrapper && !(m.item a).isAnonymous
  ancestors.map (fun a => { name := (m.item a).shownName, address := (pageRefs.lookup a).map ("/" ++ ·) })
    ++ [{ name := title }]

/-- A listed member. -/
def memberEntry (m : Model) (id : Nat) (address : Option String) : MemberEntry :=
  { item := id, name := m.pageTitle id, address, summary := ((m.item id).docs.getD {}).summary }

/-- The table with the members of an enumeration, unless it has none. -/
def inlineSections (m : Model) (members : List Nat) : List MemberSection :=
  match members.filter fun c => (m.item c).kind.isInlineMember with
  | [] => []
  | inline =>
    [{ title := "Members", inline := true, members := inline.map fun c => memberEntry m c none }]

/-- The members with pages of one category, unless there are none. -/
def categorySection? (m : Model) (base : String) (members : List Nat) (category : Category) :
    Option MemberSection :=
  match members.filter fun c =>
      (m.item c).kind.producesPage && Category.ofKind (m.item c).kind == category with
  | [] => none
  | found =>
    some {
      title := category.label
      members := found.map fun c => memberEntry m c (m.pageAddress? base c) }

/-- The sections with the members of an item. -/
def memberSections (m : Model) (base : String) (id : Nat) : List MemberSection :=
  let kind := (m.item id).kind
  if !kind.isContainer then []
  else if kind.hasInlineListing then inlineSections m (m.visibleMembers id)
  else Category.all.filterMap (categorySection? m base (m.visibleMembers id))

/-- The page of an item, with the references of the pages written so far. -/
def ofItem (m : Model) (base : String) (pageRefs : List (Nat × String)) (id : Nat) : Page :=
  let item := m.item id
  let title := m.pageTitle id
  { item := id
    kind := item.kind
    title
    description := describe item.toDeclaration title
    icon := (Category.ofKind item.kind).icon
    releaseTag := item.releaseTag
    breadcrumb := crumbs m pageRefs id title
    signature := item.excerpt
    docs := item.docs
    sections := memberSections m base id }

end Page

end ReferenceSite
