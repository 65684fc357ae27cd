import ReferenceSite.Navigation.Category
import ReferenceSite.Navigation.Group
import ReferenceSite.Text.Lowercase

/-!
# Navigation of a run

The pages of a run are registered one by one (`Navigation.add`) and then arranged in groups by category
(`Navigation.groups`). An entry may name another page as its owner: if that page is registered too, the
entry goes into a sub-group that the owner's page opens, and otherwise into the group of its category.

Owners may name each other in a circle. On every path through the result each page opens its sub-group at
most once, so the arrangement ends.
-/

namespace ReferenceSite

/-- A registered page. -/
structure Navigation.Entry where
  /-- The page reference. -/
  page : String
  /-- The category. -/
  category : Category
  /-- The name to show and to sort by. -/
  name : String
  /-- The page reference of the owner. -/
  parent : Option String := none
deriving DecidableEq, Repr, Inhabited

namespace Navigation.Entry

/-- The heading of the sub-group that the page opens; a blank name gives way to the end of the page
reference. -/
def label (e : Entry) : String :=
  if Text.isBlankText e.name then ((Text.splitAt '/' e.page).getLast?).getD e.page else e.name

/-- The order of display: by name without regard to case, then by name, then by page reference. -/
def order (a b : Entry) : Ordering :=
  (compare (Text.lowercase a.name) (Text.lowercase b.name)).then
    ((compare a.name b.name).then (compare a.page b.page))

/-- Entries in the order of display; equal ones keep their order. -/
def sorted (entries : List Entry) : List Entry := entries.mergeSort fun a b => (order a b).isLE

end Navigation.Entry

/-- The registered pages, in order of registration, at most one for a page and a category. -/
structure Navigation where
  /-- The entries. -/
  entries : List Navigation.Entry := []
deriving DecidableEq, Repr, Inhabited

namespace Navigation

/-- The page is registered under the category. -/
def isRegistered (nav : Navigation) (page : String) (category : Category) : Bool :=
  nav.entries.any fun e => e.page == page && e.category == category

/-- Register an entry, unless its page is registered under its category already. -/
def add (nav : Navigation) (e : Entry) : Navigation :=
  if nav.isRegistered e.page e.category then nav else ⟨nav.entries ++ [e]⟩

/-! ## Arrangement -/

/-- The page under which an entry goes: a registered page other than its own. -/
def owner? (nav : Navigation) (e : Entry) : Option String :=
  e.parent.filter fun p => p != e.page && nav.entries.any (·.page == p)

/-- The pages that open a sub-group. -/
def owners (nav : Navigation) : List String := (nav.entries.filterMap nav.owner?).eraseDups

/-- The entries under a page, in the order of display. -/
def ownedBy (nav : Navigation) (page : String) : List Entry :=
  Entry.sorted (nav.entries.filter fun e => nav.owner? e == some page)

/-- The entries of a category without an owner, in the order of display. -/
def unowned (nav : Navigation) (category : Category) : List Entry :=
  Entry.sorted (nav.entries.filter fun e => (nav.owner? e).isNone && e.category == category)

/-- The page of an entry, or the sub-group that it opens if it is among the pages that may still do so. -/
def node (nav : Navigation) (unopened : List String) (e : Entry) : NavPage :=
  if _h : e.page ∈ unopened then
    .group e.label none
      (.page e.page :: (nav.ownedBy e.page).map (nav.node (unopened.erase e.page))) []
  else .page e.page
termination_by unopened.length
decreasing_by
  rw [List.length_erase_of_mem _h]
  have := List.length_pos_of_mem _h
  omega

/-- The group of a category, unless it is empty. -/
def categoryGroup? (nav : Navigation) (category : Category) : Option NavGroup :=
  match nav.unowned category with
  | [] => none
  | entries =>
    some {
      heading := category.label
      icon := some category.icon
      pages := entries.map (nav.node nav.owners) }

/-- The groups of all categories that are not empty. -/
def groups (nav : Navigation) : List NavGroup := Category.all.filterMap nav.categoryGroup?

/-- All pages in one group. -/
def group (nav : Navigation) (heading : String) : NavGroup :=
  { heading, pages := nav.groups.map NavGroup.asPage }

end Navigation

end ReferenceSite
