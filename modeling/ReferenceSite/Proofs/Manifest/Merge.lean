import ReferenceSite.Manifest
import ReferenceSite.Proofs.Json.Members

/-!
# What merging a group changes

A merge touches one slot of the document: the group of the target's name in the navigation, or in the
target's tab where the navigation has tabs. Everything around the slot stays, in its place.
-/

namespace ReferenceSite.Manifest

/-- The value is an object that has a name under a key. -/
def Named (key name : String) (v : Json) : Prop :=
  ∃ members, v = .obj members ∧ Json.find? key members = some (.str name)

theorem isNamed_iff {key name : String} {v : Json} : isNamed key name v = true ↔ Named key name v := by
  cases v with
  | obj members =>
    simp only [isNamed, Json.get?, beq_iff_eq, Option.bind_eq_some_iff]
    constructor
    · rintro ⟨s, hs, hname⟩
      cases s with
      | str s => exact ⟨members, rfl, by rw [hs, Option.some.inj hname]⟩
      | _ => exact absurd hname (by simp [Json.string?])
    · rintro ⟨ms, hms, hs⟩
      cases hms
      exact ⟨_, hs, rfl⟩
  | _ => simp [isNamed, Json.get?, Named]

/-- `after` is `before` with one element changed: the first one with a name, or a new last one, which
    is `fresh` changed. -/
def ChangesFirst (key name : String) (change : Json → Json → Prop) (fresh : Json)
    (before after : List Json) : Prop :=
  (∃ front old new back, before = front ++ old :: back ∧ (∀ v ∈ front, ¬ Named key name v) ∧
    Named key name old ∧ change old new ∧ after = front ++ new :: back) ∨
  ((∀ v ∈ before, ¬ Named key name v) ∧ ∃ new, change fresh new ∧ after = before ++ [new])

/-- An array of groups with a group put in the place of the first one of its name, or at the end. -/
def PutsGroup (t : Target) (group : Json) (before after : List Json) : Prop :=
  ChangesFirst "group" t.group (fun _ new => new = group) group before after

/-- A tab with a group put among its groups, of which there are none if they are no array. All other
    keys of the tab stay. -/
def PutsInTab (t : Target) (group before after : Json) : Prop :=
  ∃ tab tab' groups groups', before = .obj tab ∧ after = .obj tab' ∧
    (Json.find? "groups" tab = some (.arr groups) ∨
      groups = [] ∧ ∀ vs, Json.find? "groups" tab ≠ some (.arr vs)) ∧
    PutsGroup t group groups groups' ∧ Json.Sets "groups" (.arr groups') tab tab'

/-- An array of tabs with a group put in the first tab of the target's name, or in a new one. -/
def PutsInTabs (t : Target) (group : Json) (before after : List Json) : Prop :=
  ChangesFirst "tab" t.tabName (PutsInTab t group) (.obj [("tab", .str t.tabName)]) before after

theorem upsert_cons (key name : String) (change : Json → Json) (fresh v : Json) (vs : List Json) :
    upsert key name change fresh (v :: vs) =
      if isNamed key name v then change v :: vs else v :: upsert key name change fresh vs := rfl

/-- What a function does to the named element, if it does it to every object of that name. -/
theorem changesFirst_upsert {key name : String} {f : Json → Json} {change : Json → Json → Prop}
    {start fresh : Json} (hf : ∀ v, Named key name v → change v (f v)) (hfresh : change start fresh)
    (vs : List Json) : ChangesFirst key name change start vs (upsert key name f fresh vs) := by
  induction vs with
  | nil => exact Or.inr ⟨by simp, fresh, hfresh, rfl⟩
  | cons v vs ih =>
    rw [upsert_cons]
    split_ifs with hv
    · rw [isNamed_iff] at hv
      exact Or.inl ⟨[], v, f v, vs, rfl, by simp, hv, hf v hv, rfl⟩
    · rw [isNamed_iff] at hv
      rcases ih with ⟨front, old, new, back, hvs, hfront, hold, hnew, hafter⟩ | ⟨hvs, new, hnew, hafter⟩
      · refine Or.inl ⟨v :: front, old, new, back, by rw [hvs]; rfl, ?_, hold, hnew, by rw [hafter]; rfl⟩
        exact List.forall_mem_cons.2 ⟨hv, hfront⟩
      · exact Or.inr ⟨List.forall_mem_cons.2 ⟨hv, hvs⟩, new, hnew, by rw [hafter]; rfl⟩

/-- Only what a function does to objects matters: no other value has a name. -/
theorem upsert_congr {f g : Json → Json} (hfg : ∀ members, f (.obj members) = g (.obj members))
    (key name : String) (fresh : Json) (vs : List Json) :
    upsert key name f fresh vs = upsert key name g fresh vs := by
  induction vs with
  | nil => rfl
  | cons v vs ih =>
    rw [upsert_cons, upsert_cons, ih]
    split_ifs with hv
    · obtain ⟨members, rfl, -⟩ := isNamed_iff.1 hv
      rw [hfg]
    · rfl

theorem putsGroup_putGroup (t : Target) (group : Json) (vs : List Json) :
    PutsGroup t group vs (putGroup t group vs) := by
  refine changesFirst_upsert ?_ ?_ vs
  · exact fun _ _ => rfl
  · rfl

theorem elementsOf_cases (v : Option Json) :
    v = some (.arr (elementsOf v)) ∨ elementsOf v = [] ∧ ∀ vs, v ≠ some (.arr vs) := by
  unfold elementsOf
  split
  · exact Or.inl rfl
  · next h => exact Or.inr ⟨rfl, h⟩

theorem putsInTab_putInTab (t : Target) (group : Json) (tab : List (String × Json)) :
    PutsInTab t group (.obj tab) (putInTab t group (.obj tab)) :=
  ⟨tab, _, _, _, rfl, rfl, elementsOf_cases _, putsGroup_putGroup t group _, Json.sets_put _ _ _⟩

theorem putsInTabs_putInTabs (t : Target) (group : Json) (tabs : List Json) :
    PutsInTabs t group tabs (putInTabs t group tabs) := by
  refine changesFirst_upsert ?_ (putsInTab_putInTab t group _) tabs
  rintro v ⟨tab, rfl, -⟩
  exact putsInTab_putInTab t group tab

theorem putInNavigation_tabs (t : Target) (group : Json) {members : List (String × Json)}
    {tabs : List Json} (h : Json.find? "tabs" members = some (.arr tabs)) :
    putInNavigation t group (some (.obj members)) =
      .obj (Json.put "tabs" (.arr (putInTabs t group tabs)) members) := by
  simp [putInNavigation, h]

theorem putInNavigation_otherwise (t : Target) (group : Json) {navigation : Option Json}
    (harr : ∀ groups, navigation ≠ some (.arr groups))
    (hobj : ∀ members tabs, navigation = some (.obj members) →
      Json.find? "tabs" members ≠ some (.arr tabs)) :
    putInNavigation t group navigation = .arr [group] := by
  unfold putInNavigation
  split
  · next groups => exact absurd rfl (harr groups)
  · next members =>
    split
    · next tabs htabs => exact absurd htabs (hobj members tabs rfl)
    · rfl
  · rfl

/-- The layouts of a navigation: an array of groups, an object with an array of tabs, or anything else, which
gives way to an array. -/
theorem putInNavigation_cases (navigation : Option Json) :
    (∃ groups, navigation = some (.arr groups)) ∨
    (∃ members tabs, navigation = some (.obj members) ∧ Json.find? "tabs" members = some (.arr tabs)) ∨
    ∀ t group, putInNavigation t group navigation = .arr (putGroup t group []) := by
  by_cases harr : ∃ groups, navigation = some (.arr groups)
  · exact Or.inl harr
  · by_cases hobj : ∃ members tabs, navigation = some (.obj members) ∧
        Json.find? "tabs" members = some (.arr tabs)
    · exact Or.inr (Or.inl hobj)
    · refine Or.inr (Or.inr fun t group => ?_)
      exact putInNavigation_otherwise t group (fun groups h => harr ⟨groups, h⟩)
        fun members tabs h htabs => hobj ⟨members, tabs, h, htabs⟩

/-- Merging a group into a document changes the slot of its target and nothing else. Every key of the
    document but the navigation keeps its value and its place. A navigation that is an array of groups,
    or an object with an array of tabs, changes in the target's slot only; any other becomes an array
    of just the group. A tab is put in the place of something that is no object for no document: what
    would be done to such an entry has no influence. -/
theorem merge_changes_only_slot (m : Manifest) (t : Target) (g : NavGroup) :
    ∃ navigation, Json.Sets "navigation" navigation m.members (m.merge t g).members ∧
      (∀ groups, m.find? "navigation" = some (.arr groups) →
        ∃ groups', navigation = .arr groups' ∧ PutsGroup t g.toDocument groups groups') ∧
      (∀ members tabs, m.find? "navigation" = some (.obj members) →
        Json.find? "tabs" members = some (.arr tabs) →
        ∃ members' tabs', navigation = .obj members' ∧
          Json.Sets "tabs" (.arr tabs') members members' ∧ PutsInTabs t g.toDocument tabs tabs') ∧
      ((∀ groups, m.find? "navigation" ≠ some (.arr groups)) →
        (∀ members tabs, m.find? "navigation" = some (.obj members) →
          Json.find? "tabs" members ≠ some (.arr tabs)) →
        navigation = .arr [g.toDocument]) ∧
      (∀ change : Json → Json,
        (∀ tab, change (.obj tab) = putInTab t g.toDocument (.obj tab)) →
        ∀ tabs, upsert "tab" t.tabName change (change (newTab t)) tabs =
          putInTabs t g.toDocument tabs) := by
  refine ⟨putInNavigation t g.toDocument (m.find? "navigation"), Json.sets_put _ _ _, ?_, ?_, ?_, ?_⟩
  · intro groups hgroups
    exact ⟨_, by rw [hgroups]; rfl, putsGroup_putGroup t _ groups⟩
  · intro members tabs hmembers htabs
    exact ⟨_, _, by rw [hmembers, putInNavigation_tabs t _ htabs], Json.sets_put _ _ _,
      putsInTabs_putInTabs t _ tabs⟩
  · exact putInNavigation_otherwise t _
  · intro change hchange tabs
    rw [newTab, hchange, upsert_congr hchange]
    rfl

end ReferenceSite.Manifest
