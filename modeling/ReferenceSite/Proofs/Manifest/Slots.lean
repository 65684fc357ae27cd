import ReferenceSite.Proofs.Manifest.Repeat

/-!
# Slots of several groups

A target selects one element of the groups in a document, its slot (`slot?`). A merge fills the slot of its
target (`slot?_merge_self`) and leaves the slots of other groups alone, wherever they are (`slot?_merge_of_ne`).
So groups that were generated for different targets can share one manifest: none of them is lost, and once
all of them are in the document the order of the merges makes no difference.
-/

namespace ReferenceSite

/-- The name of a group in documents, which is its heading unless one of its further keys replaces that. -/
def NavGroup.name? (g : NavGroup) : Option String := (g.toDocument.get? "group").bind Json.string?

/-- A group without a further key that stands for a name has its heading as its name. -/
theorem NavGroup.name?_eq_heading {g : NavGroup} (h : "group" ∉ g.extra.map Prod.fst) :
    g.name? = some g.heading := by
  obtain ⟨heading, icon, pages, extra⟩ := g
  have hkeys : "group" ∉ (Json.mergedMembers ((icon.map fun i => ("icon", Json.str i)).toList ++
      ("pages", .arr (pagesToJson pages)) :: extra)).map Prod.fst := by
    rw [Json.mergedMembers_eq_map]
    cases icon <;> simpa using h
  have hname := Json.find?_putAll_cons hkeys (.str heading)
  rw [name?, toDocument, toJson, asPage, pageToJson, List.cons_append, Json.merged, Json.mergedMembers,
    Json.merged, Json.get?, hname]
  · rfl
  all_goals simp

namespace Manifest

/-- What stands in the slot of a target: the first group of its name, in the navigation or in the first tab of
the target's name. -/
def slot? (m : Manifest) (t : Target) : Option Json :=
  match m.find? "navigation" with
  | some (.arr groups) => groups.find? (isNamed "group" t.group)
  | some (.obj members) => do
    let tab ← (elementsOf (Json.find? "tabs" members)).find? (isNamed "tab" t.tabName)
    (elementsOf (tab.get? "groups")).find? (isNamed "group" t.group)
  | _ => none

theorem named_of_name? {g : NavGroup} {name : String} (h : g.name? = some name) :
    Named "group" name g.toDocument :=
  isNamed_iff.1 (beq_iff_eq.2 h)

/-! ## Named elements -/

section Upsert

variable {key name name' : String} {change change' : Json → Json} {fresh fresh' v w : Json} {vs : List Json}

theorem isNamed_of_ne (hne : name ≠ name') (h : Named key name v) : isNamed key name' v = false := by
  unfold isNamed
  rw [eq_of_beq (isNamed_iff.2 h)]
  simpa using hne

/-- The element that was changed is found again. -/
theorem find?_upsert_self (hnamed : ∀ v, Named key name v → Named key name (change v))
    (hfresh : Named key name fresh) : (upsert key name change fresh vs).find? (isNamed key name) =
      some (((vs.find? (isNamed key name)).map change).getD fresh) := by
  induction vs with
  | nil => simp [upsert, isNamed_iff.2 hfresh]
  | cons v vs ih =>
    rw [upsert_cons]
    split_ifs with hv
    · simp [hv, isNamed_iff.2 (hnamed v (isNamed_iff.1 hv))]
    · rw [List.find?_cons_of_neg hv, List.find?_cons_of_neg hv, ih]

/-- A change of the element of one name does not change what is found under another one. -/
theorem find?_upsert_of_ne (hne : name ≠ name')
    (hnamed : ∀ v, Named key name v → Named key name (change v)) (hfresh : Named key name fresh) :
    (upsert key name change fresh vs).find? (isNamed key name') = vs.find? (isNamed key name') := by
  induction vs with
  | nil => simp [upsert, isNamed_of_ne hne hfresh]
  | cons v vs ih =>
    rw [upsert_cons]
    split_ifs with hv
    · rw [isNamed_iff] at hv
      rw [List.find?_cons_of_neg (by simp [isNamed_of_ne hne (hnamed v hv)]),
        List.find?_cons_of_neg (by simp [isNamed_of_ne hne hv])]
    · rw [List.find?_cons, List.find?_cons, ih]

/-- Only what is done to the element that is found matters. -/
theorem upsert_congr_of_find? (h : vs.find? (isNamed key name) = some v) (hv : change v = change' v) :
    upsert key name change fresh vs = upsert key name change' fresh' vs := by
  induction vs with
  | nil => cases h
  | cons w vs ih =>
    rw [upsert_cons, upsert_cons]
    split_ifs with hw
    · rw [List.find?_cons_of_pos hw] at h
      rw [Option.some.inj h, hv]
    · rw [List.find?_cons_of_neg hw] at h
      rw [ih h]

/-- Changes of two elements that are there can be made in either order. -/
theorem upsert_comm (hne : name ≠ name')
    (hnamed : ∀ v, Named key name v → Named key name (change v))
    (hnamed' : ∀ v, Named key name' v → Named key name' (change' v))
    (h : vs.find? (isNamed key name) = some v) (h' : vs.find? (isNamed key name') = some w) :
    upsert key name' change' fresh' (upsert key name change fresh vs) =
      upsert key name change fresh (upsert key name' change' fresh' vs) := by
  induction vs with
  | nil => cases h
  | cons u vs ih =>
    by_cases hu : isNamed key name u = true
    · have hu' := isNamed_of_ne hne (isNamed_iff.1 hu)
      have hchanged := isNamed_of_ne hne (hnamed u (isNamed_iff.1 hu))
      simp [upsert_cons, hu, hu', hchanged]
    · by_cases hu' : isNamed key name' u = true
      · have hchanged := isNamed_of_ne hne.symm (hnamed' u (isNamed_iff.1 hu'))
        simp [upsert_cons, hu, hu', hchanged]
      · rw [List.find?_cons_of_neg hu] at h
        rw [List.find?_cons_of_neg hu'] at h'
        simp [upsert_cons, hu, hu', ih h h']

end Upsert

/-! ## One slot -/

variable {t t' : Target} {g g' : NavGroup} {m : Manifest} {group group' v w : Json}

/-- Only an array has elements to find. -/
theorem find?_elementsOf {o : Option Json} {p : Json → Bool} (h : (elementsOf o).find? p = some v) :
    ∃ vs, o = some (.arr vs) ∧ vs.find? p = some v := by
  rcases elementsOf_cases o with harr | ⟨hnil, -⟩
  · exact ⟨_, harr, h⟩
  · rw [hnil] at h
    cases h

/-- A slot is in an array of groups, or in the groups of a tab. -/
theorem slot?_eq_some_iff : m.slot? t = some v ↔
    (∃ groups, m.find? "navigation" = some (.arr groups) ∧
      groups.find? (isNamed "group" t.group) = some v) ∨
    ∃ members tabs tab groups, m.find? "navigation" = some (.obj members) ∧
      Json.find? "tabs" members = some (.arr tabs) ∧
      tabs.find? (isNamed "tab" t.tabName) = some (.obj tab) ∧
      Json.find? "groups" tab = some (.arr groups) ∧
      groups.find? (isNamed "group" t.group) = some v := by
  unfold slot?
  constructor
  · intro h
    split at h
    · next groups hnav => exact Or.inl ⟨groups, hnav, h⟩
    · next members hnav =>
      obtain ⟨found, hfound, hv⟩ := Option.bind_eq_some_iff.1 h
      obtain ⟨tabs, htabs, htab⟩ := find?_elementsOf hfound
      obtain ⟨tab, rfl, -⟩ := isNamed_iff.1 (List.find?_some htab)
      obtain ⟨groups, hgroups, hgroup⟩ := find?_elementsOf hv
      exact Or.inr ⟨members, tabs, tab, groups, hnav, htabs, htab, hgroups, hgroup⟩
    · cases h
  · rintro (⟨groups, hnav, hv⟩ | ⟨members, tabs, tab, groups, hnav, htabs, htab, hgroups, hv⟩)
    · rw [hnav]
      exact hv
    · rw [hnav]
      dsimp only
      rw [htabs, elementsOf, htab]
      dsimp only [bind, Option.bind]
      rw [Json.get?, hgroups]
      exact hv

theorem find?_putGroup_self (hgroup : Named "group" t.group group) (groups : List Json) :
    (putGroup t group groups).find? (isNamed "group" t.group) = some group := by
  rw [putGroup, find?_upsert_self (fun _ _ => hgroup) hgroup]
  cases groups.find? (isNamed "group" t.group) <;> rfl

theorem find?_putGroup_of_ne (hne : t.group ≠ t'.group) (hgroup : Named "group" t.group group)
    (groups : List Json) : (putGroup t group groups).find? (isNamed "group" t'.group) =
      groups.find? (isNamed "group" t'.group) :=
  find?_upsert_of_ne hne (fun _ _ => hgroup) hgroup

/-- A group can be found in the tab that it was put in. -/
theorem exists_find?_putInTabs (t : Target) (group : Json) (tabs : List Json) : ∃ tab,
    (putInTabs t group tabs).find? (isNamed "tab" t.tabName) = some (putInTab t group (.obj tab)) := by
  rw [putInTabs, find?_upsert_self (fun _ => named_putInTab) (named_putInTab (named_newTab t))]
  cases htab : tabs.find? (isNamed "tab" t.tabName) with
  | none => exact ⟨_, rfl⟩
  | some tab =>
    obtain ⟨members, rfl, -⟩ := isNamed_iff.1 (List.find?_some htab)
    exact ⟨members, rfl⟩

/-- A merge fills the slot of its target. -/
theorem slot?_merge_self (h : g.name? = some t.group) (m : Manifest) :
    (m.merge t g).slot? t = some g.toDocument := by
  have hgroup := named_of_name? h
  rw [slot?_eq_some_iff, find?_merge]
  rcases putInNavigation_cases (m.find? "navigation") with
    ⟨groups, hnav⟩ | ⟨members, tabs, hnav, htabs⟩ | hother
  · rw [hnav]
    exact Or.inl ⟨_, rfl, find?_putGroup_self hgroup groups⟩
  · rw [hnav, putInNavigation_tabs t _ htabs]
    obtain ⟨tab, htab⟩ := exists_find?_putInTabs t g.toDocument tabs
    exact Or.inr ⟨_, _, _, _, rfl, Json.find?_put_self _ _ _, htab, Json.find?_put_self _ _ _,
      find?_putGroup_self hgroup _⟩
  · rw [hother]
    exact Or.inl ⟨_, rfl, find?_putGroup_self hgroup []⟩

/-! ## Two slots -/

/-- A merge leaves the slots of other groups alone. -/
theorem slot?_merge_of_ne (hne : t.group ≠ t'.group) (h : g.name? = some t.group)
    (hslot : m.slot? t' = some v) : (m.merge t g).slot? t' = some v := by
  have hgroup := named_of_name? h
  rw [slot?_eq_some_iff] at hslot ⊢
  rw [find?_merge]
  rcases hslot with ⟨groups, hnav, hv⟩ | ⟨members, tabs, tab, groups, hnav, htabs, htab, hgroups, hv⟩
  · rw [hnav]
    exact Or.inl ⟨_, rfl, (find?_putGroup_of_ne hne hgroup groups).trans hv⟩
  · rw [hnav, putInNavigation_tabs t _ htabs]
    by_cases hname : t.tabName = t'.tabName
    · -- the other group was put in the same tab
      have hchanged : (putInTabs t g.toDocument tabs).find? (isNamed "tab" t'.tabName) =
          some (putInTab t g.toDocument (.obj tab)) := by
        rw [← hname, putInTabs, find?_upsert_self (fun _ => named_putInTab)
          (named_putInTab (named_newTab t)), hname, htab]
        rfl
      refine Or.inr ⟨_, _, _, _, rfl, Json.find?_put_self _ _ _, hchanged, Json.find?_put_self _ _ _, ?_⟩
      rw [hgroups]
      exact (find?_putGroup_of_ne hne hgroup groups).trans hv
    · have hkept : (putInTabs t g.toDocument tabs).find? (isNamed "tab" t'.tabName) = some (.obj tab) := by
        rw [putInTabs, find?_upsert_of_ne hname (fun _ => named_putInTab)
          (named_putInTab (named_newTab t)), htab]
      exact Or.inr ⟨_, _, _, _, rfl, Json.find?_put_self _ _ _, hkept, hgroups, hv⟩

theorem putGroup_comm (hne : t.group ≠ t'.group) (hgroup : Named "group" t.group group)
    (hgroup' : Named "group" t'.group group') {groups : List Json}
    (h : groups.find? (isNamed "group" t.group) = some v)
    (h' : groups.find? (isNamed "group" t'.group) = some w) :
    putGroup t' group' (putGroup t group groups) = putGroup t group (putGroup t' group' groups) :=
  upsert_comm hne (fun _ _ => hgroup) (fun _ _ => hgroup') h h'

/-- Two groups that are in one array of tabs can be replaced in either order. -/
theorem putInTabs_comm (hne : t.group ≠ t'.group) (hgroup : Named "group" t.group group)
    (hgroup' : Named "group" t'.group group') {tabs groups groups' : List Json}
    {tab tab' : List (String × Json)} (htab : tabs.find? (isNamed "tab" t.tabName) = some (.obj tab))
    (htab' : tabs.find? (isNamed "tab" t'.tabName) = some (.obj tab'))
    (hgroups : Json.find? "groups" tab = some (.arr groups))
    (hgroups' : Json.find? "groups" tab' = some (.arr groups'))
    (h : groups.find? (isNamed "group" t.group) = some v)
    (h' : groups'.find? (isNamed "group" t'.group) = some w) :
    putInTabs t' group' (putInTabs t group tabs) = putInTabs t group (putInTabs t' group' tabs) := by
  unfold putInTabs
  by_cases hname : t.tabName = t'.tabName
  · -- both groups are in the same tab
    rw [← hname, htab] at htab'
    cases htab'
    rw [hgroups] at hgroups'
    cases hgroups'
    have hcomm : putInTab t' group' (putInTab t group (.obj tab)) =
        putInTab t group (putInTab t' group' (.obj tab)) := by
      rw [putInTab_obj, putInTab_obj, putInTab_obj, putInTab_obj, Json.find?_put_self, Json.find?_put_self,
        hgroups, elementsOf, elementsOf, elementsOf, putGroup_comm hne hgroup hgroup' h h', Json.put_put,
        Json.put_put]
    have hnew : Named "tab" t.tabName (newTab t') := hname ▸ named_newTab t'
    rw [← hname, upsert_upsert (fun _ => named_putInTab) (named_putInTab (named_newTab t)),
      upsert_upsert (fun _ => named_putInTab) (named_putInTab hnew)]
    exact upsert_congr_of_find? htab hcomm
  · exact upsert_comm hname (fun _ => named_putInTab) (fun _ => named_putInTab) htab htab'

/-- Merges that fill two slots of a document can be made in either order. -/
theorem merge_comm (hne : t.group ≠ t'.group) (h : g.name? = some t.group) (h' : g'.name? = some t'.group)
    (hslot : m.slot? t = some v) (hslot' : m.slot? t' = some w) :
    (m.merge t g).merge t' g' = (m.merge t' g').merge t g := by
  have hgroup := named_of_name? h
  have hgroup' := named_of_name? h'
  have hnavigation : putInNavigation t' g'.toDocument
        (some (putInNavigation t g.toDocument (m.find? "navigation"))) =
      putInNavigation t g.toDocument
        (some (putInNavigation t' g'.toDocument (m.find? "navigation"))) := by
    rw [slot?_eq_some_iff] at hslot hslot'
    rcases hslot with ⟨groups, hnav, hv⟩ | ⟨members, tabs, tab, groups, hnav, htabs, htab, hgroups, hv⟩
    · rcases hslot' with ⟨groups', hnav', hw⟩ | ⟨members, _, _, _, hnav', -⟩
      · rw [hnav] at hnav'
        cases hnav'
        rw [hnav, putInNavigation_arr, putInNavigation_arr, putInNavigation_arr, putInNavigation_arr,
          putGroup_comm hne hgroup hgroup' hv hw]
      · rw [hnav] at hnav'
        cases hnav'
    · rcases hslot' with ⟨groups', hnav', -⟩ | ⟨_, _, tab', groups', hnav', htabs', htab', hgroups', hw⟩
      · rw [hnav] at hnav'
        cases hnav'
      · rw [hnav] at hnav'
        cases hnav'
        rw [htabs] at htabs'
        cases htabs'
        rw [hnav, putInNavigation_tabs t _ htabs, putInNavigation_tabs t' _ htabs,
          putInNavigation_tabs t' _ (Json.find?_put_self "tabs" _ members),
          putInNavigation_tabs t _ (Json.find?_put_self "tabs" _ members), Json.put_put, Json.put_put,
          putInTabs_comm hne hgroup hgroup' htab htab' hgroups hgroups' hv hw]
  rw [merge_then_merge, merge_then_merge, hnavigation]

/-! ## Merges at one target and at two -/

/-- Of two merges at one target, with groups of its name, only the second one counts; and merging a group
again changes nothing. -/
theorem merge_supersedes (m : Manifest) {t : Target} {g₁ g₂ : NavGroup} (h₁ : g₁.name? = some t.group)
    (h₂ : g₂.name? = some t.group) : (m.merge t g₁).merge t g₂ = m.merge t g₂ ∧
      (m.merge t g₂).merge t g₂ = m.merge t g₂ :=
  ⟨merge_merge (named_of_name? h₁) m, merge_merge (named_of_name? h₂) m⟩

/-- A manifest with a tab for the groups of two targets, one of which is there twice. -/
def tabbedManifest : Manifest where
  members := [("name", .str "Site"), ("navigation", .obj [("tabs", .arr [.obj [("tab", .str "Docs"),
    ("groups", .arr [.obj [("group", .str "API"), ("pages", .arr [])], .obj [("group", .str "CLI")],
      .obj [("group", .str "API")]])]]), ("anchors", .arr [])])]

/-- The target of its first and third group. -/
def apiTarget : Target := { group := "API", tab := some "Docs" }

/-- The target of its second group. -/
def cliTarget : Target := { group := "CLI", tab := some "Docs" }

/-- A group with one page. -/
def pageGroup (heading ref : String) : NavGroup := { heading, pages := [.page ref] }

theorem name?_pageGroup (heading ref : String) : (pageGroup heading ref).name? = some heading :=
  NavGroup.name?_eq_heading List.not_mem_nil

theorem merge_supersedes_tabbedManifest : (pageGroup "API" "api/a").name? = some apiTarget.group ∧
    (pageGroup "API" "api/b").name? = some apiTarget.group ∧
    (tabbedManifest.merge apiTarget (pageGroup "API" "api/a")).merge apiTarget (pageGroup "API" "api/b") =
      tabbedManifest.merge apiTarget (pageGroup "API" "api/b") :=
  ⟨name?_pageGroup _ _, name?_pageGroup _ _,
    (merge_supersedes tabbedManifest (name?_pageGroup _ _) (name?_pageGroup _ _)).1⟩

/-- Merges of two groups with different names both last, wherever their slots are; and where both slots were
there before, the order of the merges makes no difference. -/
theorem merges_independent (m : Manifest) {t₁ t₂ : Target} {g₁ g₂ : NavGroup}
    (hne : t₁.group ≠ t₂.group) (h₁ : g₁.name? = some t₁.group) (h₂ : g₂.name? = some t₂.group) :
    ((m.merge t₁ g₁).merge t₂ g₂).slot? t₁ = some g₁.toDocument ∧
      ((m.merge t₁ g₁).merge t₂ g₂).slot? t₂ = some g₂.toDocument ∧
      (m.slot? t₁ ≠ none → m.slot? t₂ ≠ none →
        (m.merge t₁ g₁).merge t₂ g₂ = (m.merge t₂ g₂).merge t₁ g₁) := by
  refine ⟨slot?_merge_of_ne hne.symm h₂ (slot?_merge_self h₁ m), slot?_merge_self h₂ _, fun hslot₁ hslot₂ => ?_⟩
  obtain ⟨v, hv⟩ := Option.ne_none_iff_exists'.1 hslot₁
  obtain ⟨w, hw⟩ := Option.ne_none_iff_exists'.1 hslot₂
  exact merge_comm hne h₁ h₂ hv hw

theorem merges_independent_tabbedManifest :
    (pageGroup "API" "api/a").name? = some apiTarget.group ∧
      (pageGroup "CLI" "cli/a").name? = some cliTarget.group ∧ apiTarget.group ≠ cliTarget.group ∧
      tabbedManifest.slot? apiTarget ≠ none ∧ tabbedManifest.slot? cliTarget ≠ none ∧
      ((tabbedManifest.merge apiTarget (pageGroup "API" "api/a")).merge cliTarget
        (pageGroup "CLI" "cli/a")).slot? apiTarget = some (pageGroup "API" "api/a").toDocument ∧
      (tabbedManifest.merge apiTarget (pageGroup "API" "api/a")).merge cliTarget
        (pageGroup "CLI" "cli/a") =
      (tabbedManifest.merge cliTarget (pageGroup "CLI" "cli/a")).merge apiTarget
        (pageGroup "API" "api/a") := by
  have hne : apiTarget.group ≠ cliTarget.group := by decide
  have hapi : tabbedManifest.slot? apiTarget ≠ none := by
    intro h
    cases h
  have hcli : tabbedManifest.slot? cliTarget ≠ none := by
    intro h
    cases h
  obtain ⟨hslot, -, hcomm⟩ := merges_independent tabbedManifest hne (name?_pageGroup _ "api/a")
    (name?_pageGroup _ "cli/a")
  exact ⟨name?_pageGroup _ _, name?_pageGroup _ _, hne, hapi, hcli, hslot, hcomm hapi hcli⟩

end Manifest

end ReferenceSite
