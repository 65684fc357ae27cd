import ReferenceSite.Proofs.Generation.Navigation
import ReferenceSite.Proofs.Model.Tree
import ReferenceSite.Proofs.Navigation.Placement

/-!
# Pages of items without a name

A walk leaves the page of an item without a name out of the navigation, unless something encloses the item.
The arrangement comes later and looks only at what is registered: a page whose owner is not registered goes
into the group of its category. So the page of an item without a name stands directly in that group exactly
if its nearest owner has been left out itself (`Generator.generate_placesUnnamed`); otherwise it is in the
sub-group of its owner or nowhere.
-/

namespace ReferenceSite

open Generation

/-- The page itself, or the sub-group that it opens. -/
def NavPage.Heads (ref : String) : NavPage → Prop
  | .page path => path = ref
  | .group _ _ pages _ => ∃ members, pages = .page ref :: members

namespace Navigation

/-- A page stands directly in the group of a category. -/
def Directly (nav : Navigation) (ref : String) : Prop :=
  ∃ g ∈ nav.groups, ∃ n ∈ g.pages, n.Heads ref

/-- A page stands in the sub-group that another one opens, at any depth. -/
def Nests (nav : Navigation) (owner ref : String) : Prop :=
  ∃ g ∈ nav.groups, ∃ heading members,
    NavPage.Occurs (.group heading none (.page owner :: members) []) g.asPage ∧
      ∃ n ∈ members, n.Heads ref

namespace Forest

variable {nav : Navigation} {e o : Entry} {ref : String}

theorem heads_node_iff (h : nav.Forest) : (nav.node nav.owners e).Heads ref ↔ e.page = ref := by
  rw [h.node_eq]
  split_ifs
  · simp [NavPage.Heads]
  · rfl

/-- Entries without an owner are those that stand directly in a group. -/
theorem directly_iff (h : nav.Forest) :
    nav.Directly ref ↔ ∃ e ∈ nav.entries, e.page = ref ∧ nav.owner? e = none := by
  constructor
  · rintro ⟨g, hg, n, hn, hheads⟩
    obtain ⟨category, -, hgroup⟩ := List.mem_filterMap.1 hg
    obtain ⟨-, rfl⟩ := categoryGroup?_eq_some_iff.1 hgroup
    obtain ⟨e, he, rfl⟩ := List.mem_map.1 hn
    obtain ⟨hentry, howner, -⟩ := mem_unowned.1 he
    exact ⟨e, hentry, h.heads_node_iff.1 hheads, howner⟩
  · rintro ⟨e, he, rfl, howner⟩
    obtain ⟨g, hg, -, -, hnode⟩ := exists_categoryGroup he howner
    exact ⟨g, hg, _, hnode, h.heads_node_iff.2 rfl⟩

theorem nests_of_owner? (h : nav.Forest) (he : e ∈ nav.entries) (ho : o ∈ nav.entries)
    (howner : nav.owner? e = some o.page) : nav.Nests o.page e.page := by
  obtain ⟨g, hg, hoccurs⟩ := h.exists_occurs ho
  obtain ⟨members, hopened, hnode⟩ := h.node_of_owner? he howner
  rw [hopened] at hoccurs
  exact ⟨g, hg, o.label, members, hoccurs, _, hnode, h.heads_node_iff.2 rfl⟩

end Forest

end Navigation

namespace Model

variable {m : Model} {top o o' id : Nat}

theorem Linked.lt_of_encloses (hm : m.Linked) (h : m.Encloses top o id) : o < id := by
  obtain ⟨depth, habove⟩ := h.above
  exact hm.lt_of_below_succ habove

theorem Linked.eq_of_nearestOwner (hm : m.Linked) (h : m.NearestOwner top o id)
    (h' : m.NearestOwner top o' id) : o = o' := by
  obtain ⟨n, hbelow⟩ := h.nearest o' h'.toEncloses
  obtain ⟨n', hbelow'⟩ := h'.nearest o h.toEncloses
  exact Nat.le_antisymm (hm.le_of_below hbelow') (hm.le_of_below hbelow)

end Model

namespace Generation.Task

/-- Where the page of an item without a name is: nowhere if nothing encloses the item, else in the sub-group
    of its nearest owner, if that is listed, and else directly in the group of its category. -/
inductive PlacesUnnamed (k : Task) (root : Nat) (pages : List Emission) (nav : Navigation)
    (p : Emission) : Prop
  | nowhere (hfree : ∀ o, ¬ k.model.Encloses root o p.item)
      (h : k.pageRef p ∉ nav.groups.flatMap NavGroup.refs)
  | nested (q : Emission) (hq : q ∈ pages) (howner : k.model.NearestOwner root q.item p.item)
      (hlisted : k.Listed root q) (h : nav.Nests (k.pageRef q) (k.pageRef p))
      (hdirectly : ¬ nav.Directly (k.pageRef p))
  | promoted (q : Emission) (hq : q ∈ pages) (howner : k.model.NearestOwner root q.item p.item)
      (hunlisted : ¬ k.Listed root q) (g : NavGroup) (hg : g ∈ nav.groups)
      (hheading : g.heading = (Category.ofKind (k.model.item p.item).kind).label)
      (h : ∃ n ∈ g.pages, n.Heads (k.pageRef p))

variable {k : Task} {root : Nat} {pages : List Emission} {p q : Emission} {nav : Navigation}

section

variable (hm : k.model.Built) (h : k.Clears (k.model.itinerary root 0 none))
  (hnav : nav.entries = (k.walkPages root).filterMap k.entry?)
include hm h hnav

/-- The listed pages are the registered ones. -/
theorem Clears.exists_entry_iff (hp : p ∈ k.walkPages root) :
    (∃ e ∈ nav.entries, e.page = k.pageRef p) ↔ k.Listed root p := by
  have hsound : k.Sound (k.walkPages root) := h.sound
  constructor
  · rintro ⟨e, he, hpage⟩
    rw [hnav] at he
    obtain ⟨p', hp', hentry⟩ := List.mem_filterMap.1 he
    have hpage' := page_of_entry? hentry
    obtain rfl := hsound.eq_of_pageRef hp' hp (hpage'.symm.trans hpage)
    rcases h.entry?_cases hm hp with ⟨-, hnone⟩ | ⟨hlisted, -⟩
    · rw [hnone] at hentry
      cases hentry
    · exact hlisted
  · intro hlisted
    rcases h.entry?_cases hm hp with ⟨hunlisted, -⟩ | ⟨-, e, hentry, -⟩
    · exact absurd hlisted hunlisted
    · rw [hnav]
      exact ⟨e, List.mem_filterMap.2 ⟨p, hp, hentry⟩, page_of_entry? hentry⟩

/-- The page of an item with an owner has an entry, which names the page of the owner. -/
theorem Clears.exists_entry_of_owner (hp : p ∈ k.walkPages root) (hq : q ∈ k.walkPages root)
    (howner : k.model.NearestOwner root q.item p.item) :
    ∃ e ∈ nav.entries, e.page = k.pageRef p ∧
      e.category = Category.ofKind (k.model.item p.item).kind ∧
      e.parent = some (k.pageRef q) ∧ k.pageRef q ≠ e.page := by
  have hsound : k.Sound (k.walkPages root) := h.sound
  rcases h.entry?_cases hm hp with ⟨hunlisted, -⟩ | ⟨-, e, hentry, hof⟩
  · exact absurd (Or.inr ⟨q.item, howner.toEncloses⟩) hunlisted
  · rw [hnav]
    refine ⟨e, List.mem_filterMap.2 ⟨p, hp, hentry⟩, hof.page, hof.category, ?_, fun hsame => ?_⟩
    · rcases hof.parent with ⟨-, hnone⟩ | ⟨q', hq', howner', hparent⟩
      · exact absurd howner.toEncloses (hnone q.item)
      · have hitem := hm.linked.eq_of_nearestOwner howner howner'
        obtain rfl := List.inj_on_of_nodup_map hsound.nodup_item hq hq' hitem
        exact hparent
    · -- an item does not enclose itself
      have hlt := hm.linked.lt_of_encloses howner.toEncloses
      rw [hof.page] at hsame
      rw [hsound.eq_of_pageRef hq hp hsame] at hlt
      exact Nat.lt_irrefl _ hlt

/-- The page of an item without a name has its place. -/
theorem Clears.placesUnnamed (hp : p ∈ k.walkPages root)
    (hname : (k.model.item p.item).isAnonymous = true) :
    k.PlacesUnnamed root (k.walkPages root) nav p := by
  have hforest : nav.Forest := (h.ordered hm hnav).forest
  rcases h.owner_cases hm hp with ⟨-, hfree⟩ | ⟨q, hq, -, howner, -⟩
  · refine .nowhere hfree fun href => ?_
    obtain ⟨e, he, hpage⟩ := (hforest.arranged.refs _).1 href
    rcases (h.exists_entry_iff hm hnav hp).1 ⟨e, he, hpage⟩ with hnamed | ⟨o, ho⟩
    · rw [hname] at hnamed
      cases hnamed
    · exact hfree o ho
  · obtain ⟨e, he, hpage, hcategory, hparent, hne⟩ := h.exists_entry_of_owner hm hnav hp hq howner
    by_cases hlisted : k.Listed root q
    · obtain ⟨o, ho, hopage⟩ := (h.exists_entry_iff hm hnav hq).2 hlisted
      have hunder : nav.owner? e = some (k.pageRef q) :=
        Navigation.owner?_eq_some_iff.2 ⟨hparent, hne, o, ho, hopage⟩
      refine .nested q hq howner hlisted ?_ fun hdirectly => ?_
      · rw [← hopage] at hunder ⊢
        rw [← hpage]
        exact hforest.nests_of_owner? he ho hunder
      · obtain ⟨e', he', hpage', hnone⟩ := hforest.directly_iff.1 hdirectly
        obtain rfl := hforest.eq_of_page he he' (hpage.trans hpage'.symm)
        rw [hunder] at hnone
        cases hnone
    · have hfree : nav.owner? e = none := by
        refine Option.eq_none_iff_forall_ne_some.2 fun ref href => hlisted ?_
        obtain ⟨hparent', -, o, ho, hopage⟩ := Navigation.owner?_eq_some_iff.1 href
        obtain rfl := Option.some.inj (hparent.symm.trans hparent')
        exact (h.exists_entry_iff hm hnav hq).1 ⟨o, ho, hopage⟩
      obtain ⟨g, hg, hheading, -, hnode⟩ := Navigation.exists_categoryGroup he hfree
      rw [hcategory] at hheading
      exact .promoted q hq howner hlisted g hg hheading ⟨_, hnode, hforest.heads_node_iff.2 hpage⟩

end

/-- The page of an item without a name stands directly in the group of a category exactly if its nearest owner
    is not listed. -/
theorem PlacesUnnamed.directly_iff (hm : k.model.Linked) (hnav : nav.Forest)
    (h : k.PlacesUnnamed root pages nav p) : nav.Directly (k.pageRef p) ↔
      ∃ q ∈ pages, k.model.NearestOwner root q.item p.item ∧ ¬ k.Listed root q := by
  cases h with
  | nowhere hfree h =>
    constructor
    · intro hdirectly
      obtain ⟨e, he, hpage, -⟩ := hnav.directly_iff.1 hdirectly
      exact absurd ((hnav.arranged.refs _).2 ⟨e, he, hpage⟩) h
    · rintro ⟨q, -, howner, -⟩
      exact absurd howner.toEncloses (hfree q.item)
  | nested q hq howner hlisted h hdirectly =>
    refine iff_of_false hdirectly ?_
    rintro ⟨q', hq', howner', hunlisted⟩
    -- listed or not depends on the item only
    have hitem := hm.eq_of_nearestOwner howner howner'
    unfold Listed at hlisted hunlisted
    rw [hitem] at hlisted
    exact hunlisted hlisted
  | promoted q hq howner hunlisted g hg _ h =>
    exact iff_of_true ⟨g, hg, h⟩ ⟨q, hq, howner, hunlisted⟩

end Generation.Task

namespace Generator

variable {g g' : Generator} {t t' : FileTree} {root : Nat} {report : Report}

/-- The places of the pages of items without a name after a run that succeeds. Every page of the run occurs at
    most once in the groups. -/
structure PlacesUnnamed (g : Generator) (t : FileTree) (root : Nat) (g' : Generator) (t' : FileTree) :
    Prop where
  reached : ∀ id, id ∈ (g.pages root).map Emission.item ↔
    g.toTask.HasPage id ∧ ∃ depth, g.model.Below root depth id
  filed : g.toTask.Filed t (g.pages root) t'
  once : (g'.navigation.groups.flatMap NavGroup.refs).Nodup
  places : ∀ p ∈ g.pages root, (g.model.item p.item).isAnonymous = true →
    g.toTask.PlacesUnnamed root (g.pages root) g'.navigation p
  directly : ∀ p ∈ g.pages root, (g.model.item p.item).isAnonymous = true →
    (g'.navigation.Directly (g.toTask.pageRef p) ↔
      ∃ q ∈ g.pages root, g.model.NearestOwner root q.item p.item ∧ ¬ g.toTask.Listed root q)

/-- A run that succeeds puts the page of an item without a name directly into the group of its category exactly
    if its nearest owner is left out of the navigation. -/
theorem generate_placesUnnamed {text : String} (hm : Model.ofJsonText text = .ok g.model)
    (h : g.generate t root = (.ok report, g', t')) : g.PlacesUnnamed t root g' t' := by
  have hbuilt := Model.built_ofJsonText hm
  have hnavigated := navigated_of_generate hbuilt h
  obtain ⟨hclears, w, hafter, -, rfl, -⟩ := walk_of_generate hbuilt h
  have hforest : w.navigation.Forest := (hclears.ordered hbuilt hafter.entries).forest
  have hplaces : ∀ p ∈ g.pages root, (g.model.item p.item).isAnonymous = true →
      g.toTask.PlacesUnnamed root (g.pages root) w.navigation p :=
    fun p hp hname => hclears.placesUnnamed hbuilt hafter.entries hp hname
  exact ⟨hnavigated.reached, hnavigated.filed, hforest.arranged.once, hplaces,
    fun p hp hname => (hplaces p hp hname).directly_iff hbuilt.linked hforest⟩

/-- A namespace without a name that has a class without a name, and a class with a method without a name. -/
def unnamedText : String :=
  "\x7b\"kind\":\"Model\",\"members\":[\x7b\"kind\":\"Namespace\",\"members\":[" ++
    "\x7b\"kind\":\"Class\"\x7d]\x7d,\x7b\"kind\":\"Class\",\"name\":\"C\",\"members\":[" ++
    "\x7b\"kind\":\"Method\"\x7d]\x7d]\x7d"

theorem generate_unnamedText : Model.ofJsonText unnamedText = .ok (ofText unnamedText).model ∧
    ∃ report g' t', (ofText unnamedText).generate pairFiles Model.root = (.ok report, g', t') ∧
      report.written = 4 ∧
      ∃ e ∈ g'.navigation.entries, e.page = "namespace-1/class-1" ∧ g'.navigation.owner? e = none := by
  have houtcome : (Model.ofJsonText unnamedText).toOption.isSome = true ∧
      ((ofText unnamedText).generate pairFiles Model.root).1.toOption.map Report.written = some 4 ∧
      ∃ e ∈ ((ofText unnamedText).generate pairFiles Model.root).2.1.navigation.entries,
        e.page = "namespace-1/class-1" ∧
          ((ofText unnamedText).generate pairFiles Model.root).2.1.navigation.owner? e = none := by
    decide +kernel
  obtain ⟨hread, hwritten, hentry⟩ := houtcome
  obtain ⟨report, hrun, hreport⟩ := exists_report hwritten
  exact ⟨ofJsonText_ofText hread, report, _, _, hrun, hreport, hentry⟩

theorem generate_placesUnnamed_unnamedText : ∃ report g' t',
    Model.ofJsonText unnamedText = .ok (ofText unnamedText).model ∧
      (ofText unnamedText).generate pairFiles Model.root = (.ok report, g', t') ∧ report.written = 4 ∧
      (ofText unnamedText).PlacesUnnamed pairFiles Model.root g' t' := by
  obtain ⟨hmodel, report, g', t', hrun, hwritten, -⟩ := generate_unnamedText
  exact ⟨report, g', t', hmodel, hrun, hwritten, generate_placesUnnamed hmodel hrun⟩

/-- The class in the namespace stands directly in the group of classes. -/
theorem unnamed_directly : ¬ ∀ (text : String) (g g' : Generator) (t t' : FileTree) (root : Nat)
    (report : Report), Model.ofJsonText text = .ok g.model → g.generate t root = (.ok report, g', t') →
      ∀ p ∈ g.pages root, (g.model.item p.item).isAnonymous = true →
        ¬ g'.navigation.Directly (g.toTask.pageRef p) ∧
          (g.toTask.pageRef p ∈ g'.navigation.groups.flatMap NavGroup.refs →
            ∃ q ∈ g.pages root, g.model.Encloses root q.item p.item ∧
              g'.navigation.Nests (g.toTask.pageRef q) (g.toTask.pageRef p)) := by
  intro hall
  obtain ⟨hmodel, report, g', t', hrun, -, e, he, hpage, howner⟩ := generate_unnamedText
  have hbuilt := Model.built_ofJsonText hmodel
  obtain ⟨hclears, w, hafter, -, rfl, -⟩ := walk_of_generate hbuilt hrun
  have hforest : w.navigation.Forest := (hclears.ordered hbuilt hafter.entries).forest
  have hpages : ∃ p ∈ (ofText unnamedText).pages Model.root,
      ((ofText unnamedText).model.item p.item).isAnonymous = true ∧
        (ofText unnamedText).toTask.pageRef p = "namespace-1/class-1" := by decide +kernel
  obtain ⟨p, hp, hname, href⟩ := hpages
  obtain ⟨hdirectly, -⟩ := hall unnamedText _ _ pairFiles t' Model.root report hmodel hrun p hp hname
  rw [href] at hdirectly
  exact hdirectly (hforest.directly_iff.2 ⟨e, he, hpage, howner⟩)

end Generator

end ReferenceSite
