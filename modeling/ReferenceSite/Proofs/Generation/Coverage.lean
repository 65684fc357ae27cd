import ReferenceSite.Proofs.Generation.Links
import ReferenceSite.Proofs.Model.Visible

/-!
# What a run documents

The kind of an item decides whether it has a page, but whether it is listed inline is decided by the kind of
the item that it is visible in. The two agree for the members of enumerations that stand in one. In a model
they may also stand elsewhere; then they have no page and no page lists them, and that is the only way in
which a run from the root leaves an item out (`Generator.generate_covered`).
-/

namespace ReferenceSite

open Generation

namespace Model

variable {m : Model} {id n : Nat}

/-- Only wrappers lie between an inline member and the nearest item with a page, so it is visible there. -/
theorem Built.nearestPage_iff (hm : m.Built) (hshaped : m.Shaped)
    (hkind : (m.item id).kind.isInlineMember = true) :
    m.NearestPage id n ↔ (m.item n).kind.producesPage = true ∧ m.Visible n id := by
  have hnone : (m.item id).kind.producesPage = false := by
    rw [Kind.producesPage, hkind, Bool.not_true, Bool.and_false]
  have hwrapper : (m.item id).kind.isWrapper = false := by
    rw [Kind.isInlineMember_iff.1 hkind]
    rfl
  rw [hm.visible_iff]
  constructor
  · rintro ⟨hproduces, front, back, heq, hfront⟩
    refine ⟨hproduces, hwrapper, ?_⟩
    cases front with
    | nil =>
      obtain rfl := List.head_eq_of_cons_eq heq
      rw [hnone] at hproduces
      cases hproduces
    | cons first between =>
      obtain ⟨-, hancestors⟩ := List.cons.inj heq
      refine ⟨between, back, hancestors, fun a ha => ?_⟩
      have hmem : a ∈ m.ancestors id := by
        rw [hancestors]
        exact List.mem_append_left _ ha
      obtain ⟨c, hc⟩ := hm.exists_member_of_mem_ancestors hmem
      have hpage := hfront a (List.mem_cons_of_mem _ ha)
      rw [hshaped.producesPage hc] at hpage
      simpa using hpage
  · rintro ⟨hproduces, -, between, above, hancestors, hbetween⟩
    refine ⟨hproduces, id :: between, above, by rw [hancestors, List.cons_append], fun a ha => ?_⟩
    rcases List.mem_cons.1 ha with rfl | ha
    · exact hnone
    · rw [Kind.producesPage, hbetween a ha]
      rfl

end Model

/-! ## Inline sections -/

namespace Page

/-- A page lists an item in a section of members that have no pages. -/
def ListsInline (p : Page) (id : Nat) : Prop :=
  ∃ s ∈ p.sections, s.inline = true ∧ ∃ e ∈ s.members, e.item = id

variable {m : Model} {base : String} {refs : List (Nat × String)} {id n : Nat}

theorem exists_mem_inlineSections_iff {members : List Nat} :
    (∃ s ∈ inlineSections m members, s.inline = true ∧ ∃ e ∈ s.members, e.item = id) ↔
      (m.item id).kind.isInlineMember = true ∧ id ∈ members := by
  have hfilter : id ∈ members.filter (fun c => (m.item c).kind.isInlineMember) ↔
      id ∈ members ∧ (m.item id).kind.isInlineMember = true := List.mem_filter
  rw [and_comm, ← hfilter]
  simp only [mem_inlineSections_iff]
  constructor
  · rintro ⟨s, ⟨-, rfl⟩, -, e, he, rfl⟩
    obtain ⟨c, hc, rfl⟩ := List.mem_map.1 he
    exact hc
  · intro hid
    exact ⟨_, ⟨List.ne_nil_of_mem hid, rfl⟩, rfl, _, List.mem_map_of_mem hid, rfl⟩

/-- The page of an enumeration lists the members that are visible in it, and no other page lists anything
    inline. -/
theorem listsInline_ofItem_iff : (ofItem m base refs n).ListsInline id ↔ (m.item n).kind = .enum ∧
    (m.item id).kind.isInlineMember = true ∧ id ∈ m.visibleMembers n := by
  have hsections : (ofItem m base refs n).sections = memberSections m base n := rfl
  unfold ListsInline
  rw [hsections]
  unfold memberSections
  dsimp only
  split_ifs with hcontainer hinline
  · have hkind : (m.item n).kind ≠ .enum := fun h => by rw [h] at hcontainer; cases hcontainer
    simp [hkind]
  · rw [exists_mem_inlineSections_iff, Kind.hasInlineListing_iff.1 hinline]
    simp
  · have hkind : (m.item n).kind ≠ .enum := fun h => hinline (Kind.hasInlineListing_iff.2 h)
    simp only [hkind, false_and, iff_false]
    rintro ⟨s, hs, hlisted, -⟩
    obtain ⟨category, -, hcategory⟩ := List.mem_filterMap.1 hs
    obtain ⟨-, rfl⟩ := categorySection?_eq_some_iff.1 hcategory
    cases hlisted

end Page

namespace Generation.Task

/-- The page that a run has made of an item lists another one inline. -/
def ListedOn (k : Task) (pages : List Emission) (id n : Nat) : Prop :=
  ∃ front p back, pages = front ++ p :: back ∧ p.item = n ∧ (k.page front p.item).ListsInline id

/-- An item has a page of its own among the pages of a run, or the page of the nearest item with one lists it
    inline. -/
def Documented (k : Task) (pages : List Emission) (id : Nat) : Prop :=
  id ∈ pages.map Emission.item ∨ ∃ n, k.model.NearestPage id n ∧ k.ListedOn pages id n

variable {k : Task} {id n : Nat}

section

variable (hm : k.model.Built) (hshaped : k.model.Shaped)
  (h : k.Clears (k.model.itinerary Model.root 0 none))
include hm hshaped h

theorem Clears.mem_items_iff : id ∈ (k.walkPages Model.root).map Emission.item ↔ k.HasPage id := by
  refine ⟨fun hid => ?_, h.mem_items hm hshaped⟩
  obtain ⟨p, hp, rfl⟩ := List.mem_map.1 hid
  have hsound : k.Sound (k.walkPages Model.root) := h.sound
  exact (hsound.address hp).1

theorem Clears.listedOn_iff : k.ListedOn (k.walkPages Model.root) id n ↔
    (k.model.item id).kind = .enumMember ∧ k.model.NearestPage id n ∧
      (k.model.item n).kind = .enum := by
  rw [← Kind.isInlineMember_iff]
  constructor
  · rintro ⟨front, p, back, -, rfl, hlists⟩
    obtain ⟨howner, hkind, hvisible⟩ := Page.listsInline_ofItem_iff.1 hlists
    have hpage : (k.model.item p.item).kind.producesPage = true := by
      rw [howner]
      rfl
    exact ⟨hkind, (hm.nearestPage_iff hshaped hkind).2
      ⟨hpage, (Model.mem_visibleMembers hm.linked).1 hvisible⟩, howner⟩
  · rintro ⟨hkind, hnearest, howner⟩
    obtain ⟨hpage, hvisible⟩ := (hm.nearestPage_iff hshaped hkind).1 hnearest
    obtain ⟨p, hp, rfl⟩ := List.mem_map.1 (h.mem_items hm hshaped hpage)
    obtain ⟨front, back, hpages⟩ := List.append_of_mem hp
    exact ⟨front, p, back, hpages, rfl, Page.listsInline_ofItem_iff.2
      ⟨howner, hkind, (Model.mem_visibleMembers hm.linked).2 hvisible⟩⟩

/-- A walk from the root documents every item but wrappers and the members of enumerations whose nearest
    page is not that of an enumeration. -/
theorem Clears.documented_iff (hwrapper : (k.model.item id).kind.isWrapper = false) :
    k.Documented (k.walkPages Model.root) id ↔ ((k.model.item id).kind = .enumMember →
      ∃ n, k.model.NearestPage id n ∧ (k.model.item n).kind = .enum) := by
  unfold Documented
  rw [h.mem_items_iff hm hshaped]
  unfold HasPage
  rw [Kind.producesPage, hwrapper, Bool.not_false, Bool.true_and]
  cases hkind : (k.model.item id).kind.isInlineMember with
  | false =>
    have hpaged : (k.model.item id).kind ≠ .enumMember := by
      rw [Ne, ← Kind.isInlineMember_iff, hkind]
      exact Bool.false_ne_true
    exact ⟨fun _ hmember => absurd hmember hpaged, fun _ => Or.inl rfl⟩
  | true =>
    have hmember := Kind.isInlineMember_iff.1 hkind
    constructor
    · rintro (hpaged | ⟨n, -, hlisted⟩) -
      · cases hpaged
      · obtain ⟨-, hnearest, howner⟩ := (h.listedOn_iff hm hshaped).1 hlisted
        exact ⟨n, hnearest, howner⟩
    · intro howned
      obtain ⟨n, hnearest, howner⟩ := howned hmember
      exact Or.inr ⟨n, hnearest, (h.listedOn_iff hm hshaped).2 ⟨hmember, hnearest, howner⟩⟩

end

end Generation.Task

namespace Generator

variable {g g' : Generator} {t t' : FileTree} {report : Report}

/-- What a run from the root that succeeds documents. The pages are those of the items that are to have
    one; they are rendered and in their files. Members of enumerations are listed inline on the pages of
    enumerations that are their nearest pages, and nothing else is listed inline. So all items but wrappers
    are documented, except for members of enumerations that have another nearest page or none. -/
structure Covered (g : Generator) (t : FileTree) (report : Report) (t' : FileTree) : Prop where
  paged : ∀ id, id ∈ (g.pages Model.root).map Emission.item ↔ g.toTask.HasPage id
  filed : g.toTask.Filed t (g.pages Model.root) t'
  count : report.written + report.unchanged = (g.pages Model.root).length
  rendered : ∀ front p back, g.pages Model.root = front ++ p :: back →
    g.renderer (g.toTask.page front p.item) (g.model.links g.settings.pageBase) = .ok p.text
  listed : ∀ id n, g.toTask.ListedOn (g.pages Model.root) id n ↔
    (g.model.item id).kind = .enumMember ∧ g.model.NearestPage id n ∧ (g.model.item n).kind = .enum
  documented : ∀ id < g.model.size, (g.model.item id).kind ≠ .model →
    (g.model.item id).kind ≠ .entryPoint → (g.toTask.Documented (g.pages Model.root) id ↔
      ((g.model.item id).kind = .enumMember →
        ∃ n, g.model.NearestPage id n ∧ (g.model.item n).kind = .enum))

/-- A run from the root of a model that was read from a text documents all items but the members of
    enumerations that stand elsewhere. -/
theorem generate_covered {text : String} (hm : Model.ofJsonText text = .ok g.model)
    (h : g.generate t Model.root = (.ok report, g', t')) : g.Covered t report t' := by
  have hbuilt := Model.built_ofJsonText hm
  have hshaped := Model.shaped_ofJsonText hm
  obtain ⟨hclears, w, hafter, rfl, -, rfl⟩ := walk_of_generate hbuilt h
  have hsound : g.toTask.Sound (g.pages Model.root) := hclears.sound
  refine ⟨fun id => hclears.mem_items_iff hbuilt hshaped, hafter.filed, hafter.count,
    fun front p back hpages => (hsound.page front p back hpages).2.2,
    fun id n => hclears.listedOn_iff hbuilt hshaped, fun id _ hmodel hentry => ?_⟩
  have hwrapper : (g.model.item id).kind.isWrapper = false := by
    cases hkind : (g.model.item id).kind <;> first | rfl | exact absurd hkind ‹_›
  exact hclears.documented_iff hbuilt hshaped hwrapper

/-- An enumeration with a member, and a class with a member of an enumeration. -/
def strayText : String :=
  "\x7b\"kind\":\"Model\",\"members\":[\x7b\"kind\":\"Enum\",\"name\":\"E\",\"members\":[" ++
    "\x7b\"kind\":\"EnumMember\",\"name\":\"A\"\x7d]\x7d,\x7b\"kind\":\"Class\",\"name\":\"C\"," ++
    "\"members\":[\x7b\"kind\":\"EnumMember\",\"name\":\"B\"\x7d]\x7d]\x7d"

theorem generate_strayText : Model.ofJsonText strayText = .ok (ofText strayText).model ∧
    ∃ report g' t', (ofText strayText).generate pairFiles Model.root = (.ok report, g', t') ∧
      report.written = 2 := by
  have houtcome : (Model.ofJsonText strayText).toOption.isSome = true ∧
      ((ofText strayText).generate pairFiles Model.root).1.toOption.map Report.written = some 2 := by
    decide +kernel
  obtain ⟨hread, hwritten⟩ := houtcome
  obtain ⟨report, hrun, hreport⟩ := exists_report hwritten
  exact ⟨ofJsonText_ofText hread, report, _, _, hrun, hreport⟩

theorem generate_covered_strayText : ∃ report g' t',
    Model.ofJsonText strayText = .ok (ofText strayText).model ∧
      (ofText strayText).generate pairFiles Model.root = (.ok report, g', t') ∧ report.written = 2 ∧
      (ofText strayText).Covered pairFiles report t' := by
  obtain ⟨hmodel, report, g', t', hrun, hwritten⟩ := generate_strayText
  exact ⟨report, g', t', hmodel, hrun, hwritten, generate_covered hmodel hrun⟩

/-- The member of the class is left out. -/
theorem stray_member_not_documented : ¬ ∀ (text : String) (g g' : Generator) (t t' : FileTree)
    (report : Report), Model.ofJsonText text = .ok g.model → g.generate t Model.root = (.ok report, g', t') →
      ∀ id < g.model.size, (g.model.item id).kind ≠ .model → (g.model.item id).kind ≠ .entryPoint →
        g.toTask.Documented (g.pages Model.root) id := by
  intro hall
  obtain ⟨hmodel, report, g', t', hrun, -⟩ := generate_strayText
  have hbuilt := Model.built_ofJsonText hmodel
  have hshaped := Model.shaped_ofJsonText hmodel
  obtain ⟨hclears, -⟩ := walk_of_generate hbuilt hrun
  -- the member of the class is the last item, and its nearest page is that of the class
  have hitems : 4 < (ofText strayText).model.size ∧
      ((ofText strayText).model.item 4).kind = .enumMember ∧
      (ofText strayText).model.pageItem? 4 = some 3 ∧
      ((ofText strayText).model.item 3).kind = .class := by decide +kernel
  obtain ⟨hsize, hmember, hclass, howner⟩ := hitems
  have hdocumented := hall strayText (ofText strayText) g' pairFiles t' report hmodel hrun 4 hsize
    (by rw [hmember]; decide) (by rw [hmember]; decide)
  obtain ⟨n, hnearest, henum⟩ :=
    (hclears.documented_iff hbuilt hshaped (by rw [hmember]; rfl)).1 hdocumented hmember
  rw [Model.pageItem?_eq_some_iff.2 hnearest] at hclass
  obtain rfl := Option.some.inj hclass
  rw [howner] at henum
  cases henum

end Generator

end ReferenceSite
