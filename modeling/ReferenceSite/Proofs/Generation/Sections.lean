import ReferenceSite.Generation.Content
import ReferenceSite.Proofs.Model.Visible
import ReferenceSite.Proofs.Navigation.Arrangement

/-!
# The member sections of a page

The members of a container are sorted into sections by the category of their kind, and the categories are gone
through in their fixed order. Every kind has one of these categories, so no member is lost on the way and none
is listed twice (`sections_ofItem`). Only enumerations are different: they list their own members in one
section, and nothing else.
-/

namespace ReferenceSite

theorem Kind.hasInlineListing_iff {k : Kind} : k.hasInlineListing = true ↔ k = .enum := by
  cases k <;> decide

theorem Kind.isInlineMember_iff {k : Kind} : k.isInlineMember = true ↔ k = .enumMember := by
  cases k <;> decide

/-- The members that a section lists. -/
def MemberSection.items (s : MemberSection) : List Nat := s.members.map MemberEntry.item

namespace Page

open Model

variable {m : Model} {base : String} {refs : List (Nat × String)} {id : Nat} {members : List Nat}
  {category : Category} {s : MemberSection}

/-- Sections list the members with pages: each of them once, in sections for different categories that stand in
    the order of categories, and within a section in the order in which the members come. -/
structure Gathers (m : Model) (members : List Nat) (sections : List MemberSection) : Prop where
  once : (sections.flatMap MemberSection.items).Nodup
  listed : ∀ c, c ∈ sections.flatMap MemberSection.items ↔
    c ∈ members ∧ (m.item c).kind.producesPage = true
  nonempty : ∀ s ∈ sections, s.items ≠ []
  inOrder : ∀ s ∈ sections, s.items.Sublist members
  ascending : ∃ categories : List Category,
    categories.Pairwise (fun a b => a.position < b.position) ∧
      List.Forall₂ (fun s category => s.title = category.label ∧
        ∀ c ∈ s.items, Category.ofKind (m.item c).kind = category) sections categories

/-- There is one section with the members of an enumeration among the members, in their order, or no section if
    there are none. -/
structure Enumerates (m : Model) (members : List Nat) (sections : List MemberSection) : Prop where
  atMostOne : sections.length ≤ 1
  listed : ∀ s ∈ sections, s.items = members.filter fun c => (m.item c).kind = .enumMember
  empty_iff : sections = [] ↔ ∀ c ∈ members, (m.item c).kind ≠ .enumMember

/-! ## What a section says -/

theorem mem_inlineSections_iff : s ∈ inlineSections m members ↔
    members.filter (fun c => (m.item c).kind.isInlineMember) ≠ [] ∧
      s = { title := "Members"
            inline := true
            members := (members.filter fun c => (m.item c).kind.isInlineMember).map fun c =>
              memberEntry m c none } := by
  unfold inlineSections
  split
  · next hnone => simp [hnone]
  · next hsome =>
    rw [List.mem_singleton]
    exact (and_iff_right hsome).symm

/-- The members with pages of one category. -/
def pagedIn (m : Model) (members : List Nat) (category : Category) : List Nat :=
  members.filter fun c =>
    (m.item c).kind.producesPage && Category.ofKind (m.item c).kind == category

theorem mem_pagedIn {c : Nat} : c ∈ pagedIn m members category ↔
    c ∈ members ∧ (m.item c).kind.producesPage = true ∧ Category.ofKind (m.item c).kind = category := by
  rw [pagedIn, List.mem_filter, Bool.and_eq_true, beq_iff_eq]

theorem categorySection?_eq_some_iff : categorySection? m base members category = some s ↔
    pagedIn m members category ≠ [] ∧
      s = { title := category.label
            members := (pagedIn m members category).map fun c =>
              memberEntry m c (m.pageAddress? base c) } := by
  unfold categorySection?
  rw [← pagedIn]
  split
  · next hnone => simp [hnone]
  · next hsome =>
    rw [Option.some_inj, eq_comm]
    exact (and_iff_right hsome).symm

/-- A section with members says their titles, and where their pages are. Inline members have none, and for
    other members it is the address of the page of the member. -/
theorem mem_memberSections {e : MemberEntry} (hs : s ∈ memberSections m base id) (he : e ∈ s.members) :
    e.name = m.pageTitle e.item ∧ e.item ∈ m.visibleMembers id ∧ (s.inline = true ∧ e.address = none ∨
      s.inline = false ∧ (m.item e.item).kind.producesPage = true ∧
        e.address = m.pageAddress? base e.item) := by
  unfold memberSections at hs
  dsimp only at hs
  split_ifs at hs with hcontainer hinline
  · cases hs
  · obtain ⟨-, rfl⟩ := mem_inlineSections_iff.1 hs
    obtain ⟨c, hc, rfl⟩ := List.mem_map.1 he
    exact ⟨rfl, (List.mem_filter.1 hc).1, Or.inl ⟨rfl, rfl⟩⟩
  · obtain ⟨category, -, hcategory⟩ := List.mem_filterMap.1 hs
    obtain ⟨-, rfl⟩ := categorySection?_eq_some_iff.1 hcategory
    obtain ⟨c, hc, rfl⟩ := List.mem_map.1 he
    obtain ⟨hvisible, hpage, -⟩ := mem_pagedIn.1 hc
    exact ⟨rfl, hvisible, Or.inr ⟨rfl, hpage, rfl⟩⟩

/-! ## Sections by category -/

theorem map_item_memberEntry (m : Model) (address : Nat → Option String) (l : List Nat) :
    (l.map fun c => memberEntry m c (address c)).map MemberEntry.item = l := by
  rw [List.map_map]
  exact List.map_id' l

theorem items_categorySection? (h : categorySection? m base members category = some s) :
    s.items = pagedIn m members category ∧ s.items ≠ [] ∧ s.title = category.label := by
  obtain ⟨hne, rfl⟩ := categorySection?_eq_some_iff.1 h
  rw [MemberSection.items, map_item_memberEntry]
  exact ⟨rfl, hne, rfl⟩

/-- The section of a category lists its members with pages, and there is none if it has no such members. -/
theorem items_toList_categorySection? (m : Model) (base : String) (members : List Nat)
    (category : Category) :
    (categorySection? m base members category).toList.flatMap MemberSection.items =
      pagedIn m members category := by
  cases hsection : categorySection? m base members category with
  | none =>
    by_contra hne
    have hsome : categorySection? m base members category = some _ :=
      categorySection?_eq_some_iff.2 ⟨Ne.symm hne, rfl⟩
    rw [hsection] at hsome
    cases hsome
  | some s =>
    rw [Option.toList_some, List.flatMap_singleton]
    exact (items_categorySection? hsection).1

/-- Together the sections of all categories list the members with pages. -/
theorem items_sections_perm (m : Model) (base : String) (members : List Nat) :
    ((Category.all.filterMap (categorySection? m base members)).flatMap MemberSection.items).Perm
      (members.filter fun c => (m.item c).kind.producesPage) := by
  have hparts : ∀ category, pagedIn m members category =
      (members.filter fun c => (m.item c).kind.producesPage).filter
        fun c => Category.ofKind (m.item c).kind == category := by
    intro category
    rw [List.filter_filter, pagedIn]
    exact List.filter_congr fun c _ => Bool.and_comm _ _
  have hall : ∀ c ∈ members.filter (fun c => (m.item c).kind.producesPage),
      Category.ofKind (m.item c).kind ∈ Category.all := by
    intro c _
    cases (m.item c).kind <;> decide
  rw [List.filterMap_eq_flatMap_toList, List.flatMap_assoc]
  simp only [items_toList_categorySection?, hparts]
  exact Navigation.flatMap_filter_perm (fun c => Category.ofKind (m.item c).kind) (by decide) hall

/-- The sections by category list different members once each. -/
theorem gathers_sections (base : String) (hnodup : members.Nodup) :
    Gathers m members (Category.all.filterMap (categorySection? m base members)) := by
  have hperm := items_sections_perm m base members
  have hsection : ∀ s ∈ Category.all.filterMap (categorySection? m base members), ∃ category,
      s.items = pagedIn m members category ∧ s.items ≠ [] ∧ s.title = category.label := by
    intro s hs
    obtain ⟨category, -, hcategory⟩ := List.mem_filterMap.1 hs
    exact ⟨category, items_categorySection? hcategory⟩
  refine ⟨hperm.nodup_iff.2 (hnodup.filter _), fun c => ?_, fun s hs => ?_, fun s hs => ?_, ?_⟩
  · rw [hperm.mem_iff, List.mem_filter]
  · obtain ⟨category, -, hne, -⟩ := hsection s hs
    exact hne
  · obtain ⟨category, hitems, -⟩ := hsection s hs
    rw [hitems]
    exact List.filter_sublist
  · have hall : Category.all.Pairwise fun a b => a.position < b.position := by decide
    refine ⟨Category.all.filter fun category => (categorySection? m base members category).isSome,
      hall.filter _, forall₂_filterMap fun category _ => ?_⟩
    cases hcategory : categorySection? m base members category with
    | none => exact Or.inl ⟨rfl, rfl⟩
    | some s =>
      obtain ⟨hitems, -, htitle⟩ := items_categorySection? hcategory
      refine Or.inr ⟨rfl, s, rfl, htitle, fun c hc => ?_⟩
      rw [hitems] at hc
      exact (mem_pagedIn.1 hc).2.2

/-! ## The section of an enumeration -/

theorem enumerates_inlineSections (m : Model) (members : List Nat) :
    Enumerates m members (inlineSections m members) := by
  have hfilter : (members.filter fun c => (m.item c).kind.isInlineMember) =
      members.filter fun c => (m.item c).kind = .enumMember := by
    refine List.filter_congr fun c _ => ?_
    rw [Bool.eq_iff_iff, Kind.isInlineMember_iff, decide_eq_true_eq]
  refine ⟨?_, fun s hs => ?_, ?_⟩
  · unfold inlineSections
    split
    · exact Nat.zero_le _
    · exact Nat.le_refl _
  · obtain ⟨-, rfl⟩ := mem_inlineSections_iff.1 hs
    rw [MemberSection.items, map_item_memberEntry, hfilter]
  · have hempty : inlineSections m members = [] ↔
        members.filter (fun c => (m.item c).kind.isInlineMember) = [] := by
      unfold inlineSections
      split
      · next hnone => simp [hnone]
      · next hsome => simpa using hsome
    rw [hempty, hfilter, List.filter_eq_nil_iff]
    simp only [decide_eq_true_eq, ne_eq]

/-! ## Pages -/

/-- What the page of a container lists. If it is no enumeration, its sections list every visible member with a
    page once, in ascending categories; if it is one, they list its own members. -/
theorem sections_ofItem (hm : m.Built) (base : String) (refs : List (Nat × String))
    (hcontainer : (m.item id).kind.isContainer = true) :
    ((m.item id).kind ≠ .enum → Gathers m (m.visibleMembers id) (ofItem m base refs id).sections) ∧
      ((m.item id).kind = .enum → Enumerates m (m.visibleMembers id) (ofItem m base refs id).sections) := by
  have hsections : (ofItem m base refs id).sections = memberSections m base id := rfl
  rw [hsections, memberSections, hcontainer, Bool.not_true, if_neg Bool.false_ne_true]
  constructor
  · intro hkind
    rw [if_neg (mt Kind.hasInlineListing_iff.1 hkind)]
    exact gathers_sections base (hm.nodup_visibleMembers id)
  · intro hkind
    rw [if_pos (Kind.hasInlineListing_iff.2 hkind)]
    exact enumerates_inlineSections m _

/-- A package with two classes and a function between them, the function and a class within entry points one in
    the other, and a stray member of an enumeration; and an enumeration with members, one of them in an entry
    point, and a function. -/
def wrapped : Model :=
  (((((((((((empty.add 0 { kind := .package, name := "p" }).add 1 { kind := .class, name := "A" }).add 1
    { kind := .entryPoint }).add 3 { kind := .entryPoint }).add 4 { kind := .function, name := "f" }).add 3
    { kind := .class, name := "B" }).add 3 { kind := .enumMember, name := "stray" }).add 1
    { kind := .enum, name := "E" }).add 8 { kind := .enumMember, name := "x" }).add 8
    { kind := .entryPoint }).add 10 { kind := .enumMember, name := "y" }).add 8
    { kind := .function, name := "g" }

theorem sections_ofItem_wrapped : wrapped.Built ∧
    (wrapped.item 1).kind.isContainer = true ∧ (wrapped.item 1).kind ≠ .enum ∧
    (wrapped.item 8).kind.isContainer = true ∧ (wrapped.item 8).kind = .enum ∧
    Gathers wrapped (wrapped.visibleMembers 1) (ofItem wrapped "api" [] 1).sections ∧
    Enumerates wrapped (wrapped.visibleMembers 8) (ofItem wrapped "api" [] 8).sections ∧
    (ofItem wrapped "api" [] 1).sections.map MemberSection.items = [[2, 6], [5], [8]] ∧
    (ofItem wrapped "api" [] 8).sections.map MemberSection.items = [[9, 11]] := by
  have hbuilt : wrapped.Built :=
    ((((((((((((Built.root none []).add (by decide) _).add (by decide) _).add (by decide) _).add
      (by decide) _).add (by decide) _).add (by decide) _).add (by decide) _).add (by decide) _).add
      (by decide) _).add (by decide) _).add (by decide) _).add (by decide) _
  have hpackage : (wrapped.item 1).kind.isContainer = true ∧ (wrapped.item 1).kind ≠ .enum := by decide
  have henum : (wrapped.item 8).kind.isContainer = true ∧ (wrapped.item 8).kind = .enum := by decide
  refine ⟨hbuilt, hpackage.1, hpackage.2, henum.1, henum.2, ?_, ?_, by decide +kernel, by decide +kernel⟩
  · exact (sections_ofItem hbuilt "api" [] hpackage.1).1 hpackage.2
  · exact (sections_ofItem hbuilt "api" [] henum.1).2 henum.2

end Page

end ReferenceSite
