import ReferenceSite.Proofs.Navigation.Arrangement

/-!
# The place of each page

Pages are registered and dropped by calls in any order (`Navigation.ofCalls`). Once each registered page has
one category only and no page lies below itself, the arrangement refers to each registered page once. An
entry that names another registered page as its owner stands in the sub-group that this page opens, and
every other entry stands in the group of its category (`arranged_ofCalls`).
-/

namespace ReferenceSite

open Relation

/-- A page or group is an element of another one, at any depth, or that itself. -/
inductive NavPage.Occurs (n : NavPage) : NavPage → Prop
  | here : Occurs n n
  | within {heading : String} {icon : Option String} {pages : List NavPage}
      {extra : List (String × Json)} {p : NavPage} (hp : p ∈ pages) (h : Occurs n p) :
      Occurs n (.group heading icon pages extra)

theorem NavPage.Occurs.trans {a b c : NavPage} (hab : a.Occurs b) (hbc : b.Occurs c) : a.Occurs c := by
  induction hbc with
  | here => exact hab
  | within hp _ ih => exact .within hp ih

/-- What holds of a group once it holds of its pages holds of all pages and groups. -/
theorem NavPage.inductionOn {motive : NavPage → Prop} (n : NavPage) (page : ∀ path, motive (.page path))
    (group : ∀ heading icon pages extra, (∀ p ∈ pages, motive p) →
      motive (.group heading icon pages extra)) : motive n := by
  match n with
  | .page path => exact page path
  | .group heading icon pages extra =>
    exact group heading icon pages extra fun p hp => NavPage.inductionOn p page group

/-- The references of a page are the references that occur in it. -/
theorem NavGroup.mem_pageRefs_iff {ref : String} {n : NavPage} :
    ref ∈ pageRefs n ↔ NavPage.Occurs (.page ref) n := by
  constructor
  · intro h
    induction n using NavPage.inductionOn with
    | page path =>
      obtain rfl := List.mem_singleton.1 h
      exact .here
    | group heading icon pages extra ih =>
      rw [pageRefs, listRefs_eq_flatMap, List.mem_flatMap] at h
      obtain ⟨p, hp, href⟩ := h
      exact .within hp (ih p hp href)
  · intro h
    induction h with
    | here => exact List.mem_singleton_self ref
    | within hp _ ih =>
      rw [pageRefs, listRefs_eq_flatMap]
      exact List.mem_flatMap_of_mem hp ih

namespace Navigation

variable {nav : Navigation} {e o : Entry}

/-- An entry stands in a list of pages: as the sub-group that its page opens if other pages go under it, and
    else as its page. -/
inductive StandsIn (nav : Navigation) (e : Entry) (pages : List NavPage) : Prop
  | opened (hunder : ∃ p, nav.Under p e.page) (members : List NavPage)
      (h : .group e.label none (.page e.page :: members) [] ∈ pages)
  | alone (hunder : ∀ p, ¬ nav.Under p e.page) (h : .page e.page ∈ pages)

/-- Every registered page has its place in the groups, and no other page has one. -/
structure Arranged (nav : Navigation) : Prop where
  once : (nav.groups.flatMap NavGroup.refs).Nodup
  refs : ∀ p, p ∈ nav.groups.flatMap NavGroup.refs ↔ ∃ e ∈ nav.entries, e.page = p
  headings : (nav.groups.map NavGroup.heading).Nodup
  nested : ∀ e ∈ nav.entries, ∀ o ∈ nav.entries, e.parent = some o.page → o.page ≠ e.page →
    ∃ g ∈ nav.groups, ∃ members,
      NavPage.Occurs (.group o.label none (.page o.page :: members) []) g.asPage ∧
        nav.StandsIn e members
  top : ∀ e ∈ nav.entries, (∀ o ∈ nav.entries, e.parent = some o.page → o.page = e.page) →
    ∃ g ∈ nav.groups, g.heading = e.category.label ∧ g.icon = some e.category.icon ∧
      nav.StandsIn e g.pages

/-! ## Places -/

theorem categoryGroup?_eq_some_iff {category : Category} {g : NavGroup} :
    nav.categoryGroup? category = some g ↔ nav.unowned category ≠ [] ∧
      g = { heading := category.label
            icon := some category.icon
            pages := (nav.unowned category).map (nav.node nav.owners) } := by
  unfold categoryGroup?
  split
  · next hnone => simp [hnone]
  · next hsome =>
    rw [Option.some_inj, eq_comm]
    exact (and_iff_right hsome).symm

theorem mem_unowned {category : Category} :
    e ∈ nav.unowned category ↔ e ∈ nav.entries ∧ nav.owner? e = none ∧ e.category = category := by
  rw [unowned, Entry.sorted, (List.mergeSort_perm _ _).mem_iff, List.mem_filter, Bool.and_eq_true,
    Option.isNone_iff_eq_none, beq_iff_eq]

/-- The group of a category has the entries of the category that have no owner. -/
theorem exists_categoryGroup (he : e ∈ nav.entries) (howner : nav.owner? e = none) :
    ∃ g ∈ nav.groups, g.heading = e.category.label ∧ g.icon = some e.category.icon ∧
      nav.node nav.owners e ∈ g.pages := by
  have hmem : e ∈ nav.unowned e.category := mem_unowned.2 ⟨he, howner, rfl⟩
  have hcategory : e.category ∈ Category.all := by cases e.category <;> decide
  have hgroup := categoryGroup?_eq_some_iff.2 ⟨List.ne_nil_of_mem hmem, rfl⟩
  exact ⟨_, List.mem_filterMap.2 ⟨e.category, hcategory, hgroup⟩, rfl, rfl, List.mem_map_of_mem hmem⟩

theorem nodup_headings (nav : Navigation) : (nav.groups.map NavGroup.heading).Nodup := by
  have hlabels : (Category.all.map Category.label).Nodup := by decide
  rw [List.Nodup, List.pairwise_map] at hlabels
  rw [groups, List.Nodup, List.pairwise_map, List.pairwise_filterMap]
  refine hlabels.imp fun {a b} hne g hg g' hg' hsame => hne ?_
  obtain ⟨-, rfl⟩ := categoryGroup?_eq_some_iff.1 hg
  obtain ⟨-, rfl⟩ := categoryGroup?_eq_some_iff.1 hg'
  exact hsame

namespace Forest

/-- Where the node of an entry is, the entry stands. -/
theorem standsIn_of_mem (h : nav.Forest) {pages : List NavPage} (hnode : nav.node nav.owners e ∈ pages) :
    nav.StandsIn e pages := by
  rw [h.node_eq] at hnode
  split_ifs at hnode with hunder
  · exact .opened (mem_owners_iff_under.1 hunder) _ hnode
  · exact .alone (fun p hp => hunder (mem_owners_iff_under.2 ⟨p, hp⟩)) hnode

/-- The page that an entry goes under opens a sub-group, with the entry's node behind its own page. -/
theorem node_of_owner? (h : nav.Forest) (he : e ∈ nav.entries) (howner : nav.owner? e = some o.page) :
    ∃ members, nav.node nav.owners o = .group o.label none (.page o.page :: members) [] ∧
      nav.node nav.owners e ∈ members := by
  have hopens : o.page ∈ nav.owners := mem_owners.2 ⟨e, he, howner⟩
  rw [h.node_eq o, if_pos hopens]
  exact ⟨_, rfl, List.mem_map_of_mem (mem_ownedBy.2 ⟨he, howner⟩)⟩

/-- The node of every entry occurs in some group. -/
theorem exists_occurs (h : nav.Forest) (he : e ∈ nav.entries) :
    ∃ g ∈ nav.groups, (nav.node nav.owners e).Occurs g.asPage := by
  induction hpage : e.page using h.wellFounded_above.induction generalizing e with
  | _ page ih =>
    subst hpage
    cases howner : nav.owner? e with
    | none =>
      obtain ⟨g, hg, -, -, hnode⟩ := exists_categoryGroup he howner
      exact ⟨g, hg, .within hnode .here⟩
    | some page =>
      -- the owner's node is in a group already, and the entry's is within it
      have hlink := under_of_owner? he howner
      obtain ⟨o, ho, rfl⟩ := hlink.registered
      obtain ⟨g, hg, hoccurs⟩ := ih o.page hlink ho rfl
      obtain ⟨members, hopened, hnode⟩ := h.node_of_owner? he howner
      rw [hopened] at hoccurs
      have hwithin : (nav.node nav.owners e).Occurs (.group o.label none (.page o.page :: members) []) :=
        .within (List.mem_cons_of_mem _ hnode) .here
      exact ⟨g, hg, hwithin.trans hoccurs⟩

/-- In a forest every registered page has its place. -/
theorem arranged (h : nav.Forest) : nav.Arranged := by
  refine ⟨h.refs_perm.nodup_iff.2 h.nodup, fun p => ?_, nav.nodup_headings, ?_, ?_⟩
  · rw [h.refs_perm.mem_iff, List.mem_map]
  · intro e he o ho hparent hne
    have howner : nav.owner? e = some o.page := owner?_eq_some_iff.2 ⟨hparent, hne, o, ho, rfl⟩
    obtain ⟨g, hg, hoccurs⟩ := h.exists_occurs ho
    obtain ⟨members, hopened, hnode⟩ := h.node_of_owner? he howner
    rw [hopened] at hoccurs
    exact ⟨g, hg, members, hoccurs, h.standsIn_of_mem hnode⟩
  · intro e he hothers
    have howner : nav.owner? e = none := owner?_eq_none_iff.2 hothers
    obtain ⟨g, hg, hheading, hicon, hnode⟩ := exists_categoryGroup he howner
    exact ⟨g, hg, hheading, hicon, h.standsIn_of_mem hnode⟩

end Forest

/-! ## Calls -/

/-- A call to a navigation. -/
inductive Call where
  /-- Register an entry. -/
  | add (e : Entry)
  /-- Drop every entry. -/
  | clear

def perform (nav : Navigation) : Call → Navigation
  | .add e => nav.add e
  | .clear => {}

/-- The navigation after some calls. -/
def ofCalls (calls : List Call) : Navigation := calls.foldl perform {}

/-- No two entries have the same page and the same category. -/
def Distinct (nav : Navigation) : Prop :=
  nav.entries.Pairwise fun a b => a.page = b.page → a.category ≠ b.category

theorem Distinct.perform (h : nav.Distinct) (call : Call) : (nav.perform call).Distinct := by
  cases call with
  | clear => exact .nil
  | add e =>
    show (nav.add e).Distinct
    unfold add
    split_ifs with hregistered
    · exact h
    · refine List.pairwise_append.2 ⟨h, List.pairwise_singleton _ e, fun a ha b hb hpage hcategory => ?_⟩
      obtain rfl := List.mem_singleton.1 hb
      apply hregistered
      rw [isRegistered, List.any_eq_true]
      exact ⟨a, ha, by simp [hpage, hcategory]⟩

theorem distinct_ofCalls (calls : List Call) : (ofCalls calls).Distinct := by
  have hrun : ∀ nav : Navigation, nav.Distinct → (calls.foldl perform nav).Distinct := by
    induction calls with
    | nil => exact fun _ h => h
    | cons call calls ih => exact fun _ h => ih _ (h.perform call)
  exact hrun {} .nil

theorem Distinct.nodup (h : nav.Distinct)
    (hone : ∀ a ∈ nav.entries, ∀ b ∈ nav.entries, a.page = b.page → a.category = b.category) :
    (nav.entries.map Entry.page).Nodup := by
  rw [List.Nodup, List.pairwise_map]
  exact h.imp_of_mem fun {a b} ha hb hne hpage => hne hpage (hone a ha b hb hpage)

/-- After any calls that leave each page with one category only and no page below itself, every page that is
    registered then has its place. -/
theorem arranged_ofCalls (calls : List Call)
    (hone : ∀ a ∈ (ofCalls calls).entries, ∀ b ∈ (ofCalls calls).entries,
      a.page = b.page → a.category = b.category)
    (hacyclic : ∀ p, ¬ TransGen (ofCalls calls).Under p p) : (ofCalls calls).Arranged :=
  Forest.arranged ⟨(distinct_ofCalls calls).nodup hone, hacyclic⟩

/-- A page is dropped; then a method in a class in a namespace is registered before them, the class a second
    time, a page that names itself and one whose owner is not there. -/
def nestedCalls : List Call :=
  [.add ⟨"old", .classes, "old", none⟩, .clear,
    .add ⟨"a/b/c", .methods, "c", some "a/b"⟩, .add ⟨"a/b", .classes, "b", some "a"⟩,
    .add ⟨"a", .namespaces, "", none⟩, .add ⟨"a/b", .classes, "B", some "a/b/c"⟩,
    .add ⟨"own", .vars, "own", some "own"⟩, .add ⟨"lost", .functions, "lost", some "old"⟩]

theorem arranged_ofCalls_nestedCalls :
    (ofCalls nestedCalls).entries.map Entry.page = ["a/b/c", "a/b", "a", "own", "lost"] ∧
      (∀ a ∈ (ofCalls nestedCalls).entries, ∀ b ∈ (ofCalls nestedCalls).entries,
        a.page = b.page → a.category = b.category) ∧
      (∀ p, ¬ TransGen (ofCalls nestedCalls).Under p p) ∧ (ofCalls nestedCalls).Arranged := by
  have hone : ∀ a ∈ (ofCalls nestedCalls).entries, ∀ b ∈ (ofCalls nestedCalls).entries,
      a.page = b.page → a.category = b.category := by decide
  have hshorter : ∀ e ∈ (ofCalls nestedCalls).entries, ∀ o ∈ (ofCalls nestedCalls).entries,
      e.parent = some o.page → o.page ≠ e.page → o.page.length < e.page.length := by decide
  have hacyclic : ∀ p, ¬ TransGen (ofCalls nestedCalls).Under p p := by
    refine acyclic_of_lt String.length fun p q hlink => ?_
    obtain ⟨hne, ⟨o, ho, rfl⟩, e, he, rfl, hparent⟩ := hlink
    exact hshorter e he o ho hparent hne
  exact ⟨by decide, hone, hacyclic, arranged_ofCalls nestedCalls hone hacyclic⟩

end Navigation

end ReferenceSite
