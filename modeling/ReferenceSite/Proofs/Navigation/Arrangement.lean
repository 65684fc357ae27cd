import Mathlib.Data.List.Flatten
import Mathlib.Data.List.Nodup
import Mathlib.Data.List.Perm.Basic
import Mathlib.Tactic.SplitIfs
import ReferenceSite.Proofs.Navigation.Forest

/-!
# The pages of an arrangement

Where the links between registered pages make a forest, each page goes under its owner or into its category.
So the groups of the arrangement refer to each registered page exactly once, and to no other page
(`Forest.refs_perm`).

Pages may have owners in a circle in general, and `Navigation.node` has to remember which sub-groups are
open. In a forest it need not (`Forest.node_eq`), because no page lies below itself.
-/

namespace ReferenceSite

open Relation

/-- A function that has a result for just the elements that pass a test gives a list of results beside
    those elements. -/
theorem forall₂_filterMap {α β : Type} {f : α → Option β} {test : α → Bool} {R : β → α → Prop}
    {l : List α} (h : ∀ a ∈ l, (test a = false ∧ f a = none) ∨
      (test a = true ∧ ∃ b, f a = some b ∧ R b a)) :
    List.Forall₂ R (l.filterMap f) (l.filter test) := by
  induction l with
  | nil => exact .nil
  | cons a l ih =>
    obtain ⟨ha, hl⟩ := List.forall_mem_cons.1 h
    rcases ha with ⟨htest, hf⟩ | ⟨htest, b, hf, hb⟩
    · rw [List.filterMap_cons_none hf, List.filter_cons_of_neg (by simp [htest])]
      exact ih hl
    · rw [List.filterMap_cons_some hf, List.filter_cons_of_pos htest]
      exact .cons hb (ih hl)

namespace NavGroup

theorem listRefs_eq_flatMap (pages : List NavPage) : listRefs pages = pages.flatMap pageRefs := by
  induction pages with
  | nil => rfl
  | cons p pages ih => rw [listRefs, ih, List.flatMap_cons]

end NavGroup

namespace Navigation

variable {nav : Navigation} {e c : Entry}

theorem mem_owners {p : String} : p ∈ nav.owners ↔ ∃ e ∈ nav.entries, nav.owner? e = some p := by
  rw [owners, List.mem_eraseDups, List.mem_filterMap]

theorem nodup_eraseDups {α : Type} [BEq α] [LawfulBEq α] (l : List α) : l.eraseDups.Nodup := by
  induction hn : l.length using Nat.strongRecOn generalizing l with
  | _ n ih =>
    cases l with
    | nil => exact .nil
    | cons a l =>
      have hlength := List.length_filter_le (fun b => !b == a) l
      rw [List.length_cons] at hn
      rw [List.eraseDups_cons, List.nodup_cons, List.mem_eraseDups]
      exact ⟨by simp, ih _ (by omega) _ rfl⟩

theorem nodup_owners (nav : Navigation) : nav.owners.Nodup := nodup_eraseDups _

theorem ownedBy_perm (nav : Navigation) (page : String) :
    (nav.ownedBy page).Perm (nav.entries.filter fun e => nav.owner? e == some page) :=
  List.mergeSort_perm _ _

theorem mem_ownedBy {page : String} :
    c ∈ nav.ownedBy page ↔ c ∈ nav.entries ∧ nav.owner? c = some page := by
  rw [(nav.ownedBy_perm page).mem_iff, List.mem_filter, beq_iff_eq]

theorem under_of_mem_ownedBy {page : String} (hc : c ∈ nav.ownedBy page) : nav.Under c.page page :=
  under_of_owner? (mem_ownedBy.1 hc).1 (mem_ownedBy.1 hc).2

theorem mem_owners_iff_under {p : String} : p ∈ nav.owners ↔ ∃ q, nav.Under q p := by
  rw [mem_owners]
  constructor
  · rintro ⟨e, he, howner⟩
    exact ⟨e.page, under_of_owner? he howner⟩
  · rintro ⟨q, hlink⟩
    obtain ⟨e, he, -, howner⟩ := exists_entry_of_under hlink
    exact ⟨e, he, howner⟩

/-! ## Sub-groups -/

/-- Where a way leads to another place, its part behind the last visit to the start does not come back there. -/
theorem exists_leaving {α : Type} {r : α → α → Prop} {a b : α} (h : ReflTransGen r a b) :
    b = a ∨ ∃ c, r a c ∧ ReflTransGen (fun x y => r x y ∧ x ≠ a) c b := by
  induction h with
  | refl => exact Or.inl rfl
  | @tail b d _ hbd ih =>
    by_cases hba : b = a
    · subst hba
      exact Or.inr ⟨d, hbd, .refl⟩
    · obtain ⟨c, hac, hcb⟩ := ih.resolve_left hba
      exact Or.inr ⟨c, hac, hcb.tail ⟨hbd, hba⟩⟩

/-- A link leads down from a page that may open a sub-group. -/
def Down (nav : Navigation) (unopened : List String) (q p : String) : Prop :=
  nav.Under p q ∧ q ∈ unopened

/-- The pages at an entry are those that such links lead down to from its own. -/
theorem mem_pageRefs_node_iff {p : String} {unopened : List String} (hnodup : unopened.Nodup) :
    p ∈ NavGroup.pageRefs (nav.node unopened e) ↔ ReflTransGen (nav.Down unopened) e.page p := by
  induction unopened, e using node.induct with
  | case1 unopened e hmem ih =>
    have hbelow : ∀ c, p ∈ NavGroup.pageRefs (nav.node (unopened.erase e.page) c) ↔
        ReflTransGen (nav.Down (unopened.erase e.page)) c.page p := fun c => ih c (hnodup.erase _)
    rw [node, dif_pos hmem, NavGroup.pageRefs, NavGroup.listRefs, NavGroup.pageRefs,
      NavGroup.listRefs_eq_flatMap, List.flatMap_map, List.mem_append, List.mem_singleton,
      List.mem_flatMap]
    constructor
    · rintro (rfl | ⟨c, hc, hp⟩)
      · exact .refl
      · have hway : ReflTransGen (nav.Down unopened) c.page p :=
          ((hbelow c).1 hp).lift id fun q d h => ⟨h.1, List.mem_of_mem_erase h.2⟩
        exact .head ⟨under_of_mem_ownedBy hc, hmem⟩ hway
    · -- the way need not pass the page of the entry a second time
      intro hway
      refine (exists_leaving hway).imp id ?_
      rintro ⟨q, hfirst, hrest⟩
      obtain ⟨c, hc, rfl, howner⟩ := exists_entry_of_under hfirst.1
      have hapart : ReflTransGen (nav.Down (unopened.erase e.page)) c.page p :=
        hrest.lift id fun q d h => ⟨h.1.1, hnodup.mem_erase_iff.2 ⟨h.2, h.1.2⟩⟩
      exact ⟨c, mem_ownedBy.2 ⟨hc, howner⟩, (hbelow c).2 hapart⟩
  | case2 unopened e hmem =>
    rw [node, dif_neg hmem, NavGroup.pageRefs, List.mem_singleton, ReflTransGen.cases_head_iff, eq_comm,
      iff_self_or]
    rintro ⟨c, ⟨-, hopens⟩, -⟩
    exact absurd hopens hmem

/-- The pages at an entry are those at or below its own. -/
theorem mem_pageRefs_node {p : String} :
    p ∈ NavGroup.pageRefs (nav.node nav.owners e) ↔ ReflTransGen nav.Under p e.page := by
  have hdown : nav.Down nav.owners = Function.swap nav.Under := by
    funext q c
    exact propext (and_iff_left_of_imp fun hlink => mem_owners_iff_under.2 ⟨c, hlink⟩)
  rw [mem_pageRefs_node_iff nav.nodup_owners, hdown, reflTransGen_swap]

namespace Forest

/-- The sub-group of an entry depends only on which of the pages at or below it may open one. -/
theorem node_congr (h : nav.Forest) {unopened unopened' : List String}
    (hsame : ∀ p, ReflTransGen nav.Under p e.page → (p ∈ unopened ↔ p ∈ unopened')) :
    nav.node unopened e = nav.node unopened' e := by
  induction hpage : e.page using h.wellFounded_under.induction generalizing e unopened unopened' with
  | _ page ih =>
    subst hpage
    rw [node, node]
    by_cases hmem : e.page ∈ unopened
    · -- the pages below `e` are others than its own, so opening it makes no difference to them
      have hbelow : ∀ c ∈ nav.ownedBy e.page,
          nav.node (unopened.erase e.page) c = nav.node (unopened'.erase e.page) c := by
        intro c hc
        have hlink := under_of_mem_ownedBy hc
        refine ih c.page hlink (fun p hp => ?_) rfl
        have hne : p ≠ e.page := h.ne_of_below hlink hp
        rw [List.mem_erase_of_ne hne, List.mem_erase_of_ne hne]
        exact hsame p (hp.tail hlink)
      rw [dif_pos hmem, dif_pos ((hsame e.page .refl).1 hmem), List.map_congr_left hbelow]
    · rw [dif_neg hmem, dif_neg fun hmem' => hmem ((hsame e.page .refl).2 hmem')]

/-- An entry opens a sub-group with its own page and the entries under it, if there are any. -/
theorem node_eq (h : nav.Forest) (e : Entry) :
    nav.node nav.owners e = if e.page ∈ nav.owners then
      .group e.label none (.page e.page :: (nav.ownedBy e.page).map (nav.node nav.owners)) []
    else .page e.page := by
  have hbelow : ∀ c ∈ nav.ownedBy e.page,
      nav.node (nav.owners.erase e.page) c = nav.node nav.owners c := by
    intro c hc
    refine h.node_congr fun p hp => List.mem_erase_of_ne ?_
    exact h.ne_of_below (under_of_mem_ownedBy hc) hp
  rw [node]
  split_ifs
  · rw [List.map_congr_left hbelow]
  · rfl

/-- The pages at an entry are its own and those at the entries under it. -/
theorem pageRefs_node (h : nav.Forest) (e : Entry) :
    NavGroup.pageRefs (nav.node nav.owners e) = e.page ::
      (nav.ownedBy e.page).flatMap fun c => NavGroup.pageRefs (nav.node nav.owners c) := by
  rw [h.node_eq e]
  split_ifs with howner
  · rw [NavGroup.pageRefs, NavGroup.listRefs, NavGroup.pageRefs, NavGroup.listRefs_eq_flatMap,
      List.flatMap_map, List.singleton_append]
  · have hnone : nav.ownedBy e.page = [] := List.eq_nil_iff_forall_not_mem.2 fun c hc =>
      howner (mem_owners.2 ⟨c, mem_ownedBy.1 hc⟩)
    rw [NavGroup.pageRefs, hnone, List.flatMap_nil]

/-- Entries that have the same owner, or none, share no page. -/
theorem nodup_flatMap_node (h : nav.Forest) {entries : List Entry} (hnodup : entries.Nodup)
    (hmem : ∀ a ∈ entries, a ∈ nav.entries) {owner : Option String}
    (howner : ∀ a ∈ entries, nav.owner? a = owner)
    (hrefs : ∀ a ∈ entries, (NavGroup.pageRefs (nav.node nav.owners a)).Nodup) :
    (entries.flatMap fun a => NavGroup.pageRefs (nav.node nav.owners a)).Nodup := by
  refine List.nodup_flatMap.2 ⟨hrefs, hnodup.imp_of_mem fun {a b} ha hb hne p hpa hpb => hne ?_⟩
  have hsame : nav.owner? a = nav.owner? b := (howner a ha).trans (howner b hb).symm
  exact h.eq_of_below (hmem a ha) (hmem b hb) hsame (mem_pageRefs_node.1 hpa) (mem_pageRefs_node.1 hpb)

/-- No page occurs twice at an entry. -/
theorem nodup_pageRefs_node (h : nav.Forest) (e : Entry) :
    (NavGroup.pageRefs (nav.node nav.owners e)).Nodup := by
  induction hpage : e.page using h.wellFounded_under.induction generalizing e with
  | _ page ih =>
    subst hpage
    rw [h.pageRefs_node, List.nodup_cons]
    constructor
    · intro hmem
      obtain ⟨c, hc, hp⟩ := List.mem_flatMap.1 hmem
      exact h.ne_of_below (under_of_mem_ownedBy hc) (mem_pageRefs_node.1 hp) rfl
    · have hnodup : (nav.ownedBy e.page).Nodup :=
        (nav.ownedBy_perm e.page).nodup_iff.2 (h.nodup.of_map.filter _)
      exact h.nodup_flatMap_node hnodup (fun c hc => (mem_ownedBy.1 hc).1)
        (fun c hc => (mem_ownedBy.1 hc).2) fun c hc => ih c.page (under_of_mem_ownedBy hc) c rfl

end Forest

/-! ## All pages -/

/-- The parts of a list with different keys together make the list. -/
theorem flatMap_filter_perm {α κ : Type} [DecidableEq κ] (key : α → κ) {keys : List κ}
    (hkeys : keys.Nodup) {l : List α} (hl : ∀ a ∈ l, key a ∈ keys) :
    (keys.flatMap fun k => l.filter fun a => key a == k).Perm l := by
  induction keys generalizing l with
  | nil =>
    rw [List.eq_nil_iff_forall_not_mem.2 fun a ha => List.not_mem_nil (hl a ha)]
    rfl
  | cons k keys ih =>
    obtain ⟨hk, hkeys⟩ := List.nodup_cons.1 hkeys
    have hothers : (keys.flatMap fun k' => l.filter fun a => key a == k') =
        keys.flatMap fun k' => (l.filter fun a => !(key a == k)).filter fun a => key a == k' := by
      refine List.flatMap_congr fun k' hk' => ?_
      rw [List.filter_filter]
      refine List.filter_congr fun a _ => ?_
      by_cases hkey : key a = k'
      · have hne : key a ≠ k := fun heq => hk (heq ▸ hkey ▸ hk')
        simp [hkey, hkey ▸ hne]
      · simp [hkey]
    rw [List.flatMap_cons, hothers]
    refine ((ih hkeys fun a ha => ?_).append_left _).trans (List.filter_append_perm _ l)
    obtain ⟨ha, hne⟩ := List.mem_filter.1 ha
    exact (List.mem_cons.1 (hl a ha)).resolve_left (by simpa using hne)

/-- The pages in the group of a category. -/
theorem refs_categoryGroup? (nav : Navigation) (category : Category) :
    (nav.categoryGroup? category).toList.flatMap NavGroup.refs =
      (nav.unowned category).flatMap fun e => NavGroup.pageRefs (nav.node nav.owners e) := by
  unfold categoryGroup?
  split
  · next hnone => rw [hnone]; rfl
  · next hsome =>
    rw [Option.toList_some, List.flatMap_singleton, NavGroup.refs, NavGroup.listRefs_eq_flatMap,
      List.flatMap_map]

/-- The page references of the groups are those at the entries without an owner. -/
theorem refs_groups (nav : Navigation) :
    nav.groups.flatMap NavGroup.refs = (Category.all.flatMap nav.unowned).flatMap fun e =>
      NavGroup.pageRefs (nav.node nav.owners e) := by
  simp only [groups, List.filterMap_eq_flatMap_toList, List.flatMap_assoc, nav.refs_categoryGroup?]

theorem refs_group (nav : Navigation) (heading : String) :
    (nav.group heading).refs = nav.groups.flatMap NavGroup.refs := by
  have hasPage : ∀ g : NavGroup, NavGroup.pageRefs g.asPage = g.refs := fun g => by
    rw [NavGroup.asPage, NavGroup.pageRefs, NavGroup.refs]
  rw [NavGroup.refs, NavGroup.listRefs_eq_flatMap, group, List.flatMap_map]
  simp only [hasPage]

/-- The entries without an owner are those of all categories. -/
theorem flatMap_unowned_perm (nav : Navigation) :
    (Category.all.flatMap nav.unowned).Perm (nav.entries.filter fun e => (nav.owner? e).isNone) := by
  have hsorted : (Category.all.flatMap nav.unowned).Perm (Category.all.flatMap fun category =>
      (nav.entries.filter fun e => (nav.owner? e).isNone).filter fun e => e.category == category) := by
    refine List.Perm.flatMap_left _ fun category _ => (List.mergeSort_perm _ _).trans (.of_eq ?_)
    rw [List.filter_filter]
    exact List.filter_congr fun e _ => Bool.and_comm _ _
  exact hsorted.trans (flatMap_filter_perm Entry.category (by decide) fun e _ => by
    cases e.category <;> decide)

/-- The groups of a forest refer to every registered page once, and to no other. -/
theorem Forest.refs_perm (h : nav.Forest) :
    (nav.groups.flatMap NavGroup.refs).Perm (nav.entries.map Entry.page) := by
  set roots := nav.entries.filter fun e => (nav.owner? e).isNone with hroots
  have hmem : ∀ {e}, e ∈ roots ↔ e ∈ nav.entries ∧ nav.owner? e = none := by
    intro e
    rw [hroots, List.mem_filter, Option.isNone_iff_eq_none]
  have hnodup : (roots.flatMap fun e => NavGroup.pageRefs (nav.node nav.owners e)).Nodup :=
    h.nodup_flatMap_node (h.nodup.of_map.filter _) (fun e he => (hmem.1 he).1)
      (fun e he => (hmem.1 he).2) fun e _ => h.nodup_pageRefs_node e
  rw [refs_groups]
  refine (nav.flatMap_unowned_perm.flatMap_right _).trans ((List.perm_ext_iff_of_nodup hnodup h.nodup).2 ?_)
  intro p
  rw [List.mem_flatMap]
  constructor
  · rintro ⟨r, hr, hp⟩
    rcases (mem_pageRefs_node.1 hp).cases_head with rfl | ⟨q, hlink, -⟩
    · exact List.mem_map_of_mem (hmem.1 hr).1
    · exact (mem_pages_of_under hlink).1
  · intro hp
    obtain ⟨e, he, rfl⟩ := List.mem_map.1 hp
    obtain ⟨r, hr, hroot, hbelow⟩ := h.exists_root he
    exact ⟨r, hmem.2 ⟨hr, hroot⟩, mem_pageRefs_node.2 hbelow⟩

/-- In an ordered navigation the group of all pages refers to every registered page once, and to no
    other. -/
theorem refs_group_perm (h : nav.Ordered) (heading : String) :
    (nav.group heading).refs.Perm (nav.entries.map Entry.page) := by
  rw [refs_group]
  exact h.forest.refs_perm

end Navigation

end ReferenceSite
