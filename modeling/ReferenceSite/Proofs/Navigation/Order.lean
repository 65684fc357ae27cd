import Mathlib.Data.Prod.Lex
import Mathlib.Data.String.Basic
import ReferenceSite.Proofs.Navigation.Placement

/-!
# The order of an arrangement

Entries are displayed in ascending order of their keys (`Entry.sortKey`). Two entries may have the same key,
but then they have the same page and the same heading, so it makes no difference which of them comes first:
the arrangement depends on the registered entries alone and not on the order in which they were registered
(`groups_eq_of_perm`). The pages of every category and of every sub-group ascend (`inOrder`).
-/

namespace ReferenceSite.Navigation

namespace Entry

/-- What entries are ordered by: the name without regard to case, then the name, then the page reference. -/
def sortKey (e : Entry) : String ×ₗ String ×ₗ String :=
  toLex (Text.lowercase e.name, toLex (e.name, e.page))

variable {a b : Entry} {es es' : List Entry}

theorem isLE_order_iff : (order a b).isLE = true ↔ a.sortKey ≤ b.sortKey := by
  have hle : ∀ s t : String, (compare s t).isLE = true ↔ s ≤ t := fun s t => by
    rw [← Ordering.ne_gt_iff_isLE, ← compare_le_iff_le]
  rw [order, Ordering.isLE_then_iff_or, Ordering.isLE_then_iff_or, hle, compare_lt_iff_lt,
    compare_lt_iff_lt, compare_eq_iff_eq, compare_eq_iff_eq, sortKey, sortKey, Prod.Lex.toLex_le_toLex,
    Prod.Lex.toLex_le_toLex]

theorem pairwise_sorted (es : List Entry) : (sorted es).Pairwise fun a b => a.sortKey ≤ b.sortKey := by
  have htrans : ∀ a b c : Entry, (order a b).isLE → (order b c).isLE → (order a c).isLE :=
    fun a b c hab hbc => isLE_order_iff.2 ((isLE_order_iff.1 hab).trans (isLE_order_iff.1 hbc))
  have htotal : ∀ a b : Entry, (order a b).isLE || (order b a).isLE := fun a b => by
    rw [Bool.or_eq_true, isLE_order_iff, isLE_order_iff]
    exact le_total _ _
  exact (List.pairwise_mergeSort htrans htotal es).imp isLE_order_iff.1

theorem sorted_perm (es : List Entry) : (sorted es).Perm es := List.mergeSort_perm _ _

/-- However the entries come, they are sorted to the same keys. -/
theorem map_sortKey_sorted (h : es.Perm es') : (sorted es).map sortKey = (sorted es').map sortKey := by
  have hsorted : ∀ fs : List Entry, ((sorted fs).map sortKey).Pairwise (· ≤ ·) := fun fs =>
    List.pairwise_map.2 (pairwise_sorted fs)
  have hperm := (sorted_perm es).trans (h.trans (sorted_perm es').symm)
  exact (hperm.map sortKey).eq_of_pairwise' (hsorted es) (hsorted es')

/-- Entries with the same key are displayed alike. -/
theorem page_label_of_sortKey (h : a.sortKey = b.sortKey) : a.page = b.page ∧ a.label = b.label := by
  have hnames := congrArg Prod.snd (toLex.injective h)
  have hname : a.name = b.name := congrArg Prod.fst (toLex.injective hnames)
  have hpage : a.page = b.page := congrArg Prod.snd (toLex.injective hnames)
  exact ⟨hpage, by rw [label, label, hname, hpage]⟩

/-- What is displayed of sorted entries is settled by their keys. -/
theorem map_sorted_eq {α : Type} {f f' : Entry → α} (hperm : es.Perm es')
    (hf : ∀ a b, a.sortKey = b.sortKey → f a = f' b) : (sorted es).map f = (sorted es').map f' := by
  have hkeys := map_sortKey_sorted hperm
  rw [← List.forall₂_eq_eq_eq, List.forall₂_map_left_iff, List.forall₂_map_right_iff] at hkeys ⊢
  exact hkeys.imp hf

end Entry

/-! ## Registration in another order -/

variable {nav nav' : Navigation} {e : Entry}

theorem owner?_eq_of_perm (h : nav.entries.Perm nav'.entries) : nav.owner? = nav'.owner? := by
  funext e
  have hany : ∀ p, (nav.entries.any fun o => o.page == p) = nav'.entries.any fun o => o.page == p :=
    fun p => h.any_eq
  unfold owner?
  simp only [hany]

theorem owners_perm (h : nav.entries.Perm nav'.entries) : nav.owners.Perm nav'.owners := by
  refine (List.perm_ext_iff_of_nodup nav.nodup_owners nav'.nodup_owners).2 fun p => ?_
  rw [mem_owners, mem_owners, owner?_eq_of_perm h]
  simp only [h.mem_iff]

/-- An entry is displayed as before if the entries were registered in another order, and as any other entry
with its key. -/
theorem node_eq_of_perm (h : nav.entries.Perm nav'.entries) {unopened unopened' : List String}
    (hunopened : unopened.Perm unopened') {a b : Entry} (hkey : a.sortKey = b.sortKey) :
    nav.node unopened a = nav'.node unopened' b := by
  obtain ⟨hpage, hlabel⟩ := Entry.page_label_of_sortKey hkey
  induction unopened, a using node.induct generalizing unopened' b with
  | case1 unopened a hmem ih =>
    have hmembers : (nav.ownedBy a.page).map (nav.node (unopened.erase a.page)) =
        (nav'.ownedBy a.page).map (nav'.node (unopened'.erase a.page)) := by
      unfold ownedBy
      rw [owner?_eq_of_perm h]
      refine Entry.map_sorted_eq (h.filter _) fun c d hcd => ?_
      obtain ⟨hpage, hlabel⟩ := Entry.page_label_of_sortKey hcd
      exact ih c (hunopened.erase _) hcd hpage hlabel
    rw [node, node, ← hpage, ← hlabel, dif_pos hmem, dif_pos (hunopened.mem_iff.1 hmem), hmembers]
  | case2 unopened a hmem =>
    rw [node, node, ← hpage, dif_neg hmem, dif_neg fun hmem' => hmem (hunopened.mem_iff.2 hmem')]

theorem categoryGroup?_eq_of_perm (h : nav.entries.Perm nav'.entries) (category : Category) :
    nav.categoryGroup? category = nav'.categoryGroup? category := by
  have hpages : (nav.unowned category).map (nav.node nav.owners) =
      (nav'.unowned category).map (nav'.node nav'.owners) := by
    unfold unowned
    rw [owner?_eq_of_perm h]
    exact Entry.map_sorted_eq (h.filter _) fun a b hab => node_eq_of_perm h (owners_perm h) hab
  have hempty : nav.unowned category = [] ↔ nav'.unowned category = [] := by
    rw [← List.map_eq_nil_iff, hpages, List.map_eq_nil_iff]
  ext g
  rw [categoryGroup?_eq_some_iff, categoryGroup?_eq_some_iff, hpages, Ne, Ne, hempty]

/-- The arrangement does not depend on the order of registration. -/
theorem groups_eq_of_perm (h : nav.entries.Perm nav'.entries) : nav.groups = nav'.groups := by
  rw [groups, groups, funext (categoryGroup?_eq_of_perm h)]

/-! ## Ascending pages -/

/-- A page of a list shows an entry: as its page, or as the sub-group that its page opens. -/
inductive Shows (e : Entry) : NavPage → Prop
  | alone : Shows e (.page e.page)
  | opened (members : List NavPage) : Shows e (.group e.label none (.page e.page :: members) [])

/-- The pages of a list show some entries, one after the other in ascending order. -/
def Ascending (entries : List Entry) (pages : List NavPage) : Prop :=
  ∃ es : List Entry, es.Perm entries ∧ (es.Pairwise fun a b => a.sortKey ≤ b.sortKey) ∧
    List.Forall₂ Shows es pages

/-- The entries that name another page as their owner. -/
def namedUnder (nav : Navigation) (page : String) : List Entry :=
  nav.entries.filter fun e => e.parent = some page ∧ page ≠ e.page

/-- The entries of a category that name no other registered page as their owner. -/
def unnested (nav : Navigation) (category : Category) : List Entry :=
  nav.entries.filter fun e =>
    e.category = category ∧ ∀ o ∈ nav.entries, e.parent = some o.page → o.page = e.page

/-- The groups are those of the categories with entries, and in each of them, and behind the owner's own page
in each sub-group at any depth, the entries ascend. -/
structure InOrder (nav : Navigation) : Prop where
  categories : List.Forall₂
    (fun g category => g.heading = category.label ∧ Ascending (nav.unnested category) g.pages)
    nav.groups (Category.all.filter fun category => nav.unnested category ≠ [])
  subgroups : ∀ g ∈ nav.groups, ∀ p ∈ g.pages, ∀ heading icon pages extra,
    NavPage.Occurs (.group heading icon pages extra) p →
      ∃ o ∈ nav.entries, heading = o.label ∧ ∃ members, pages = .page o.page :: members ∧
        Ascending (nav.namedUnder o.page) members

theorem shows_node (nav : Navigation) (unopened : List String) (e : Entry) :
    Shows e (nav.node unopened e) := by
  rw [node]
  split_ifs
  · exact .opened _
  · exact .alone

/-- The nodes of sorted entries ascend. -/
theorem ascending_sorted (nav : Navigation) (unopened : List String) (entries : List Entry) :
    Ascending entries ((Entry.sorted entries).map (nav.node unopened)) := by
  refine ⟨_, Entry.sorted_perm entries, Entry.pairwise_sorted entries, ?_⟩
  rw [List.forall₂_map_right_iff, List.forall₂_same]
  exact fun e _ => nav.shows_node unopened e

theorem ownedBy_eq_sorted (he : e ∈ nav.entries) :
    nav.ownedBy e.page = Entry.sorted (nav.namedUnder e.page) := by
  unfold ownedBy namedUnder
  refine congrArg Entry.sorted (List.filter_congr fun c _ => ?_)
  rw [Bool.eq_iff_iff, beq_iff_eq, decide_eq_true_eq, owner?_eq_some_iff]
  exact ⟨fun h => ⟨h.1, h.2.1⟩, fun h => ⟨h.1, h.2, e, he, rfl⟩⟩

theorem unowned_eq_sorted (nav : Navigation) (category : Category) :
    nav.unowned category = Entry.sorted (nav.unnested category) := by
  unfold unowned unnested
  refine congrArg Entry.sorted (List.filter_congr fun c _ => ?_)
  rw [Bool.eq_iff_iff, Bool.and_eq_true, Option.isNone_iff_eq_none, beq_iff_eq, decide_eq_true_eq,
    owner?_eq_none_iff, and_comm]

/-- Every group at an entry is the sub-group of an entry. -/
theorem subgroup_of_occurs {unopened : List String} {heading : String} {icon : Option String}
    {pages : List NavPage} {extra : List (String × Json)} (he : e ∈ nav.entries)
    (h : NavPage.Occurs (.group heading icon pages extra) (nav.node unopened e)) :
    ∃ o ∈ nav.entries, heading = o.label ∧ ∃ members, pages = .page o.page :: members ∧
      Ascending (nav.namedUnder o.page) members := by
  induction unopened, e using node.induct with
  | case1 unopened e hmem ih =>
    rw [node, dif_pos hmem] at h
    cases h with
    | here =>
      refine ⟨e, he, rfl, _, rfl, ?_⟩
      rw [ownedBy_eq_sorted he]
      exact nav.ascending_sorted _ _
    | within hp hoccurs =>
      rcases List.mem_cons.1 hp with rfl | hp
      · cases hoccurs
      · obtain ⟨c, hc, rfl⟩ := List.mem_map.1 hp
        exact ih c (mem_ownedBy.1 hc).1 hoccurs
  | case2 unopened e hmem =>
    rw [node, dif_neg hmem] at h
    cases h

theorem inOrder (nav : Navigation) : nav.InOrder := by
  constructor
  · refine forall₂_filterMap fun category _ => ?_
    have hempty : nav.unowned category = [] ↔ nav.unnested category = [] := by
      rw [unowned_eq_sorted, ← List.length_eq_zero_iff, (Entry.sorted_perm _).length_eq,
        List.length_eq_zero_iff]
    by_cases hnone : nav.unnested category = []
    · refine Or.inl ⟨by simp [hnone], ?_⟩
      rw [Option.eq_none_iff_forall_ne_some]
      exact fun g hg => (categoryGroup?_eq_some_iff.1 hg).1 (hempty.2 hnone)
    · refine Or.inr ⟨by simp [hnone], _, categoryGroup?_eq_some_iff.2 ⟨mt hempty.1 hnone, rfl⟩, rfl, ?_⟩
      rw [unowned_eq_sorted]
      exact nav.ascending_sorted _ _
  · intro g hg p hp heading icon pages extra hoccurs
    obtain ⟨category, -, hg⟩ := List.mem_filterMap.1 hg
    obtain ⟨-, rfl⟩ := categoryGroup?_eq_some_iff.1 hg
    obtain ⟨e, he, rfl⟩ := List.mem_map.1 hp
    exact subgroup_of_occurs (mem_unowned.1 he).1 hoccurs

/-! ## Any order of registration -/

/-- The navigation after some entries were registered one by one. -/
def registered (es : List Entry) : Navigation := ofCalls (es.map .add)

/-- Entries are all registered if no two of them have the same page and the same category. -/
theorem entries_registered {es : List Entry}
    (h : es.Pairwise fun a b => a.page = b.page → a.category ≠ b.category) :
    (registered es).entries = es := by
  have hrun : ∀ nav : Navigation, (nav.entries ++ es).Pairwise
      (fun a b => a.page = b.page → a.category ≠ b.category) →
        ((es.map Call.add).foldl perform nav).entries = nav.entries ++ es := by
    clear h
    induction es with
    | nil => intro nav _; simp
    | cons e es ih =>
      intro nav h
      have hnew : nav.add e = ⟨nav.entries ++ [e]⟩ := by
        rw [add, if_neg]
        rw [isRegistered, List.any_eq_true]
        rintro ⟨a, ha, hsame⟩
        rw [Bool.and_eq_true, beq_iff_eq, beq_iff_eq] at hsame
        exact (List.pairwise_append.1 h).2.2 a ha e List.mem_cons_self hsame.1 hsame.2
      rw [List.map_cons, List.foldl_cons, perform, hnew, ih _ (by simpa using h)]
      simp
  exact hrun {} h

/-- Entries of which no two have the same page and the same category are arranged in the same way in
whatever order they are registered, and everywhere in this arrangement they ascend. -/
theorem registered_alike_inOrder {es es' : List Entry} (hperm : es.Perm es')
    (hdistinct : es.Pairwise fun a b => a.page = b.page → a.category ≠ b.category) :
    (registered es).groups = (registered es').groups ∧
      (registered es).entries = es ∧ (registered es).InOrder := by
  have hdistinct' : es'.Pairwise fun a b => a.page = b.page → a.category ≠ b.category :=
    hperm.pairwise hdistinct fun {a b} hab hpage => (hab hpage.symm).symm
  have hentries : (registered es).entries.Perm (registered es').entries := by
    rwa [entries_registered hdistinct, entries_registered hdistinct']
  exact ⟨groups_eq_of_perm hentries, entries_registered hdistinct, inOrder _⟩

/-- A page with two categories under one owner, names that differ in case only, a page that names itself, one
whose owner is not there and two that name each other. -/
def tiedEntries : List Entry :=
  [⟨"a/b", .classes, "b", some "a"⟩, ⟨"a", .namespaces, "A", none⟩, ⟨"a/b", .functions, "b", some "a"⟩,
    ⟨"a/B", .methods, "B", some "a"⟩, ⟨"own", .vars, "own", some "own"⟩,
    ⟨"lost", .functions, "lost", some "old"⟩, ⟨"x", .other, "x", some "y"⟩, ⟨"y", .other, "y", some "x"⟩]

theorem registered_alike_inOrder_tiedEntries :
    (tiedEntries.Pairwise fun a b => a.page = b.page → a.category ≠ b.category) ∧
      (registered tiedEntries).groups = (registered tiedEntries.reverse).groups ∧
      (registered tiedEntries).entries = tiedEntries ∧ (registered tiedEntries).InOrder := by
  have hdistinct : tiedEntries.Pairwise fun a b => a.page = b.page → a.category ≠ b.category := by decide
  exact ⟨hdistinct, registered_alike_inOrder tiedEntries.reverse_perm.symm hdistinct⟩

end ReferenceSite.Navigation
