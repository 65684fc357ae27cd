import Mathlib.Data.Set.Card
import ReferenceSite.Proofs.Navigation.Placement

/-!
# How deep an arrangement nests

Entries may name each other as owners in a circle, and a page that is registered twice may lead into one. The
arrangement is a walk down these links with a trail of the pages whose sub-groups are open: a page on the
trail opens none, so every step puts another page with members on it. This ends the walk, whatever the links,
and bounds the depth of the result (`nesting`).
-/

namespace ReferenceSite

/-- The way down from a page or group to another one, through these groups. -/
inductive NavPage.Leads (n : NavPage) : NavPage → List NavPage → Prop
  | here : Leads n n []
  | into {heading : String} {icon : Option String} {pages : List NavPage}
      {extra : List (String × Json)} {p : NavPage} {groups : List NavPage} (hp : p ∈ pages)
      (h : Leads n p groups) :
      Leads n (.group heading icon pages extra) (.group heading icon pages extra :: groups)

/-- The page that a group starts with, which for a sub-group is the one that opens it. -/
def NavPage.opener? : NavPage → Option String
  | .group _ _ (.page p :: _) _ => some p
  | _ => none

namespace Navigation

variable {nav : Navigation} {e c : Entry} {trail : List String}

/-- The pages that may still open a sub-group below a trail. -/
def unopened (nav : Navigation) (trail : List String) : List String :=
  nav.owners.filter fun p => p ∉ trail

/-- On its way down from an entry the walk goes on to the entries under it, and the page of the entry is put on
    the trail; it does not go on from a page that is on the trail already. -/
inductive Calls (nav : Navigation) : List String × Entry → List String × Entry → Prop
  | member {trail : List String} {e c : Entry} (hfresh : e.page ∉ trail) (hc : c ∈ nav.ownedBy e.page) :
      Calls nav (e.page :: trail, c) (trail, e)

/-- The arrangement is the result of a walk that ends. On every way down from a page of a group the sub-groups
    are opened by different pages, all of which have members, so there are no more of them than such pages. -/
structure Nesting (nav : Navigation) : Prop where
  ends : WellFounded nav.Calls
  walk : ∀ trail e, nav.node (nav.unopened trail) e =
    if nav.ownedBy e.page = [] ∨ e.page ∈ trail then .page e.page
    else .group e.label none
      (.page e.page :: (nav.ownedBy e.page).map (nav.node (nav.unopened (e.page :: trail)))) []
  tops : ∀ g ∈ nav.groups, ∀ p ∈ g.pages, ∃ e ∈ nav.entries, p = nav.node (nav.unopened []) e
  once : ∀ g ∈ nav.groups, ∀ p ∈ g.pages, ∀ n groups, NavPage.Leads n p groups →
    ∃ openers : List String, groups.map NavPage.opener? = openers.map some ∧ openers.Nodup ∧
      ∀ o ∈ openers, ∃ q, nav.Under q o
  depth : ∀ g ∈ nav.groups, ∀ p ∈ g.pages, ∀ n groups, NavPage.Leads n p groups →
    groups.length ≤ {o | ∃ q, nav.Under q o}.ncard

/-! ## The trail -/

theorem mem_owners_iff_ownedBy {p : String} : p ∈ nav.owners ↔ nav.ownedBy p ≠ [] := by
  rw [mem_owners, List.ne_nil_iff_exists_cons]
  constructor
  · rintro ⟨e, he, howner⟩
    have hmem : e ∈ nav.ownedBy p := mem_ownedBy.2 ⟨he, howner⟩
    exact List.ne_nil_iff_exists_cons.1 (List.ne_nil_of_mem hmem)
  · rintro ⟨e, es, hes⟩
    have hmem : e ∈ nav.ownedBy p := hes ▸ List.mem_cons_self
    exact ⟨e, mem_ownedBy.1 hmem⟩

theorem mem_unopened {p : String} : p ∈ nav.unopened trail ↔ p ∈ nav.owners ∧ p ∉ trail := by
  rw [unopened, List.mem_filter, decide_eq_true_eq]

theorem unopened_nil (nav : Navigation) : nav.unopened [] = nav.owners := by
  simp [unopened]

/-- A page that opens its sub-group is put on the trail. -/
theorem erase_unopened (nav : Navigation) (trail : List String) (p : String) :
    (nav.unopened trail).erase p = nav.unopened (p :: trail) := by
  have hnodup : (nav.unopened trail).Nodup := nav.nodup_owners.filter _
  rw [hnodup.erase_eq_filter, unopened, unopened, List.filter_filter]
  refine List.filter_congr fun q _ => ?_
  by_cases hq : q = p
  · simp [hq]
  · simp [hq]

/-- The walk with a trail. -/
theorem node_unopened (nav : Navigation) (trail : List String) (e : Entry) :
    nav.node (nav.unopened trail) e =
      if nav.ownedBy e.page = [] ∨ e.page ∈ trail then .page e.page
      else .group e.label none
        (.page e.page :: (nav.ownedBy e.page).map (nav.node (nav.unopened (e.page :: trail)))) [] := by
  have hmem : e.page ∈ nav.unopened trail ↔ ¬ (nav.ownedBy e.page = [] ∨ e.page ∈ trail) := by
    rw [mem_unopened, mem_owners_iff_ownedBy, not_or]
  rw [node, erase_unopened]
  split_ifs with hopens hcloses hcloses
  · exact absurd hcloses (hmem.1 hopens)
  · rfl
  · rfl
  · exact absurd (hmem.2 hcloses) hopens

/-- The walk ends, because each step leaves one page less that may open a sub-group. -/
theorem wellFounded_calls (nav : Navigation) : WellFounded nav.Calls := by
  have hless : ∀ call caller, nav.Calls call caller →
      (nav.unopened call.1).length < (nav.unopened caller.1).length := by
    intro call caller h
    cases h with
    | @member trail e c hfresh hc =>
      have hopens : e.page ∈ nav.unopened trail := mem_unopened.2
        ⟨mem_owners_iff_ownedBy.2 (List.ne_nil_of_mem hc), hfresh⟩
      have hpos := List.length_pos_of_mem hopens
      show (nav.unopened (e.page :: trail)).length < (nav.unopened trail).length
      rw [← erase_unopened, List.length_erase_of_mem hopens]
      omega
  exact Subrelation.wf (fun {call caller} h => hless call caller h)
    (measure fun s : List String × Entry => (nav.unopened s.1).length).wf

/-! ## The way down -/

/-- On the way down from the node of an entry different pages open the sub-groups, and none that is on the
    trail. -/
theorem openers_of_leads {n : NavPage} {groups : List NavPage}
    (h : NavPage.Leads n (nav.node (nav.unopened trail) e) groups) :
    ∃ openers : List String, groups.map NavPage.opener? = openers.map some ∧ openers.Nodup ∧
      ∀ o ∈ openers, o ∈ nav.unopened trail := by
  generalize hp : nav.node (nav.unopened trail) e = p at h
  induction h generalizing trail e with
  | here => exact ⟨[], rfl, .nil, by simp⟩
  | @into heading icon pages extra p groups hmem h ih =>
    rw [node_unopened] at hp
    split_ifs at hp with hcloses
    obtain ⟨hdown, hfresh⟩ := not_or.1 hcloses
    have hopens : e.page ∈ nav.unopened trail :=
      mem_unopened.2 ⟨mem_owners_iff_ownedBy.2 hdown, hfresh⟩
    cases hp
    rcases List.mem_cons.1 hmem with rfl | hmem
    · -- the owner's own page stands in its sub-group and leads nowhere
      cases h
      exact ⟨[e.page], rfl, List.nodup_singleton _, by simpa using hopens⟩
    · obtain ⟨c, -, hc⟩ := List.mem_map.1 hmem
      obtain ⟨openers, hgroups, hnodup, hall⟩ := ih hc
      have hbelow : ∀ o ∈ openers, o ∈ nav.unopened trail ∧ o ≠ e.page := by
        intro o ho
        obtain ⟨howner, hnew⟩ := mem_unopened.1 (hall o ho)
        rw [List.mem_cons, not_or] at hnew
        exact ⟨mem_unopened.2 ⟨howner, hnew.2⟩, hnew.1⟩
      refine ⟨e.page :: openers, ?_, ?_, ?_⟩
      · rw [List.map_cons, List.map_cons, hgroups]
        rfl
      · exact List.nodup_cons.2 ⟨fun hpage => (hbelow _ hpage).2 rfl, hnodup⟩
      · exact List.forall_mem_cons.2 ⟨hopens, fun o ho => (hbelow o ho).1⟩

/-- The pages of the groups are the nodes of entries, with an empty trail. -/
theorem exists_entry_of_mem_pages {g : NavGroup} (hg : g ∈ nav.groups) {p : NavPage} (hp : p ∈ g.pages) :
    ∃ e ∈ nav.entries, p = nav.node (nav.unopened []) e := by
  obtain ⟨category, -, hg⟩ := List.mem_filterMap.1 hg
  obtain ⟨-, rfl⟩ := categoryGroup?_eq_some_iff.1 hg
  obtain ⟨e, he, rfl⟩ := List.mem_map.1 hp
  exact ⟨e, (mem_unowned.1 he).1, by rw [unopened_nil]⟩

/-- Different pages with members are at most as many as there are such pages. -/
theorem length_le_ncard_under {openers : List String} (hnodup : openers.Nodup)
    (h : ∀ o ∈ openers, ∃ q, nav.Under q o) : openers.length ≤ {o | ∃ q, nav.Under q o}.ncard := by
  have hfinite : {o | ∃ q, nav.Under q o}.Finite := by
    refine Set.Finite.subset (List.finite_toSet nav.owners) fun o ho => ?_
    exact mem_owners_iff_under.2 ho
  have hsubset : (openers.toFinset : Set String) ⊆ {o | ∃ q, nav.Under q o} := by
    intro o ho
    exact h o (by simpa using ho)
  calc
    openers.length = openers.toFinset.card := (List.toFinset_card_of_nodup hnodup).symm
    _ = (openers.toFinset : Set String).ncard := (Set.ncard_coe_finset _).symm
    _ ≤ {o | ∃ q, nav.Under q o}.ncard := Set.ncard_le_ncard hsubset hfinite

/-- Whatever entries there are and whatever they name as their owners: the arrangement ends, on no way down a
    page opens its sub-group twice, and so sub-groups nest at most as deep as there are pages with members. -/
theorem nesting (nav : Navigation) : nav.Nesting := by
  have hopeners : ∀ g ∈ nav.groups, ∀ p ∈ g.pages, ∀ n groups, NavPage.Leads n p groups →
      ∃ openers : List String, groups.map NavPage.opener? = openers.map some ∧ openers.Nodup ∧
        ∀ o ∈ openers, ∃ q, nav.Under q o := by
    intro g hg p hp n groups hleads
    obtain ⟨e, -, rfl⟩ := exists_entry_of_mem_pages hg hp
    obtain ⟨openers, hgroups, hnodup, hall⟩ := openers_of_leads hleads
    exact ⟨openers, hgroups, hnodup, fun o ho => mem_owners_iff_under.1 (mem_unopened.1 (hall o ho)).1⟩
  refine ⟨nav.wellFounded_calls, nav.node_unopened, fun g hg p hp => exists_entry_of_mem_pages hg hp,
    hopeners, fun g hg p hp n groups hleads => ?_⟩
  obtain ⟨openers, hgroups, hnodup, hall⟩ := hopeners g hg p hp n groups hleads
  have hlength : groups.length = openers.length := by
    simpa using congrArg List.length hgroups
  rw [hlength]
  exact length_le_ncard_under hnodup hall

/-- The second registration of a page leads into a circle, which is cut where its sub-group is open already. -/
example :
    (ofCalls [.add ⟨"a", .classes, "A", none⟩, .add ⟨"a", .other, "A", some "b"⟩,
      .add ⟨"b", .methods, "B", some "a"⟩]).groups.map NavGroup.asPage =
        [.group "Classes" (some "cube")
          [.group "A" none [.page "a", .group "B" none [.page "b", .page "a"] []] []] []] := by
  cbv

end Navigation

end ReferenceSite
