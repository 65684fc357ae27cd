import ReferenceSite.Proofs.Navigation.Placement

/-!
# Which pages an arrangement reaches

An arrangement starts from the entries without an owner and goes down to the entries under them. So it refers
to the pages that lie at or below the page of such an entry, and to no others (`reached`). A page that is
registered is missing only if its owners lead up into a circle: two pages that name each other are each under
the other one, none of them stands in its category, and neither is referred to.
-/

namespace ReferenceSite.Navigation

open Relation

variable {nav : Navigation} {p : String}

/-- The groups refer to the pages that lie at or below the pages of entries without an owner. -/
theorem mem_refs_groups_iff : p ∈ nav.groups.flatMap NavGroup.refs ↔
    ∃ e ∈ nav.entries, nav.owner? e = none ∧ ReflTransGen nav.Under p e.page := by
  rw [refs_groups, (nav.flatMap_unowned_perm.flatMap_right _).mem_iff, List.mem_flatMap]
  simp only [List.mem_filter, Option.isNone_iff_eq_none, mem_pageRefs_node, and_assoc]

/-- The groups refer to the pages at or below those of entries that name no other registered page as their
    owner. A registered page is missing exactly if it and all pages above it are registered by entries that
    name another registered page, and then its owners lead into a circle. -/
structure Reached (nav : Navigation) : Prop where
  refs : ∀ p, p ∈ nav.groups.flatMap NavGroup.refs ↔ ∃ e ∈ nav.entries,
    (∀ o ∈ nav.entries, e.parent = some o.page → o.page = e.page) ∧ ReflTransGen nav.Under p e.page
  missing : ∀ e ∈ nav.entries, (e.page ∉ nav.groups.flatMap NavGroup.refs ↔
    ∀ a ∈ nav.entries, ReflTransGen nav.Under e.page a.page →
      ∃ o ∈ nav.entries, a.parent = some o.page ∧ o.page ≠ a.page)
  circle : ∀ e ∈ nav.entries, e.page ∉ nav.groups.flatMap NavGroup.refs →
    ∃ q, ReflTransGen nav.Under e.page q ∧ TransGen nav.Under q q

/-- Which pages are referred to, whatever entries there are and whatever they name as their owners. -/
theorem reached (nav : Navigation) : nav.Reached := by
  refine ⟨fun p => ?_, fun e he => ?_, fun e he hmissing => ?_⟩
  · simp only [mem_refs_groups_iff, owner?_eq_none_iff]
  · rw [mem_refs_groups_iff]
    simp only [owner?_eq_none_iff, not_exists, not_and]
    constructor
    · intro h a ha hreach
      by_contra hunowned
      push Not at hunowned
      exact h a ha hunowned hreach
    · intro h a ha hunowned hreach
      obtain ⟨o, ho, hparent, hne⟩ := h a ha hreach
      exact hne (hunowned o ho hparent)
  · by_contra hacyclic
    push Not at hacyclic
    obtain ⟨r, hr, hunowned, hreach⟩ := exists_unowned_above he hacyclic
    exact hmissing (mem_refs_groups_iff.2 ⟨r, hr, hunowned, hreach⟩)

/-- Two pages that name each other as their owners. -/
def circledCalls : List Call := [.add ⟨"x", .other, "x", some "y"⟩, .add ⟨"y", .other, "y", some "x"⟩]

/-- Neither of them is referred to. -/
theorem circled_pages_missing : ¬ ∀ (calls : List Call), ∀ e ∈ (ofCalls calls).entries,
    e.page ∈ (ofCalls calls).groups.flatMap NavGroup.refs := by
  intro hall
  have hentry : ⟨"x", .other, "x", some "y"⟩ ∈ (ofCalls circledCalls).entries := by decide
  have howned : ∀ e ∈ (ofCalls circledCalls).entries, (ofCalls circledCalls).owner? e ≠ none := by decide
  obtain ⟨e, he, hunowned, -⟩ := mem_refs_groups_iff.1 (hall circledCalls _ hentry)
  exact howned e he hunowned

end ReferenceSite.Navigation
