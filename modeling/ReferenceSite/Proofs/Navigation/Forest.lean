import Mathlib.Logic.Relation
import Mathlib.Order.WellFoundedSet
import ReferenceSite.Navigation

/-!
# Links between registered pages

An entry that names another registered page as its owner links its own page to that one (`Under`). Where no
page is registered twice and the links have no cycle, they make a forest: each page has one owner or none,
the links can be followed in both directions by induction, and whatever lies below two pages lies below one
of them through the other.
-/

namespace ReferenceSite.Navigation

open Relation

/-- The page `p` is registered by an entry that names `q` as its owner, and `q` is another registered page. -/
structure Under (nav : Navigation) (p q : String) : Prop where
  ne : q ≠ p
  registered : ∃ o ∈ nav.entries, o.page = q
  named : ∃ e ∈ nav.entries, e.page = p ∧ e.parent = some q

/-- No page is registered twice, and no page lies below itself. -/
structure Forest (nav : Navigation) : Prop where
  nodup : (nav.entries.map Entry.page).Nodup
  acyclic : ∀ p, ¬ TransGen nav.Under p p

variable {nav : Navigation} {a b e : Entry} {p q : String}

theorem owner?_eq_some_iff :
    nav.owner? e = some q ↔ e.parent = some q ∧ q ≠ e.page ∧ ∃ o ∈ nav.entries, o.page = q := by
  rw [owner?, Option.filter_eq_some_iff, Bool.and_eq_true, bne_iff_ne, List.any_eq_true]
  simp only [beq_iff_eq]

theorem owner?_eq_none_iff :
    nav.owner? e = none ↔ ∀ o ∈ nav.entries, e.parent = some o.page → o.page = e.page := by
  rw [Option.eq_none_iff_forall_ne_some]
  simp only [ne_eq, owner?_eq_some_iff, not_and, not_exists]
  constructor
  · intro h o ho hparent
    by_contra hne
    exact h o.page hparent hne o ho rfl
  · rintro h q hparent hne o ho rfl
    exact hne (h o ho hparent)

theorem under_of_owner? (he : e ∈ nav.entries) (h : nav.owner? e = some q) : nav.Under e.page q := by
  obtain ⟨hparent, hne, hregistered⟩ := owner?_eq_some_iff.1 h
  exact ⟨hne, hregistered, e, he, rfl, hparent⟩

theorem exists_entry_of_under (h : nav.Under p q) :
    ∃ e ∈ nav.entries, e.page = p ∧ nav.owner? e = some q := by
  obtain ⟨e, he, rfl, hparent⟩ := h.named
  exact ⟨e, he, rfl, owner?_eq_some_iff.2 ⟨hparent, h.ne, h.registered⟩⟩

theorem mem_pages_of_under (h : nav.Under p q) :
    p ∈ nav.entries.map Entry.page ∧ q ∈ nav.entries.map Entry.page := by
  obtain ⟨o, ho, rfl⟩ := h.registered
  obtain ⟨e, he, rfl, -⟩ := h.named
  exact ⟨List.mem_map_of_mem he, List.mem_map_of_mem ho⟩

/-- Links that lead to smaller and smaller pages, by whatever measure, have no cycle. -/
theorem acyclic_of_lt (size : String → Nat) (h : ∀ p q, nav.Under p q → size q < size p) (p : String) :
    ¬ TransGen nav.Under p p := by
  have hlt : ∀ {p q}, TransGen nav.Under p q → size q < size p := by
    intro p q hpq
    induction hpq with
    | single hlink => exact h _ _ hlink
    | tail _ hlink ih => exact (h _ _ hlink).trans ih
  exact fun hcycle => (hlt hcycle).false

/-- A relation without a cycle between finitely many elements is well-founded. -/
theorem wellFounded_of_acyclic {α : Type} {r : α → α → Prop} {s : Set α} (hs : s.Finite)
    (hr : ∀ a b, r a b → a ∈ s ∧ b ∈ s) (hacyclic : ∀ a, ¬ TransGen r a a) : WellFounded r := by
  have : IsStrictOrder α (TransGen r) := { irrefl := hacyclic, trans := fun _ _ _ => TransGen.trans }
  have hwf := Set.wellFoundedOn_iff.1 (hs.wellFoundedOn (r := TransGen r))
  exact Subrelation.wf (fun {a b} hab => ⟨.single hab, hr a b hab⟩) hwf

/-- The way up from a page comes to an end if it leads into no circle. -/
theorem wellFounded_above_of_acyclic
    (hacyclic : ∀ q, ReflTransGen nav.Under p q → ¬ TransGen nav.Under q q) :
    WellFounded fun b a => nav.Under a b ∧ ReflTransGen nav.Under p a := by
  refine wellFounded_of_acyclic (List.finite_toSet (nav.entries.map Entry.page))
    (fun b a h => (mem_pages_of_under h.1).symm) fun q hcircle => ?_
  obtain ⟨a, -, -, hreach⟩ := TransGen.tail'_iff.1 hcircle
  have hswap : TransGen (Function.swap nav.Under) q q := hcircle.lift id fun _ _ h => h.1
  exact hacyclic q hreach (transGen_swap.1 hswap)

/-- A page whose way up leads into no circle lies below the page of an entry without an owner. -/
theorem exists_unowned_above (he : e ∈ nav.entries)
    (hacyclic : ∀ q, ReflTransGen nav.Under e.page q → ¬ TransGen nav.Under q q) :
    ∃ r ∈ nav.entries, nav.owner? r = none ∧ ReflTransGen nav.Under e.page r.page := by
  suffices hup : ∀ p, ReflTransGen nav.Under e.page p → ∀ a ∈ nav.entries, a.page = p →
      ∃ r ∈ nav.entries, nav.owner? r = none ∧ ReflTransGen nav.Under e.page r.page from
    hup e.page .refl e he rfl
  intro p
  induction p using (wellFounded_above_of_acyclic hacyclic).induction with
  | _ p ih =>
    rintro hreach a ha rfl
    cases howner : nav.owner? a with
    | none => exact ⟨a, ha, howner, hreach⟩
    | some q =>
      have hlink := under_of_owner? ha howner
      obtain ⟨o, ho, rfl⟩ := hlink.registered
      exact ih o.page ⟨hlink, hreach⟩ (hreach.tail hlink) o ho rfl

namespace Forest

theorem eq_of_page (h : nav.Forest) (ha : a ∈ nav.entries) (hb : b ∈ nav.entries)
    (hpage : a.page = b.page) : a = b :=
  List.inj_on_of_nodup_map h.nodup ha hb hpage

theorem under_iff (h : nav.Forest) (he : e ∈ nav.entries) :
    nav.Under e.page q ↔ nav.owner? e = some q := by
  refine ⟨fun hlink => ?_, under_of_owner? he⟩
  obtain ⟨a, ha, hpage, howner⟩ := exists_entry_of_under hlink
  rwa [← h.eq_of_page ha he hpage]

theorem rightUnique (h : nav.Forest) : Relator.RightUnique nav.Under := by
  intro p q q' hq hq'
  obtain ⟨e, he, rfl, howner⟩ := exists_entry_of_under hq
  have howner' := (h.under_iff he).1 hq'
  exact Option.some.inj (howner.symm.trans howner')

/-- What holds of a page once it holds of the pages under it holds of all pages. -/
theorem wellFounded_under (h : nav.Forest) : WellFounded nav.Under :=
  wellFounded_of_acyclic (List.finite_toSet _) (fun _ _ => mem_pages_of_under) h.acyclic

/-- What holds of a page once it holds of its owner holds of all pages. -/
theorem wellFounded_above (h : nav.Forest) : WellFounded (Function.swap nav.Under) := by
  refine wellFounded_of_acyclic (List.finite_toSet _) (fun _ _ hlink => (mem_pages_of_under hlink).symm) ?_
  intro p hcycle
  exact h.acyclic p (transGen_swap.1 hcycle)

/-- Of two entries with the same owner, or without one, neither lies below the other. -/
theorem eq_of_sibling (h : nav.Forest) (ha : a ∈ nav.entries) (hb : b ∈ nav.entries)
    (hsame : nav.owner? a = nav.owner? b) (hab : ReflTransGen nav.Under a.page b.page) : a = b := by
  rcases reflTransGen_iff_eq_or_transGen.1 hab with hpage | hup
  · exact h.eq_of_page ha hb hpage.symm
  · -- from `a` the way leads over the owner to `b`, and from `b` to the owner again
    obtain ⟨q, hlink, hrest⟩ := TransGen.head'_iff.1 hup
    have howner : nav.owner? a = some q := (h.under_iff ha).1 hlink
    have hback : nav.Under b.page q := (h.under_iff hb).2 (hsame ▸ howner)
    exact absurd (TransGen.tail' hrest hback) (h.acyclic q)

/-- Different entries with the same owner, or without one, have no page below both. -/
theorem eq_of_below (h : nav.Forest) (ha : a ∈ nav.entries) (hb : b ∈ nav.entries)
    (hsame : nav.owner? a = nav.owner? b) (hpa : ReflTransGen nav.Under p a.page)
    (hpb : ReflTransGen nav.Under p b.page) : a = b := by
  rcases hpa.total_of_right_unique h.rightUnique hpb with hab | hba
  · exact h.eq_of_sibling ha hb hsame hab
  · exact (h.eq_of_sibling hb ha hsame.symm hba).symm

/-- Nothing below a page is that page. -/
theorem ne_of_below (h : nav.Forest) (hlink : nav.Under q e.page) (hp : ReflTransGen nav.Under p q) :
    p ≠ e.page := by
  rintro rfl
  exact h.acyclic e.page (TransGen.tail' hp hlink)

/-- Every registered page lies below the page of an entry without an owner. -/
theorem exists_root (h : nav.Forest) (he : e ∈ nav.entries) :
    ∃ r ∈ nav.entries, nav.owner? r = none ∧ ReflTransGen nav.Under e.page r.page :=
  exists_unowned_above he fun q _ => h.acyclic q

end Forest

/-! ## Registration in order -/

/-- Every page is registered once, and none before the page that it goes under. -/
structure Ordered (nav : Navigation) : Prop where
  nodup : (nav.entries.map Entry.page).Nodup
  first : nav.entries.Pairwise fun a b => nav.owner? a ≠ some b.page

/-- Pages that are registered after their owners make a forest. -/
theorem Ordered.forest (h : nav.Ordered) : nav.Forest := by
  refine ⟨h.nodup, acyclic_of_lt (fun p => (nav.entries.map Entry.page).idxOf p) fun p q hlink => ?_⟩
  obtain ⟨e, he, rfl, howner⟩ := exists_entry_of_under hlink
  obtain ⟨o, ho, rfl⟩ := hlink.registered
  obtain ⟨i, hi, rfl⟩ := List.getElem_of_mem he
  obtain ⟨j, hj, rfl⟩ := List.getElem_of_mem ho
  have hindex : ∀ k (hk : k < nav.entries.length),
      (nav.entries.map Entry.page).idxOf nav.entries[k].page = k := by
    intro k hk
    have hget := h.nodup.idxOf_getElem k (by rwa [List.length_map])
    rwa [List.getElem_map] at hget
  rw [hindex i hi, hindex j hj]
  rcases Nat.lt_trichotomy i j with hlt | heq | hgt
  · exact absurd howner (List.pairwise_iff_getElem.1 h.first i j hi hj hlt)
  · subst heq
    exact absurd rfl hlink.ne
  · exact hgt

end ReferenceSite.Navigation
