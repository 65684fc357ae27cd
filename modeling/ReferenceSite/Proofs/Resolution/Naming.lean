import ReferenceSite.Proofs.Resolution

/-!
# References to items

The reference to an item lists the names on its lineage, from its package inwards and without wrappers. Where
these names tell the item apart (`Distinguished`), each name leads back to the item that it was taken from,
and the reference is resolved to the item in every context (`resolve_referenceTo`).
-/

namespace ReferenceSite.Model

variable {m : Model} {p a x y id : Nat} {front back xs : List Nat}

/-- The items of a lineage that are no wrappers. -/
def unwrapped (m : Model) (id : Nat) : List Nat :=
  (m.lineage id).filter fun a => !(m.item a).kind.isWrapper

/-- The names on the lineage of an item tell it apart: it has one package, which is the first item of the
    lineage that is no wrapper; no other visible package of the root has the name of that; of the items
    between, each has a name of its own among the visible members it stands with; and no other member that
    the item stands with has its name and its number. -/
structure Distinguished (m : Model) (p id : Nat) : Prop where
  packages : (m.lineage id).filter (fun a => (m.item a).kind == .package) = [p]
  first : (m.lineage id).find? (fun a => !(m.item a).kind.isWrapper) = some p
  package : ∀ q ∈ m.visibleMembers root, (m.item q).kind = .package →
    (m.item q).name = (m.item p).name → q = p
  between : ∀ x ∈ m.lineage id, (m.item x).kind.isWrapper = false → x ≠ p → x ≠ id →
    ∀ a ∈ m.enclosing? x, ∀ c ∈ m.visibleMembers a, (m.item c).name = (m.item x).name → c = x
  last : ∀ a ∈ m.enclosing? id, ∀ c ∈ m.visibleMembers a, (m.item c).name = (m.item id).name →
    (m.item c).overloadOrdinal = (m.item id).overloadOrdinal → c = id

/-! ## The reference to an item -/

/-- Below the package a reference gains the names of the items that are no wrappers. -/
theorem foldl_referenceStep {items : List Nat} (h : ∀ a ∈ items, (m.item a).kind ≠ .package)
    (r : Reference) : items.foldl m.referenceStep r = { r with
      members := r.members ++
        (items.filter fun a => !(m.item a).kind.isWrapper).map fun a => (m.item a).name } := by
  induction items generalizing r with
  | nil => simp
  | cons a items ih =>
    have ha := h a List.mem_cons_self
    have hrest := ih fun b hb => h b (List.mem_cons_of_mem _ hb)
    rw [List.foldl_cons, hrest]
    by_cases hkind : (m.item a).kind.isWrapper = true <;> simp [referenceStep, ha, hkind]

theorem ne_package_of_isWrapper {kind : Kind} (h : kind.isWrapper = true) : kind ≠ .package := by
  rintro rfl
  cases h

/-- A lineage leads through wrappers to its package, behind which there is no other. -/
theorem Distinguished.lineage_eq (h : m.Distinguished p id) : (m.item p).kind = .package ∧
    ∃ ws rest, m.lineage id = ws ++ p :: rest ∧ (∀ w ∈ ws, (m.item w).kind.isWrapper = true) ∧
      ∀ b ∈ rest, (m.item b).kind ≠ .package := by
  have hpackage : (m.item p).kind = .package := by
    have hmem : p ∈ (m.lineage id).filter fun a => (m.item a).kind == .package := by
      simp [h.packages]
    simpa using (List.mem_filter.1 hmem).2
  obtain ⟨-, ws, rest, heq, hws⟩ := List.find?_eq_some_iff_append.1 h.first
  refine ⟨hpackage, ws, rest, heq, fun w hw => by simpa using hws w hw, ?_⟩
  have hnone : ws.filter (fun a => (m.item a).kind == .package) = [] := by
    refine List.filter_eq_nil_iff.2 fun w hw hkind => ?_
    exact ne_package_of_isWrapper (by simpa using hws w hw) (beq_iff_eq.1 hkind)
  have hpackages := h.packages
  rw [heq, List.filter_append, hnone, List.nil_append,
    List.filter_cons_of_pos (by simpa using hpackage), List.cons.injEq] at hpackages
  simpa using hpackages.2

theorem Distinguished.exists_unwrapped (h : m.Distinguished p id) :
    ∃ xs, m.unwrapped id = p :: xs ∧ m.referenceTo id = {
      package := some (m.item p).name
      members := xs.map fun a => (m.item a).name
      overload := if 1 < (m.item id).overloadIndex then some (m.item id).overloadIndex else none } := by
  obtain ⟨hpackage, ws, rest, heq, hws, hrest⟩ := h.lineage_eq
  have hnone : ∀ w ∈ ws, (m.item w).kind ≠ .package := fun w hw => ne_package_of_isWrapper (hws w hw)
  have hskip : ws.filter (fun a => !(m.item a).kind.isWrapper) = [] :=
    List.filter_eq_nil_iff.2 fun w hw => by simp [hws w hw]
  refine ⟨rest.filter fun a => !(m.item a).kind.isWrapper, ?_, ?_⟩
  · rw [unwrapped, heq, List.filter_append, hskip]
    simp [hpackage, Kind.isWrapper]
  · have hfold : (m.lineage id).foldl m.referenceStep {} = {
        package := some (m.item p).name
        members := (rest.filter fun a => !(m.item a).kind.isWrapper).map fun a => (m.item a).name } := by
      rw [heq, List.foldl_append, foldl_referenceStep hnone, hskip, List.foldl_cons,
        foldl_referenceStep hrest]
      simp [referenceStep, hpackage]
    rw [referenceTo, hfold]
    dsimp only
    split_ifs <;> rfl

/-! ## The way back -/

theorem Built.ancestors_of_lineage (hm : m.Built) (h : m.lineage id = front ++ x :: back) :
    m.ancestors x = front.reverse := by
  have hreverse : id :: m.ancestors id = back.reverse ++ x :: front.reverse := by
    have := congrArg List.reverse h
    simpa [lineage] using this
  cases hback : back.reverse with
  | nil =>
    rw [hback, List.nil_append, List.cons.injEq] at hreverse
    rw [← hreverse.1, hreverse.2]
  | cons b back' =>
    rw [hback, List.cons_append, List.cons.injEq] at hreverse
    exact (hm.ancestors_append hreverse.2).symm

/-- Without the wrappers, each item of a lineage is enclosed by the one before it. -/
theorem Built.enclosing?_of_unwrapped (hm : m.Built) (h : m.unwrapped id = front ++ a :: x :: back) :
    m.enclosing? x = some a := by
  have hsplit : m.unwrapped id = (front ++ [a]) ++ x :: back := by simp [h]
  obtain ⟨l, l', hlineage, hl, hl'⟩ := List.filter_eq_append_iff.1 hsplit
  obtain ⟨ws, rest, rfl, hws, -, -⟩ := List.filter_eq_cons_iff.1 hl'
  have hancestors : m.ancestors x = (l ++ ws).reverse :=
    hm.ancestors_of_lineage (by rw [hlineage, List.append_assoc])
  have hskip : ws.filter (fun a => !(m.item a).kind.isWrapper) = [] :=
    List.filter_eq_nil_iff.2 hws
  rw [enclosing?, hancestors, ← List.head?_filter, List.filter_reverse, List.filter_append, hl, hskip]
  simp

theorem unwrapped_eq_concat (hkind : (m.item id).kind.isWrapper = false) :
    ∃ above, m.unwrapped id = above ++ [id] := by
  refine ⟨(m.ancestors id).reverse.filter fun a => !(m.item a).kind.isWrapper, ?_⟩
  rw [unwrapped, lineage, List.reverse_cons, List.filter_append]
  simp [hkind]

theorem Built.unwrapped_pairwise (hm : m.Built) (id : Nat) : (m.unwrapped id).Pairwise (· < ·) :=
  (hm.lineage_pairwise id).filter _

/-- The step to an item between, which is the only one of its name. -/
theorem innerStep_of_unique (hm : m.Linked) (hx : m.Visible a x)
    (hunique : ∀ c ∈ m.visibleMembers a, (m.item c).name = (m.item x).name → c = x) :
    m.InnerStep a (m.item x).name x := by
  have honly : ∀ d, m.Visible a d → (m.item d).name = (m.item x).name → d = x := fun d hd =>
    hunique d ((mem_visibleMembers hm).2 hd)
  by_cases hkind : (m.item x).kind.isContainer = true
  · exact Or.inl (firstVisible_of_unique hm hx ⟨rfl, hkind⟩ fun d hd hd' => honly d hd hd'.1)
  · refine Or.inr ⟨fun d hd => ?_, firstVisible_of_unique hm hx rfl honly⟩
    rw [honly d hd.1 hd.2]
    simpa using hkind

/-- The step to an item by its own number, where no other item has both its name and its number. -/
theorem lastStep_of_unique (hm : m.Linked) (hx : m.Visible a x)
    (hunique : ∀ c ∈ m.visibleMembers a, (m.item c).name = (m.item x).name →
      (m.item c).overloadOrdinal = (m.item x).overloadOrdinal → c = x) :
    m.LastStep (if 1 < (m.item x).overloadIndex then some (m.item x).overloadIndex else none) a
      (m.item x).name x := by
  refine ⟨fun k hk => ?_, fun hnone d _ => ?_, ?_⟩
  · split_ifs at hk with hlt
    rw [← Option.some.inj hk]
    rfl
  · -- a number that is left out is the least one
    have hle : ¬ 1 < (m.item x).overloadIndex := fun hlt => by simp [hlt] at hnone
    rw [UInt32.not_lt, UInt32.le_iff_toNat_le] at hle
    have hone : (1 : UInt32).toNat = 1 := rfl
    unfold Declaration.overloadOrdinal
    omega
  · exact firstVisible_of_unique hm hx ⟨rfl, rfl⟩ fun d hd hd' =>
      hunique d ((mem_visibleMembers hm).2 hd) hd'.1 hd'.2

/-- An item with another one before it and another one behind it on the lineage stands strictly between the
    package and the last item, since lineages ascend. -/
theorem Distinguished.ne_ends (hm : m.Built) (hkind : (m.item id).kind.isWrapper = false)
    (h : m.Distinguished p id) (hxs : m.unwrapped id = front ++ a :: x :: y :: xs) :
    x ≠ p ∧ x ≠ id := by
  have horder := hm.unwrapped_pairwise id
  have hsplit : m.unwrapped id = (front ++ [a]) ++ x :: y :: xs := by simp [hxs]
  have hp : p ∈ front ++ [a] := by
    have hhead := h.first
    rw [← List.head?_filter, ← unwrapped, hxs] at hhead
    have hfirst : (front ++ [a]).head? = some p := by cases front <;> simpa using hhead
    exact List.mem_of_head? hfirst
  have hid : id ∈ y :: xs := by
    obtain ⟨above, habove⟩ := unwrapped_eq_concat hkind
    have hlast := congrArg List.getLast? (hsplit.symm.trans habove)
    have hlast' : (y :: xs).getLast? = some id := by simpa using hlast
    exact List.mem_of_getLast? hlast'
  rw [hsplit, List.pairwise_append, List.pairwise_cons] at horder
  have hlt := horder.2.2 p hp x List.mem_cons_self
  have hgt := horder.2.1.1 id hid
  omega

/-- The names behind an item of the lineage lead on to the last item of it. -/
theorem Distinguished.way (hm : m.Built) (hkind : (m.item id).kind.isWrapper = false)
    (h : m.Distinguished p id) (hxs : m.unwrapped id = front ++ a :: xs) :
    Way m.InnerStep (m.LastStep
      (if 1 < (m.item id).overloadIndex then some (m.item id).overloadIndex else none)) a
      (xs.map fun x => (m.item x).name) id := by
  obtain ⟨above, habove⟩ := unwrapped_eq_concat hkind
  induction xs generalizing front a with
  | nil =>
    have hlast : front ++ [a] = above ++ [id] := by rw [← hxs, habove]
    obtain ⟨-, hsame⟩ := List.append_inj' hlast rfl
    obtain rfl := List.singleton_inj.1 hsame
    exact .here a
  | cons x xs ih =>
    have henclosing := hm.enclosing?_of_unwrapped hxs
    have hmem : x ∈ m.unwrapped id := by simp [hxs]
    obtain ⟨hlineage, hx⟩ := List.mem_filter.1 hmem
    have hxkind : (m.item x).kind.isWrapper = false := by simpa using hx
    have hvisible := hm.visible_of_enclosing? henclosing hxkind
    cases xs with
    | nil =>
      have hlast : (front ++ [a]) ++ [x] = above ++ [id] := by simp [← habove, hxs]
      obtain ⟨-, hsame⟩ := List.append_inj' hlast rfl
      obtain rfl := List.singleton_inj.1 hsame
      exact .last (lastStep_of_unique hm.linked hvisible (h.last a henclosing))
    | cons y xs =>
      obtain ⟨hne_first, hne_last⟩ := h.ne_ends hm hkind hxs
      have hstep := innerStep_of_unique hm.linked hvisible
        (h.between x hlineage hxkind hne_first hne_last a henclosing)
      exact .next hstep (ih (by rw [hxs, List.append_cons]))

/-- The package of a lineage is visible in the root, unless it is the root. -/
theorem Distinguished.visible_package (hm : m.Built) (h : m.Distinguished p id)
    (hroot : (m.item Model.root).kind ≠ .package) : m.Visible Model.root p := by
  obtain ⟨hpackage, ws, rest, heq, hws, -⟩ := h.lineage_eq
  have hpos : p ≠ Model.root := by
    rintro rfl
    exact hroot hpackage
  have hsize : p < m.size := by
    by_contra hout
    have hitem : m.item p = { kind := .model } := by
      rw [item_eq_getElem?, Array.getElem?_eq_none (Nat.le_of_not_lt hout)]
      rfl
    simp [hitem] at hpackage
  obtain ⟨between, hbetween⟩ := hm.ancestors_root hsize hpos
  have hancestors := hm.ancestors_of_lineage heq
  refine hm.visible_iff.2 ⟨by simp [hpackage, Kind.isWrapper], between, [], hbetween, fun w hw => ?_⟩
  have hmem : w ∈ ws := by
    rw [← List.mem_reverse, ← hancestors, hbetween]
    exact List.mem_append_left _ hw
  exact hws w hmem

/-- The reference to an item that its names tell apart is resolved to the item in every context. The root is
    a model, not a package. -/
theorem resolve_referenceTo (hm : m.Built) (hroot : (m.item root).kind ≠ .package)
    (hkind : (m.item id).kind.isWrapper = false) (h : m.Distinguished p id) (context : Option Nat) :
    m.resolve (m.referenceTo id) context = .ok id := by
  obtain ⟨xs, hxs, href⟩ := h.exists_unwrapped
  have hvisible := h.visible_package hm hroot
  have hfirst : m.FirstVisible root (m.PackageNamed (m.item p).name) p :=
    firstVisible_of_unique hm.linked hvisible ⟨h.lineage_eq.1, rfl⟩ fun q hq hq' =>
      h.package q ((mem_visibleMembers hm.linked).2 hq) hq'.1 hq'.2
  have hway := h.way hm hkind (show m.unwrapped id = [] ++ p :: xs from hxs)
  rw [href, resolve_of_package rfl hfirst]
  exact (follow_eq_ok_iff hm.linked).2 hway

/-- The second overload of a method is named by its number. -/
theorem resolve_referenceTo_overloads : overloads.Built ∧ (overloads.item root).kind ≠ .package ∧
    (overloads.item 4).kind.isWrapper = false ∧ overloads.Distinguished 1 4 ∧
      overloads.referenceTo 4 = { package := some "p", members := ["C", "f"], overload := some 2 } ∧
      overloads.resolve (overloads.referenceTo 4) none = .ok 4 := by
  have hroot : (overloads.item root).kind ≠ .package := by decide
  have hkind : (overloads.item 4).kind.isWrapper = false := by decide
  have hdistinguished : overloads.Distinguished 1 4 :=
    ⟨by decide +kernel, by decide +kernel, by decide +kernel, by decide +kernel, by decide +kernel⟩
  exact ⟨built_overloads, hroot, hkind, hdistinguished, by decide +kernel,
    resolve_referenceTo built_overloads hroot hkind hdistinguished none⟩

end ReferenceSite.Model
