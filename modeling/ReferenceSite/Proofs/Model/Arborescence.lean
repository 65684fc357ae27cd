import Mathlib.Data.List.Chain
import Mathlib.Logic.Relation
import ReferenceSite.Proofs.Model.Visible

/-!
# A model is a rooted tree

However a model is built, its parent links form a tree with the first item as its root, the member lists are the
same links read downwards, and every link leads to a later item. So the walks over a model end, and they find
what the links say (`Built.arborescent`): a lineage leads from the root down to an item, and the visible members
of an item are what descends from it through wrappers only, one branch after the other.
-/

namespace ReferenceSite.Model

open Relation

/-- The first item is the parent of the second one. -/
def IsParent (m : Model) (a c : Nat) : Prop := (m.item c).parent = some a

/-- The second item lies below the first one, by one parent link or by several. -/
def Descends (m : Model) (a x : Nat) : Prop := TransGen m.IsParent a x

/-- The second item is the first one or lies below it. -/
def InBranch (m : Model) (c x : Nat) : Prop := ReflTransGen m.IsParent c x

/-- Two items are in the branches of two members of one item, of which the first one's comes first. -/
def BranchesBefore (m : Model) (x y : Nat) : Prop :=
  ∃ q c d, [c, d].Sublist (m.item q).members ∧ m.InBranch c x ∧ m.InBranch d y

/-- The items of a list lead from the root down to an item, each one the parent of the next. -/
structure LeadsDown (m : Model) (chain : List Nat) (id : Nat) : Prop where
  starts : chain.head? = some Model.root
  ends : chain.getLast? = some id
  linked : chain.IsChain m.IsParent
  ascending : chain.Pairwise (· < ·)

/-- An item that is no wrapper lies below another one with nothing but wrappers between them. -/
structure SeenIn (m : Model) (p x : Nat) : Prop where
  unwrapped : (m.item x).kind.isWrapper = false
  descends : m.Descends p x
  between : ∀ w, m.Descends p w → m.Descends w x → (m.item w).kind.isWrapper = true

/-- The items of a model form a tree below its first item, and the walks over it find what its links say. -/
structure Arborescent (m : Model) : Prop where
  nonempty : Model.root < m.size
  parentless : ∀ id < m.size, (m.item id).parent = none ↔ id = Model.root
  parent_lt : ∀ id p, (m.item id).parent = some p → p < id
  members : ∀ a c, (m.item a).members.count c = if (m.item c).parent = some a then 1 else 0
  ascending : ∀ a, (m.item a).members.Pairwise (· < ·)
  lineage : ∀ id < m.size, m.LeadsDown (m.lineage id) id
  visible : ∀ p x, x ∈ m.visibleMembers p ↔ m.SeenIn p x
  once : ∀ p, (m.visibleMembers p).Nodup
  order : ∀ p, ∀ x ∈ m.visibleMembers p, ∀ y ∈ m.visibleMembers p,
    [x, y].Sublist (m.visibleMembers p) ↔ m.BranchesBefore x y

variable {m : Model} {a c d id p q q' w x y : Nat}

/-! ## Links -/

theorem Built.root_lt_size (hm : m.Built) : Model.root < m.size := by
  induction hm with
  | root docs excerpt => exact Nat.zero_lt_one
  | @add m parent _ _ d ih =>
    rw [size_add]
    omega
  | @redeclare m _ i d ih =>
    rw [size_redeclare]
    exact ih

/-- The root is the only item without a parent. -/
theorem Built.parent_eq_none_iff (hm : m.Built) (hid : id < m.size) :
    (m.item id).parent = none ↔ id = Model.root := by
  constructor
  · intro hnone
    by_contra hne
    obtain ⟨p, hp⟩ := hm.exists_parent (Nat.pos_of_ne_zero hne) hid
    rw [hnone] at hp
    cases hp
  · rintro rfl
    rcases hm.ancestors_cases Model.root with ⟨hnone, -⟩ | ⟨p, -, hlt, -⟩
    · exact hnone
    · exact absurd hlt (Nat.not_lt_zero p)

/-- A member that is added is later than all that are there. -/
theorem Built.members_pairwise (hm : m.Built) (a : Nat) : (m.item a).members.Pairwise (· < ·) := by
  induction hm with
  | root docs excerpt =>
    rw [members_ofRoot]
    exact .nil
  | @add m parent hm hparent d ih =>
    have hnew : (if a = parent then [m.size] else []).Pairwise (· < ·) := by
      split_ifs
      · exact List.pairwise_singleton _ _
      · exact .nil
    rw [members_add hparent, List.pairwise_append]
    refine ⟨ih, hnew, fun c hc e he => ?_⟩
    split_ifs at he
    · rw [List.mem_singleton.1 he]
      exact (hm.linked a c hc).2
    · cases he
  | @redeclare m _ i d ih =>
    rw [members_redeclare]
    exact ih

theorem Built.count_members (hm : m.Built) (a c : Nat) :
    (m.item a).members.count c = if (m.item c).parent = some a then 1 else 0 := by
  rw [(hm.forked.nodup a).count]
  simp only [hm.mem_members_iff]

theorem Built.mem_ancestors_iff (hm : m.Built) : a ∈ m.ancestors x ↔ m.Descends a x := by
  constructor
  · intro ha
    induction x using Nat.strongRecOn with
    | _ x ih =>
      rcases hm.ancestors_cases x with ⟨-, hnil⟩ | ⟨p, hp, hlt, hcons⟩
      · rw [hnil] at ha
        cases ha
      · have hlink : m.IsParent p x := hp
        rw [hcons] at ha
        rcases List.mem_cons.1 ha with rfl | ha
        · exact .single hlink
        · exact (ih p hlt ha).tail hlink
  · intro h
    induction h with
    | single hlink =>
      rw [hm.ancestors_eq hlink]
      exact List.mem_cons_self
    | tail _ hlink ih =>
      rw [hm.ancestors_eq hlink]
      exact List.mem_cons_of_mem _ ih

theorem Built.inBranch_iff (hm : m.Built) : m.InBranch c x ↔ c = x ∨ c ∈ m.ancestors x := by
  rw [InBranch, reflTransGen_iff_eq_or_transGen, hm.mem_ancestors_iff, Descends, eq_comm]

theorem Built.lt_of_descends (hm : m.Built) (h : m.Descends a x) : a < x :=
  (List.pairwise_cons.1 (hm.ancestors_pairwise x)).1 a (hm.mem_ancestors_iff.2 h)

/-! ## Lineages -/

theorem Built.isChain_ancestors (hm : m.Built) (id : Nat) :
    (id :: m.ancestors id).IsChain fun c a => m.IsParent a c := by
  induction id using Nat.strongRecOn with
  | _ id ih =>
    rcases hm.ancestors_cases id with ⟨-, hnil⟩ | ⟨p, hp, hlt, hcons⟩
    · rw [hnil]
      exact .singleton id
    · rw [hcons, List.isChain_cons_cons]
      exact ⟨hp, ih p hlt⟩

theorem Built.leadsDown_lineage (hm : m.Built) (hid : id < m.size) : m.LeadsDown (m.lineage id) id := by
  refine ⟨?_, ?_, ?_, hm.lineage_pairwise id⟩
  · rw [Model.lineage, List.head?_reverse]
    by_cases hroot : id = Model.root
    · subst hroot
      rw [ancestors_of_no_parent ((hm.parent_eq_none_iff hid).2 rfl)]
      rfl
    · obtain ⟨front, hfront⟩ := hm.ancestors_root hid hroot
      rw [hfront, ← List.cons_append, List.getLast?_concat]
  · rw [Model.lineage, List.getLast?_reverse, List.head?_cons]
  · rw [Model.lineage, List.isChain_reverse]
    exact hm.isChain_ancestors id

/-! ## Visible members -/

/-- What stands before an ancestor lies between that and the item. -/
theorem Built.mem_between_iff (hm : m.Built) {between above : List Nat}
    (h : m.ancestors x = between ++ p :: above) : w ∈ between ↔ m.Descends p w ∧ m.Descends w x := by
  have habove : above = m.ancestors p := hm.ancestors_append h
  constructor
  · intro hw
    obtain ⟨front, back, rfl⟩ := List.append_of_mem hw
    rw [List.append_assoc, List.cons_append] at h
    have hrest := hm.ancestors_append h
    rw [← hm.mem_ancestors_iff, ← hm.mem_ancestors_iff, ← hrest, h]
    exact ⟨by simp, by simp⟩
  · rintro ⟨hpw, hwx⟩
    have hlt := hm.lt_of_descends hpw
    rw [← hm.mem_ancestors_iff, h, List.mem_append, List.mem_cons, habove] at hwx
    rcases hwx with hw | rfl | hw
    · exact hw
    · exact absurd hlt (Nat.lt_irrefl w)
    · have := hm.lt_of_descends (hm.mem_ancestors_iff.1 hw)
      omega

theorem Built.mem_visibleMembers_iff (hm : m.Built) : x ∈ m.visibleMembers p ↔ m.SeenIn p x := by
  rw [mem_visibleMembers hm.linked, hm.visible_iff]
  constructor
  · rintro ⟨hkind, between, above, hx, hbetween⟩
    have hp : p ∈ m.ancestors x := by rw [hx]; simp
    exact ⟨hkind, hm.mem_ancestors_iff.1 hp, fun w hpw hwx =>
      hbetween w ((hm.mem_between_iff hx).2 ⟨hpw, hwx⟩)⟩
  · rintro ⟨hkind, hdescends, hbetween⟩
    obtain ⟨between, above, hx⟩ := List.append_of_mem (hm.mem_ancestors_iff.2 hdescends)
    refine ⟨hkind, between, above, hx, fun w hw => ?_⟩
    obtain ⟨hpw, hwx⟩ := (hm.mem_between_iff hx).1 hw
    exact hbetween w hpw hwx

/-! ## The order of branches -/

/-- Only one member of an item has a given item in its branch. -/
theorem Built.eq_of_inBranch (hm : m.Built) (hc : m.IsParent q c) (hd : m.IsParent q d)
    (hcx : m.InBranch c x) (hdx : m.InBranch d x) : c = d :=
  hm.eq_of_at_or_above hc hd (hm.inBranch_iff.1 hcx) (hm.inBranch_iff.1 hdx)

/-- The branches of two items part at the lowest item above both. -/
theorem Built.eq_of_parted (hm : m.Built) (hc : m.IsParent q c) (hd : m.IsParent q d) (hne : c ≠ d)
    (hcx : m.InBranch c x) (hdy : m.InBranch d y) (h : m.InBranch q q') (hx : m.InBranch q' x)
    (hy : m.InBranch q' y) : q = q' := by
  rcases ReflTransGen.cases_head h with heq | ⟨e, he, hbelow⟩
  · exact heq
  · -- a member of `q` with both items in its branch is `c` as well as `d`
    have hec : e = c := hm.eq_of_inBranch he hc (hbelow.trans hx) hcx
    have hed : e = d := hm.eq_of_inBranch he hd (hbelow.trans hy) hdy
    exact absurd (hec.symm.trans hed) hne

/-- Of two items above a third one, one is above the other. -/
theorem inBranch_or (ha : m.InBranch a x) (hc : m.InBranch c x) : m.InBranch a c ∨ m.InBranch c a := by
  have hunique : Relator.RightUnique (Function.swap m.IsParent) := by
    intro x p p' hp hp'
    exact Option.some.inj (hp.symm.trans hp')
  -- from an item there is one way up, on which both lie
  have htotal := ReflTransGen.total_of_right_unique hunique (reflTransGen_swap.2 ha)
    (reflTransGen_swap.2 hc)
  rcases htotal with h | h
  · exact Or.inr (reflTransGen_swap.1 h)
  · exact Or.inl (reflTransGen_swap.1 h)

theorem Built.not_branchesBefore_of_branchesBefore (hm : m.Built) (h : m.BranchesBefore x y) :
    ¬ m.BranchesBefore y x := by
  obtain ⟨q, c, d, hsub, hcx, hdy⟩ := h
  rintro ⟨q', d', c', hsub', hdy', hcx'⟩
  have hc : m.IsParent q c := hm.mem_members_iff.1 (hsub.subset (by simp))
  have hd : m.IsParent q d := hm.mem_members_iff.1 (hsub.subset (by simp))
  have hc' : m.IsParent q' c' := hm.mem_members_iff.1 (hsub'.subset (by simp))
  have hd' : m.IsParent q' d' := hm.mem_members_iff.1 (hsub'.subset (by simp))
  have hlt : c < d := by simpa using (hm.members_pairwise q).sublist hsub
  have hlt' : d' < c' := by simpa using (hm.members_pairwise q').sublist hsub'
  -- both pairs of members belong to the item where the branches part
  have hqx : m.InBranch q x := ReflTransGen.head hc hcx
  have hqy : m.InBranch q y := ReflTransGen.head hd hdy
  have hqx' : m.InBranch q' x := ReflTransGen.head hc' hcx'
  have hqy' : m.InBranch q' y := ReflTransGen.head hd' hdy'
  have hsame : q = q' := by
    rcases inBranch_or hqx hqx' with h | h
    · exact hm.eq_of_parted hc hd (Nat.ne_of_lt hlt) hcx hdy h hqx' hqy'
    · exact (hm.eq_of_parted hc' hd' (Nat.ne_of_gt hlt') hcx' hdy' h hqx hqy).symm
  subst hsame
  have hcc : c = c' := hm.eq_of_inBranch hc hc' hcx hcx'
  have hdd : d = d' := hm.eq_of_inBranch hd hd' hdy hdy'
  omega

/-- Visible members stand in the order of their branches. -/
theorem Built.pairwise_visibleMembers (hm : m.Built) (p : Nat) :
    (m.visibleMembers p).Pairwise m.BranchesBefore := by
  induction p using hm.linked.memberInduction with
  | step p ih =>
    rw [visibleMembers_eq hm.linked, List.pairwise_flatMap]
    constructor
    · intro c hc
      split_ifs
      · exact ih c hc
      · exact List.pairwise_singleton _ c
    · have hbranch : ∀ c x, x ∈ (if (m.item c).kind.isWrapper then m.visibleMembers c else [c]) →
          m.InBranch c x := by
        intro c x hx
        split_ifs at hx
        · exact (hm.mem_visibleMembers_iff.1 hx).descends.to_reflTransGen
        · rw [List.mem_singleton.1 hx]
          exact .refl
      refine List.pairwise_iff_forall_sublist.2 fun {c d} hsub x hx y hy => ?_
      exact ⟨p, c, d, hsub, hbranch c x hx, hbranch d y hy⟩

theorem pair_sublist_or {α : Type} {l : List α} {x y : α} (hx : x ∈ l) (hy : y ∈ l) (hne : x ≠ y) :
    [x, y].Sublist l ∨ [y, x].Sublist l := by
  obtain ⟨front, back, rfl⟩ := List.append_of_mem hx
  rcases List.mem_append.1 hy with hfront | hback
  · right
    exact (List.singleton_sublist.2 hfront).append (List.singleton_sublist.2 List.mem_cons_self)
  · left
    have hmem : y ∈ back := (List.mem_cons.1 hback).resolve_left (Ne.symm hne)
    exact ((List.singleton_sublist.2 hmem).cons_cons x).trans (List.sublist_append_right _ _)

theorem Built.pair_sublist_visibleMembers_iff (hm : m.Built) (hx : x ∈ m.visibleMembers p)
    (hy : y ∈ m.visibleMembers p) :
    [x, y].Sublist (m.visibleMembers p) ↔ m.BranchesBefore x y := by
  have hpairwise : ∀ a b, [a, b].Sublist (m.visibleMembers p) → m.BranchesBefore a b := fun _ _ hsub =>
    List.pairwise_iff_forall_sublist.1 (hm.pairwise_visibleMembers p) hsub
  refine ⟨hpairwise x y, fun hbefore => ?_⟩
  have hne : x ≠ y := by
    rintro rfl
    exact hm.not_branchesBefore_of_branchesBefore hbefore hbefore
  rcases pair_sublist_or hx hy hne with hsub | hsub
  · exact hsub
  · exact absurd (hpairwise y x hsub) (hm.not_branchesBefore_of_branchesBefore hbefore)

/-- A model that is built by adding items to items is a tree below its root, and its walks find what the links of
    this tree say. -/
theorem Built.arborescent (hm : m.Built) : m.Arborescent where
  nonempty := hm.root_lt_size
  parentless _ hid := hm.parent_eq_none_iff hid
  parent_lt _ _ hp := hm.parent_lt hp
  members := hm.count_members
  ascending := hm.members_pairwise
  lineage _ hid := hm.leadsDown_lineage hid
  visible _ _ := hm.mem_visibleMembers_iff
  once := hm.nodup_visibleMembers
  order _ _ hx _ hy := hm.pair_sublist_visibleMembers_iff hx hy

/-- A package with two entry points, one in the other, before a class. The class and the function that they hold
    were added after that. -/
def nested : Model :=
  ((((((empty.add 0 { kind := .package, name := "p" }).add 1 { kind := .entryPoint }).add 1
    { kind := .class, name := "A" }).add 2 { kind := .entryPoint }).add 2
      { kind := .function, name := "f" }).add 4 { kind := .class, name := "B" }).add 6
        { kind := .method, name := "g" }

/-- What is in the entry points is seen in the package first, although it came later. -/
theorem arborescent_nested : nested.Built ∧ nested.Arborescent ∧ nested.lineage 7 = [0, 1, 2, 4, 6, 7] ∧
    nested.visibleMembers 1 = [6, 5, 3] ∧ nested.BranchesBefore 5 3 := by
  have hbuilt : nested.Built :=
    (((((((Built.root none []).add (by decide) _).add (by decide) _).add (by decide) _).add
      (by decide) _).add (by decide) _).add (by decide) _).add (by decide) _
  have htree := hbuilt.arborescent
  have hvisible : nested.visibleMembers 1 = [6, 5, 3] := by decide +kernel
  refine ⟨hbuilt, htree, by decide +kernel, hvisible, ?_⟩
  have hseen : 5 ∈ nested.visibleMembers 1 ∧ 3 ∈ nested.visibleMembers 1 := by
    rw [hvisible]
    decide
  rw [← htree.order 1 5 hseen.1 3 hseen.2, hvisible]
  decide

end ReferenceSite.Model
