import ReferenceSite.Proofs.Model.Source
import ReferenceSite.Proofs.Owners

/-!
# The tree of a model

In a model that can be built, the parent links are the member links read backwards (`Built.mem_members_iff`),
and every item but the root has a parent. In a model that was read from a text only containers have members
(`shaped_ofJsonText`), so no walk stops above an item: member links lead from the root to every item that
is not listed inline (`Built.exists_below_root`).
-/

namespace ReferenceSite.Model

variable {m m' : Model} {parent a c id : Nat}

/-! ## Parents -/

theorem item_add_size (m : Model) (parent : Nat) (d : Declaration) :
    (m.add parent d).item m.size = { d with parent := some parent } := by
  have hnew : m.size = m.items.size := rfl
  rw [item_eq_getElem?]
  simp only [add, Array.getElem?_push, Array.size_modify]
  rw [if_pos hnew]
  rfl

theorem item_add_of_ne (m : Model) (parent : Nat) (d : Declaration) (hne : id ≠ m.size) :
    ((m.add parent d).item id).toDeclaration = (m.item id).toDeclaration ∧
      ((m.add parent d).item id).parent = (m.item id).parent := by
  have hnew : id ≠ m.items.size := hne
  rw [item_eq_getElem?, item_eq_getElem?]
  simp only [add, Array.getElem?_push, Array.size_modify, Array.getElem?_modify, if_neg hnew]
  split_ifs
  · cases m.items[id]? <;> exact ⟨rfl, rfl⟩
  · exact ⟨rfl, rfl⟩

theorem parent_redeclare (m : Model) (i : Nat) (d : Declaration) (id : Nat) :
    ((m.redeclare i d).item id).parent = (m.item id).parent := by
  rw [item_eq_getElem?, item_eq_getElem?]
  simp only [redeclare, Array.getElem?_modify]
  split_ifs
  · cases m.items[id]? <;> rfl
  · rfl

theorem parent_ofRoot (docs : Option Doc.Comment) (excerpt : List Excerpt.Token) (id : Nat) :
    ((ofRoot docs excerpt).item id).parent = none := by
  rw [item_eq_getElem?]
  cases id with
  | zero => rfl
  | succ id => simp [ofRoot]

/-- The members of an item are the items with it as their parent. -/
theorem Built.mem_members_iff (h : m.Built) :
    c ∈ (m.item a).members ↔ (m.item c).parent = some a := by
  induction h with
  | root docs excerpt =>
    rw [members_ofRoot, parent_ofRoot]
    simp
  | @add m parent hm hparent d ih =>
    rw [members_add hparent, List.mem_append, ih]
    by_cases hc : c = m.size
    · subst hc
      have hnone : (m.item m.size).parent ≠ some a := fun hmem =>
        Nat.lt_irrefl _ (hm.linked a _ (ih.2 hmem)).2
      rw [item_add_size]
      split_ifs with ha
      · simp [ha]
      · simpa [hnone] using fun h => ha h.symm
    · rw [(item_add_of_ne m parent d hc).2]
      split_ifs <;> simp [hc]
  | @redeclare m _ i d ih =>
    rw [members_redeclare, parent_redeclare, ih]

theorem Built.exists_parent (h : m.Built) (hpos : 0 < id) (hid : id < m.size) :
    ∃ p, (m.item id).parent = some p := by
  induction h with
  | root docs excerpt =>
    have hone : (ofRoot docs excerpt).size = 1 := rfl
    omega
  | @add m parent _ _ d ih =>
    by_cases hnew : id = m.size
    · subst hnew
      rw [item_add_size]
      exact ⟨parent, rfl⟩
    · rw [size_add] at hid
      rw [(item_add_of_ne m parent d hnew).2]
      exact ih (by omega)
  | @redeclare m _ i d ih =>
    rw [size_redeclare] at hid
    rw [parent_redeclare]
    exact ih hid

/-- What is outside the model is taken for a wrapper and has no page. -/
theorem lt_size_of_producesPage (h : (m.item id).kind.producesPage = true) : id < m.size := by
  by_contra hout
  have hitem : m.item id = { kind := .model } := by
    rw [item_eq_getElem?, Array.getElem?_eq_none (Nat.le_of_not_lt hout)]
    rfl
  rw [hitem] at h
  cases h

/-- Only the root has a page without a parent, if it has one at all. -/
theorem Built.eq_root_of_no_parent (h : m.Built) (hpage : (m.item id).kind.producesPage = true)
    (hparent : (m.item id).parent = none) : id = Model.root := by
  by_contra hne
  obtain ⟨p, hp⟩ := h.exists_parent (Nat.pos_of_ne_zero hne) (lt_size_of_producesPage hpage)
  rw [hparent] at hp
  cases hp

theorem Built.parent_lt (h : m.Built) (hparent : (m.item id).parent = some a) : a < id :=
  (h.linked a id (h.mem_members_iff.2 hparent)).1

/-- The ancestors of an item are its parent and the ancestors of that. -/
theorem Built.ancestors_eq (h : m.Built) (hparent : (m.item id).parent = some a) :
    m.ancestors id = a :: m.ancestors a := by
  rw [ancestors, hparent]
  exact if_pos (h.parent_lt hparent)

theorem ancestors_of_no_parent (hparent : (m.item id).parent = none) : m.ancestors id = [] := by
  rw [ancestors, hparent]

/-! ## Containers -/

/-- Only containers have members. -/
def Shaped (m : Model) : Prop := ∀ a, (m.item a).members ≠ [] → (m.item a).kind.isContainer = true

theorem shaped_ofRoot (docs : Option Doc.Comment) (excerpt : List Excerpt.Token) :
    (ofRoot docs excerpt).Shaped :=
  fun a ha => absurd (members_ofRoot docs excerpt a) ha

theorem Shaped.add (h : m.Shaped) (hparent : parent < m.size)
    (hkind : (m.item parent).kind.isContainer = true) (d : Declaration) : (m.add parent d).Shaped := by
  intro a ha
  by_cases hnew : a = m.size
  · subst hnew
    rw [item_add_size] at ha
    exact absurd rfl ha
  · rw [members_add hparent] at ha
    rw [(item_add_of_ne m parent d hnew).1]
    by_cases hsame : a = parent
    · rw [hsame]
      exact hkind
    · rw [if_neg hsame, List.append_nil] at ha
      exact h a ha

/-- A model grows: its items keep their kinds. -/
structure Extends (m m' : Model) : Prop where
  size : m.size ≤ m'.size
  kind : ∀ id < m.size, (m'.item id).kind = (m.item id).kind

theorem Extends.refl (m : Model) : m.Extends m := ⟨Nat.le_refl _, fun _ _ => rfl⟩

theorem Extends.trans {m'' : Model} (h : m.Extends m') (h' : m'.Extends m'') : m.Extends m'' :=
  ⟨Nat.le_trans h.size h'.size, fun id hid =>
    (h'.kind id (Nat.lt_of_lt_of_le hid h.size)).trans (h.kind id hid)⟩

theorem extends_add (m : Model) (parent : Nat) (d : Declaration) : m.Extends (m.add parent d) := by
  refine ⟨by rw [size_add]; omega, fun id hid => ?_⟩
  rw [(item_add_of_ne m parent d (Nat.ne_of_lt hid)).1]

mutual

/-- A tree is laid out below a container, and members only below containers. -/
theorem shaped_addSource {m m' : Model} (hm : m.Shaped) {parent : Nat} (hparent : parent < m.size)
    (hkind : (m.item parent).kind.isContainer = true) {parentKind : Kind} :
    ∀ {s : Source}, addSource m parent parentKind s = .ok m' → m'.Shaped ∧ m.Extends m'
  | .node d members, h => by
    rw [addSource] at h
    split_ifs at h with hmodel hmisplaced
    have hextends := extends_add m parent d
    have hnew : m.size < (m.add parent d).size := by rw [size_add]; omega
    obtain ⟨hshaped, hextends'⟩ := shaped_addSources (hm.add hparent hkind d) hnew (fun hne => by
      rw [item_add_size]
      simpa [hne] using hmisplaced) h
    exact ⟨hshaped, hextends.trans hextends'⟩

/-- Trees are laid out one behind the other. -/
theorem shaped_addSources {m m' : Model} (hm : m.Shaped) {parent : Nat} (hparent : parent < m.size)
    {parentKind : Kind} : ∀ {ss : List Source},
      (ss ≠ [] → (m.item parent).kind.isContainer = true) →
      addSources m parent parentKind ss = .ok m' → m'.Shaped ∧ m.Extends m'
  | [], _, h => by
    cases h
    exact ⟨hm, .refl m⟩
  | s :: ss, hkind, h => by
    rw [addSources] at h
    cases hs : addSource m parent parentKind s with
    | error e =>
      rw [hs] at h
      cases h
    | ok m₁ =>
      rw [hs] at h
      have hcontainer := hkind (List.cons_ne_nil s ss)
      obtain ⟨hshaped, hextends⟩ := shaped_addSource hm hparent hcontainer hs
      obtain ⟨hshaped', hextends'⟩ := shaped_addSources hshaped
        (Nat.lt_of_lt_of_le hparent hextends.size) (fun _ => by
          rw [hextends.kind parent hparent]
          exact hcontainer) h
      exact ⟨hshaped', hextends.trans hextends'⟩

end

/-- In a model that is read from a text only containers have members. -/
theorem shaped_ofJsonText {text : String} (h : ofJsonText text = .ok m) : m.Shaped := by
  obtain ⟨s, hs⟩ := exists_source_of_ofJsonText h
  unfold ofSource at hs
  dsimp only at hs
  split_ifs at hs
  exact (shaped_addSources (shaped_ofRoot _ _) (by simp [root, ofRoot, size]) (fun _ => rfl) hs).1

/-! ## The way from the root -/

/-- An item with members is no inline member. -/
theorem Shaped.not_inline (h : m.Shaped) (hc : c ∈ (m.item a).members) :
    (m.item a).kind.isInlineMember = false := by
  have hcontainer := h a (List.ne_nil_of_mem hc)
  cases hkind : (m.item a).kind <;> rw [hkind] at hcontainer <;> first | rfl | cases hcontainer

/-- An item without a page among the items with members is a wrapper. -/
theorem Shaped.producesPage (h : m.Shaped) (hc : c ∈ (m.item a).members) :
    (m.item a).kind.producesPage = !(m.item a).kind.isWrapper := by
  rw [Kind.producesPage, h.not_inline hc, Bool.not_false, Bool.and_true]

/-- Member links lead from the root to every item that is not an inline member. -/
theorem Built.exists_below_root (h : m.Built) (hshaped : m.Shaped) (hid : id < m.size)
    (hkind : (m.item id).kind.isInlineMember = false) : ∃ depth, m.Below Model.root depth id := by
  induction id using Nat.strongRecOn with
  | _ id ih =>
    rcases Nat.eq_zero_or_pos id with rfl | hpos
    · exact ⟨0, .top⟩
    · obtain ⟨p, hp⟩ := h.exists_parent hpos hid
      have hmem := h.mem_members_iff.2 hp
      have hlt := h.parent_lt hp
      obtain ⟨depth, hbelow⟩ := ih p hlt (Nat.lt_trans hlt hid) (hshaped.not_inline hmem)
      exact ⟨depth + 1, .member hbelow hmem hkind⟩

/-- The ancestors of an item are items with members. -/
theorem Built.exists_member_of_mem_ancestors (h : m.Built) (ha : a ∈ m.ancestors id) :
    ∃ c, c ∈ (m.item a).members := by
  induction id using Nat.strongRecOn with
  | _ id ih =>
    cases hp : (m.item id).parent with
    | none =>
      rw [ancestors_of_no_parent hp] at ha
      cases ha
    | some p =>
      rw [h.ancestors_eq hp] at ha
      rcases List.mem_cons.1 ha with rfl | ha
      · exact ⟨id, h.mem_members_iff.2 hp⟩
      · exact ih p (h.parent_lt hp) ha

/-- Member links lead from the ancestors of an item to the item, unless it is an inline member. -/
theorem Built.below_of_mem_ancestors (h : m.Built) (hshaped : m.Shaped) (ha : a ∈ m.ancestors id)
    (hkind : (m.item id).kind.isInlineMember = false) : ∃ depth, m.Below a (depth + 1) id := by
  induction id using Nat.strongRecOn with
  | _ id ih =>
    cases hp : (m.item id).parent with
    | none =>
      rw [ancestors_of_no_parent hp] at ha
      cases ha
    | some p =>
      have hmem := h.mem_members_iff.2 hp
      rw [h.ancestors_eq hp] at ha
      rcases List.mem_cons.1 ha with rfl | ha
      · exact ⟨0, .member .top hmem hkind⟩
      · obtain ⟨depth, hbelow⟩ := ih p (h.parent_lt hp) ha (hshaped.not_inline hmem)
        exact ⟨depth + 1, .member hbelow hmem hkind⟩

theorem Linked.lt_of_below_succ (h : m.Linked) {x k : Nat} (habove : m.Below a (k + 1) x) : a < x := by
  obtain ⟨c, hc, -, hbelow⟩ := below_succ_iff.1 habove
  exact Nat.lt_of_lt_of_le (h a c hc).1 (h.le_of_below hbelow)

/-- An item does not precede the items above it. -/
theorem Built.not_precedes_above (h : m.Built) {x k : Nat} (habove : m.Below a (k + 1) x) :
    ¬ m.Precedes x a := by
  have hlinked := h.linked
  have hlt := hlinked.lt_of_below_succ habove
  rintro (⟨n, hbelow⟩ | ⟨p, c, d, hsub, ⟨n, hc⟩, n', hd⟩)
  · have := hlinked.le_of_below hbelow
    omega
  · -- `x` lies below both members, which are then the same one
    have hmem_c := hsub.subset List.mem_cons_self
    have hmem_d := hsub.subset (List.mem_cons_of_mem _ (List.mem_singleton_self d))
    have hsame := h.forked.eq_of_below hlinked hmem_c hmem_d hc (hd.trans habove)
    have hnodup := (h.forked.nodup p).sublist hsub
    rw [hsame] at hnodup
    simp at hnodup

end ReferenceSite.Model
