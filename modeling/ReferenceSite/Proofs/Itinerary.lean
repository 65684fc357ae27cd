import Mathlib.Data.List.Basic
import Mathlib.Data.List.Nodup
import Mathlib.Tactic.SplitIfs
import ReferenceSite.Generation.Walk

/-!
# The order of a walk

The models that can be built link every item to later ones (`Built.linked`), and no item to two
(`Built.forked`). So a walk follows every member link: it visits exactly the items that member links lead to
without stepping onto an inline member, each once, in depth-first pre-order (`preorder_itinerary`).
-/

namespace ReferenceSite

namespace Model

/-- A model with another declaration of one item. -/
def redeclare (m : Model) (id : Nat) (d : Declaration) : Model :=
  ⟨m.items.modify id fun i => { i with toDeclaration := d }⟩

/-- The models that arise from a root by adding items to items and by declaring items anew. -/
inductive Built : Model → Prop
  | root (docs : Option Doc.Comment) (excerpt : List Excerpt.Token) : Built (ofRoot docs excerpt)
  | add {m : Model} {parent : Nat} : Built m → parent < m.size → ∀ d, Built (m.add parent d)
  | redeclare {m : Model} : Built m → ∀ id d, Built (m.redeclare id d)

/-- Every member of an item is an item of the model that was created after it. -/
def Linked (m : Model) : Prop := ∀ a, ∀ c ∈ (m.item a).members, a < c ∧ c < m.size

theorem item_eq_getElem? (m : Model) (id : Nat) :
    m.item id = m.items[id]?.getD { kind := .model } := by
  simp [item, Array.getD_eq_getD_getElem?]

theorem size_add (m : Model) (parent : Nat) (d : Declaration) :
    (m.add parent d).size = m.size + 1 := by
  simp [add, size]

theorem size_redeclare (m : Model) (i : Nat) (d : Declaration) :
    (m.redeclare i d).size = m.size := by
  simp [redeclare, size]

theorem members_add {m : Model} {parent : Nat} (hparent : parent < m.size) (d : Declaration) (id : Nat) :
    ((m.add parent d).item id).members =
      (m.item id).members ++ if id = parent then [m.size] else [] := by
  have hsize : parent < m.items.size := hparent
  rw [item_eq_getElem?, item_eq_getElem?]
  simp only [add, Array.getElem?_push, Array.size_modify, Array.getElem?_modify]
  split_ifs with hnew hsame hsame
  · omega
  · rw [Array.getElem?_eq_none (Nat.le_of_eq hnew.symm)]
    rfl
  · subst hsame
    rw [Array.getElem?_eq_getElem hsize]
    rfl
  · omega
  · omega
  · rw [List.append_nil]

theorem members_redeclare (m : Model) (i : Nat) (d : Declaration) (id : Nat) :
    ((m.redeclare i d).item id).members = (m.item id).members := by
  rw [item_eq_getElem?, item_eq_getElem?]
  simp only [redeclare, Array.getElem?_modify]
  split_ifs with h
  · cases m.items[id]? <;> rfl
  · rfl

theorem members_ofRoot (docs : Option Doc.Comment) (excerpt : List Excerpt.Token) (id : Nat) :
    ((ofRoot docs excerpt).item id).members = [] := by
  rw [item_eq_getElem?]
  cases id with
  | zero => rfl
  | succ id => simp [ofRoot]

theorem mem_members_add {m : Model} {parent : Nat} (hparent : parent < m.size) (d : Declaration)
    {id c : Nat} (hc : c ∈ ((m.add parent d).item id).members) :
    c ∈ (m.item id).members ∨ id = parent ∧ c = m.size := by
  rw [members_add hparent, List.mem_append] at hc
  refine hc.imp_right fun hc => ?_
  split_ifs at hc with hid
  · exact ⟨hid, List.mem_singleton.1 hc⟩
  · cases hc

theorem Built.linked {m : Model} (h : m.Built) : m.Linked := by
  induction h with
  | root docs excerpt =>
    intro a c hc
    rw [members_ofRoot] at hc
    cases hc
  | @add m parent _ hparent d ih =>
    intro a c hc
    rw [size_add]
    rcases mem_members_add hparent d hc with hc | ⟨rfl, rfl⟩
    · have := ih a c hc
      omega
    · omega
  | @redeclare m _ i d ih =>
    intro a c hc
    rw [members_redeclare] at hc
    rw [size_redeclare]
    exact ih a c hc

/-- No item is a member of two items, or twice of one. -/
structure Forked (m : Model) : Prop where
  nodup : ∀ a, (m.item a).members.Nodup
  parent : ∀ a b c, c ∈ (m.item a).members → c ∈ (m.item b).members → a = b

theorem Built.forked {m : Model} (h : m.Built) : m.Forked := by
  induction h with
  | root docs excerpt =>
    refine ⟨fun a => ?_, fun a b c ha => ?_⟩
    · rw [members_ofRoot]
      exact List.nodup_nil
    · rw [members_ofRoot] at ha
      cases ha
  | @add m parent hm hparent d ih =>
    have hold : ∀ a c, c ∈ (m.item a).members → c ≠ m.size := fun a c hc =>
      Nat.ne_of_lt (hm.linked a c hc).2
    refine ⟨fun a => ?_, fun a b c ha hb => ?_⟩
    · rw [members_add hparent, List.nodup_append]
      refine ⟨ih.nodup a, ?_, fun c hc e he => ?_⟩
      · split_ifs
        · exact List.nodup_singleton _
        · exact List.nodup_nil
      · split_ifs at he
        · rw [List.mem_singleton.1 he]
          exact hold a c hc
        · cases he
    · rcases mem_members_add hparent d ha with hfirst | ⟨hfirst, hnew⟩ <;>
        rcases mem_members_add hparent d hb with hsecond | ⟨hsecond, hnew'⟩
      · exact ih.parent a b c hfirst hsecond
      · exact absurd hnew' (hold a c hfirst)
      · exact absurd hnew (hold b c hsecond)
      · rw [hfirst, hsecond]
  | @redeclare m _ i d ih =>
    refine ⟨fun a => ?_, fun a b c ha hb => ?_⟩
    · rw [members_redeclare]
      exact ih.nodup a
    · rw [members_redeclare] at ha hb
      exact ih.parent a b c ha hb

/-! ## Reached items -/

/-- Member links that step onto no inline member lead from an item down to another one. -/
inductive Below (m : Model) (top : Nat) : (depth id : Nat) → Prop
  | top : Below m top 0 top
  | member {depth a c : Nat} : Below m top depth a → c ∈ (m.item a).members →
      (m.item c).kind.isInlineMember = false → Below m top (depth + 1) c

/-- An item is visited before another one if that lies below it, or if both lie at or below members of
    one item and the first one's member comes first. -/
def Precedes (m : Model) (a b : Nat) : Prop :=
  (∃ depth, m.Below a (depth + 1) b) ∨
  ∃ p c d, [c, d].Sublist (m.item p).members ∧ (∃ depth, m.Below c depth a) ∧
    ∃ depth, m.Below d depth b

variable {m : Model}

/-- The way down can also be taken from its other end. -/
theorem Below.head {top c depth b : Nat} (hc : c ∈ (m.item top).members)
    (hkind : (m.item c).kind.isInlineMember = false) (h : m.Below c depth b) :
    m.Below top (depth + 1) b := by
  induction h with
  | top => exact .member .top hc hkind
  | member _ hmem hinline ih => exact .member ih hmem hinline

theorem below_succ_iff {top depth b : Nat} : m.Below top (depth + 1) b ↔
    ∃ c ∈ (m.item top).members, (m.item c).kind.isInlineMember = false ∧ m.Below c depth b := by
  constructor
  · induction depth generalizing b with
    | zero =>
      intro h
      cases h with
      | member htop hmem hinline =>
        cases htop
        exact ⟨b, hmem, hinline, .top⟩
    | succ depth ih =>
      intro h
      cases h with
      | member hprev hmem hinline =>
        obtain ⟨c, hc, hkind, hbelow⟩ := ih hprev
        exact ⟨c, hc, hkind, .member hbelow hmem hinline⟩
  · rintro ⟨c, hc, hkind, hbelow⟩
    exact .head hc hkind hbelow

/-- The owner of the visits of the members of an item. -/
def ownerBelow (m : Model) (id : Nat) (owner : Option Nat) : Option Nat :=
  if (m.item id).kind.ownsNavigation then some id else owner

/-- The members that a walk steps onto. -/
def steps (m : Model) (id : Nat) : List Nat :=
  (m.item id).members.filter fun c => !(m.item c).kind.isInlineMember

theorem mem_steps {id c : Nat} : c ∈ m.steps id ↔
    c ∈ (m.item id).members ∧ (m.item c).kind.isInlineMember = false := by
  simp [steps]

theorem flatMap_filter {α β : Type} (p : α → Bool) (f : α → List β) (l : List α) :
    (l.filter p).flatMap f = l.flatMap fun a => if p a then f a else [] := by
  induction l with
  | nil => rfl
  | cons a l ih =>
    rw [List.filter_cons, List.flatMap_cons]
    split_ifs
    · rw [List.flatMap_cons, ih]
    · rw [ih, List.nil_append]

/-- A walk steps onto all members that are not inline. -/
theorem itinerary_eq (hm : m.Linked) (id depth : Nat) (owner : Option Nat) :
    m.itinerary id depth owner = { item := id, depth, owner } ::
      (m.steps id).flatMap fun c => m.itinerary c (depth + 1) (m.ownerBelow id owner) := by
  rw [itinerary, steps, flatMap_filter]
  refine congrArg _ (List.flatMap_congr fun c hc => ?_)
  rw [dif_pos (hm id c hc)]
  cases (m.item c).kind.isInlineMember <;> rfl

/-- An induction along member links, which lead to later items. -/
theorem Linked.memberInduction (hm : m.Linked) {P : Nat → Prop}
    (step : ∀ id, (∀ c ∈ (m.item id).members, P c) → P id) (id : Nat) : P id := by
  induction hn : m.size - id using Nat.strongRecOn generalizing id with
  | _ n ih =>
    refine step id fun c hc => ?_
    have := hm id c hc
    exact ih (m.size - c) (by omega) c rfl

theorem Linked.induction (hm : m.Linked) {P : Nat → Prop}
    (step : ∀ id, (∀ c ∈ m.steps id, P c) → P id) (id : Nat) : P id :=
  hm.memberInduction (fun id ih => step id fun c hc => ih c (mem_steps.1 hc).1) id

/-- A walk visits only items that its member links lead to, at their depth. -/
theorem below_of_mem_itinerary (hm : m.Linked) {id depth : Nat} {owner : Option Nat} {v : Visit}
    (h : v ∈ m.itinerary id depth owner) : ∃ n, v.depth = depth + n ∧ m.Below id n v.item := by
  induction id using hm.induction generalizing depth owner with
  | step id ih =>
    rw [itinerary_eq hm] at h
    rcases List.mem_cons.1 h with rfl | h
    · exact ⟨0, rfl, .top⟩
    · obtain ⟨c, hc, hv⟩ := List.mem_flatMap.1 h
      obtain ⟨n, hdepth, hbelow⟩ := ih c hc hv
      obtain ⟨hmem, hkind⟩ := mem_steps.1 hc
      exact ⟨n + 1, by omega, .head hmem hkind hbelow⟩

/-- A walk visits all items that its member links lead to. -/
theorem exists_mem_itinerary (hm : m.Linked) {id n b : Nat} (h : m.Below id n b) (depth : Nat)
    (owner : Option Nat) : ∃ v ∈ m.itinerary id depth owner, v.item = b := by
  induction n generalizing id depth owner with
  | zero =>
    cases h
    exact ⟨_, by rw [itinerary_eq hm]; exact List.mem_cons_self, rfl⟩
  | succ n ih =>
    obtain ⟨c, hc, hkind, hbelow⟩ := below_succ_iff.1 h
    obtain ⟨v, hv, hitem⟩ := ih hbelow (depth + 1) (m.ownerBelow id owner)
    refine ⟨v, ?_, hitem⟩
    rw [itinerary_eq hm]
    exact List.mem_cons_of_mem _ (List.mem_flatMap.2 ⟨c, mem_steps.2 ⟨hc, hkind⟩, hv⟩)

/-- A walk is in depth-first pre-order. -/
theorem precedes_itinerary (hm : m.Linked) (id depth : Nat) (owner : Option Nat) :
    (m.itinerary id depth owner).Pairwise fun u v => m.Precedes u.item v.item := by
  induction id using hm.induction generalizing depth owner with
  | step id ih =>
    rw [itinerary_eq hm, List.pairwise_cons, List.pairwise_flatMap]
    refine ⟨fun v hv => ?_, fun c hc => ih c hc _ _, ?_⟩
    · obtain ⟨c, hc, hv⟩ := List.mem_flatMap.1 hv
      obtain ⟨n, -, hbelow⟩ := below_of_mem_itinerary hm hv
      obtain ⟨hmem, hkind⟩ := mem_steps.1 hc
      exact Or.inl ⟨n, .head hmem hkind hbelow⟩
    · refine List.pairwise_iff_forall_sublist.2 fun {c d} hcd u hu v hv => ?_
      obtain ⟨n, -, hu⟩ := below_of_mem_itinerary hm hu
      obtain ⟨n', -, hv⟩ := below_of_mem_itinerary hm hv
      exact Or.inr ⟨id, c, d, hcd.trans List.filter_sublist, ⟨n, hu⟩, ⟨n', hv⟩⟩

theorem Linked.le_of_below (hm : m.Linked) {top depth b : Nat} (h : m.Below top depth b) : top ≤ b := by
  induction h with
  | top => exact Nat.le_refl _
  | member _ hmem _ ih => exact Nat.le_of_lt (Nat.lt_of_le_of_lt ih (hm _ _ hmem).1)

/-- What lies below two members of an item lies below one. -/
theorem Forked.eq_of_below (hf : m.Forked) (hm : m.Linked) {id c d n n' b : Nat}
    (hc : c ∈ (m.item id).members) (hd : d ∈ (m.item id).members) (h : m.Below c n b)
    (h' : m.Below d n' b) : c = d := by
  have hlink := (hm id c hc).1
  have hlink' := (hm id d hd).1
  -- the last links of both ways start at the same item; if one way ends first, a member of `id` would be
  -- at or below the other one and have a second parent
  induction h generalizing n' with
  | top =>
    cases h' with
    | top => rfl
    | member h' hmem _ =>
      obtain rfl := hf.parent _ _ _ hmem hc
      have := hm.le_of_below h'
      omega
  | member h hmem _ ih =>
    cases h' with
    | top =>
      obtain rfl := hf.parent _ _ _ hmem hd
      have := hm.le_of_below h
      omega
    | member h' hmem' _ =>
      obtain rfl := hf.parent _ _ _ hmem hmem'
      exact ih h'

/-- A walk visits no item twice. -/
theorem nodup_itinerary (hf : m.Forked) (hm : m.Linked) (id depth : Nat) (owner : Option Nat) :
    ((m.itinerary id depth owner).map Visit.item).Nodup := by
  induction id using hm.induction generalizing depth owner with
  | step id ih =>
    rw [itinerary_eq hm, List.map_cons, List.map_flatMap, List.nodup_cons, List.nodup_flatMap]
    have hbelow : ∀ c depth owner b, b ∈ (m.itinerary c depth owner).map Visit.item →
        ∃ n, m.Below c n b := by
      intro c depth owner b hb
      obtain ⟨v, hv, rfl⟩ := List.mem_map.1 hb
      obtain ⟨n, -, hn⟩ := below_of_mem_itinerary hm hv
      exact ⟨n, hn⟩
    refine ⟨fun hmem => ?_, fun c hc => ih c hc _ _, ?_⟩
    · obtain ⟨c, hc, hb⟩ := List.mem_flatMap.1 hmem
      obtain ⟨n, hn⟩ := hbelow c _ _ id hb
      have hle := hm.le_of_below hn
      have hlt := (hm id c (mem_steps.1 hc).1).1
      omega
    · refine List.Pairwise.imp_of_mem ?_ ((hf.nodup id).filter _)
      intro c d hc hd hne b hb hb'
      obtain ⟨n, hn⟩ := hbelow c _ _ b hb
      obtain ⟨n', hn'⟩ := hbelow d _ _ b hb'
      exact hne (hf.eq_of_below hm (mem_steps.1 hc).1 (mem_steps.1 hd).1 hn hn')

/-- The visits go to exactly the items that member links lead to from an item, each once and at its
    depth, in depth-first pre-order. -/
structure Preorder (m : Model) (top : Nat) (vs : List Visit) : Prop where
  below : ∀ v ∈ vs, m.Below top v.depth v.item
  reached : ∀ depth id, m.Below top depth id → ∃ v ∈ vs, v.item = id
  once : (vs.map Visit.item).Nodup
  order : vs.Pairwise fun u v => m.Precedes u.item v.item

theorem preorder_itinerary (hm : m.Built) (id : Nat) : m.Preorder id (m.itinerary id 0 none) := by
  have hlinked := hm.linked
  refine ⟨fun v hv => ?_, fun depth b h => exists_mem_itinerary hlinked h 0 none,
    nodup_itinerary hm.forked hlinked id 0 none, precedes_itinerary hlinked id 0 none⟩
  obtain ⟨n, hdepth, hbelow⟩ := below_of_mem_itinerary hlinked hv
  rwa [hdepth, Nat.zero_add]

/-! ## Owners -/

/-- A place in a list made of parts is a place in one of the parts, behind all parts before it. -/
theorem flatMap_eq_append_cons {α β : Type} {f : α → List β} {l : List α} {front back : List β}
    {b : β} (h : l.flatMap f = front ++ b :: back) :
    ∃ a ∈ l, ∃ front' back', f a = front' ++ b :: back' ∧ front' ⊆ front := by
  induction l generalizing front with
  | nil => simp at h
  | cons a l ih =>
    rw [List.flatMap_cons, List.append_eq_append_iff] at h
    rcases h with ⟨front', rfl, hrest⟩ | ⟨back', hfront, hrest⟩
    · obtain ⟨a', ha', front₁, back₁, ha, hsub⟩ := ih hrest
      exact ⟨a', List.mem_cons_of_mem _ ha', front₁, back₁, ha,
        List.Subset.trans hsub (List.subset_append_right _ _)⟩
    · cases back' with
      | nil =>
        have hhead : l.flatMap f = [] ++ b :: back := hrest.symm
        obtain ⟨a', ha', front₁, back₁, ha, hsub⟩ := ih hhead
        rw [List.append_nil] at hfront
        exact ⟨a', List.mem_cons_of_mem _ ha', front₁, back₁, ha,
          List.Subset.trans hsub (List.nil_subset _)⟩
      | cons b' back' =>
        obtain ⟨rfl, -⟩ := List.cons.inj hrest
        exact ⟨a, List.mem_cons_self, front, back', hfront, List.Subset.refl _⟩

/-- A visit has the owner that the walk started with, or an item that was visited before it. -/
theorem owner_of_itinerary (hm : m.Linked) {id depth : Nat} {owner : Option Nat}
    {front back : List Visit} {v : Visit} (h : m.itinerary id depth owner = front ++ v :: back) :
    v.owner = owner ∨
      ∃ u ∈ front, v.owner = some u.item ∧ (m.item u.item).kind.ownsNavigation = true := by
  induction id using hm.induction generalizing depth owner front back with
  | step id ih =>
    rw [itinerary_eq hm] at h
    cases front with
    | nil =>
      obtain ⟨rfl, -⟩ := List.cons.inj h
      exact Or.inl rfl
    | cons u front =>
      obtain ⟨rfl, hrest⟩ := List.cons.inj h
      obtain ⟨c, hc, front', back', hv, hsub⟩ := flatMap_eq_append_cons hrest
      rcases ih c hc hv with howner | ⟨u, hu, howner⟩
      · rw [ownerBelow] at howner
        split_ifs at howner with howns
        · exact Or.inr ⟨_, List.mem_cons_self, howner, howns⟩
        · exact Or.inl howner
      · exact Or.inr ⟨u, List.mem_cons_of_mem _ (hsub hu), howner⟩

end Model

end ReferenceSite
