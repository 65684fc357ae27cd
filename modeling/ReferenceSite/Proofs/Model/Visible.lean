import Mathlib.Data.List.Induction
import ReferenceSite.Proofs.Model.Tree

/-!
# Visible members

Wrappers are looked through: a visible member of an item is reached from it through wrappers only
(`mem_visibleMembers`). In a model that can be built this can also be read upwards, since the ancestors of an
item are the items above it in order: the item is visible in the first of them that is no wrapper, and in the
wrappers before that (`Built.visible_iff`).
-/

namespace ReferenceSite.Model

/-- Member links lead through wrappers to an item that is none. -/
inductive Visible (m : Model) : (a c : Nat) → Prop
  | member {a c : Nat} : c ∈ (m.item a).members → (m.item c).kind.isWrapper = false → Visible m a c
  | through {a w c : Nat} : w ∈ (m.item a).members → (m.item w).kind.isWrapper = true →
      Visible m w c → Visible m a c

variable {m : Model} {a b c id : Nat} {front back : List Nat}

theorem Visible.not_wrapper (h : m.Visible a c) : (m.item c).kind.isWrapper = false := by
  induction h with
  | member _ hkind => exact hkind
  | through _ _ _ ih => exact ih

theorem Visible.exists_member (h : m.Visible a c) : ∃ b, b ∈ (m.item a).members := by
  cases h with
  | member hmem _ => exact ⟨c, hmem⟩
  | through hmem _ _ => exact ⟨_, hmem⟩

theorem visibleMembers_eq (hm : m.Linked) (a : Nat) : m.visibleMembers a =
    (m.item a).members.flatMap fun c =>
      if (m.item c).kind.isWrapper then m.visibleMembers c else [c] := by
  rw [visibleMembers]
  refine List.flatMap_congr fun c hc => ?_
  by_cases hkind : (m.item c).kind.isWrapper = true
  · simp [hkind, hm a c hc]
  · simp [hkind]

theorem mem_visibleMembers (hm : m.Linked) : c ∈ m.visibleMembers a ↔ m.Visible a c := by
  constructor
  · intro h
    induction a using hm.memberInduction with
    | step a ih =>
      rw [visibleMembers_eq hm, List.mem_flatMap] at h
      obtain ⟨b, hb, hc⟩ := h
      split_ifs at hc with hkind
      · exact .through hb hkind (ih b hb hc)
      · obtain rfl := List.mem_singleton.1 hc
        exact .member hb (by simpa using hkind)
  · intro h
    induction h with
    | @member a c hmem hkind =>
      rw [visibleMembers_eq hm, List.mem_flatMap]
      exact ⟨c, hmem, by simp [hkind]⟩
    | @through a w c hmem hkind _ ih =>
      rw [visibleMembers_eq hm, List.mem_flatMap]
      exact ⟨w, hmem, by simpa [hkind] using ih⟩

/-! ## Ancestors in order -/

theorem Built.ancestors_cases (hm : m.Built) (id : Nat) :
    (m.item id).parent = none ∧ m.ancestors id = [] ∨
      ∃ a, (m.item id).parent = some a ∧ a < id ∧ m.ancestors id = a :: m.ancestors a := by
  cases hparent : (m.item id).parent with
  | none => exact Or.inl ⟨rfl, ancestors_of_no_parent hparent⟩
  | some a => exact Or.inr ⟨a, rfl, hm.parent_lt hparent, hm.ancestors_eq hparent⟩

/-- Behind each ancestor of an item come the ancestors of that. -/
theorem Built.ancestors_append (hm : m.Built) (h : m.ancestors id = front ++ a :: back) :
    back = m.ancestors a := by
  induction front generalizing id with
  | nil =>
    rcases hm.ancestors_cases id with ⟨-, hnil⟩ | ⟨p, -, -, hcons⟩
    · simp [hnil] at h
    · rw [hcons, List.nil_append, List.cons.injEq] at h
      obtain ⟨rfl, hback⟩ := h
      exact hback.symm
  | cons b front ih =>
    rcases hm.ancestors_cases id with ⟨-, hnil⟩ | ⟨p, -, -, hcons⟩
    · simp [hnil] at h
    · rw [hcons, List.cons_append, List.cons.injEq] at h
      exact ih h.2

/-- The ancestors of an item stand in descending order. -/
theorem Built.ancestors_pairwise (hm : m.Built) (id : Nat) :
    (id :: m.ancestors id).Pairwise (· > ·) := by
  induction id using Nat.strongRecOn with
  | _ id ih =>
    rcases hm.ancestors_cases id with ⟨-, hnil⟩ | ⟨p, -, hlt, hcons⟩
    · simp [hnil]
    · have hp := ih p hlt
      rw [hcons, List.pairwise_cons]
      refine ⟨fun b hb => ?_, hp⟩
      rcases List.mem_cons.1 hb with rfl | hb
      · exact hlt
      · have hbp := (List.pairwise_cons.1 hp).1 b hb
        omega

theorem Built.lineage_pairwise (hm : m.Built) (id : Nat) : (m.lineage id).Pairwise (· < ·) := by
  rw [lineage, List.pairwise_reverse]
  exact hm.ancestors_pairwise id

/-- The topmost ancestor of an item is the root. -/
theorem Built.ancestors_root (hm : m.Built) (hid : id < m.size) (hpos : id ≠ Model.root) :
    ∃ front, m.ancestors id = front ++ [Model.root] := by
  induction id using Nat.strongRecOn with
  | _ id ih =>
    have hparent := hm.exists_parent (Nat.pos_of_ne_zero hpos) hid
    obtain ⟨p, hp⟩ := hparent
    have hlt := hm.parent_lt hp
    rw [hm.ancestors_eq hp]
    by_cases hroot : p = Model.root
    · subst hroot
      rcases hm.ancestors_cases Model.root with ⟨-, hnil⟩ | ⟨b, -, hb, -⟩
      · exact ⟨[], by simp [hnil]⟩
      · exact absurd hb (Nat.not_lt_zero b)
    · obtain ⟨front, hfront⟩ := ih p hlt (Nat.lt_trans hlt hid) hroot
      exact ⟨p :: front, by rw [hfront, List.cons_append]⟩

/-! ## Visibility from below -/

/-- An item is visible in another one if that is above it and only wrappers lie between them. -/
theorem Built.visible_iff (hm : m.Built) : m.Visible a c ↔ (m.item c).kind.isWrapper = false ∧
    ∃ between above, m.ancestors c = between ++ a :: above ∧
      ∀ w ∈ between, (m.item w).kind.isWrapper = true := by
  constructor
  · intro h
    refine ⟨h.not_wrapper, ?_⟩
    induction h with
    | @member a c hmem _ =>
      exact ⟨[], _, hm.ancestors_eq (hm.mem_members_iff.1 hmem), by simp⟩
    | @through a w c hmem hkind _ ih =>
      obtain ⟨between, above, hc, hbetween⟩ := ih
      have habove := hm.ancestors_append hc
      rw [hm.ancestors_eq (hm.mem_members_iff.1 hmem)] at habove
      refine ⟨between ++ [w], m.ancestors a, by simp [hc, habove], fun b hb => ?_⟩
      rcases List.mem_append.1 hb with hb | hb
      · exact hbetween b hb
      · rwa [List.mem_singleton.1 hb]
  · rintro ⟨hkind, between, above, hc, hbetween⟩
    -- the wrapper next to `a` is the last one between
    induction between using List.reverseRecOn generalizing a above with
    | nil =>
      rcases hm.ancestors_cases c with ⟨-, hnil⟩ | ⟨p, hp, -, hcons⟩
      · simp [hnil] at hc
      · rw [hcons, List.nil_append, List.cons.injEq] at hc
        rw [hc.1] at hp
        exact .member (hm.mem_members_iff.2 hp) hkind
    | append_singleton between w ih =>
      rw [List.append_assoc, List.singleton_append] at hc
      have hw := hm.ancestors_append hc
      have hmem : w ∈ (m.item a).members := by
        rcases hm.ancestors_cases w with ⟨-, hnil⟩ | ⟨p, hp, -, hcons⟩
        · simp [hnil] at hw
        · rw [hcons, List.cons.injEq] at hw
          rw [← hw.1] at hp
          exact hm.mem_members_iff.2 hp
      have hvisible : m.Visible w c :=
        ih (a :: above) hc fun b hb => hbetween b (List.mem_append_left _ hb)
      exact .through hmem (hbetween w (by simp)) hvisible

/-- Of the members of an item only one can be another item or an ancestor of it. -/
theorem Built.eq_of_at_or_above (hm : m.Built) {d x : Nat} (hc : (m.item c).parent = some a)
    (hd : (m.item d).parent = some a) (hcx : c = x ∨ c ∈ m.ancestors x)
    (hdx : d = x ∨ d ∈ m.ancestors x) : c = d := by
  -- `a` is above both members, so neither is among the ancestors of the other
  have hnone : ∀ {c d : Nat}, (m.item c).parent = some a → (m.item d).parent = some a →
      d ∉ m.ancestors c := by
    intro c d hc hd hmem
    have hlt := hm.parent_lt hd
    rw [hm.ancestors_eq hc] at hmem
    have hle := (List.pairwise_cons.1 (hm.ancestors_pairwise a)).1 d
    rcases List.mem_cons.1 hmem with rfl | hmem
    · exact Nat.lt_irrefl _ hlt
    · have := hle hmem
      omega
  induction x using Nat.strongRecOn with
  | _ x ih =>
    rcases hcx with rfl | hcx
    · rcases hdx with rfl | hdx
      · rfl
      · exact absurd hdx (hnone hc hd)
    · rcases hdx with rfl | hdx
      · exact absurd hcx (hnone hd hc)
      · rcases hm.ancestors_cases x with ⟨-, hnil⟩ | ⟨p, -, hlt, hcons⟩
        · rw [hnil] at hcx
          cases hcx
        · rw [hcons, List.mem_cons] at hcx hdx
          exact ih p hlt hcx hdx

/-- No item is visible twice. -/
theorem Built.nodup_visibleMembers (hm : m.Built) (a : Nat) : (m.visibleMembers a).Nodup := by
  induction a using hm.linked.memberInduction with
  | step a ih =>
    rw [visibleMembers_eq hm.linked, List.nodup_flatMap]
    constructor
    · intro b hb
      split_ifs
      · exact ih b hb
      · exact List.nodup_singleton b
    · have habove : ∀ b x, x ∈ (if (m.item b).kind.isWrapper then m.visibleMembers b else [b]) →
          b = x ∨ b ∈ m.ancestors x := by
        intro b x hx
        split_ifs at hx
        · obtain ⟨-, between, above, hancestors, -⟩ :=
            hm.visible_iff.1 ((mem_visibleMembers hm.linked).1 hx)
          rw [hancestors]
          exact Or.inr (List.mem_append_right _ List.mem_cons_self)
        · exact Or.inl (List.mem_singleton.1 hx).symm
      refine (hm.forked.nodup a).imp_of_mem fun {b d} hb hd hne x hxb hxd => hne ?_
      exact hm.eq_of_at_or_above (hm.mem_members_iff.1 hb) (hm.mem_members_iff.1 hd)
        (habove b x hxb) (habove d x hxd)

/-- The nearest ancestor of an item that is no wrapper. -/
def enclosing? (m : Model) (id : Nat) : Option Nat :=
  (m.ancestors id).find? fun a => !(m.item a).kind.isWrapper

/-- An item is visible in the nearest ancestor that is no wrapper. -/
theorem Built.visible_of_enclosing? (hm : m.Built) (h : m.enclosing? c = some a)
    (hkind : (m.item c).kind.isWrapper = false) : m.Visible a c := by
  obtain ⟨-, between, above, hc, hbetween⟩ := List.find?_eq_some_iff_append.1 h
  exact hm.visible_iff.2 ⟨hkind, between, above, hc, fun w hw => by simpa using hbetween w hw⟩

end ReferenceSite.Model
