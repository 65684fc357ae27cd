import ReferenceSite.Proofs.Itinerary

/-!
# The owners on a walk

An item that groups its members in the navigation encloses the items below it, through whatever lies
between. The owner of a visit is the nearest item of the walk that encloses the visited one, and a visit
without an owner has no such item (`owner_itinerary`).
-/

namespace ReferenceSite.Model

/-- An item at or below `top` that groups its members lies above another item. -/
structure Encloses (m : Model) (top o id : Nat) : Prop where
  owns : (m.item o).kind.ownsNavigation = true
  within : ∃ depth, m.Below top depth o
  above : ∃ depth, m.Below o (depth + 1) id

/-- The innermost of the items at or below `top` that enclose an item. -/
structure NearestOwner (m : Model) (top o id : Nat) : Prop extends m.Encloses top o id where
  nearest : ∀ o', m.Encloses top o' id → ∃ depth, m.Below o' depth o

variable {m : Model} {top o id c depth : Nat} {owner : Option Nat} {v : Visit}

theorem Below.trans {a b c n n' : Nat} (h : m.Below a n b) (h' : m.Below b n' c) :
    m.Below a (n + n') c := by
  induction h' with
  | top => exact h
  | member _ hmem hkind ih => exact .member ih hmem hkind

/-- Nothing encloses the item that a walk starts from. -/
theorem Linked.not_encloses (hm : m.Linked) : ¬ m.Encloses top o top := by
  rintro ⟨-, ⟨n, hwithin⟩, n', habove⟩
  obtain ⟨c, hc, -, hbelow⟩ := below_succ_iff.1 habove
  have hdown := hm.le_of_below hwithin
  have hup := hm.le_of_below hbelow
  have hlink := (hm o c hc).1
  omega

/-- What encloses an item below a member of `top` is `top` itself or lies at or below that member. -/
theorem encloses_iff (hf : m.Forked) (hm : m.Linked) (hc : c ∈ m.steps top) (h : m.Below c depth id) :
    m.Encloses top o id ↔
      o = top ∧ (m.item top).kind.ownsNavigation = true ∨ m.Encloses c o id := by
  obtain ⟨hmem, hkind⟩ := mem_steps.1 hc
  constructor
  · rintro ⟨howns, ⟨n, hwithin⟩, n', habove⟩
    cases n with
    | zero =>
      cases hwithin
      exact Or.inl ⟨rfl, howns⟩
    | succ n =>
      obtain ⟨d, hd, -, hbelow⟩ := below_succ_iff.1 hwithin
      obtain rfl := hf.eq_of_below hm hmem hd h (hbelow.trans habove)
      exact Or.inr ⟨howns, ⟨n, hbelow⟩, n', habove⟩
  · rintro (⟨rfl, howns⟩ | ⟨howns, ⟨n, hwithin⟩, habove⟩)
    · exact ⟨howns, ⟨0, .top⟩, depth, .head hmem hkind h⟩
    · exact ⟨howns, ⟨n + 1, .head hmem hkind hwithin⟩, habove⟩

/-- The owner of a visit is the nearest item of the walk that encloses the visited one; where there is none,
    it is the owner that the walk started with. -/
theorem owner_itinerary (hf : m.Forked) (hm : m.Linked) (hv : v ∈ m.itinerary top depth owner) :
    (v.owner = owner ∧ ∀ o, ¬ m.Encloses top o v.item) ∨
      ∃ o, v.owner = some o ∧ m.NearestOwner top o v.item := by
  induction top using hm.induction generalizing depth owner with
  | step top ih =>
    rw [itinerary_eq hm] at hv
    rcases List.mem_cons.1 hv with rfl | hv
    · exact Or.inl ⟨rfl, fun o => hm.not_encloses⟩
    · obtain ⟨c, hc, hv⟩ := List.mem_flatMap.1 hv
      obtain ⟨n, -, hbelow⟩ := below_of_mem_itinerary hm hv
      obtain ⟨hmem, hkind⟩ := mem_steps.1 hc
      have hcases := fun o => encloses_iff hf hm (o := o) hc hbelow
      rcases ih c hc hv with ⟨howner, hnone⟩ | ⟨o, howner, hnearest⟩
      · rw [ownerBelow] at howner
        split_ifs at howner with howns
        -- nothing below `top` encloses the item, so `top` is the nearest
        · refine Or.inr ⟨top, howner, (hcases top).2 (Or.inl ⟨rfl, howns⟩), fun o ho => ?_⟩
          rcases (hcases o).1 ho with ⟨rfl, -⟩ | ho
          · exact ⟨0, .top⟩
          · exact absurd ho (hnone o)
        · refine Or.inl ⟨howner, fun o ho => ?_⟩
          rcases (hcases o).1 ho with ⟨-, howns'⟩ | ho
          · exact howns howns'
          · exact hnone o ho
      · refine Or.inr ⟨o, howner, (hcases o).2 (Or.inr hnearest.toEncloses), fun o' ho' => ?_⟩
        rcases (hcases o').1 ho' with ⟨rfl, -⟩ | ho'
        · obtain ⟨n', hwithin⟩ := hnearest.within
          exact ⟨n' + 1, .head hmem hkind hwithin⟩
        · exact hnearest.nearest o' ho'

/-- The owner of a visit is not visited after it. -/
theorem pairwise_owner_ne (hf : m.Forked) (hm : m.Linked) (top depth : Nat) :
    (m.itinerary top depth none).Pairwise fun u v => u.owner ≠ some v.item := by
  have hnodup := nodup_itinerary hf hm top depth none
  suffices ∀ back front, m.itinerary top depth none = front ++ back →
      back.Pairwise fun u v => u.owner ≠ some v.item from this _ [] rfl
  intro back
  induction back with
  | nil => exact fun _ _ => .nil
  | cons u back ih =>
    intro front heq
    refine List.pairwise_cons.2 ⟨fun v hv howner => ?_, ih (front ++ [u]) (by rw [heq, List.append_cons])⟩
    rcases owner_of_itinerary hm heq with hnone | ⟨w, hw, howner', -⟩
    · rw [howner] at hnone
      cases hnone
    · -- an item is not visited both before and after `u`
      rw [howner] at howner'
      rw [heq, List.map_append, List.nodup_append] at hnodup
      exact hnodup.2.2 w.item (List.mem_map_of_mem hw) v.item
        (List.mem_map_of_mem (List.mem_cons_of_mem _ hv)) (Option.some.inj howner').symm

end ReferenceSite.Model
