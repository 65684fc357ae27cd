import ReferenceSite.Proofs.Generation.Visit

/-!
# Whole walks

A walk that succeeds passed all checks at every visit (`visitAll_ok`). A walk that fails passed them up to
the visit that ended it (`visitAll_error`). And where every visit passes all checks and every page has its
text already, the walk succeeds (`visitAll_of_hasText`).
-/

namespace ReferenceSite.Generation

open FileTree

variable {k : Task} {t : FileTree} {pages : List Emission} {w w' : Walk} {v : Visit}
  {vs front : List Visit} {e : Error}

/-! ## One visit -/

theorem emission?_visit {p : Emission} (hp : k.emission? pages v = some p) (h : k.Sound pages)
    (hv : k.Passes pages v) : p.visit = v ∧ k.Sound (pages ++ [p]) := by
  have := h.concat hv
  rw [hp] at this
  exact ⟨(Task.emission?_eq_some hp).1, this⟩

/-- A visit that succeeds passed all checks, and its page is one of the pages made so far. -/
theorem visit_ok (h : w.After k t pages) (hsound : k.Sound pages) (howned : Task.Owned pages v)
    (hvisit : w.visit k v = (.ok (), w')) :
    k.Passes pages v ∧ w'.After k t (pages ++ (k.emission? pages v).toList) := by
  rcases visit_cases h v with ⟨e, w₁, heq, -, -⟩ | ⟨hpasses, hpage, heq⟩ |
    ⟨p, cache, hpasses, hp, hcache, heq⟩
  · rw [heq] at hvisit
    cases hvisit
  · rw [heq] at hvisit
    cases hvisit
    rw [Task.emission?_eq_none hpage, Option.toList_none, List.append_nil]
    exact ⟨hpasses, h⟩
  · obtain ⟨hpv, hnext⟩ := emission?_visit hp hsound hpasses
    rw [hp, Option.toList_some]
    rw [← hpv] at howned
    rcases h.store hnext hsound howned hcache with ⟨e, w₁, hstore, -⟩ | ⟨w₁, hstore, hafter⟩
    · rw [heq, hstore] at hvisit
      cases hvisit
    · rw [heq, hstore] at hvisit
      cases hvisit
      exact ⟨hpasses, hafter⟩

/-- A visit that fails does so because of the file system, or at a check, which changes nothing. -/
theorem visit_error (h : w.After k t pages) (hsound : k.Sound pages) (howned : Task.Owned pages v)
    (hvisit : w.visit k v = (.error e, w')) :
    e.kind = .io ∨ w.Stops k v e w' ∧ (k.settings.limits.maxDurationSecs = 0 ∧ e.kind = .timeExceeded ∨
      k.FailsFirst pages v e.kind) := by
  rcases visit_cases h v with ⟨e₁, w₁, heq, hstops, hfails⟩ | ⟨-, -, heq⟩ |
    ⟨p, cache, hpasses, hp, hcache, heq⟩
  · rw [heq] at hvisit
    cases hvisit
    exact Or.inr ⟨hstops, hfails⟩
  · rw [heq] at hvisit
    cases hvisit
  · obtain ⟨hpv, hnext⟩ := emission?_visit hp hsound hpasses
    rw [← hpv] at howned
    rcases h.store hnext hsound howned hcache with ⟨e₁, w₁, hstore, hio⟩ | ⟨w₁, hstore, -⟩
    · rw [heq, hstore] at hvisit
      cases hvisit
      exact Or.inl hio
    · rw [heq, hstore] at hvisit
      cases hvisit

/-- A visit that fails because of the file system could not write its page. -/
theorem visit_io (h : w.After k t pages) (hvisit : w.visit k v = (.error e, w')) (hio : e.kind = .io) :
    ∃ p u, k.Passes pages v ∧ k.emission? pages v = some p ∧
      writePage w.tree (k.path p) p.text = (.error e, u) := by
  rcases visit_cases h v with ⟨e₁, w₁, heq, -, hkind⟩ | ⟨-, -, heq⟩ | ⟨p, cache, hpasses, hp, -, heq⟩
  · rw [heq] at hvisit
    cases hvisit
    rw [hio] at hkind
    rcases hkind with ⟨-, hkind⟩ | ⟨hfails, -⟩
    · cases hkind
    · exact absurd hfails not_false
  · rw [heq] at hvisit
    cases hvisit
  · rw [heq] at hvisit
    unfold Walk.store at hvisit
    dsimp only at hvisit
    split at hvisit
    · next e₁ u hwrite =>
      cases hvisit
      exact ⟨p, u, hpasses, hp, hwrite⟩
    · cases hvisit

/-- A visit that passes all checks succeeds where the page has its text already. -/
theorem visit_of_hasText (h : w.After k t pages) (hpasses : k.Passes pages v)
    (htime : k.settings.limits.maxDurationSecs ≠ 0)
    (hold : ∀ p, k.emission? pages v = some p → w.tree.hasText (k.path p) p.text = true) :
    ∃ w', w.visit k v = (.ok (), w') := by
  rcases visit_cases h v with ⟨e, w₁, -, -, hkind⟩ | ⟨-, -, heq⟩ | ⟨p, cache, -, hp, -, heq⟩
  · rcases hkind with ⟨hzero, -⟩ | hfails
    · exact absurd hzero htime
    · exact absurd hfails.1 (hpasses e.kind)
  · exact ⟨w, heq⟩
  · rw [heq]
    exact Walk.store_of_hasText (hold p hp) cache

/-! ## All visits -/

/-- Every owner is an item with a page that is visited earlier. -/
def Task.OwnersFirst (k : Task) (vs : List Visit) : Prop :=
  ∀ front v back, vs = front ++ v :: back → ∀ o, v.owner = some o →
    ∃ u ∈ front, u.item = o ∧ k.HasPage o

theorem Task.ownersFirst_itinerary (hm : k.model.Linked) (root : Nat) :
    k.OwnersFirst (k.model.itinerary root 0 none) := by
  intro front v back heq o ho
  rcases Model.owner_of_itinerary hm heq with hnone | ⟨u, hu, howner, howns⟩
  · rw [hnone] at ho
    cases ho
  · rw [howner] at ho
    cases ho
    refine ⟨u, hu, rfl, ?_⟩
    unfold Task.HasPage
    cases hkind : (k.model.item u.item).kind <;> rw [hkind] at howns <;> first | rfl | cases howns

theorem Task.Clears.owned {back : List Visit} (h : k.Clears front)
    (howners : k.OwnersFirst (front ++ v :: back)) : Task.Owned (k.emissions front) v := by
  intro o ho
  obtain ⟨u, hu, rfl, hpage⟩ := howners front v back rfl o ho
  have hvisit : u ∈ (k.emissions front).map Emission.visit := by
    rw [h.map_visit]
    exact List.mem_filter.2 ⟨hu, by simpa using hpage⟩
  obtain ⟨p, hp, rfl⟩ := List.mem_map.1 hvisit
  exact List.mem_map_of_mem hp

/-- A walk that succeeds passed all checks at every visit. -/
theorem visitAll_ok (h : w.After k t (k.emissions front)) (hclears : k.Clears front)
    (howners : k.OwnersFirst (front ++ vs)) (hrun : Walk.visitAll k w vs = (.ok (), w')) :
    k.Clears (front ++ vs) ∧ w'.After k t (k.emissions (front ++ vs)) := by
  induction vs generalizing front w with
  | nil =>
    cases hrun
    rw [List.append_nil]
    exact ⟨hclears, h⟩
  | cons v vs ih =>
    unfold Walk.visitAll at hrun
    split at hrun
    · cases hrun
    · next w₁ hvisit =>
      obtain ⟨hpasses, hafter⟩ := visit_ok h hclears.sound (hclears.owned howners) hvisit
      rw [← Task.emissions_concat] at hafter
      rw [List.append_cons] at howners ⊢
      exact ih hafter (hclears.concat hpasses) howners hrun

/-- A walk that fails ends at a visit that fails, and it passed all checks before. -/
theorem visitAll_stop (h : w.After k t (k.emissions front)) (hclears : k.Clears front)
    (howners : k.OwnersFirst (front ++ vs)) (hrun : Walk.visitAll k w vs = (.error e, w')) :
    ∃ (middle back : List Visit) (v : Visit) (w₁ : Walk), vs = middle ++ v :: back ∧
      k.Clears (front ++ middle) ∧ w₁.After k t (k.emissions (front ++ middle)) ∧
      w₁.visit k v = (.error e, w') := by
  induction vs generalizing front w with
  | nil => cases hrun
  | cons v vs ih =>
    unfold Walk.visitAll at hrun
    split at hrun
    · next w₁ hvisit =>
      cases hrun
      refine ⟨[], vs, v, w, rfl, ?_⟩
      rw [List.append_nil]
      exact ⟨hclears, h, hvisit⟩
    · next w₁ hvisit =>
      obtain ⟨hpasses, hafter⟩ := visit_ok h hclears.sound (hclears.owned howners) hvisit
      rw [← Task.emissions_concat] at hafter
      rw [List.append_cons] at howners
      obtain ⟨middle, back, u, w₂, rfl, hrest⟩ := ih hafter (hclears.concat hpasses) howners hrun
      refine ⟨v :: middle, back, u, w₂, rfl, ?_⟩
      rw [List.append_cons]
      exact hrest

/-- A walk that fails passed all checks up to the visit that ended it. -/
theorem visitAll_error (h : w.After k t (k.emissions front)) (hclears : k.Clears front)
    (howners : k.OwnersFirst (front ++ vs)) (hrun : Walk.visitAll k w vs = (.error e, w')) :
    ∃ (middle back : List Visit) (v : Visit) (w₁ : Walk), vs = middle ++ v :: back ∧
      k.Clears (front ++ middle) ∧
      w₁.After k t (k.emissions (front ++ middle)) ∧ (e.kind = .io ∨ w₁.Stops k v e w' ∧
        (k.settings.limits.maxDurationSecs = 0 ∧ e.kind = .timeExceeded ∨
          k.FailsFirst (k.emissions (front ++ middle)) v e.kind)) := by
  obtain ⟨middle, back, v, w₁, rfl, hcleared, hafter, hvisit⟩ := visitAll_stop h hclears howners hrun
  rw [← List.append_assoc] at howners
  have hcause := visit_error hafter hcleared.sound (hcleared.owned howners) hvisit
  exact ⟨middle, back, v, w₁, rfl, hcleared, hafter, hcause⟩

/-- A walk succeeds where every visit passes all checks and every page has its text already. -/
theorem visitAll_of_hasText (h : w.After k t (k.emissions front))
    (hclears : k.Clears (front ++ vs)) (howners : k.OwnersFirst (front ++ vs))
    (htime : k.settings.limits.maxDurationSecs ≠ 0)
    (hold : ∀ p ∈ k.emissions (front ++ vs), t.hasText (k.path p) p.text = true) :
    ∃ w', Walk.visitAll k w vs = (.ok (), w') := by
  induction vs generalizing front w with
  | nil => exact ⟨w, rfl⟩
  | cons v vs ih =>
    have hpasses := hclears front v vs rfl
    have hfront := hclears.front
    have hsub : k.emissions front ⊆ k.emissions (front ++ v :: vs) := Task.emissions_subset front _
    have htree : w.tree = t := by
      rw [h.tree]
      exact (Task.treeAfter_of_hasText fun p hp => hold p (hsub hp)).1
    obtain ⟨w₁, hvisit⟩ := visit_of_hasText h hpasses htime fun p hp => by
      rw [htree]
      refine hold p ?_
      rw [List.append_cons]
      refine Task.emissions_subset (front ++ [v]) vs ?_
      rw [Task.emissions_concat, hp]
      exact List.mem_append_right _ (List.mem_singleton_self p)
    obtain ⟨-, hafter⟩ := visit_ok h hfront.sound (hfront.owned howners) hvisit
    rw [← Task.emissions_concat] at hafter
    rw [List.append_cons] at hclears howners hold
    rw [Walk.visitAll, hvisit]
    exact ih hafter hclears howners hold

end ReferenceSite.Generation
