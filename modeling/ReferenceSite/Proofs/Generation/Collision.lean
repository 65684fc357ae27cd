import ReferenceSite.Proofs.Address.Fallback
import ReferenceSite.Proofs.Generation.Navigation

/-!
# Runs that end with two pages of one path

A run stops at a page whose path is, but for case, that of an earlier page of another item
(`Generator.collides_of_interrupted`). Fallback segments prevent this for siblings without names, but not for
all items without names in one item: the pages of alike items below different wrappers have one path
(`Generator.unnamed_collisions_alike`).
-/

namespace ReferenceSite

open Generation

namespace Generator

variable {g g' : Generator} {t t' : FileTree} {root : Nat} {e : Error}

/-- A run was ended at a visit by an earlier page: the item has, but for case, the address of that page, which
    is the page of another item. Where both items are in the same item and their names show nothing, they
    are alike, and no siblings. -/
structure Collides (g : Generator) (before : List Visit) (v : Visit) (q : Emission) : Prop where
  earlier : q ∈ g.toTask.emissions before
  other : q.item ≠ v.item
  pages : g.toTask.HasPage q.item ∧ g.toTask.HasPage v.item
  address : ∃ a, g.model.address v.item = .ok a ∧ q.folded = Text.lowercase a.toText
  unnamed : (g.model.item q.item).Unnamed → (g.model.item v.item).Unnamed →
    g.model.enclosing? q.item = g.model.enclosing? v.item →
      g.model.Alike q.item v.item ∧ (g.model.item q.item).parent ≠ (g.model.item v.item).parent

/-- A run that ends with a path collision was ended by the page of another item. -/
theorem collides_of_interrupted (hm : g.model.Built) {before : List Visit} {v : Visit}
    (h : g.Interrupted t root e g' t' before v) (hkind : e.kind = .pathCollision) :
    ∃ q, g.Collides before v q := by
  have hfails : g.toTask.Fails (g.toTask.emissions before) v .pathCollision := hkind ▸ h.fails.1
  obtain ⟨hpage, a, ha, q, hq, hfolded⟩ := hfails
  obtain ⟨hpageq, haq⟩ := h.sound.address hq
  have hother : q.item ≠ v.item := by
    intro hsame
    obtain ⟨after, -, hpre⟩ := h.walk
    have honce := hpre.once
    have hitem := List.mem_map_of_mem (f := Emission.item) hq
    rw [h.pages, List.mem_map] at hitem
    obtain ⟨u, hu, hitem⟩ := hitem
    have hvisited : v.item ∈ before.map Visit.item := by
      rw [← hsame, ← hitem]
      exact List.mem_map_of_mem (List.mem_filter.1 hu).1
    rw [List.map_append, List.map_cons, List.nodup_append] at honce
    exact honce.2.2 _ hvisited _ List.mem_cons_self rfl
  refine ⟨q, hq, hother, ⟨hpageq, hpage⟩, ⟨a, ha, hfolded⟩, fun hx hy hsame => ?_⟩
  have hkept := hm.keptApart_of_unnamed hother hpageq hpage hx hy hsame
  have halike := (hkept.folded _ _ haq ha).1 hfolded
  exact ⟨halike, hkept.siblings halike⟩

/-- Items whose names show nothing and that are in the same item have the same address exactly if they are
    alike, which siblings are not; and a run that ends with a path collision of such items was ended by two
    that are alike. -/
theorem unnamed_collisions_alike {text : String} (hm : Model.ofJsonText text = .ok g.model) :
    (∀ id, (g.model.item id).isAnonymous = true → (g.model.item id).Unnamed) ∧
    (∀ x y, x ≠ y → g.toTask.HasPage x → g.toTask.HasPage y →
      (g.model.item x).Unnamed → (g.model.item y).Unnamed →
      g.model.enclosing? x = g.model.enclosing? y → g.model.KeptApart x y) ∧
    ∀ t root e g' t', g.generate t root = (.error e, g', t') ∨ g.run t root = (.error e, g', t') →
      e.kind = .pathCollision →
      ∃ before v q, g.Interrupted t root e g' t' before v ∧ g.Collides before v q := by
  have hbuilt := Model.built_ofJsonText hm
  refine ⟨fun id => Declaration.unnamed_of_isAnonymous,
    fun x y hne hx hy hnamex hnamey hsame => hbuilt.keptApart_of_unnamed hne hx hy hnamex hnamey hsame,
    fun t root e g' t' h hkind => ?_⟩
  obtain ⟨before, v, hinterrupted, -⟩ := interrupted_at_first_failure hbuilt h
    (by rw [hkind]; decide) (by rw [hkind]; rintro ⟨⟩)
  obtain ⟨q, hcollides⟩ := collides_of_interrupted hbuilt hinterrupted hkind
  exact ⟨before, v, q, hinterrupted, hcollides⟩

/-- Two entry points that have a class without a name each. -/
def entryPointsText : String :=
  "\x7b\"kind\":\"Model\",\"members\":[" ++
    "\x7b\"kind\":\"EntryPoint\",\"members\":[\x7b\"kind\":\"Class\"\x7d]\x7d," ++
    "\x7b\"kind\":\"EntryPoint\",\"members\":[\x7b\"kind\":\"Class\"\x7d]\x7d]\x7d"

theorem generate_entryPointsText :
    Model.ofJsonText entryPointsText = .ok (ofText entryPointsText).model ∧
      (∀ x ∈ [2, 4], (ofText entryPointsText).toTask.HasPage x ∧
        ((ofText entryPointsText).model.item x).isAnonymous = true ∧
        (ofText entryPointsText).model.enclosing? x = none ∧
        (ofText entryPointsText).model.address x = .ok ⟨["class-1"]⟩) ∧
      ∃ e g' t', (ofText entryPointsText).generate pairFiles Model.root = (.error e, g', t') ∧
        e.kind = .pathCollision := by
  have hread : (Model.ofJsonText entryPointsText).toOption.isSome = true := by decide +kernel
  have hitems : ∀ x ∈ [2, 4], (ofText entryPointsText).toTask.HasPage x ∧
      ((ofText entryPointsText).model.item x).isAnonymous = true ∧
      (ofText entryPointsText).model.enclosing? x = none ∧
      (ofText entryPointsText).model.address x = .ok ⟨["class-1"]⟩ := by decide +kernel
  have hkind : (match ((ofText entryPointsText).generate pairFiles Model.root).1 with
      | .ok _ => none
      | .error e => some e.kind) = some .pathCollision := by decide +kernel
  refine ⟨ofJsonText_ofText hread, hitems, ?_⟩
  rcases hrun : (ofText entryPointsText).generate pairFiles Model.root with ⟨result, g', t'⟩
  rw [hrun] at hkind
  cases result with
  | ok report => cases hkind
  | error e => exact ⟨e, g', t', rfl, Option.some.inj hkind⟩

theorem unnamed_collisions_alike_entryPointsText : ∃ e g' t' before v q,
    Model.ofJsonText entryPointsText = .ok (ofText entryPointsText).model ∧
      (ofText entryPointsText).generate pairFiles Model.root = (.error e, g', t') ∧
      e.kind = .pathCollision ∧ (ofText entryPointsText).model.KeptApart 2 4 ∧
      (ofText entryPointsText).Interrupted pairFiles Model.root e g' t' before v ∧
      (ofText entryPointsText).Collides before v q := by
  obtain ⟨hmodel, hitems, e, g', t', hrun, hkind⟩ := generate_entryPointsText
  obtain ⟨hunnamed, hapart, hcollision⟩ := unnamed_collisions_alike hmodel
  obtain ⟨hpage, hname, hnone, -⟩ := hitems 2 (by decide)
  obtain ⟨hpage', hname', hnone', -⟩ := hitems 4 (by decide)
  obtain ⟨before, v, q, hinterrupted, hcollides⟩ :=
    hcollision pairFiles Model.root e g' t' (Or.inl hrun) hkind
  exact ⟨e, g', t', before, v, q, hmodel, hrun, hkind,
    hapart 2 4 (by decide) hpage hpage' (hunnamed 2 hname) (hunnamed 4 hname') (hnone.trans hnone'.symm),
    hinterrupted, hcollides⟩

/-- The classes in the two entry points have the same address, and the run ends there. -/
theorem entry_points_collide :
    (¬ ∀ (text : String) (m : Model) (x y : Nat), Model.ofJsonText text = .ok m → x ≠ y →
      (m.item x).kind.producesPage = true → (m.item y).kind.producesPage = true →
      m.enclosing? x = m.enclosing? y →
      (m.item x).isAnonymous = true → (m.item y).isAnonymous = true →
      ∀ a, ¬ (m.address x = .ok a ∧ m.address y = .ok a)) ∧
    ∃ e g' t', (ofText entryPointsText).generate pairFiles Model.root = (.error e, g', t') ∧
      e.kind = .pathCollision := by
  obtain ⟨hmodel, hitems, hrun⟩ := generate_entryPointsText
  refine ⟨fun hall => ?_, hrun⟩
  obtain ⟨hpage, hname, hnone, haddress⟩ := hitems 2 (by decide)
  obtain ⟨hpage', hname', hnone', haddress'⟩ := hitems 4 (by decide)
  exact hall entryPointsText _ 2 4 hmodel (by decide) hpage hpage' (hnone.trans hnone'.symm) hname hname'
    ⟨["class-1"]⟩ ⟨haddress, haddress'⟩

end Generator

end ReferenceSite
