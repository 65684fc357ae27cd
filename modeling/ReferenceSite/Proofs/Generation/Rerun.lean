import ReferenceSite.Proofs.Generation.Outcome
import ReferenceSite.Proofs.Manifest.Repeat
import ReferenceSite.Proofs.Navigation.Group

/-!
# Running again

The pages that a run makes depend on the model, the renderer and the settings only, so a second run makes
the same ones and finds them in their files. It merges the same group into the manifest that the first
run wrote, which changes nothing either (`Generator.run_again`).
-/

namespace ReferenceSite

open FileTree Generation

namespace Generator

variable {g g' : Generator} {t t' u : FileTree} {root : Nat} {report : Report}

/-! ## The walk -/

/-- A walk that made a visit had time for it. -/
theorem maxDurationSecs_ne_zero {k : Task} {w w' : Walk} {v : Visit}
    (h : w.visit k v = (.ok (), w')) : k.settings.limits.maxDurationSecs ≠ 0 := by
  intro hzero
  unfold Walk.visit at h
  simp only [hzero, beq_self_eq_true, if_true] at h
  split_ifs at h <;> cases h

theorem maxDurationSecs_ne_zero_of_generate (hm : g.model.Built)
    (h : g.generate t root = (.ok report, g', t')) : g.settings.limits.maxDurationSecs ≠ 0 := by
  obtain ⟨w, hwalk, -⟩ := generate_ok h
  rw [Model.itinerary_eq hm.linked, Walk.visitAll] at hwalk
  split at hwalk
  · cases hwalk
  · next hvisit => exact maxDurationSecs_ne_zero hvisit

/-- A run over files that have all its pages makes them again and changes nothing. -/
theorem generate_again (hm : g.model.Built) (h : g.generate t root = (.ok report, g', t'))
    (hold : ∀ p ∈ g.pages root, u.stat (g.toTask.path p) = .ok (.file (.text p.text))) :
    ∃ report₂ g₂, g'.generate u root = (.ok report₂, g₂, u) ∧ report₂.written = 0 ∧
      report₂.unchanged = report.pages ∧ report₂.totalBytes = report.totalBytes ∧
      g₂.settings = g.settings ∧ g₂.navigation = g'.navigation := by
  have htime := maxDurationSecs_ne_zero_of_generate hm h
  obtain ⟨-, -, hroot, -⟩ := generate_ok h
  obtain ⟨hclears, w, hafter, rfl, rfl, -⟩ := walk_of_generate hm h
  have howners := g.toTask.ownersFirst_itinerary hm.linked root
  have hstart : ((g.keep w).startWalk u).After g.toTask u (g.toTask.emissions []) :=
    (g.keep w).startWalk_after u
  have hhas : ∀ p ∈ g.pages root, u.hasText (g.toTask.path p) p.text = true :=
    fun p hp => hasText_iff.2 (hold p hp)
  obtain ⟨w₂, hwalk⟩ := visitAll_of_hasText hstart hclears howners htime hhas
  obtain ⟨-, hafter₂⟩ := visitAll_ok hstart Task.clears_nil howners hwalk
  rw [List.nil_append] at hafter₂
  obtain ⟨htree, hout⟩ := Task.treeAfter_of_hasText hhas
  have hwritten : w₂.written = 0 := by
    rw [hafter₂.written]
    exact congrArg List.length hout
  have hunchanged : w₂.unchanged = w.written + w.unchanged := by
    have hcount := hafter.count
    have hcount₂ := hafter₂.count
    rw [hwritten, Nat.zero_add] at hcount₂
    rw [hcount₂, hcount]
    rfl
  refine ⟨reportOf w₂, (g.keep w).keep w₂, ?_, hwritten, hunchanged, ?_, rfl, ?_⟩
  · have hrun : Walk.visitAll (g.keep w).toTask ((g.keep w).startWalk u)
        ((g.keep w).model.itinerary root 0 none) = (.ok (), w₂) := hwalk
    have hcontains : (g.keep w).model.contains root = true := hroot
    rw [generate_eq, if_pos hcontains, hrun]
    have hsame : w₂.tree = u := hafter₂.tree.trans htree
    dsimp only
    rw [hsame]
    rfl
  · exact hafter₂.total.trans hafter.total.symm
  · have hentries : w₂.navigation.entries = w.navigation.entries :=
      hafter₂.entries.trans hafter.entries.symm
    exact congrArg Navigation.mk hentries

/-! ## The manifest -/

/-- The manifest that a run writes at the end. -/
def mergedManifest (g : Generator) (t : FileTree) (root : Nat) (s : ManifestSettings) : Manifest :=
  let (_, g', t') := g.generate t root
  Manifest.mergedAt t' s.path s.target (g'.navigation.group s.target.group)

/-- A run that succeeds is a walk that succeeds and an update of the manifest, if there is one. -/
theorem run_ok {s : ManifestSettings} (hs : g.settings.manifest = some s)
    (h : g.run t root = (.ok report, g', t')) :
    ∃ report₁ t₁ outcome, g.generate t root = (.ok report₁, g', t₁) ∧
      Manifest.update t₁ s.path s.target (g'.navigation.group s.target.group) s.maxBytes =
        (.ok outcome, t') ∧
      report = { report₁ with manifestWritten := some (outcome == .written) } := by
  unfold run at h
  split at h
  · cases h
  · next report₁ g₁ t₁ hgenerate =>
    have hsettings : g₁.settings = g.settings := by
      obtain ⟨w, -, -, -, rfl, -⟩ := generate_ok hgenerate
      rfl
    rw [hsettings, hs] at h
    dsimp only at h
    split at h
    · cases h
    · next outcome t₂ hupdate =>
      cases h
      exact ⟨report₁, t₁, outcome, hgenerate, hupdate, rfl⟩

theorem named_group (nav : Navigation) (target : Manifest.Target) :
    Manifest.Named "group" target.group (nav.group target.group).toDocument := by
  rw [← Manifest.isNamed_iff, Manifest.isNamed, nav.get?_group]
  simp [Json.string?]

/-- A run that succeeded, repeated at once, succeeds and changes no file, if the manifest is not in the
    place of a page and its document can be read back: it nests no deeper than a reader allows and holds
    no double. -/
theorem run_again (hm : g.model.Built) {s : ManifestSettings} (hs : g.settings.manifest = some s)
    (hplace : ∀ p ∈ g.pages root, t.place s.path ≠ t.place (g.toTask.path p))
    (hrun : g.run t root = (.ok report, g', t'))
    (hdeep : (g.mergedManifest t root s).toJson.nesting ≤ Json.nestingLimit)
    (hint : (g.mergedManifest t root s).toJson.Integral) :
    ∃ report₂ g₂, g'.run t' root = (.ok report₂, g₂, t') ∧ report₂.written = 0 ∧
      report₂.unchanged = report.pages ∧ report₂.totalBytes = report.totalBytes ∧
      report₂.manifestWritten = some false := by
  obtain ⟨report₁, t₁, outcome, hgenerate, hupdate, rfl⟩ := run_ok hs hrun
  have hfiled : g.toTask.Filed t (g.pages root) t₁ := by
    obtain ⟨-, w, hafter, -, -, rfl⟩ := walk_of_generate hm hgenerate
    exact hafter.filed
  set group := g'.navigation.group s.target.group
  set m := Manifest.mergedAt t₁ s.path s.target group
  have hmerged : g.mergedManifest t root s = m := by
    rw [mergedManifest, hgenerate]
  rw [hmerged] at hdeep hint
  have hproper : m.toJson.Proper :=
    Manifest.proper_mergedAt t₁ s.path s.target (g'.navigation.proper_group s.target.group)
  have hmerge : m.merge s.target group = m :=
    Manifest.merge_merge (named_group g'.navigation s.target) _
  obtain ⟨hvalid, hsize, hfile⟩ := Manifest.update_eq_ok hupdate
  -- after the update the manifest is merged, and the pages of the walk are still in their files
  have hfound : t'.stat s.path = .ok (.file (.text m.toText)) ∧
      ∀ p ∈ g.pages root, t'.stat (g.toTask.path p) = .ok (.file (.text p.text)) := by
    rcases hfile with ⟨rfl, hread⟩ | hreplace
    · exact ⟨Manifest.readText_eq_ok hread, hfiled.stat⟩
    · obtain ⟨hstat, hother⟩ := Manifest.replaceFile_eq_ok hreplace
      refine ⟨hstat, fun p hp => hother (hfiled.stat p hp) ?_⟩
      rw [hfiled.keeps.place, hfiled.keeps.place]
      exact (hplace p hp).symm
  obtain ⟨report₂, g₂, hgenerate₂, hwritten, hunchanged, htotal, hsettings, hnavigation⟩ :=
    generate_again hm hgenerate hfound.2
  have hupdate₂ : Manifest.update t' s.path s.target group s.maxBytes = (.ok .unchanged, t') :=
    Manifest.update_of_merged hfound.1 hvalid hsize (Manifest.ofText_toText hproper hint hdeep) hmerge
  refine ⟨{ report₂ with manifestWritten := some false }, g₂, ?_, hwritten, hunchanged, htotal, rfl⟩
  unfold run
  rw [hgenerate₂]
  dsimp only
  rw [hsettings, hs]
  dsimp only
  rw [hnavigation, hupdate₂]
  rfl

theorem run_again_ofPair : ∃ report g' t' report₂ g₂,
    (ofPair "a" "c" "out" (some pairManifest)).run pairFiles 0 = (.ok report, g', t') ∧
      g'.run t' 0 = (.ok report₂, g₂, t') ∧ report₂.written = 0 ∧
      report₂.manifestWritten = some false := by
  let g := ofPair "a" "c" "out" (some pairManifest)
  have hok : (g.run pairFiles 0).1.isOk = true := by decide +kernel
  rcases hrun : g.run pairFiles 0 with ⟨result, g', t'⟩
  rw [hrun] at hok
  cases result with
  | error e => cases hok
  | ok report =>
    obtain ⟨report₂, g₂, hagain, hwritten, -, -, hmanifest⟩ :=
      run_again (built_ofPair "a" "c" "out" _) (s := pairManifest) rfl (by decide +kernel) hrun
        (by decide +kernel) (by decide +kernel)
    exact ⟨report, g', t', report₂, g₂, rfl, hagain, hwritten, hmanifest⟩

end Generator

end ReferenceSite
