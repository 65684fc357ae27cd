import ReferenceSite.Generation
import ReferenceSite.Proofs.Generation.Walk

/-!
# What a run leaves behind

A run that succeeds has written the page of every item that it reaches, and nothing else
(`Generator.generate_completed`). A run that fails at a check has done so at the first visit that fails one,
and it leaves the pages of the visits before (`Generator.interrupted_at_first_failure`).
-/

namespace ReferenceSite

open FileTree Generation

namespace Generator

variable {g g' : Generator} {t t' : FileTree} {root : Nat} {report : Report} {e : Error}

/-! ## A run and its walk -/

theorem startWalk_after (g : Generator) (t : FileTree) :
    (g.startWalk t).After g.toTask t (g.toTask.emissions []) :=
  ⟨rfl, Task.filed_nil g.toTask t, resolves_clear g.model g.cache, rfl, rfl, rfl, rfl, fun _ _ => rfl,
    rfl, rfl⟩

/-- What a generator reports about the walk that it made. -/
def reportOf (w : Walk) : Report where
  written := w.written
  unchanged := w.unchanged
  totalBytes := w.totalBytes
  navigationEntries := w.navigation.entries.length
  cache := w.cache.stats

/-- What a generator keeps of the walk that it made. -/
def keep (g : Generator) (w : Walk) : Generator :=
  { g with cache := w.cache, navigation := w.navigation }

/-- A run of a generator is a walk, if there is an item to start from. -/
theorem generate_eq (g : Generator) (t : FileTree) (root : Nat) :
    g.generate t root = if g.model.contains root then
      let (result, w) := Walk.visitAll g.toTask (g.startWalk t) (g.model.itinerary root 0 none)
      (result.map fun () => reportOf w, g.keep w, w.tree)
    else (.error (unknownRoot root), g, t) := by
  unfold generate
  cases g.model.contains root <;> rfl

theorem generate_ok (h : g.generate t root = (.ok report, g', t')) :
    ∃ w, Walk.visitAll g.toTask (g.startWalk t) (g.model.itinerary root 0 none) = (.ok (), w) ∧
      g.model.contains root = true ∧ report = reportOf w ∧ g' = g.keep w ∧ t' = w.tree := by
  rw [generate_eq] at h
  split_ifs at h with hroot
  · rcases hwalk : Walk.visitAll g.toTask (g.startWalk t) (g.model.itinerary root 0 none)
      with ⟨result, w⟩
    rw [hwalk] at h
    cases result with
    | error e => cases h
    | ok u =>
      cases h
      exact ⟨w, rfl, hroot, rfl, rfl, rfl⟩
  · cases h

theorem generate_error (h : g.generate t root = (.error e, g', t')) :
    e = unknownRoot root ∨
      ∃ w, Walk.visitAll g.toTask (g.startWalk t) (g.model.itinerary root 0 none) = (.error e, w) ∧
        g' = g.keep w ∧ t' = w.tree := by
  rw [generate_eq] at h
  split_ifs at h with hroot
  · rcases hwalk : Walk.visitAll g.toTask (g.startWalk t) (g.model.itinerary root 0 none)
      with ⟨result, w⟩
    rw [hwalk] at h
    cases result with
    | error e =>
      cases h
      exact Or.inr ⟨w, rfl, rfl, rfl⟩
    | ok u => cases h
  · cases h
    exact Or.inl rfl

/-! ## Success -/

/-- The pages of a run that succeeds. -/
def pages (g : Generator) (root : Nat) : List Emission :=
  g.toTask.emissions (g.model.itinerary root 0 none)

/-- What a run that succeeds has done. The pages are those of the items that are reached, in depth-first
    pre-order, each once; all of them are sound and in their files, and no other file has changed. The
    report counts the pages that had to be written, and if the output directory can be found in the files
    as they were, these are the pages whose files did not have their text before the run. -/
structure Completed (g : Generator) (t : FileTree) (root : Nat) (report : Report) (t' : FileTree) :
    Prop where
  reached : ∀ id, id ∈ (g.pages root).map Emission.item ↔
    g.toTask.HasPage id ∧ ∃ depth, g.model.Below root depth id
  once : ((g.pages root).map Emission.item).Nodup
  order : ((g.pages root).map Emission.item).Pairwise g.model.Precedes
  sound : g.toTask.Sound (g.pages root)
  filed : g.toTask.Filed t (g.pages root) t'
  written : report.written = (g.toTask.outdated t (g.pages root)).length
  outdated : t.Rooted → t.Grounded g.settings.outputDirectory → g.toTask.outdated t (g.pages root) =
    (g.pages root).filter fun p => !t.hasText (g.toTask.path p) p.text
  count : report.written + report.unchanged = (g.pages root).length
  total : report.totalBytes = Emission.total (g.pages root)

/-- The walk of a run that succeeds. -/
theorem walk_of_generate (hm : g.model.Built) (h : g.generate t root = (.ok report, g', t')) :
    g.toTask.Clears (g.model.itinerary root 0 none) ∧
      ∃ w, w.After g.toTask t (g.pages root) ∧ report = reportOf w ∧ g' = g.keep w ∧ t' = w.tree := by
  obtain ⟨w, hwalk, -, hreport, hg, ht⟩ := generate_ok h
  obtain ⟨hclears, hafter⟩ := visitAll_ok (g.startWalk_after t) Task.clears_nil
    (g.toTask.ownersFirst_itinerary hm.linked root) hwalk
  exact ⟨hclears, w, hafter, hreport, hg, ht⟩

/-- A run that succeeds writes the page of every item that it reaches, and nothing else. -/
theorem generate_completed (hm : g.model.Built) (h : g.generate t root = (.ok report, g', t')) :
    g.Completed t root report t' := by
  obtain ⟨hclears, w, hafter, rfl, -, rfl⟩ := walk_of_generate hm h
  have hpre := Model.preorder_itinerary hm root
  have hitems : (g.pages root).map Emission.item =
      ((g.model.itinerary root 0 none).filter fun v => g.toTask.HasPage v.item).map Visit.item :=
    hclears.map_item
  have hsound : g.toTask.Sound (g.pages root) := hclears.sound
  refine ⟨fun id => ?_, hsound.nodup_item, ?_, hsound, hafter.filed, hafter.written, hafter.outdated,
    hafter.count, hafter.total⟩
  · rw [hitems, List.mem_map]
    constructor
    · rintro ⟨v, hv, rfl⟩
      obtain ⟨hv, hpage⟩ := List.mem_filter.1 hv
      exact ⟨by simpa using hpage, v.depth, hpre.below v hv⟩
    · rintro ⟨hpage, depth, hbelow⟩
      obtain ⟨v, hv, rfl⟩ := hpre.reached depth id hbelow
      exact ⟨v, List.mem_filter.2 ⟨hv, by simpa using hpage⟩, rfl⟩
  · rw [hitems, List.pairwise_map]
    exact hpre.order.filter _

/-- A generator for a model of a package and a class, which writes their names as pages. -/
def ofPair (package name : String) (directory : Path)
    (manifest : Option ManifestSettings := none) : Generator :=
  .ofTask {
    model := (Model.empty.add 0 { kind := .package, name := package }).add 0
      { kind := .class, name }
    renderer := fun page _ => .ok page.title
    settings := { outputDirectory := directory, manifest } } {}

theorem built_ofPair (package name : String) (directory : Path) (manifest : Option ManifestSettings) :
    (ofPair package name directory manifest).model.Built :=
  .add (.add (.root none []) (by decide) _) (by simp [Model.size_add]) _

/-- Files that have the pages of such a generator already. -/
def pairFiles : FileTree where
  nodes := [(["out"], .directory), (["out", "a.mdx"], .file (.text "a")),
    (["out", "b.mdx"], .file (.text "b")), (["docs.json"], .file (.text "\x7b\"version\":1\x7d"))]

/-- The settings of its manifest. -/
def pairManifest : ManifestSettings where
  path := "docs.json"
  target := { group := "Reference" }
  maxBytes := 1000

theorem generate_completed_ofPair : ∃ report g' t',
    (ofPair "a" "c" "out").generate pairFiles 0 = (.ok report, g', t') ∧ report.written = 1 ∧
      (ofPair "a" "c" "out").Completed pairFiles 0 report t' := by
  have hwritten : ((ofPair "a" "c" "out").generate pairFiles 0).1.toOption.map Report.written =
      some 1 := by decide +kernel
  rcases hrun : (ofPair "a" "c" "out").generate pairFiles 0 with ⟨result, g', t'⟩
  rw [hrun] at hwritten
  cases result with
  | error e => cases hwritten
  | ok report =>
    exact ⟨report, g', t', rfl, Option.some.inj hwritten,
      generate_completed (built_ofPair "a" "c" "out" none) hrun⟩

/-- The pages that have to be written are not always those whose files did not have their text before the
    run, neither by path nor by place: a path through a missing directory leads nowhere until the first
    page is written. -/
theorem written_ne_missing : ¬ ∀ (g g' : Generator) (t t' : FileTree) (root : Nat) (report : Report),
    g.model.Built → t.Rooted → g.generate t root = (.ok report, g', t') →
      report.written = ((g.pages root).filter fun p =>
        !t.hasText (g.toTask.path p) p.text).length ∨
      report.written = ((g.pages root).filter fun p =>
        t.file? (t.place (g.toTask.path p)) != some (.text p.text)).length := by
  intro hall
  let g := ofPair "a" "b" "x/../out"
  have hwritten : (g.generate pairFiles 0).1.toOption.map Report.written = some 1 := by decide +kernel
  have hpath : ((g.pages 0).filter fun p =>
      !pairFiles.hasText (g.toTask.path p) p.text).length = 2 := by decide +kernel
  have hplace : ((g.pages 0).filter fun p =>
      pairFiles.file? (pairFiles.place (g.toTask.path p)) != some (.text p.text)).length = 0 := by
    decide +kernel
  rcases hrun : g.generate pairFiles 0 with ⟨result, g', t'⟩
  rw [hrun] at hwritten
  cases result with
  | error e => cases hwritten
  | ok report =>
    have hone : report.written = 1 := Option.some.inj hwritten
    have hcount := hall g g' pairFiles t' 0 report (built_ofPair "a" "b" "x/../out" none)
      (rooted_of_nodes (by decide)) hrun
    rw [hpath, hplace, hone] at hcount
    omega

/-! ## Failure -/

/-- A run that was ended by an error at a visit. The visits before passed all checks, the error is the first
    check that this visit fails, the files are those before the run with the pages of the visits before,
    and the navigation holds their entries. -/
structure Interrupted (g : Generator) (t : FileTree) (root : Nat) (e : Error) (g' : Generator)
    (t' : FileTree) (before : List Visit) (v : Visit) : Prop where
  walk : ∃ after, g.model.itinerary root 0 none = before ++ v :: after ∧
    g.model.Preorder root (before ++ v :: after)
  passed : g.toTask.Clears before
  fails : g.toTask.FailsFirst (g.toTask.emissions before) v e.kind
  item : e.item = some (g.model.canonicalName v.item)
  pages : (g.toTask.emissions before).map Emission.item =
    (before.filter fun u => g.toTask.HasPage u.item).map Visit.item
  sound : g.toTask.Sound (g.toTask.emissions before)
  filed : g.toTask.Filed t (g.toTask.emissions before) t'
  entries : g'.navigation.entries = (g.toTask.emissions before).filterMap g.toTask.entry?

/-- An error of the walk at a check comes from the first visit that fails one. -/
theorem interrupted_of_generate (hm : g.model.Built) (h : g.generate t root = (.error e, g', t'))
    (hkind : e.kind ∈ Task.checks) (hitem : e.kind = .invalidPath → e.item ≠ none) :
    ∃ before v, g.Interrupted t root e g' t' before v := by
  rcases generate_error h with rfl | ⟨w, hwalk, rfl, rfl⟩
  · exact absurd rfl (hitem rfl)
  · obtain ⟨before, after, v, w₁, hvs, hclears, hafter, hcause⟩ := visitAll_error (g.startWalk_after t)
      Task.clears_nil (g.toTask.ownersFirst_itinerary hm.linked root) hwalk
    rw [List.nil_append] at hclears hafter hcause
    rcases hcause with hio | ⟨hstops, ⟨-, htime⟩ | hfails⟩
    · rw [hio] at hkind
      exact absurd hkind (by decide)
    · rw [htime] at hkind
      exact absurd hkind (by decide)
    · refine ⟨before, v, ⟨after, ?_⟩, hclears, hfails, hstops.item, hclears.map_item, hclears.sound,
        ?_, ?_⟩
      · have hpre := Model.preorder_itinerary hm root
        rw [hvs] at hpre
        exact ⟨hvs, hpre⟩
      · rw [hstops.tree]
        exact hafter.filed
      · rw [keep, hstops.navigation]
        exact hafter.entries

/-- A run fails at a check only in its walk. -/
theorem generate_of_run (h : g.run t root = (.error e, g', t')) (hkind : e.kind ≠ .manifest) :
    g.generate t root = (.error e, g', t') := by
  unfold run at h
  split at h
  · next hgenerate => rw [hgenerate, h]
  · split at h
    · cases h
    · dsimp only at h
      split at h
      · cases h
        exact absurd rfl hkind
      · cases h

/-- A run that fails at a check of the walk has failed at the first visit that fails one, with the first
    check that this visit fails. It leaves the pages of the visits before and their navigation, and the
    manifest as it was. -/
theorem interrupted_at_first_failure (hm : g.model.Built)
    (h : g.generate t root = (.error e, g', t') ∨ g.run t root = (.error e, g', t'))
    (hkind : e.kind ∈ Task.checks) (hitem : e.kind = .invalidPath → e.item ≠ none) :
    ∃ before v, g.Interrupted t root e g' t' before v ∧
      ∀ s, g.settings.manifest = some s →
        (∀ p ∈ g.toTask.emissions before, t.place s.path ≠ t.place (g.toTask.path p)) →
        t'.file? (t.place s.path) = t.file? (t.place s.path) := by
  have hgenerate : g.generate t root = (.error e, g', t') := by
    rcases h with h | h
    · exact h
    · refine generate_of_run h fun hmanifest => ?_
      rw [hmanifest] at hkind
      exact absurd hkind (by decide)
  obtain ⟨before, v, hinterrupted⟩ := interrupted_of_generate hm hgenerate hkind hitem
  exact ⟨before, v, hinterrupted, fun s _ hs => hinterrupted.filed.file? hs⟩

theorem interrupted_at_first_failure_ofPair : ∃ e g' t',
    (ofPair "a" "A" "out").run pairFiles 0 = (.error e, g', t') ∧ e.kind = .pathCollision ∧
      ∃ before v, (ofPair "a" "A" "out").Interrupted pairFiles 0 e g' t' before v := by
  have hkind : (match ((ofPair "a" "A" "out").run pairFiles 0).1 with
      | .ok _ => none
      | .error e => some e.kind) = some .pathCollision := by decide +kernel
  rcases hrun : (ofPair "a" "A" "out").run pairFiles 0 with ⟨result, g', t'⟩
  rw [hrun] at hkind
  cases result with
  | ok report => cases hkind
  | error e =>
    have hcollision : e.kind = .pathCollision := Option.some.inj hkind
    obtain ⟨before, v, hinterrupted, -⟩ := interrupted_at_first_failure
      (built_ofPair "a" "A" "out" none) (Or.inr hrun) (by rw [hcollision]; decide)
      (by rw [hcollision]; intro h; cases h)
    exact ⟨e, g', t', rfl, hcollision, before, v, hinterrupted⟩

end Generator

end ReferenceSite
