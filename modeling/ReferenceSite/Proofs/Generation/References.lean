import ReferenceSite.Proofs.Address.Reference
import ReferenceSite.Proofs.Generation.Navigation
import ReferenceSite.Proofs.Manifest.Update

/-!
# The check of the page references of a run

After a walk that wrote all pages, the manifest is updated with a group that refers to the listed pages. The
update checks the group first, so a run can still be refused for a page reference whose address was accepted
(`Generator.run_refused_iff`). With a plain path in the site, that happens exactly if the path is empty and a
listed page has an address with a colon in the second place (`Generator.references_refused_iff`).
-/

namespace ReferenceSite

open Generation

namespace Manifest

variable {t : FileTree} {path : Path} {target : Target} {group : NavGroup} {maxBytes : Nat}
  {i : NavGroup.InvalidRef}

theorem readExisting_ne_invalidRef : readExisting t path maxBytes ≠ .error (.invalidRef i) := by
  intro h
  unfold readExisting at h
  split at h
  · cases h
  · cases h
  · split_ifs at h
    cases h

/-- An update is refused for a page reference exactly if the check of the group finds it, and then nothing
    is written. -/
theorem update_refused_iff :
    (update t path target group maxBytes).1 = .error (.invalidRef i) ↔ group.invalidRef? = some i := by
  constructor
  · intro h
    have hruns := runs_update t path target group maxBytes
    rcases hupdate : update t path target group maxBytes with ⟨result, u⟩
    rw [hupdate] at h hruns
    obtain rfl : result = .error (.invalidRef i) := h
    cases hruns with
    | refused h => exact h
    | unread _ h => exact absurd h readExisting_ne_invalidRef
    -- the file is replaced after the check, and whatever fails then is another error
    | failed _ h =>
      obtain ⟨⟨p, hio⟩, -⟩ := replaceFile_eq_error h
      cases hio
  · intro h
    unfold update
    rw [h]

theorem update_of_invalidRef (h : group.invalidRef? = some i) :
    update t path target group maxBytes = (.error (.invalidRef i), t) := by
  unfold update
  rw [h]

end Manifest

namespace Generator

variable {g g' : Generator} {t t' : FileTree} {root : Nat} {report : Report} {s : ManifestSettings}

/-- After a walk that succeeds, a run is refused for a page reference exactly if the check of the group
    finds it. The pages of the walk stay. -/
theorem run_refused_iff (hs : g.settings.manifest = some s)
    (h : g.generate t root = (.ok report, g', t')) {i : NavGroup.InvalidRef} :
    g.run t root = (.error (manifestError s.path (.invalidRef i)), g', t') ↔
      (g'.navigation.group s.target.group).invalidRef? = some i := by
  have hsettings : g'.settings.manifest = some s := by
    obtain ⟨w, -, -, -, rfl, -⟩ := generate_ok h
    exact hs
  unfold run
  rw [h]
  dsimp only
  rw [hsettings]
  dsimp only
  constructor
  · intro herror
    split at herror
    · next e u hupdate =>
      cases herror
      exact Manifest.update_refused_iff.1 (congrArg Prod.fst hupdate)
    · cases herror
  · intro hinvalid
    rw [Manifest.update_of_invalidRef hinvalid]

/-- The group of a run refers to the listed pages. -/
theorem mem_refs_group (hm : g.model.Built) (h : g.generate t root = (.ok report, g', t'))
    {heading ref : String} : ref ∈ (g'.navigation.group heading).refs ↔
      ∃ p ∈ g.pages root, g.toTask.Listed root p ∧ g.toTask.pageRef p = ref := by
  classical
  have hnavigated := navigated_of_generate hm h
  have hpages : g'.navigation.entries.map Navigation.Entry.page =
      ((g.pages root).filter fun p => g.toTask.Listed root p).map g.toTask.pageRef := by
    rw [← List.forall₂_eq_eq_eq, List.forall₂_map_left_iff, List.forall₂_map_right_iff]
    exact hnavigated.entries.imp fun e p hentry => hentry.page
  rw [(hnavigated.refs heading).mem_iff, hpages, List.mem_map]
  simp only [List.mem_filter, decide_eq_true_eq, and_assoc]

/-- Every page reference of the group was made from an accepted address, below a path in the site. -/
def Accepted (base : String) (group : NavGroup) : Prop :=
  ∀ ref ∈ group.refs, ∃ segments a, Address.ofSegments segments = .ok a ∧ ref = a.pageRef base

/-- The check of a group of accepted addresses below a plain path can only find a drive, and it does so
    exactly if the path is empty and a reference has a colon in the second place. -/
theorem Accepted.invalidRef? {base : String} {group : NavGroup} (h : Accepted base group)
    (hbase : Address.PlainBase base) :
    (∀ i, group.invalidRef? = some i → i.fault = .drive) ∧
      (group.invalidRef? = none ↔ base ≠ "" ∨ ∀ ref ∈ group.refs, ¬ Address.HasColon ref) := by
  have hfault : ∀ ref ∈ group.refs, NavGroup.refFault? ref =
      if base = "" ∧ Address.HasColon ref then some .drive else none := by
    intro ref href
    obtain ⟨segments, a, ha, rfl⟩ := h ref href
    rw [Address.refFault?_pageRef ha hbase]
    by_cases hempty : base = ""
    · subst hempty
      have hself : a.pageRef "" = a.toText := rfl
      rw [hself]
    · rw [if_neg (fun h => hempty h.1), if_neg (fun h => hempty h.1)]
  constructor
  · intro i hi
    obtain ⟨href, hi⟩ := NavGroup.invalidRef?_eq_some hi
    rw [hfault _ href] at hi
    split_ifs at hi
    exact (Option.some.inj hi).symm
  · rw [NavGroup.invalidRef?_eq_none_iff]
    constructor
    · intro hnone
      by_cases hempty : base = ""
      · refine Or.inr fun ref href hcolon => ?_
        have := hnone ref href
        rw [hfault ref href, if_pos ⟨hempty, hcolon⟩] at this
        cases this
      · exact Or.inl hempty
    · rintro hcases ref href
      rw [hfault ref href, if_neg]
      rintro ⟨hempty, hcolon⟩
      rcases hcases with hne | hnone
      · exact hne hempty
      · exact hnone ref href hcolon

/-- The references of a run were made from accepted addresses. -/
theorem accepted_group (hm : g.model.Built) (h : g.generate t root = (.ok report, g', t'))
    (heading : String) : Accepted g.settings.pageBase (g'.navigation.group heading) := by
  obtain ⟨hclears, -⟩ := walk_of_generate hm h
  intro ref href
  obtain ⟨p, hp, -, rfl⟩ := (mem_refs_group hm h).1 href
  exact ⟨_, p.address, (hclears.sound.address hp).2, rfl⟩

/-- Where the two checks of page references disagree. A group of accepted addresses below a plain path passes
    its check, unless the path is empty and an address has a colon in the second place. So that is also
    exactly when a run is refused for a page reference after its walk has succeeded. -/
theorem references_refused_iff {base : String} (hbase : Address.PlainBase base) :
    (∀ group, Accepted base group →
      (∀ i, group.invalidRef? = some i → i.fault = .drive) ∧
        (group.invalidRef? = none ↔ base ≠ "" ∨ ∀ ref ∈ group.refs, ¬ Address.HasColon ref)) ∧
    ∀ (g g' : Generator) (t t' : FileTree) (root : Nat) (report : Report) (s : ManifestSettings),
      g.model.Built → g.settings.pageBase = base → g.settings.manifest = some s →
      g.generate t root = (.ok report, g', t') →
      ((∃ i, g.run t root = (.error (manifestError s.path (.invalidRef i)), g', t')) ↔
        base = "" ∧
          ∃ p ∈ g.pages root, g.toTask.Listed root p ∧ Address.HasColon p.address.toText) := by
  refine ⟨fun group haccepted => haccepted.invalidRef? hbase, ?_⟩
  rintro g g' t t' root report s hm rfl hs h
  have hcheck := ((accepted_group hm h s.target.group).invalidRef? hbase).2
  have hrefused : (∃ i, g.run t root = (.error (manifestError s.path (.invalidRef i)), g', t')) ↔
      (g'.navigation.group s.target.group).invalidRef? ≠ none := by
    rw [Option.ne_none_iff_exists']
    exact exists_congr fun i => run_refused_iff hs h
  rw [hrefused, Ne, hcheck, not_or, not_not]
  refine and_congr_right fun hempty => ?_
  push Not
  constructor
  · rintro ⟨ref, href, hcolon⟩
    obtain ⟨p, hp, hlisted, rfl⟩ := (mem_refs_group hm h).1 href
    rw [Task.pageRef, hempty] at hcolon
    exact ⟨p, hp, hlisted, hcolon⟩
  · rintro ⟨p, hp, hlisted, hcolon⟩
    refine ⟨g.toTask.pageRef p, (mem_refs_group hm h).2 ⟨p, hp, hlisted, rfl⟩, ?_⟩
    rw [Task.pageRef, hempty]
    exact hcolon

/-- A run with a package whose name has a colon behind a digit. -/
theorem generate_ofPair_colon : ∃ report g' t',
    (ofPair "1:a" "c" "out" (some pairManifest)).generate pairFiles 0 = (.ok report, g', t') ∧
      report.written = 2 ∧ (g'.navigation.group "Reference").refs = ["c", "1:a"] := by
  have hwritten : ((ofPair "1:a" "c" "out" (some pairManifest)).generate pairFiles 0).1.toOption.map
      Report.written = some 2 := by decide +kernel
  have hrefs : (((ofPair "1:a" "c" "out" (some pairManifest)).generate pairFiles 0).2.1.navigation.group
      "Reference").refs = ["c", "1:a"] := by decide +kernel
  rcases hrun : (ofPair "1:a" "c" "out" (some pairManifest)).generate pairFiles 0 with ⟨result, g', t'⟩
  rw [hrun] at hwritten hrefs
  cases result with
  | error e => cases hwritten
  | ok report => exact ⟨report, g', t', rfl, Option.some.inj hwritten, hrefs⟩

/-- Such a run is refused when its two pages are written. -/
theorem run_ofPair_colon {report : Report} {g' : Generator} {t' : FileTree}
    (hrun : (ofPair "1:a" "c" "out" (some pairManifest)).generate pairFiles 0 = (.ok report, g', t'))
    (hrefs : (g'.navigation.group "Reference").refs = ["c", "1:a"]) :
    (ofPair "1:a" "c" "out" (some pairManifest)).run pairFiles 0 =
      (.error (manifestError "docs.json" (.invalidRef ⟨"1:a", .drive⟩)), g', t') := by
  refine (run_refused_iff (s := pairManifest) rfl hrun).2 ?_
  have hrefs' : (g'.navigation.group pairManifest.target.group).refs = ["c", "1:a"] := hrefs
  rw [NavGroup.invalidRef?, hrefs']
  decide +kernel

theorem references_refused_iff_ofPair : ∃ report g' t',
    (ofPair "1:a" "c" "out" (some pairManifest)).generate pairFiles 0 = (.ok report, g', t') ∧
      (∃ i, (ofPair "1:a" "c" "out" (some pairManifest)).run pairFiles 0 =
        (.error (manifestError "docs.json" (.invalidRef i)), g', t')) ∧
      ∃ p ∈ (ofPair "1:a" "c" "out" (some pairManifest)).pages 0,
        Address.HasColon p.address.toText := by
  obtain ⟨report, g', t', hrun, -, hrefs⟩ := generate_ofPair_colon
  have hrefused := run_ofPair_colon hrun hrefs
  have hbase : Address.PlainBase "" := ⟨[], rfl, by simp⟩
  obtain ⟨-, p, hp, -, hcolon⟩ := ((references_refused_iff hbase).2 _ g' pairFiles t' 0 report pairManifest
    (built_ofPair "1:a" "c" "out" _) rfl rfl hrun).1 ⟨_, hrefused⟩
  exact ⟨report, g', t', hrun, ⟨_, hrefused⟩, p, hp, hcolon⟩

/-- The check of groups refuses a reference that was made from an accepted address, and a run that has one is
    refused when all its pages are written. -/
theorem references_not_all_accepted :
    (¬ ∀ segments a base (group : NavGroup), Address.ofSegments segments = .ok a →
      Address.PlainBase base → group.refs = [a.pageRef base] → group.invalidRef? = none) ∧
    ¬ ∀ (g g' : Generator) (t t' : FileTree) (root : Nat) (report : Report) (s : ManifestSettings),
      g.model.Built → Address.PlainBase g.settings.pageBase → g.settings.manifest = some s →
      g.generate t root = (.ok report, g', t') →
      ∀ i, (g.run t root).1 ≠ .error (manifestError s.path (.invalidRef i)) := by
  constructor
  · intro hall
    have haccepted : Address.ofSegments ["1:a"] = .ok ⟨["1:a"]⟩ := by decide +kernel
    have hgroup := hall ["1:a"] ⟨["1:a"]⟩ "" { heading := "Reference", pages := [.page "1:a"] }
      haccepted ⟨[], rfl, by simp⟩ rfl
    exact absurd hgroup (by decide +kernel)
  · intro hall
    obtain ⟨report, g', t', hrun, -, hrefs⟩ := generate_ofPair_colon
    refine hall _ g' pairFiles t' 0 report pairManifest (built_ofPair "1:a" "c" "out" _)
      ⟨[], rfl, by simp⟩ rfl hrun ⟨"1:a", .drive⟩ ?_
    rw [run_ofPair_colon hrun hrefs]
    rfl

end Generator

end ReferenceSite
