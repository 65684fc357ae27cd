import Mathlib.Data.List.Nodup
import Mathlib.Tactic.SplitIfs
import ReferenceSite.Configuration

/-!
# Loaded configurations

Every configuration that is loaded keeps all rules (`Valid`): one from a file is checked, and the defaults
keep them (`valid_of_loadFile`). Settings that are replaced afterwards are not checked again. Only one of them
is in a rule, and only if it enables a cache that has no room is the rule broken
(`Valid.valid_apply_iff`). So replacing settings changes nothing else about the loading, and what it gives
passes all checks as long as no cache without room is enabled (`load_replaced`).
-/

namespace ReferenceSite.Configuration

/-- A configuration keeps all rules. -/
structure Valid (c : Configuration) : Prop where
  maxDepth : 0 < c.limits.maxDepth
  maxDurationSecs : 0 < c.limits.maxDurationSecs
  maxFileBytes : 0 < c.limits.maxFileBytes
  maxTotalBytes : 0 < c.limits.maxTotalBytes
  fileWithinTotal : c.limits.maxFileBytes ≤ c.limits.maxTotalBytes
  capacity : c.cache.enabled = true → 0 < c.cache.capacity
  group : Text.isBlankText c.group = false
  tab : ∀ tab, c.tab = some tab → Text.isBlankText tab = false
  pageBase : ∀ base, c.pageBase = some base → ".." ∉ Text.splitAt '/' base
  maxManifestBytes : 0 < c.maxManifestBytes
  codeLanguage : Text.isBlankText c.codeLanguage = false

variable {c c' : Configuration} {o : Overrides} {t : FileTree} {env : Environment} {path : Option Path}

/-- The checks find a violation exactly if a rule is broken. -/
theorem violation?_eq_none_iff : c.violation? = none ↔ c.Valid := by
  have hchecks : c.violation? = none ↔ ∀ check ∈ c.checks, check.2 = false := by
    simp [violation?, List.find?_eq_none]
  have hzero : ∀ n : Nat, (n == 0) = false ↔ 0 < n := by
    intro n
    rw [beq_eq_false_iff_ne, Nat.pos_iff_ne_zero]
  have hroom : (c.cache.enabled && c.cache.capacity == 0) = false ↔
      (c.cache.enabled = true → 0 < c.cache.capacity) := by
    cases c.cache.enabled <;> simp [hzero]
  have htab : (c.tab.map Text.isBlankText).getD false = false ↔
      ∀ tab, c.tab = some tab → Text.isBlankText tab = false := by
    cases c.tab <;> simp
  have hbase : (c.pageBase.map fun p => (Text.splitAt '/' p).contains "..").getD false = false ↔
      ∀ base, c.pageBase = some base → ".." ∉ Text.splitAt '/' base := by
    cases c.pageBase <;> simp
  rw [hchecks]
  unfold checks
  simp only [List.forall_mem_cons, List.not_mem_nil, false_imp_iff, implies_true, and_true, hzero,
    decide_eq_false_iff_not, Nat.not_lt, hroom, htab, hbase]
  constructor
  · rintro ⟨h₁, h₂, h₃, h₄, h₅, h₆, h₇, h₈, h₉, h₁₀, h₁₁⟩
    exact ⟨h₁, h₂, h₃, h₄, h₅, h₆, h₇, h₈, h₉, h₁₀, h₁₁⟩
  · intro h
    exact ⟨h.maxDepth, h.maxDurationSecs, h.maxFileBytes, h.maxTotalBytes, h.fileWithinTotal, h.capacity,
      h.group, h.tab, h.pageBase, h.maxManifestBytes, h.codeLanguage⟩

theorem checked_eq_ok_iff : c.checked = .ok c' ↔ c.Valid ∧ c' = c := by
  rw [checked, ← violation?_eq_none_iff]
  cases c.violation? <;> simp [eq_comm]

/-! ## Loading -/

/-- The defaults keep all rules, whatever directory they are seen from. -/
theorem valid_ofDirectory (directory : Path) : (ofDirectory directory).Valid where
  maxDepth := by simp [ofDirectory]
  maxDurationSecs := by simp [ofDirectory]
  maxFileBytes := by simp [ofDirectory]
  maxTotalBytes := by simp [ofDirectory]
  fileWithinTotal := by simp [ofDirectory]
  capacity := by simp [ofDirectory]
  group := (by decide +kernel : Text.isBlankText "API Reference" = false)
  tab := by simp [ofDirectory]
  pageBase := by simp [ofDirectory]
  maxManifestBytes := by simp [ofDirectory]
  codeLanguage := (by decide +kernel : Text.isBlankText "typescript" = false)

theorem valid_of_ofPath {path : Path} (h : ofPath t env path = .ok c) : c.Valid := by
  unfold ofPath at h
  split at h
  · cases h
  split at h
  · cases h
  split at h
  · cases h
  obtain ⟨hvalid, rfl⟩ := checked_eq_ok_iff.1 h
  exact hvalid

/-- What is loaded keeps all rules, whether it comes from a file or not. -/
theorem valid_of_loadFile (h : loadFile t env path = .ok c) : c.Valid := by
  unfold loadFile at h
  split at h
  · split_ifs at h
    exact valid_of_ofPath h
  · split at h
    · exact valid_of_ofPath h
    · cases h
      exact valid_ofDirectory _

/-! ## Replaced settings -/

/-- A configuration has the settings that are given and all others from another configuration. -/
structure Overrides.Replaces (o : Overrides) (c c' : Configuration) : Prop where
  model : c'.model = o.model.getD c.model
  outputDirectory : c'.outputDirectory = o.outputDirectory.getD c.outputDirectory
  manifest : c'.manifest = o.manifest.getD c.manifest
  cacheEnabled : c'.cache.enabled = o.cacheEnabled.getD c.cache.enabled
  others : { c' with
    model := c.model, outputDirectory := c.outputDirectory, manifest := c.manifest
    cache := { c'.cache with enabled := c.cache.enabled } } = c

theorem Overrides.replaces_apply (o : Overrides) (c : Configuration) : o.Replaces c (o.apply c) :=
  ⟨rfl, rfl, rfl, rfl, rfl⟩

/-- The rules are kept unless a cache without room is enabled. -/
theorem Valid.valid_apply_iff (h : c.Valid) :
    (o.apply c).Valid ↔ (o.cacheEnabled = some true → 0 < c.cache.capacity) := by
  constructor
  · intro happly henabled
    exact happly.capacity (by simp [Overrides.apply, henabled])
  · intro hroom
    have hcapacity : (o.apply c).cache.enabled = true → 0 < c.cache.capacity := by
      intro henabled
      cases hgiven : o.cacheEnabled with
      | none => exact h.capacity (by simpa [Overrides.apply, hgiven] using henabled)
      | some enabled =>
        have htrue : enabled = true := by simpa [Overrides.apply, hgiven] using henabled
        exact hroom (by rw [hgiven, htrue])
    exact ⟨h.maxDepth, h.maxDurationSecs, h.maxFileBytes, h.maxTotalBytes, h.fileWithinTotal, hcapacity,
      h.group, h.tab, h.pageBase, h.maxManifestBytes, h.codeLanguage⟩

theorem load_eq_ok_iff : load t env path o = .ok c' ↔ ∃ c, loadFile t env path = .ok c ∧ o.apply c = c' := by
  unfold load
  cases loadFile t env path <;> simp [Except.map]

theorem load_eq_error_iff {e : Error} : load t env path o = .error e ↔ loadFile t env path = .error e := by
  unfold load
  cases loadFile t env path <;> simp [Except.map]

/-- Loading with replaced settings fails exactly as it does without them. Otherwise exactly these settings are
    replaced, and the result passes all checks unless a cache without room is enabled. -/
theorem load_replaced (t : FileTree) (env : Environment) (path : Option Path) (o : Overrides) :
    (∀ e, load t env path o = .error e ↔ load t env path {} = .error e) ∧
      ∀ c, load t env path {} = .ok c → ∃ c', load t env path o = .ok c' ∧ o.Replaces c c' ∧
        (c'.checked = .ok c' ↔ (o.cacheEnabled = some true → 0 < c.cache.capacity)) := by
  constructor
  · intro e
    rw [load_eq_error_iff, load_eq_error_iff]
  · intro c hload
    obtain ⟨c₀, hfile, hsame⟩ := load_eq_ok_iff.1 hload
    -- without settings nothing is replaced
    have hc : c₀ = c := hsame
    subst hc
    refine ⟨o.apply c₀, load_eq_ok_iff.2 ⟨c₀, hfile, rfl⟩, o.replaces_apply c₀, ?_⟩
    rw [checked_eq_ok_iff, and_iff_left rfl, (valid_of_loadFile hfile).valid_apply_iff]

/-- A file in the directory around the working directory turns off a cache without room. Replacing paths
    keeps all rules, and enabling the cache breaks one. -/
theorem load_replaced_guides :
    let t : FileTree := {
      nodes := [(["site"], .directory), (["site", "guides"], .directory),
        (["site", "apidocs.toml"], .file (.text
          "[cache]\nenabled = false\ncapacity = 0\n\n[model]\npath = \"$\x7bAPI\x7d/api.json\"\n"))]
      current := ["site", "guides"] }
    let env : Environment := { values := [("API", .text "build")] }
    let c : Configuration := {
      model := "/site/build/api.json", outputDirectory := "/site/docs/api"
      manifest := "/site/docs/docs.json", cache := { enabled := false, capacity := 0 }
      file := some "/site/apidocs.toml" }
    load t env none {} = .ok c ∧
      (∃ c', load t env none { model := some "api.json" } = .ok c' ∧ c'.model = "api.json" ∧
        c'.checked = .ok c') ∧
      ∃ c', load t env none { cacheEnabled := some true } = .ok c' ∧ c'.checked ≠ .ok c' := by
  intro t env c
  have hload : load t env none {} = .ok c := by decide +kernel
  obtain ⟨c', hmodel, hreplaces, hchecked⟩ :=
    (load_replaced t env none { model := some "api.json" }).2 c hload
  obtain ⟨c'', henabled, -, hchecked'⟩ := (load_replaced t env none { cacheEnabled := some true }).2 c hload
  refine ⟨hload, ⟨c', hmodel, hreplaces.model, hchecked.2 (by simp)⟩, c'', henabled, ?_⟩
  rw [Ne, hchecked']
  simp [c]

end ReferenceSite.Configuration
