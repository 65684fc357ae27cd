import ReferenceSite.Configuration
import ReferenceSite.Proofs.Address.Reference
import ReferenceSite.Proofs.Path.Resolved

/-!
# The path of the pages in the site

Without a setting, the path of the pages in the site is made of the names among the components that lead from
the directory of the manifest to the output directory. What else is among them is left out: the
path names the output directory, and the page references below it name the files of their pages, exactly if
these components lead down (`Configuration.defaultPageBase_names_iff`). A path that leaves a directory that it
has entered does not.
-/

namespace ReferenceSite

open ReferenceSite.Path

namespace Address

variable {a : Address} {names : List String}

theorem filePieces_append (hne : a.segments ≠ []) (names : List String) (extension : String) :
    filePieces ⟨names ++ a.segments⟩ extension = names ++ a.filePieces extension := by
  have hlast : (names ++ a.segments).getLast? = a.segments.getLast? := by
    rw [List.getLast?_append, List.getLast?_eq_some_getLast hne, Option.some_or]
  unfold filePieces fileName
  dsimp only
  rw [hlast, List.dropLast_append_of_ne_nil hne, List.append_assoc]

theorem IsSafe.append (ha : a.IsSafe) (h : ∀ s ∈ names, IsName s) : IsSafe ⟨names ++ a.segments⟩ := by
  refine ⟨?_, fun s hs => ?_⟩
  · intro hnil
    exact ha.ne_nil (List.append_eq_nil_iff.1 hnil).2
  · rcases List.mem_append.1 hs with hs | hs
    · exact h s hs
    · exact ha.name s hs

/-- The file of a page is entered from the output directory. -/
theorem resolved_join_file (ha : a.IsSafe) (directory : Path) :
    (join directory (a.file "mdx")).resolved = directory.resolved.into (a.filePieces "mdx") := by
  rw [file_eq_intercalate ha]
  exact resolved_join_names (isName_filePieces ha (by decide))

/-- A page reference with the extension leads through the names below which it is, and then as the file of the
    page does. -/
theorem resolved_join_pageRef (ha : a.IsSafe) (h : ∀ s ∈ names, IsName s) (directory : Path) :
    (join directory (a.pageRef (String.intercalate "/" names) ++ ".mdx")).resolved =
      (directory.resolved.into names).into (a.filePieces "mdx") := by
  have hfile : a.pageRef (String.intercalate "/" names) ++ ".mdx" = file ⟨names ++ a.segments⟩ "mdx" := by
    rw [pageRef_eq_toText ha.ne_nil h, file, String.append_assoc]
    rfl
  rw [hfile, resolved_join_file (ha.append h), filePieces_append ha.ne_nil, Resolved.into_into]

end Address

namespace Configuration

open Address

variable {c : Configuration} {out manifest : Path} {cs : List Component}

theorem defaultPageBase_eq (h : out.componentsBelow? manifest.directory = some cs) :
    defaultPageBase out manifest = String.intercalate "/" (namesOf cs) := by
  unfold defaultPageBase
  dsimp only
  rw [h]
  rfl

theorem exists_componentsBelow (h : defaultPageBase out manifest ≠ "") :
    ∃ cs, out.componentsBelow? manifest.directory = some cs := by
  unfold defaultPageBase at h
  dsimp only at h
  split at h
  · next cs hcs => exact ⟨cs, hcs⟩
  · exact absurd rfl h

/-- The path has no separators at its ends that the settings of a run would take away. -/
theorem stripChar_defaultPageBase (out manifest : Path) :
    Text.stripChar '/' (defaultPageBase out manifest) = defaultPageBase out manifest := by
  by_cases h : defaultPageBase out manifest = ""
  · rw [h]
    decide
  · obtain ⟨cs, hcs⟩ := exists_componentsBelow h
    have hname := isName_of_mem_names (componentsBelow?_eq_some_iff.1 hcs)
    rw [defaultPageBase_eq hcs]
    refine Text.stripChar_eq_self ?_ ?_
    · simpa [isAbsolute] using isAbsolute_intercalate hname
    · simpa [endsWithSeparator] using endsWithSeparator_intercalate hname

theorem runSettings_pageBase (h : c.pageBase = none) :
    c.runSettings.pageBase = defaultPageBase c.outputDirectory c.manifest := by
  rw [runSettings, h, Option.getD_none]
  exact stripChar_defaultPageBase c.outputDirectory c.manifest

/-- If the path is not empty, it names the output directory as seen from that of the manifest exactly if the
    components between the two lead down, and then and only then a page reference below it names the file of
    its page. -/
theorem defaultPageBase_names_iff (out manifest : Path) (h : defaultPageBase out manifest ≠ "") :
    ∃ cs, out.components = manifest.directory.components ++ cs ∧
      ((join manifest.directory (defaultPageBase out manifest)).resolved = out.resolved ↔
        LeadsDown manifest.directory cs) ∧
      (∀ segments a, ofSegments segments = .ok a →
        ((join manifest.directory (a.pageRef (defaultPageBase out manifest) ++ ".mdx")).resolved =
          (join out (a.file "mdx")).resolved ↔ LeadsDown manifest.directory cs)) ∧
      ∀ c : Configuration, c.pageBase = none → c.outputDirectory = out → c.manifest = manifest →
        c.runSettings.pageBase = defaultPageBase out manifest ∧ c.runSettings.outputDirectory = out := by
  obtain ⟨cs, hcs⟩ := exists_componentsBelow h
  have hcomponents := componentsBelow?_eq_some_iff.1 hcs
  have hname := isName_of_mem_names hcomponents
  rw [defaultPageBase_eq hcs]
  refine ⟨cs, hcomponents, ?_, fun segments a ha => ?_, ?_⟩
  · rw [resolved_join_names hname]
    exact into_eq_resolved_iff hcomponents
  · obtain ⟨-, hsafe⟩ := ofSegments_eq_ok ha
    rw [resolved_join_pageRef hsafe hname, resolved_join_file hsafe, ← into_eq_resolved_iff hcomponents]
    exact ⟨Resolved.into_injective, fun heq => by rw [heq]⟩
  · rintro c hc rfl rfl
    rw [← defaultPageBase_eq hcs]
    exact ⟨runSettings_pageBase hc, rfl⟩

/-- A dot and a repeated separator do no harm. -/
theorem defaultPageBase_names_reference :
    defaultPageBase "/site/docs/./reference//ts" "/site/docs/docs.json" = "reference/ts" ∧
      (join "/site/docs" "reference/ts").resolved = resolved "/site/docs/./reference//ts" := by
  have hbase : defaultPageBase "/site/docs/./reference//ts" "/site/docs/docs.json" = "reference/ts" := by
    decide +kernel
  obtain ⟨cs, hcomponents, hdirectory, -⟩ := defaultPageBase_names_iff "/site/docs/./reference//ts"
    "/site/docs/docs.json" (by rw [hbase]; decide)
  have hcs : cs = [.normal "reference", .normal "ts"] := by
    have hlong : components "/site/docs/./reference//ts" =
        components (directory "/site/docs/docs.json") ++ [.normal "reference", .normal "ts"] := by
      decide +kernel
    exact List.append_cancel_left (hcomponents.symm.trans hlong)
  have hsite : directory "/site/docs/docs.json" = "/site/docs" := by decide +kernel
  rw [hbase, hsite] at hdirectory
  refine ⟨hbase, hdirectory.2 (LeadsDown.of_not_mem ?_ ?_)⟩
  · rw [hcs]
    decide
  · rw [hcs]
    decide

/-- An output directory that is reached through another one, which the path keeps and the output directory has
    left. -/
theorem defaultPageBase_elsewhere :
    defaultPageBase "docs/a/../api" "docs/docs.json" = "a/api" ∧
      ofSegments ["p"] = .ok ⟨["p"]⟩ ∧
      (join "docs" (Address.pageRef ⟨["p"]⟩ "a/api" ++ ".mdx")).resolved = resolved "docs/a/api/p.mdx" ∧
      (join "docs/a/../api" (Address.file ⟨["p"]⟩ "mdx")).resolved = resolved "docs/api/p.mdx" ∧
      ¬ ∀ out manifest : Path, defaultPageBase out manifest ≠ "" →
        (join manifest.directory (defaultPageBase out manifest)).resolved = out.resolved := by
  refine ⟨by decide +kernel, by decide +kernel, by decide +kernel, by decide +kernel, fun h => ?_⟩
  have hnames := h "docs/a/../api" "docs/docs.json" (by decide +kernel)
  exact absurd hnames (by decide +kernel)

end Configuration

end ReferenceSite
