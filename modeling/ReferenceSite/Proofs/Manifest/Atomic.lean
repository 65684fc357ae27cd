import ReferenceSite.Proofs.Address.Reference
import ReferenceSite.Proofs.FileTree.Renaming
import ReferenceSite.Proofs.Manifest.Reread
import ReferenceSite.Proofs.Navigation.Placement

/-!
# All or nothing

An update that fails or finds nothing to do leaves every file as it was, and one that writes replaces the
manifest file by the merged text and touches no other file (`update_all_or_nothing`). The file is replaced by
way of a temporary one (`replaceVia`); wherever that breaks off, no trace of it is left but directories, and
otherwise it has the effect of the single step that the update is defined with (`replaceVia_cases`).

The group is merged into the document that the path led to before. A path that leaves a missing directory by
`..` led nowhere, so a manifest that it leads to once the directory is there is lost
(`update_replaces_unread`). Any other manifest at the place of the path was found (`Replaced`).
-/

namespace ReferenceSite.Manifest

open FileTree

variable {tree u : FileTree} {path : Path} {target : Target} {g : NavGroup} {maxBytes : Nat}
  {text temporary : String}

/-! ## Replacing by way of a temporary file -/

/-- Where replacing a file breaks off for a reason outside the tree, once its temporary file is there. -/
inductive Break where
  /-- Writing the text, some of which is in the file already. -/
  | write (written : Content)
  /-- Flushing the file. -/
  | flush
  /-- Moving the file to its place. -/
  | move

/-- Replace a file by way of a temporary one in its directory, which is removed where that breaks off. -/
def replaceVia (temporary : String) (broken : Option Break) : Replacing := fun t path text =>
  let directory := directoryOf path
  match t.createDirectories directory with
  | (.error _, t) => (.error (.io directory), t)
  | (.ok (), t) =>
    let file := Path.join directory temporary
    match t.createNew? file with
    | none => (.error (.io directory), t)
    | some u =>
      let loc := t.place file
      match broken with
      | some (.write written) => (.error (.io path), (u.put loc (.file written)).unlink loc)
      | some _ => (.error (.io path), (u.put loc (.file (.text text))).unlink loc)
      | none =>
        let v := u.put loc (.file (.text text))
        match v.rename loc path with
        | .error _ => (.error (.io path), v.unlink loc)
        | .ok w => (.ok (), w)

/-- Replacing a file by way of a temporary one comes to the same as replacing it in one step, or it fails and
leaves nothing behind but the directories that it created. -/
theorem replaceVia_cases (temporary : String) (broken : Option Break) (tree : FileTree) (path : Path)
    (text : String) : replaceVia temporary broken tree path text = replaceFile tree path text ∨
      ∃ p, replaceVia temporary broken tree path text =
        (.error (.io p), (tree.createDirectories (directoryOf path)).2) := by
  unfold replaceVia replaceFile
  dsimp only
  rcases tree.createDirectories (directoryOf path) with ⟨result, t⟩
  cases result with
  | error e => exact Or.inl rfl
  | ok _ =>
    dsimp only
    cases hnew : t.createNew? (Path.join (directoryOf path) temporary) with
    | none => exact Or.inr ⟨directoryOf path, rfl⟩
    | some v =>
      obtain ⟨hnone, rfl⟩ := createNew?_eq_some hnew
      dsimp only
      -- whatever the temporary file holds by then, removing it gives back the tree before
      simp only [put_put, unlink_put hnone]
      cases broken with
      | some b => cases b <;> exact Or.inr ⟨path, rfl⟩
      | none =>
        dsimp only
        split
        · exact Or.inr ⟨path, rfl⟩
        · next w hmoved => exact Or.inl (by rw [(rename_put hnone).1 hmoved])

/-- Where the temporary file can be created and nothing breaks off, the file is replaced all the same. -/
theorem replaceVia_eq_ok (h : replaceFile tree path text = (.ok (), u))
    (hnew : ((tree.createDirectories (directoryOf path)).2.createNew?
      (Path.join (directoryOf path) temporary)).isSome) :
    replaceVia temporary none tree path text = (.ok (), u) := by
  obtain ⟨v, hdirs, hwrite⟩ := replaceFile_eq_ok_iff.1 h
  rw [hdirs] at hnew
  obtain ⟨w, hw⟩ := Option.isSome_iff_exists.1 hnew
  obtain ⟨hnone, rfl⟩ := createNew?_eq_some hw
  unfold replaceVia
  dsimp only
  rw [hdirs]
  dsimp only
  rw [hw]
  dsimp only
  rw [put_put, (rename_put hnone).2 hwrite]

/-! ## What replacing does -/

/-- The file at a path is replaced by one with a text. A file that stood at the place was at the end of the
path before exactly if the path leaves no directory by `..` that is new. -/
structure Replaced (tree : FileTree) (path : Path) (text : String) (u : FileTree) : Prop where
  stat : u.stat path = .ok (.file (.text text))
  others : ∀ loc, loc ≠ tree.place path → u.file? loc = tree.file? loc
  found : tree.Rooted → ∀ c, tree.file? (tree.place path) = some c →
    (tree.stat path = .ok (.file c) ↔ tree.Grounded path)

/-- A way of replacing a file that replaces it or leaves all files as they were. -/
structure Replaces (replace : Replacing) : Prop where
  failed : ∀ {tree u : FileTree} {path : Path} {text : String} {e : UpdateError},
    replace tree path text = (.error e, u) → (∃ p, e = .io p) ∧ ∀ loc, u.file? loc = tree.file? loc
  replaced : ∀ {tree u : FileTree} {path : Path} {text : String},
    replace tree path text = (.ok (), u) → Replaced tree path text u

theorem replaces_replaceFile : Replaces replaceFile := by
  constructor
  · intro tree u path text e h
    obtain ⟨hio, rfl⟩ := replaceFile_eq_error h
    exact ⟨hio, (creates_createDirectories_any tree _).file?⟩
  · intro tree u path text h
    obtain ⟨v, hdirs, hwrite⟩ := replaceFile_eq_ok_iff.1 h
    have hcreates := creates_createDirectories_any tree (directoryOf path)
    rw [hdirs] at hcreates
    have hplaces := places_write hwrite
    obtain ⟨hloc, hsep, hplace, rfl⟩ := write_eq_ok hwrite
    refine ⟨hplaces.stat, fun loc hne => ?_, fun hroot c hc => ⟨grounded_of_stat, fun hground =>
      hcreates.stat_of_locate hroot hground hloc hsep hc⟩⟩
    rw [← hcreates.file?, file?, node?_put _ (ne_nil_of_node? hplace), hcreates.keeps.place, if_neg hne]
    rfl

theorem replaces_replaceVia (temporary : String) (broken : Option Break) :
    Replaces (replaceVia temporary broken) := by
  constructor
  · intro tree u path text e h
    rcases replaceVia_cases temporary broken tree path text with hsame | ⟨p, hfailed⟩
    · exact replaces_replaceFile.failed (hsame.symm.trans h)
    · rw [hfailed] at h
      cases h
      exact ⟨⟨p, rfl⟩, (creates_createDirectories_any tree _).file?⟩
  · intro tree u path text h
    rcases replaceVia_cases temporary broken tree path text with hsame | ⟨p, hfailed⟩
    · exact replaces_replaceFile.replaced (hsame.symm.trans h)
    · rw [hfailed] at h
      cases h

/-! ## What an update does -/

/-- The manifest that an update starts from: the document of the text that the path leads to, or an empty one
if it leads to no text or the text is not that of an object. -/
inductive Previous (tree : FileTree) (path : Path) : Manifest → Prop
  | document {text : String} {members : List (String × Json)}
      (hstat : tree.stat path = .ok (.file (.text text)))
      (h : (Json.ofText? text).bind Json.document? = some (.obj members)) : Previous tree path ⟨members⟩
  | noText (h : ∀ text, tree.stat path ≠ .ok (.file (.text text))) : Previous tree path {}
  | noObject {text : String} (hstat : tree.stat path = .ok (.file (.text text)))
      (h : ∀ members, (Json.ofText? text).bind Json.document? ≠ some (.obj members)) :
      Previous tree path {}

theorem previous_ofText (tree : FileTree) (path : Path) :
    Previous tree path (((tree.readText path).toOption.map ofText).getD {}) := by
  cases hread : tree.readText path with
  | error e =>
    refine .noText fun text hstat => ?_
    rw [readText_of_stat hstat] at hread
    cases hread
  | ok text =>
    have hstat := readText_eq_ok hread
    show Previous tree path (ofText text)
    unfold ofText
    cases hdocument : (Json.ofText? text).bind Json.document? with
    | none => exact .noObject hstat (by simp [hdocument])
    | some v =>
      cases v with
      | obj members => exact .document hstat hdocument
      | _ => exact .noObject hstat (by simp [hdocument])

/-- Where a path leaves a missing directory, there is nothing to start from. -/
theorem Previous.eq_empty {m : Manifest} (h : Previous tree path m) (hnew : ¬ tree.Grounded path) :
    m = {} := by
  cases h with
  | document hstat _ => exact absurd (grounded_of_stat hstat) hnew
  | noText _ => rfl
  | noObject _ _ => rfl

/-- What an update that writes has done. If the path leaves a directory by `..` that is new, the group is alone
in the file, whatever was there before. -/
structure Written (tree : FileTree) (path : Path) (target : Target) (g : NavGroup) (maxBytes : Nat)
    (u : FileTree) : Prop where
  merged : ∃ m, Previous tree path m ∧ Replaced tree path (m.merge target g).toText u
  lost : ¬ tree.Grounded path → Replaced tree path (({} : Manifest).merge target g).toText u
  changed : tree.stat path ≠ u.stat path
  size : ∃ n, u.size path = .ok n ∧ n ≤ maxBytes
  refs : ∀ ref, NavPage.Occurs (.page ref) g.asPage → NavGroup.SafeRef ref

/-- An update with some result and the tree behind it either has done its work or has changed no file, and
only an error of the file system can leave a directory behind. -/
structure AllOrNothing (tree : FileTree) (path : Path) (target : Target) (g : NavGroup) (maxBytes : Nat)
    (result : Except UpdateError Outcome) (u : FileTree) : Prop where
  kept : result ≠ .ok .written → ∀ loc, u.file? loc = tree.file? loc
  untouched : result ≠ .ok .written → (∀ p, result ≠ .error (.io p)) → u = tree
  unchanged : result = .ok .unchanged →
    ∃ m, Previous tree path m ∧ tree.stat path = .ok (.file (.text (m.merge target g).toText))
  written : result = .ok .written → Written tree path target g maxBytes u

theorem safeRef_of_occurs (h : g.invalidRef? = none) {ref : String}
    (href : NavPage.Occurs (.page ref) g.asPage) : NavGroup.SafeRef ref := by
  have hmem : ref ∈ NavGroup.pageRefs g.asPage := NavGroup.mem_pageRefs_iff.2 href
  exact NavGroup.refFault?_eq_none_iff.1 (NavGroup.invalidRef?_eq_none_iff.1 h ref hmem)

theorem allOrNothing_of_error (e : UpdateError) :
    AllOrNothing tree path target g maxBytes (.error e) tree where
  kept _ _ := rfl
  untouched _ _ := rfl
  unchanged h := by cases h
  written h := by cases h

theorem allOrNothing_updateBy {replace : Replacing} (h : Replaces replace) (tree : FileTree)
    (path : Path) (target : Target) (g : NavGroup) (maxBytes : Nat) :
    AllOrNothing tree path target g maxBytes (updateBy replace tree path target g maxBytes).1
      (updateBy replace tree path target g maxBytes).2 := by
  have hprevious := previous_ofText tree path
  have hruns := runs_updateBy replace tree path target g maxBytes
  rcases hupdate : updateBy replace tree path target g maxBytes with ⟨result, u⟩
  rw [hupdate] at hruns
  cases hruns with
  | refused hinvalid => exact allOrNothing_of_error _
  | unread hvalid hread => exact allOrNothing_of_error _
  | large hvalid hsize => exact allOrNothing_of_error _
  | unchanged hvalid hsize hread =>
    exact ⟨fun _ _ => rfl, fun _ _ => rfl, fun _ => ⟨_, hprevious, readText_eq_ok hread⟩, nofun⟩
  | failed hvalid hreplace =>
    obtain ⟨⟨p, rfl⟩, hfiles⟩ := h.failed hreplace
    exact ⟨fun _ => hfiles, fun _ hio => absurd rfl (hio p), nofun, nofun⟩
  | written hvalid hsize hchanged hreplace =>
    have hreplaced := h.replaced hreplace
    refine ⟨fun hne => absurd rfl hne, fun hne => absurd rfl hne, nofun, fun _ => ?_⟩
    refine ⟨⟨_, hprevious, hreplaced⟩, fun hnew => ?_, ?_, ⟨_, ?_, hsize⟩,
      fun ref => safeRef_of_occurs hvalid⟩
    · rw [← hprevious.eq_empty hnew]
      exact hreplaced
    · rw [hreplaced.stat]
      exact fun hsame => hchanged (readText_of_stat hsame)
    · rw [FileTree.size, hreplaced.stat]
      rfl

/-- An update does all of its work or changes no file, also if it breaks off anywhere on the way over a
temporary file. -/
theorem update_all_or_nothing (tree : FileTree) (path : Path) (target : Target) (g : NavGroup)
    (maxBytes : Nat) :
    AllOrNothing tree path target g maxBytes (update tree path target g maxBytes).1
        (update tree path target g maxBytes).2 ∧
      ∀ temporary broken, AllOrNothing tree path target g maxBytes
        (updateBy (replaceVia temporary broken) tree path target g maxBytes).1
        (updateBy (replaceVia temporary broken) tree path target g maxBytes).2 := by
  rw [← updateBy_replaceFile]
  refine ⟨?_, fun temporary broken => ?_⟩
  · exact allOrNothing_updateBy replaces_replaceFile tree path target g maxBytes
  · exact allOrNothing_updateBy (replaces_replaceVia temporary broken) tree path target g maxBytes

theorem rooted_siteFiles : siteFiles.Rooted := by
  refine rooted_of_nodes fun n hn => ?_
  rw [siteFiles, List.mem_singleton] at hn
  rw [hn]
  exact node?_nil siteFiles

theorem grounded_siteFiles : siteFiles.Grounded "docs.json" := by
  intro front back h
  have hpieces : Path.pieces "docs.json" = ["docs.json"] := by decide +kernel
  have hmem : ".." ∈ ["docs.json"] := hpieces ▸ h ▸ List.mem_append_right front List.mem_cons_self
  simp at hmem

/-- The file of a site is replaced by the merged one, and every clause speaks of it. -/
theorem update_all_or_nothing_siteFiles : siteFiles.Rooted ∧ siteFiles.Grounded "docs.json" ∧
    ∃ u, update siteFiles "docs.json" { group := "R" } (nestedGroup "R" "a" 0) 1000 = (.ok .written, u) ∧
      Written siteFiles "docs.json" { group := "R" } (nestedGroup "R" "a" 0) 1000 u := by
  have hwritten : (update siteFiles "docs.json" { group := "R" } (nestedGroup "R" "a" 0) 1000).1 =
      .ok .written := by decide +kernel
  have hall := update_all_or_nothing siteFiles "docs.json" { group := "R" } (nestedGroup "R" "a" 0) 1000
  rcases hupdate : update siteFiles "docs.json" { group := "R" } (nestedGroup "R" "a" 0) 1000
    with ⟨result, u⟩
  rw [hupdate] at hwritten hall
  obtain rfl : result = .ok .written := hwritten
  exact ⟨rooted_siteFiles, grounded_siteFiles, u, rfl, hall.1.written rfl⟩

/-- A manifest is lost if its path leaves by `..` a directory that only the update creates: the path leads
nowhere when the manifest is read and to the manifest when it is written. -/
theorem update_replaces_unread : ¬ ∀ (tree u : FileTree) (path : Path) (target : Target) (g : NavGroup)
    (maxBytes : Nat) (text : String) (members : List (String × Json)), tree.Rooted →
    tree.file? (tree.place path) = some (.text text) →
    (Json.ofText? text).bind Json.document? = some (.obj members) →
    update tree path target g maxBytes = (.ok .written, u) →
    u.file? (tree.place path) = some (.text ((⟨members⟩ : Manifest).merge target g).toText) := by
  intro hall
  have hfile : siteFiles.file? (siteFiles.place "x/../docs.json") = some (.text siteManifest.toText) := by
    decide +kernel
  have hwritten : (update siteFiles "x/../docs.json" { group := "R" } (nestedGroup "R" "a" 0) 1000).1 =
      .ok .written := by decide +kernel
  have hlost : (update siteFiles "x/../docs.json" { group := "R" } (nestedGroup "R" "a" 0) 1000).2.file?
      (siteFiles.place "x/../docs.json") ≠
        some (.text (siteManifest.merge { group := "R" } (nestedGroup "R" "a" 0)).toText) := by
    decide +kernel
  rcases hupdate : update siteFiles "x/../docs.json" { group := "R" } (nestedGroup "R" "a" 0) 1000
    with ⟨result, u⟩
  rw [hupdate] at hwritten hlost
  obtain rfl : result = .ok .written := hwritten
  exact hlost (hall siteFiles u "x/../docs.json" { group := "R" } (nestedGroup "R" "a" 0) 1000 _ _
    rooted_siteFiles hfile document?_siteManifest hupdate)

end ReferenceSite.Manifest
