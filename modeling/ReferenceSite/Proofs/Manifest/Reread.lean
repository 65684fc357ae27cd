import ReferenceSite.Proofs.Manifest.Repeat
import ReferenceSite.Proofs.Navigation.Group

/-!
# What the next update reads

An update writes any document, but the next one reads only those that nest no deeper than the reader
allows, and it may read a double as another one. So an update leaves its manifest to the next one exactly if
the manifest keeps to the nesting limit and its doubles are read back (`update_reread`). A manifest that
nests deeper is lost: the next update starts from an empty one.
-/

namespace ReferenceSite.Manifest

open FileTree

variable {tree u : FileTree} {path : Path} {target : Target} {g : NavGroup} {maxBytes : Nat}
  {text : String} {members : List (String × Json)}

/-- A manifest that was written is read back exactly if it nests no deeper than the reader allows and its
doubles are read back. -/
theorem ofText_toText_iff {m : Manifest} (h : m.toJson.Proper) (hne : m ≠ {}) :
    ofText m.toText = m ↔ m.toJson.nesting ≤ Json.nestingLimit ∧ m.toJson.Stable := by
  rw [← Json.document?_pretty_iff h]
  unfold ofText toText
  constructor
  · intro hread
    split at hread
    · next v hv =>
      cases v with
      | obj members =>
        rw [hv, ← hread]
        rfl
      | _ => exact absurd hread.symm hne
    · exact absurd hread.symm hne
  · intro hread
    rw [hread]
    rfl

/-- A manifest that nests too deeply counts as empty once it was written. -/
theorem ofText_toText_of_deep {m : Manifest} (h : m.toJson.Proper)
    (hdeep : Json.nestingLimit < m.toJson.nesting) : ofText m.toText = {} := by
  unfold ofText toText
  rw [Json.document?_pretty_eq_none h hdeep]

/-- A manifest with a group in it is not empty. -/
theorem merge_ne_empty (m : Manifest) (target : Target) (g : NavGroup) : m.merge target g ≠ {} := by
  have hmem := Json.find?_put_self "navigation"
    (putInNavigation target g.toDocument (m.find? "navigation")) m.members
  intro h
  rw [show Json.put "navigation" _ m.members = [] from congrArg Manifest.members h] at hmem
  cases hmem

/-- An update that writes puts the merged manifest in the file. -/
theorem readText_of_update (htext : tree.readText path = .ok text)
    (hread : (Json.ofText? text).bind Json.document? = some (.obj members))
    (h : update tree path target g maxBytes = (.ok .written, u)) :
    u.readText path = .ok ((⟨members⟩ : Manifest).merge target g).toText := by
  have hold : ofText text = ⟨members⟩ := by
    unfold ofText
    rw [hread]
    rfl
  have hmerged : mergedAt tree path target g = (⟨members⟩ : Manifest).merge target g := by
    rw [mergedAt, htext, Except.toOption, Option.map_some, Option.getD_some, hold]
  rw [← hmerged]
  obtain ⟨-, -, ⟨rfl, hsame⟩ | hreplace⟩ := update_eq_ok h
  · exact hsame
  · exact readText_of_stat (replaceFile_eq_ok hreplace).1

theorem proper_members (hread : (Json.ofText? text).bind Json.document? = some (.obj members)) :
    (⟨members⟩ : Manifest).toJson.Proper :=
  Json.proper_of_document? hread

/-- What an update that writes leaves to the next one: its manifest, exactly if that nests no deeper than
the reader allows and its doubles are read back, and an empty one if it nests deeper. -/
theorem update_reread (htext : tree.readText path = .ok text)
    (hread : (Json.ofText? text).bind Json.document? = some (.obj members))
    (hgroup : g.toDocument.Proper) (h : update tree path target g maxBytes = (.ok .written, u)) :
    ∃ text', u.readText path = .ok text' ∧
      let merged := (⟨members⟩ : Manifest).merge target g
      (ofText text' = merged ↔ merged.toJson.nesting ≤ Json.nestingLimit ∧ merged.toJson.Stable) ∧
        (Json.nestingLimit < merged.toJson.nesting → ofText text' = {}) := by
  have hproper := proper_merge (t := target) (proper_members hread) hgroup
  exact ⟨_, readText_of_update htext hread h, ofText_toText_iff hproper (merge_ne_empty _ target g),
    ofText_toText_of_deep hproper⟩

/-! ## Groups that nest too deeply -/

/-- An element that was changed or appended is in the array afterwards. -/
theorem exists_mem_upsert (key name : String) (change : Json → Json) (fresh : Json) (vs : List Json) :
    ∃ v ∈ upsert key name change fresh vs, v = fresh ∨ ∃ w, v = change w := by
  induction vs with
  | nil => exact ⟨fresh, List.mem_cons_self, Or.inl rfl⟩
  | cons w vs ih =>
    rw [upsert]
    split_ifs
    · exact ⟨change w, List.mem_cons_self, Or.inr ⟨w, rfl⟩⟩
    · obtain ⟨v, hv, hcases⟩ := ih
      exact ⟨v, List.mem_cons_of_mem _ hv, hcases⟩

variable (t : Target) (group : Json)

theorem nesting_putGroup (vs : List Json) : group.nesting < (Json.arr (putGroup t group vs)).nesting := by
  obtain ⟨v, hv, rfl | ⟨w, rfl⟩⟩ := exists_mem_upsert "group" t.group (fun _ => group) group vs
  · exact Json.nesting_lt_arr hv
  · exact Json.nesting_lt_arr hv

theorem nesting_putInTab (v : Json) : group.nesting + 1 < (putInTab t group v).nesting := by
  unfold putInTab
  split
  · next tab =>
    have hgroup := nesting_putGroup t group (elementsOf (Json.find? "groups" tab))
    exact Nat.lt_of_le_of_lt hgroup (Json.nesting_lt_put "groups" _ tab)
  · have hgroup := Json.nesting_lt_arr (List.mem_singleton_self group)
    exact Nat.lt_of_le_of_lt hgroup (Json.nesting_lt_obj (List.mem_of_getLast? rfl))

/-- The group stands in an array of the navigation. -/
theorem nesting_putInNavigation (navigation : Option Json) :
    group.nesting < (putInNavigation t group navigation).nesting := by
  -- wherever the navigation has no place for it, the group gets an array of its own
  have hsingle := Json.nesting_lt_arr (List.mem_singleton_self group)
  unfold putInNavigation
  split
  · exact nesting_putGroup t group _
  · next members =>
    split
    · next tabs _ =>
      obtain ⟨v, hv, hcases⟩ := exists_mem_upsert "tab" t.tabName (putInTab t group)
        (putInTab t group (newTab t)) tabs
      have htab : group.nesting + 1 < v.nesting := by
        rcases hcases with rfl | ⟨w, rfl⟩
        · exact nesting_putInTab t group _
        · exact nesting_putInTab t group w
      have htabs : v.nesting < (Json.arr (putInTabs t group tabs)).nesting := Json.nesting_lt_arr hv
      have hput := Json.nesting_lt_put "tabs" (.arr (putInTabs t group tabs)) members
      omega
    · exact hsingle
  · exact hsingle

/-- The group stands in a container of the document. -/
theorem nesting_merge (m : Manifest) (target : Target) (g : NavGroup) :
    g.toDocument.nesting + 1 < (m.merge target g).toJson.nesting :=
  Nat.lt_of_le_of_lt (nesting_putInNavigation target g.toDocument (m.find? "navigation"))
    (Json.nesting_lt_put "navigation" _ m.members)

/-- A group of pages in a group, and so on, around one page. -/
def nestedPage (ref : String) : Nat → NavPage
  | 0 => .page ref
  | depth + 1 => .group "Level" none [nestedPage ref depth] []

/-- A group around such groups. -/
def nestedGroup (heading ref : String) (depth : Nat) : NavGroup where
  heading := heading
  pages := [nestedPage ref depth]

theorem plain_nestedPage (ref : String) (depth : Nat) : (nestedPage ref depth).Plain := by
  induction depth with
  | zero => exact .page ref
  | succ depth ih => exact .group _ _ (by simpa using ih)

theorem pageRefs_nestedPage (ref : String) (depth : Nat) :
    NavGroup.pageRefs (nestedPage ref depth) = [ref] := by
  induction depth with
  | zero => rfl
  | succ depth ih => simp [nestedPage, NavGroup.pageRefs, NavGroup.listRefs, ih]

theorem nesting_nestedPage (ref : String) (depth : Nat) :
    (NavGroup.pageToJson (nestedPage ref depth)).nesting = 2 * depth := by
  induction depth with
  | zero => rfl
  | succ depth ih =>
    simp [nestedPage, NavGroup.pageToJson, NavGroup.pagesToJson, Json.nesting, Json.nestingMembers,
      Json.nestingElements, ih]
    omega

theorem plain_nestedGroup (heading ref : String) (depth : Nat) :
    (nestedGroup heading ref depth).asPage.Plain :=
  .group heading none (by simpa [nestedGroup] using plain_nestedPage ref depth)

theorem proper_nestedGroup (heading ref : String) (depth : Nat) :
    (nestedGroup heading ref depth).toDocument.Proper := by
  have h := NavGroup.proper_pageToJson (plain_nestedGroup heading ref depth)
  rwa [NavGroup.toDocument, NavGroup.toJson, h.merged]

theorem invalidRef?_nestedGroup (heading : String) {ref : String} (href : NavGroup.refFault? ref = none)
    (depth : Nat) : (nestedGroup heading ref depth).invalidRef? = none := by
  have hrefs : (nestedGroup heading ref depth).refs = [ref] := by
    simp [nestedGroup, NavGroup.refs, NavGroup.listRefs, pageRefs_nestedPage]
  rw [NavGroup.invalidRef?, hrefs, List.findSome?_cons, href]
  rfl

theorem nesting_nestedGroup (heading ref : String) (depth : Nat) :
    (nestedGroup heading ref depth).toDocument.nesting = 2 * depth + 2 := by
  have h := NavGroup.proper_pageToJson (plain_nestedGroup heading ref depth)
  rw [NavGroup.toDocument, NavGroup.toJson, h.merged]
  simp [nestedGroup, NavGroup.asPage, NavGroup.pageToJson, NavGroup.pagesToJson, Json.nesting,
    Json.nestingMembers, Json.nestingElements, nesting_nestedPage]

/-! ## A manifest that is lost -/

/-- Whether a file can be replaced does not depend on its new text. -/
theorem replaceFile_fst (tree : FileTree) (path : Path) (text text' : String) :
    (replaceFile tree path text).1 = (replaceFile tree path text').1 := by
  unfold replaceFile
  dsimp only
  split
  · rfl
  · next v _ =>
    unfold FileTree.write
    cases v.locate path with
    | error e => rfl
    | ok loc =>
      dsimp only [bind, Except.bind]
      split_ifs
      · rfl
      · cases v.node? loc with
        | none => rfl
        | some node => cases node <;> rfl

/-- An update writes if nothing stands in the way and the file has another text. -/
theorem update_eq_written {existing : Option String} (hvalid : g.invalidRef? = none)
    (hexisting : readExisting tree path maxBytes = .ok existing)
    (hsize : (mergedText existing target g).utf8ByteSize ≤ maxBytes)
    (hne : existing ≠ some (mergedText existing target g))
    (hreplace : ∃ text, (replaceFile tree path text).1 = .ok ()) :
    ∃ u, update tree path target g maxBytes = (.ok .written, u) := by
  obtain ⟨text, htext⟩ := hreplace
  rw [replaceFile_fst tree path text (mergedText existing target g)] at htext
  unfold update
  rw [hvalid, hexisting]
  dsimp only
  rw [if_neg (Nat.not_lt.2 hsize), beq_false_of_ne hne, if_neg Bool.false_ne_true, htext]
  exact ⟨_, rfl⟩

/-- A manifest with a name. -/
def siteManifest : Manifest := ⟨[("name", .str "Site")]⟩

/-- Files with this manifest. -/
def siteFiles : FileTree := { nodes := [(["docs.json"], .file (.text siteManifest.toText))] }

theorem proper_siteManifest : siteManifest.toJson.Proper :=
  Json.proper_obj.2 ⟨by decide, by simp [siteManifest, Json.proper_str]⟩

theorem document?_siteManifest :
    (Json.ofText? siteManifest.toText).bind Json.document? = some siteManifest.toJson :=
  Json.document?_pretty proper_siteManifest (by decide) (by decide)

/-- A manifest with a group that nests little is read back by the next update. -/
theorem update_reread_siteManifest : ∃ u text', update siteFiles "docs.json" { group := "R" }
      (nestedGroup "R" "a" 1) 1000 = (.ok .written, u) ∧ u.readText "docs.json" = .ok text' ∧
    ofText text' = siteManifest.merge { group := "R" } (nestedGroup "R" "a" 1) := by
  have hwritten : (update siteFiles "docs.json" { group := "R" } (nestedGroup "R" "a" 1) 1000).1 =
      .ok .written := by decide +kernel
  rcases hupdate : update siteFiles "docs.json" { group := "R" } (nestedGroup "R" "a" 1) 1000
    with ⟨result, u⟩
  rw [hupdate] at hwritten
  obtain rfl : result = .ok .written := hwritten
  have hgroup := proper_nestedGroup "R" "a" 1
  obtain ⟨text', htext', hiff, -⟩ :=
    update_reread (by decide +kernel) document?_siteManifest hgroup hupdate
  have hstable := Json.stable_of_integral (proper_merge (t := { group := "R" }) proper_siteManifest hgroup)
    (by decide +kernel)
  exact ⟨u, text', rfl, htext', hiff.2 ⟨by decide +kernel, hstable⟩⟩

/-- A group that nests too deeply makes the next update start from an empty manifest. -/
theorem update_loses_manifest : ¬ ∀ (tree u : FileTree) (path : Path) (target : Target) (g : NavGroup)
    (maxBytes : Nat) (text : String) (members : List (String × Json)),
    tree.readText path = .ok text →
    (Json.ofText? text).bind Json.document? = some (.obj members) → g.toDocument.Proper →
    update tree path target g maxBytes = (.ok .written, u) →
    ∃ text', u.readText path = .ok text' ∧ ofText text' = (⟨members⟩ : Manifest).merge target g := by
  intro hall
  let target : Target := { group := "R" }
  let g := nestedGroup "R" "a" 62
  let merged := siteManifest.merge target g
  have hgroup : g.toDocument.Proper := proper_nestedGroup "R" "a" 62
  have hlost : ofText merged.toText = {} := by
    refine ofText_toText_of_deep (proper_merge proper_siteManifest hgroup) ?_
    have hnesting := nesting_merge siteManifest target g
    rw [nesting_nestedGroup] at hnesting
    exact hnesting
  have hread : siteFiles.readText "docs.json" = .ok siteManifest.toText := by decide +kernel
  have hold : ofText siteManifest.toText = siteManifest := by
    unfold ofText
    rw [document?_siteManifest]
    rfl
  have htext : mergedText (some siteManifest.toText) target g = merged.toText := by
    rw [mergedText, Option.map_some, Option.getD_some, hold]
  -- a limit that neither the file nor the merged text reaches
  have hexisting : readExisting siteFiles "docs.json" (merged.toText.utf8ByteSize + 100) =
      .ok (some siteManifest.toText) := by
    have hsize : siteFiles.size "docs.json" = .ok 21 := by decide +kernel
    unfold readExisting
    rw [hsize]
    dsimp only
    rw [if_neg (by omega), hread]
    rfl
  have hchanged : some siteManifest.toText ≠ some (mergedText (some siteManifest.toText) target g) := by
    rw [htext]
    intro hsame
    rw [← Option.some.inj hsame, hold] at hlost
    cases hlost
  have hvalid : g.invalidRef? = none := invalidRef?_nestedGroup "R" (by decide +kernel) 62
  obtain ⟨u, hupdate⟩ : ∃ u, update siteFiles "docs.json" target g (merged.toText.utf8ByteSize + 100) =
      (.ok .written, u) :=
    update_eq_written hvalid hexisting (by rw [htext]; omega) hchanged ⟨"", by decide +kernel⟩
  obtain ⟨text', htext', hmerged⟩ := hall siteFiles u "docs.json" target g _ _ _ hread
    document?_siteManifest hgroup hupdate
  -- the file holds the merged manifest, which reads as the empty one
  have hwritten := readText_of_update hread document?_siteManifest hupdate
  rw [htext'] at hwritten
  rw [Except.ok.inj hwritten] at hmerged
  exact merge_ne_empty _ target g (hmerged.symm.trans hlost)

end ReferenceSite.Manifest
