import ReferenceSite.Proofs.Json.RoundTrip
import ReferenceSite.Proofs.Manifest.Merge
import ReferenceSite.Proofs.Manifest.Update

/-!
# Merging and updating again

A group that has the target's name gives way to the next one that is merged at the target (`merge_merge`), so
merging it a second time changes nothing, and a manifest that was written is read back as it is
(`ofText_toText`). An update of a file that was just updated therefore leaves it alone.
-/

namespace ReferenceSite.Manifest

/-! ## Merging again -/

/-- Of two changes of the named element, the second one finds the element that the first one left. -/
theorem upsert_upsert {key name : String} {change change' : Json → Json} {fresh fresh' : Json}
    (hnamed : ∀ v, Named key name v → Named key name (change v)) (hfresh : Named key name fresh)
    (vs : List Json) : upsert key name change' fresh' (upsert key name change fresh vs) =
      upsert key name (fun v => change' (change v)) (change' fresh) vs := by
  induction vs with
  | nil => rw [upsert, upsert_cons, if_pos (isNamed_iff.2 hfresh)]; rfl
  | cons v vs ih =>
    rw [upsert_cons, upsert_cons]
    split_ifs with hv
    · rw [isNamed_iff] at hv
      rw [upsert_cons, if_pos (isNamed_iff.2 (hnamed v hv))]
    · rw [upsert_cons, if_neg hv, ih]

variable {t : Target} {group group' : Json}

theorem putGroup_putGroup (hgroup : Named "group" t.group group) (vs : List Json) :
    putGroup t group' (putGroup t group vs) = putGroup t group' vs :=
  upsert_upsert (fun _ _ => hgroup) hgroup vs

theorem putInTab_obj (t : Target) (group : Json) (tab : List (String × Json)) :
    putInTab t group (.obj tab) =
      .obj (Json.put "groups" (.arr (putGroup t group (elementsOf (Json.find? "groups" tab)))) tab) := rfl

theorem putInTab_putInTab (hgroup : Named "group" t.group group) (tab : List (String × Json)) :
    putInTab t group' (putInTab t group (.obj tab)) = putInTab t group' (.obj tab) := by
  rw [putInTab_obj, putInTab_obj, putInTab_obj, Json.find?_put_self, elementsOf,
    putGroup_putGroup hgroup, Json.put_put]

/-- A tab keeps its name when a group of any target is put in it. -/
theorem named_putInTab {name : String} {v : Json} (h : Named "tab" name v) :
    Named "tab" name (putInTab t group v) := by
  obtain ⟨tab, rfl, hname⟩ := h
  exact ⟨_, rfl, (Json.find?_put_of_ne (by decide) _ _).trans hname⟩

theorem named_newTab (t : Target) : Named "tab" t.tabName (newTab t) :=
  ⟨_, rfl, by simp [Json.find?]⟩

theorem putInTabs_putInTabs (hgroup : Named "group" t.group group) (tabs : List Json) :
    putInTabs t group' (putInTabs t group tabs) = putInTabs t group' tabs := by
  unfold putInTabs
  rw [upsert_upsert (fun _ => named_putInTab) (named_putInTab (named_newTab t)),
    upsert_congr (putInTab_putInTab hgroup), newTab, putInTab_putInTab hgroup]

theorem putInNavigation_arr (t : Target) (group : Json) (groups : List Json) :
    putInNavigation t group (some (.arr groups)) = .arr (putGroup t group groups) := rfl

theorem putInNavigation_putInNavigation (hgroup : Named "group" t.group group)
    (navigation : Option Json) :
    putInNavigation t group' (some (putInNavigation t group navigation)) =
      putInNavigation t group' navigation := by
  rcases putInNavigation_cases navigation with
    ⟨groups, rfl⟩ | ⟨members, tabs, rfl, htabs⟩ | hother
  · rw [putInNavigation_arr, putInNavigation_arr, putInNavigation_arr, putGroup_putGroup hgroup]
  · rw [putInNavigation_tabs t group htabs, putInNavigation_tabs t group' htabs,
      putInNavigation_tabs t group' (Json.find?_put_self "tabs" _ members), putInTabs_putInTabs hgroup,
      Json.put_put]
  · rw [hother, hother, putInNavigation_arr, putGroup_putGroup hgroup]

theorem find?_merge (m : Manifest) (t : Target) (g : NavGroup) : (m.merge t g).find? "navigation" =
    some (putInNavigation t g.toDocument (m.find? "navigation")) :=
  Json.find?_put_self _ _ _

/-- A second merge finds the navigation that the first one left, in the same place. -/
theorem merge_then_merge (m : Manifest) (t t' : Target) (g g' : NavGroup) : (m.merge t g).merge t' g' =
    ⟨Json.put "navigation" (putInNavigation t' g'.toDocument
      (some (putInNavigation t g.toDocument (m.find? "navigation")))) m.members⟩ := by
  rw [merge, find?_merge, merge, Json.put_put]

/-- Of two groups of one name merged at one target, the second one takes the place of the first. -/
theorem merge_merge {g g' : NavGroup} (hgroup : Named "group" t.group g.toDocument) (m : Manifest) :
    (m.merge t g).merge t g' = m.merge t g' := by
  rw [merge_then_merge, putInNavigation_putInNavigation hgroup, merge]

/-! ## Merged documents -/

theorem forall_mem_upsert {P : Json → Prop} {key name : String} {change : Json → Json} {fresh : Json}
    (hchange : ∀ v, P v → P (change v)) (hfresh : P fresh) {vs : List Json} (hvs : ∀ v ∈ vs, P v) :
    ∀ v ∈ upsert key name change fresh vs, P v := by
  induction vs with
  | nil => simpa [upsert] using hfresh
  | cons v vs ih =>
    rw [List.forall_mem_cons] at hvs
    rw [upsert_cons]
    split_ifs with hv
    · exact List.forall_mem_cons.2 ⟨hchange v hvs.1, hvs.2⟩
    · exact List.forall_mem_cons.2 ⟨hvs.1, ih hvs.2⟩

theorem proper_put {key : String} {value : Json} {members : List (String × Json)}
    (h : (Json.obj members).Proper) (hvalue : value.Proper) :
    (Json.obj (Json.put key value members)).Proper := by
  obtain ⟨hkeys, hms⟩ := Json.proper_obj.1 h
  exact Json.proper_obj.2 ⟨Json.nodup_keys_put hkeys, Json.forall_mem_put hvalue hms⟩

theorem proper_find? {key : String} {value : Json} {members : List (String × Json)}
    (h : (Json.obj members).Proper) (hfind : Json.find? key members = some value) : value.Proper := by
  obtain ⟨m, hm, rfl⟩ := Option.map_eq_some_iff.1 hfind
  exact (Json.proper_obj.1 h).2 m (List.mem_of_find?_eq_some hm)

theorem proper_putGroup (hgroup : group.Proper) {vs : List Json} (hvs : ∀ v ∈ vs, v.Proper) :
    (Json.arr (putGroup t group vs)).Proper :=
  Json.proper_arr.2 (forall_mem_upsert (fun _ _ => hgroup) hgroup hvs)

theorem proper_putInTab (hgroup : group.Proper) {v : Json} (hv : v.Proper) :
    (putInTab t group v).Proper := by
  cases v with
  | obj tab =>
    refine proper_put hv (proper_putGroup hgroup ?_)
    intro v hv'
    cases hfind : Json.find? "groups" tab with
    | none => rw [hfind] at hv'; cases hv'
    | some groups =>
      rw [hfind] at hv'
      cases groups with
      | arr vs => exact Json.proper_arr.1 (proper_find? hv hfind) v hv'
      | _ => cases hv'
  | _ =>
    refine Json.proper_obj.2 ⟨by simp, ?_⟩
    simp [Json.proper_str, Json.proper_arr, hgroup]

theorem proper_putInNavigation (hgroup : group.Proper) {navigation : Option Json}
    (h : ∀ v ∈ navigation, v.Proper) : (putInNavigation t group navigation).Proper := by
  have hsingle : (Json.arr [group]).Proper := by simpa [Json.proper_arr] using hgroup
  have hnew : (newTab t).Proper := Json.proper_obj.2 ⟨by simp, by simp [Json.proper_str]⟩
  unfold putInNavigation
  split
  · exact proper_putGroup hgroup (Json.proper_arr.1 (h _ rfl))
  · next members =>
    have hmembers := h _ rfl
    split
    · next tabs htabs =>
      refine proper_put hmembers (Json.proper_arr.2 ?_)
      exact forall_mem_upsert (P := Json.Proper) (fun _ => proper_putInTab hgroup)
        (proper_putInTab hgroup hnew) (Json.proper_arr.1 (proper_find? hmembers htabs))
    · exact hsingle
  · exact hsingle

/-- Merging a group into a document gives a document. -/
theorem proper_merge {m : Manifest} {g : NavGroup} (h : m.toJson.Proper)
    (hgroup : g.toDocument.Proper) : (m.merge t g).toJson.Proper :=
  proper_put h (proper_putInNavigation hgroup fun _ hv => proper_find? h hv)

/-! ## Texts of manifests -/

theorem proper_empty : (toJson {}).Proper := Json.proper_obj.2 ⟨List.nodup_nil, by simp⟩

/-- What is read from a text is a document, the empty one if there is none in the text. -/
theorem proper_ofText (text : String) : (ofText text).toJson.Proper := by
  unfold ofText
  split
  · next v hv =>
    cases v with
    | obj members => exact Json.proper_of_document? hv
    | _ => exact proper_empty
  · exact proper_empty

/-- A manifest that was written is read back. -/
theorem ofText_toText {m : Manifest} (h : m.toJson.Proper) (hint : m.toJson.Integral)
    (hdeep : m.toJson.nesting ≤ Json.nestingLimit) : ofText m.toText = m := by
  unfold ofText toText
  rw [Json.document?_pretty h hint hdeep]
  rfl

/-! ## Updating again -/

open FileTree

variable {tree u : FileTree} {path : Path} {target : Target} {g : NavGroup} {maxBytes : Nat}
  {outcome : Outcome}

theorem proper_mergedAt (tree : FileTree) (path : Path) (target : Target)
    (hgroup : g.toDocument.Proper) : (mergedAt tree path target g).toJson.Proper := by
  refine proper_merge ?_ hgroup
  cases (tree.readText path).toOption with
  | none => exact proper_empty
  | some text => exact proper_ofText text

/-- A replaced file has its text, and other files are found as before. -/
theorem replaceFile_eq_ok {text : String} (h : replaceFile tree path text = (.ok (), u)) :
    u.stat path = .ok (.file (.text text)) ∧
      ∀ {q : Path} {c : Content}, tree.stat q = .ok (.file c) → tree.place q ≠ tree.place path →
        u.stat q = .ok (.file c) := by
  obtain ⟨v, hdirs, hwrite⟩ := replaceFile_eq_ok_iff.1 h
  have hcreates := creates_createDirectories_any tree (directoryOf path)
  rw [hdirs] at hcreates
  have hplaces := places_write hwrite
  refine ⟨hplaces.stat, fun {q c} hq hne => hplaces.stat_other (hcreates.stat hq) ?_⟩
  rw [hcreates.keeps.place, hcreates.keeps.place]
  exact hne

/-- A file that holds its manifest merged already is left alone. -/
theorem update_of_merged {m : Manifest} (hstat : tree.stat path = .ok (.file (.text m.toText)))
    (hvalid : g.invalidRef? = none) (hsize : m.toText.utf8ByteSize ≤ maxBytes)
    (hread : ofText m.toText = m) (hmerge : m.merge target g = m) :
    update tree path target g maxBytes = (.ok .unchanged, tree) := by
  have hexisting : readExisting tree path maxBytes = .ok (some m.toText) := by
    have hbytes : tree.size path = .ok m.toText.utf8ByteSize := by
      rw [FileTree.size, hstat]
      rfl
    unfold readExisting
    rw [hbytes]
    dsimp only
    rw [if_neg (Nat.not_lt.2 hsize), readText_of_stat hstat]
    rfl
  unfold update
  rw [hvalid, hexisting]
  simp [mergedText, hread, hmerge, Nat.not_lt.2 hsize]

end ReferenceSite.Manifest
