import Mathlib.Data.List.Forall2
import ReferenceSite.Proofs.Json.Merging
import ReferenceSite.Proofs.Navigation.Group

/-!
# Groups read back

The own keys of a group and its further keys stand in one object, and a reader has to tell them apart again.
That works where no further key is an own one and the further keys form a document, at every level
(`NavPage.Separated`): such a page, and no other one, is read back as it was written
(`pageOfJson?_pageToJson_iff`). What is read from a value is such a page, and it has the further keys of the
value in their order (`NavPage.ReadFrom`).
-/

namespace ReferenceSite

/-- At every level of a page the further keys form a document and none of them is one of a group's own. -/
inductive NavPage.Separated : NavPage → Prop
  | page (path : String) : Separated (.page path)
  | group (heading : String) (icon : Option String) {pages : List NavPage} {extra : List (String × Json)} :
      (∀ p ∈ pages, Separated p) → (∀ m ∈ extra, m.1 ∉ NavGroup.ownKeys) →
      (Json.obj extra).merged = .obj extra → Separated (.group heading icon pages extra)

/-- A page has what a document says: at every level the heading, the icon, the pages, and the members with
    other keys in their order. -/
inductive NavPage.ReadFrom : Json → NavPage → Prop
  | page (path : String) : ReadFrom (.str path) (.page path)
  | group {members extra : List (String × Json)} {heading : String} {icon : Option String} {vs : List Json}
      {pages : List NavPage} :
      Json.find? "group" members = some (.str heading) →
      (Json.find? "icon" members).getD .null = Json.ofOption .str icon →
      (Json.find? "pages" members).getD (.arr []) = .arr vs → List.Forall₂ ReadFrom vs pages →
      extra = members.filter (fun m => !NavGroup.ownKeys.contains m.1) →
      ReadFrom (.obj members) (.group heading icon pages extra)

namespace NavGroup

variable {members extra : List (String × Json)} {heading : String} {icon : Option String}
  {vs : List Json} {pages : List NavPage} {p : NavPage} {v : Json} {g : NavGroup}

/-! ## Reading the members of a group -/

theorem string?_eq_some_iff {s : String} : Json.string? v = some s ↔ v = .str s := by
  cases v <;> simp [Json.string?]

theorem required_string?_iff {name s : String} :
    Json.required name Json.string? members = some s ↔ Json.find? name members = some (.str s) := by
  rw [Json.required, Option.bind_eq_some_iff]
  constructor
  · rintro ⟨v, hfind, hv⟩
    rw [hfind, string?_eq_some_iff.1 hv]
  · exact fun h => ⟨_, h, rfl⟩

/-- A text that may be missing is missing if the value is `null`. -/
theorem optional_string?_iff {name : String} : Json.optional name Json.string? members = some icon ↔
    (Json.find? name members).getD .null = Json.ofOption .str icon := by
  rw [Json.optional, Json.withDefault]
  cases Json.find? name members with
  | none => cases icon <;> simp [Json.ofOption]
  | some v => cases v <;> cases icon <;> simp [Json.nullable, Json.string?, Json.ofOption]

theorem pagesOfMembers?_eq (members : List (String × Json)) :
    pagesOfMembers? members = pagesOfValue? ((Json.find? "pages" members).getD (.arr [])) := by
  induction members with
  | nil => simp [pagesOfMembers?, Json.find?, pagesOfValue?, pagesOfElements?]
  | cons m members ih =>
    obtain ⟨k, v⟩ := m
    rw [pagesOfMembers?, Json.find?_cons]
    by_cases hk : k = "pages"
    · simp [hk]
    · simp [hk, ih]

theorem pagesOfElements?_eq_some_iff : pagesOfElements? vs = some pages ↔
    List.Forall₂ (fun v p => pageOfJson? v = some p) vs pages := by
  induction vs generalizing pages with
  | nil => cases pages <;> simp [pagesOfElements?]
  | cons v vs ih => cases pages <;> simp [pagesOfElements?, Option.bind_eq_some_iff, ih]

theorem pagesOfValue?_eq_some_iff : pagesOfValue? v = some pages ↔
    ∃ vs, v = .arr vs ∧ List.Forall₂ (fun v p => pageOfJson? v = some p) vs pages := by
  cases v <;> simp [pagesOfValue?, pagesOfElements?_eq_some_iff]

/-- The members with keys of a group's own. -/
def ownMembers (members : List (String × Json)) : List (String × Json) :=
  members.filter fun m => ownKeys.contains m.1

theorem find?_ownMembers {name : String} (h : name ∈ ownKeys) :
    Json.find? name (ownMembers members) = Json.find? name members :=
  Json.find?_filter (List.contains_iff_mem.2 h)

/-- A group is put together from members among which no own key is repeated. -/
theorem groupOf?_eq_some_iff : groupOf? members pages = some p ↔
    ∃ heading icon, ((ownMembers members).map Prod.fst).Nodup ∧
      Json.find? "group" members = some (.str heading) ∧
      (Json.find? "icon" members).getD .null = Json.ofOption .str icon ∧
      p = .group heading icon pages (extraOf members) := by
  have hown : Json.objectFields? ownKeys members =
      if ((ownMembers members).map Prod.fst).Nodup then some (ownMembers members) else none := rfl
  unfold groupOf?
  rw [hown]
  by_cases hnodup : ((ownMembers members).map Prod.fst).Nodup
  · have hheading : ∀ heading, Json.required "group" Json.string? (ownMembers members) = some heading ↔
        Json.find? "group" members = some (.str heading) := by
      intro heading
      rw [required_string?_iff, find?_ownMembers (by decide)]
    have hicon : ∀ icon, Json.optional "icon" Json.string? (ownMembers members) = some icon ↔
        (Json.find? "icon" members).getD .null = Json.ofOption .str icon := by
      intro icon
      rw [optional_string?_iff, find?_ownMembers (by decide)]
    simp [hnodup, Option.bind_eq_some_iff, hheading, hicon, @eq_comm _ p]
  · simp [hnodup]

/-- A group is read from an object in which no own key is repeated, by its own keys. -/
theorem pageOfJson?_obj_iff : pageOfJson? (.obj members) = some p ↔
    ∃ heading icon vs pages, ((ownMembers members).map Prod.fst).Nodup ∧
      Json.find? "group" members = some (.str heading) ∧
      (Json.find? "icon" members).getD .null = Json.ofOption .str icon ∧
      (Json.find? "pages" members).getD (.arr []) = .arr vs ∧
      List.Forall₂ (fun v p => pageOfJson? v = some p) vs pages ∧
      p = .group heading icon pages (extraOf members) := by
  rw [pageOfJson?, pagesOfMembers?_eq]
  constructor
  · intro h
    obtain ⟨pages, hpages, hgroup⟩ := Option.bind_eq_some_iff.1 h
    obtain ⟨vs, hvs, hread⟩ := pagesOfValue?_eq_some_iff.1 hpages
    obtain ⟨heading, icon, hnodup, hheading, hicon, hp⟩ := groupOf?_eq_some_iff.1 hgroup
    exact ⟨heading, icon, vs, pages, hnodup, hheading, hicon, hvs, hread, hp⟩
  · rintro ⟨heading, icon, vs, pages, hnodup, hheading, hicon, hvs, hread, hp⟩
    have hpages := pagesOfValue?_eq_some_iff.2 ⟨vs, hvs, hread⟩
    have hgroup := groupOf?_eq_some_iff.2 ⟨heading, icon, hnodup, hheading, hicon, hp⟩
    exact Option.bind_eq_some_iff.2 ⟨pages, hpages, hgroup⟩

/-- Reading a group reads a page that is one. -/
theorem ofJson?_eq_some_iff : ofJson? v = some g ↔ pageOfJson? v = some g.asPage := by
  obtain ⟨heading, icon, pages, extra⟩ := g
  cases v with
  | obj members =>
    rw [ofJson?]
    cases hread : pageOfJson? (.obj members) with
    | none => simp
    | some p => cases p <;> simp [asPage]
  | str path => simp [ofJson?, pageOfJson?, asPage]
  | _ => simp [ofJson?, pageOfJson?]

/-! ## Pages that are read back -/

section Written

variable {own : List (String × Json)} (hown : ∀ m ∈ own, m.1 ∈ ownKeys)
  (hextra : ∀ m ∈ extra, m.1 ∉ ownKeys)

include hown hextra

theorem ownMembers_append : ownMembers (own ++ extra) = own := by
  have hall : own.filter (fun m => ownKeys.contains m.1) = own := by
    rw [List.filter_eq_self]
    exact fun m hm => List.contains_iff_mem.2 (hown m hm)
  have hnone : extra.filter (fun m => ownKeys.contains m.1) = [] := by
    rw [List.filter_eq_nil_iff]
    exact fun m hm hkey => hextra m hm (List.contains_iff_mem.1 hkey)
  rw [ownMembers, List.filter_append, hall, hnone, List.append_nil]

theorem extraOf_append : extraOf (own ++ extra) = Json.putAll (Json.mergedMembers extra) := by
  have hnone : own.filter (fun m => !ownKeys.contains m.1) = [] := by
    rw [List.filter_eq_nil_iff]
    exact fun m hm => by simpa using hown m hm
  have hall : extra.filter (fun m => !ownKeys.contains m.1) = extra := by
    rw [List.filter_eq_self]
    exact fun m hm => by simpa using hextra m hm
  have hfurther : (own ++ extra).filter (fun m => !ownKeys.contains m.1) = extra := by
    rw [List.filter_append, hnone, hall, List.nil_append]
  exact congrArg (fun ms => Json.putAll (Json.mergedMembers ms)) hfurther

end Written

/-- The members that are written for the own keys of a group. -/
def writtenMembers (heading : String) (icon : Option String) (pages : List NavPage) :
    List (String × Json) :=
  ("group", .str heading) :: (icon.map fun i => ("icon", Json.str i)).toList
    ++ [("pages", .arr (pagesToJson pages))]

theorem pageToJson_group : pageToJson (.group heading icon pages extra) =
    .obj (writtenMembers heading icon pages ++ extra) := by
  rw [pageToJson, writtenMembers, List.append_assoc, List.singleton_append]

theorem mem_ownKeys_of_mem_writtenMembers :
    ∀ m ∈ writtenMembers heading icon pages, m.1 ∈ ownKeys := by
  cases icon <;> simp [writtenMembers, ownKeys]

theorem nodup_keys_writtenMembers : ((writtenMembers heading icon pages).map Prod.fst).Nodup := by
  cases icon <;> simp [writtenMembers]

/-- A page is read back if its own keys and the further ones can be told apart. -/
theorem pageOfJson?_pageToJson {p : NavPage} (h : p.Separated) : pageOfJson? (pageToJson p) = some p := by
  induction h with
  | page path => rfl
  | @group heading icon pages extra _ hapart hdocument ih =>
    have hown := @mem_ownKeys_of_mem_writtenMembers heading icon pages
    have hpages : List.Forall₂ (fun v p => pageOfJson? v = some p) (pagesToJson pages) pages := by
      rw [pagesToJson_eq_map, List.forall₂_map_left_iff, List.forall₂_same]
      exact ih
    have hfind : ∀ name ∈ ownKeys, Json.find? name (writtenMembers heading icon pages ++ extra) =
        Json.find? name (writtenMembers heading icon pages) := by
      intro name hname
      rw [← find?_ownMembers hname, ownMembers_append hown hapart]
    have hextra : extraOf (writtenMembers heading icon pages ++ extra) = extra := by
      rw [extraOf_append hown hapart]
      exact Json.obj.inj hdocument
    rw [pageToJson_group, pageOfJson?_obj_iff, ownMembers_append hown hapart, hfind "group" (by decide),
      hfind "icon" (by decide), hfind "pages" (by decide), hextra]
    refine ⟨heading, icon, pagesToJson pages, pages, nodup_keys_writtenMembers, ?_, ?_, ?_, hpages, rfl⟩
    · simp [writtenMembers, Json.find?_cons]
    · cases icon <;> simp [writtenMembers, Json.find?, Json.ofOption]
    · cases icon <;> simp [writtenMembers, Json.find?_cons]

/-! ## Pages that were read -/

/-- The further keys of a group are those of the merged object, in its order. -/
theorem extraOf_eq_filter (members : List (String × Json)) : extraOf members =
    (Json.putAll (Json.mergedMembers members)).filter fun m => !ownKeys.contains m.1 := by
  rw [Json.filter_putAll fun k => !ownKeys.contains k, Json.filter_mergedMembers fun k => !ownKeys.contains k]
  rfl

theorem separated_extraOf (members : List (String × Json)) :
    (∀ m ∈ extraOf members, m.1 ∉ ownKeys) ∧ (Json.obj (extraOf members)).merged = .obj (extraOf members) := by
  constructor
  · intro m hm
    rw [extraOf_eq_filter, List.mem_filter] at hm
    simpa using hm.2
  · exact Json.merged_merged (.obj (members.filter fun m => !ownKeys.contains m.1))

/-- Merging leaves a group its own keys and merges their values. -/
theorem find?_merged_own (h : ((ownMembers members).map Prod.fst).Nodup) {name : String}
    (hname : name ∈ ownKeys) : Json.find? name (Json.putAll (Json.mergedMembers members)) =
      (Json.find? name members).map Json.merged := by
  have hkeys : (((Json.mergedMembers members).filter fun m => ownKeys.contains m.1).map Prod.fst).Nodup := by
    rw [Json.filter_mergedMembers fun k => ownKeys.contains k, Json.mergedMembers_eq_map, List.map_map]
    exact h
  rw [Json.find?_putAll (List.contains_iff_mem.2 hname) hkeys, Json.find?_mergedMembers]

/-- What is read from an object can be read back, and it has what the merged object says, if that is so for
    the pages of the group. -/
theorem pageOfJson?_obj_spec (hread : pageOfJson? (.obj members) = some p)
    (helements : ∀ vs, (Json.find? "pages" members).getD (.arr []) = .arr vs → ∀ e ∈ vs, ∀ p,
      pageOfJson? e = some p → p.Separated ∧ NavPage.ReadFrom e.merged p) :
    p.Separated ∧ NavPage.ReadFrom (Json.obj members).merged p := by
  obtain ⟨heading, icon, vs, pages, hnodup, hheading, hicon, hvs, hforall, rfl⟩ :=
    pageOfJson?_obj_iff.1 hread
  have hpages : List.Forall₂ (fun e p => p.Separated ∧ NavPage.ReadFrom e.merged p) vs pages := by
    have hboth := (List.forall₂_and_left vs pages).2 ⟨helements vs hvs, hforall⟩
    exact hboth.imp fun e p h => h.1 p h.2
  constructor
  · obtain ⟨hapart, hdocument⟩ := separated_extraOf members
    refine .group heading icon ?_ hapart hdocument
    clear hforall hvs hread
    induction hpages with
    | nil => simp
    | cons hp _ ih => exact List.forall_mem_cons.2 ⟨hp.1, ih⟩
  · have hmerged : ∀ name ∈ ownKeys, ∀ w : Json,
        (Json.find? name (Json.putAll (Json.mergedMembers members))).getD w.merged =
          ((Json.find? name members).getD w).merged := by
      intro name hname w
      rw [find?_merged_own hnodup hname, Option.getD_map]
    have hheading' := find?_merged_own hnodup (show "group" ∈ ownKeys by decide)
    have hicon' := hmerged "icon" (by decide) .null
    have hvs' := hmerged "pages" (by decide) (.arr [])
    have hscalar : (Json.ofOption Json.str icon).merged = Json.ofOption Json.str icon := by
      cases icon <;> rfl
    rw [hheading] at hheading'
    rw [hicon, hscalar] at hicon'
    rw [hvs, Json.merged_arr vs] at hvs'
    have hforall' := List.forall₂_map_left_iff.2 (hpages.imp fun _ _ h => h.2)
    exact .group hheading' hicon' hvs' hforall' (extraOf_eq_filter members)

/-- What is read from a value can be read back, and it has what the merged value says. -/
theorem pageOfJson?_spec (v : Json) :
    ∀ p, pageOfJson? v = some p → p.Separated ∧ NavPage.ReadFrom v.merged p := by
  -- the elements of an array are taken along, since the pages of a group stand in one
  suffices h : (∀ p, pageOfJson? v = some p → p.Separated ∧ NavPage.ReadFrom v.merged p) ∧
      ∀ vs, v = .arr vs → ∀ e ∈ vs, ∀ p, pageOfJson? e = some p →
        p.Separated ∧ NavPage.ReadFrom e.merged p from h.1
  induction v using Json.induction with
  | str path =>
    refine ⟨fun p hp => ?_, by simp⟩
    rw [pageOfJson?] at hp
    obtain rfl := Option.some.inj hp
    exact ⟨.page path, .page path⟩
  | arr vs ih =>
    refine ⟨fun p hp => by simp [pageOfJson?] at hp, ?_⟩
    rintro _ ⟨rfl⟩ e he
    exact (ih e he).1
  | obj members ih =>
    refine ⟨fun p hp => pageOfJson?_obj_spec hp fun vs hvs => ?_, by simp⟩
    cases hfind : Json.find? "pages" members with
    | none =>
      rw [hfind] at hvs
      obtain rfl : [] = vs := Json.arr.inj hvs
      simp
    | some w =>
      rw [hfind] at hvs
      obtain ⟨m, hm, rfl⟩ := Option.map_eq_some_iff.1 hfind
      exact (ih m (List.mem_of_find?_eq_some hm)).2 vs hvs
  | _ => simp [pageOfJson?]

/-- A page is read back exactly if its own keys and the further ones can be told apart. -/
theorem pageOfJson?_pageToJson_iff : pageOfJson? (pageToJson p) = some p ↔ p.Separated :=
  ⟨fun h => (pageOfJson?_spec _ p h).1, pageOfJson?_pageToJson⟩

/-- A page is written as a document. -/
theorem merged_pageToJson {p : NavPage} (h : p.Separated) : (pageToJson p).merged = pageToJson p := by
  induction h with
  | page path => rfl
  | @group heading icon pages extra _ hapart hdocument ih =>
    obtain ⟨hkeys, hvalues⟩ := Json.merged_obj_eq_self_iff.1 hdocument
    rw [pageToJson_group, Json.merged_obj_eq_self_iff, List.map_append, List.nodup_append]
    refine ⟨⟨nodup_keys_writtenMembers, hkeys, ?_⟩, List.forall_mem_append.2 ⟨?_, hvalues⟩⟩
    · intro key hkey key' hkey' heq
      obtain ⟨m, hm, rfl⟩ := List.mem_map.1 hkey
      obtain ⟨m', hm', rfl⟩ := List.mem_map.1 hkey'
      exact hapart m' hm' (heq ▸ mem_ownKeys_of_mem_writtenMembers m hm)
    · have hpages : Json.mergedElements (pagesToJson pages) = pagesToJson pages := by
        rw [Json.mergedElements_eq_map, pagesToJson_eq_map, List.map_map]
        exact List.map_congr_left ih
      cases icon <;> simp [writtenMembers, hpages, Json.merged]

end NavGroup

/-! ## Groups that were read or made -/

/-- A page that was made of references, of groups that were read, and of groups without further keys. -/
inductive NavPage.Made : NavPage → Prop
  | page (path : String) : Made (.page path)
  | read {v : Json} {g : NavGroup} : NavGroup.ofJson? v = some g → Made g.asPage
  | group (heading : String) (icon : Option String) {pages : List NavPage} :
      (∀ p ∈ pages, Made p) → Made (.group heading icon pages [])

theorem NavPage.Made.separated {p : NavPage} (h : p.Made) : p.Separated := by
  induction h with
  | page path => exact .page path
  | @read v g hread => exact (NavGroup.pageOfJson?_spec v _ (NavGroup.ofJson?_eq_some_iff.1 hread)).1
  | group heading icon _ ih => exact .group heading icon ih (by simp) rfl

namespace NavGroup

/-- A group with further keys that can be told apart is written as a document and read back. -/
theorem ofJson?_toJson {g : NavGroup} (h : g.asPage.Separated) :
    ofJson? g.toJson = some g ∧ g.toDocument = g.toJson := by
  constructor
  · exact ofJson?_eq_some_iff.2 (pageOfJson?_pageToJson h)
  · exact merged_pageToJson h

/-- A group that was read is read back as it was, and it has what the merged value says, at every level with
    the further keys in their order. A group that was made with a heading and an icon, of any pages that were
    read or made, is read back as it was. Each is written as a document. -/
theorem groups_reread :
    (∀ v g, ofJson? v = some g →
      (ofJson? g.toJson = some g ∧ g.toDocument = g.toJson) ∧ NavPage.ReadFrom v.merged g.asPage) ∧
    ∀ heading icon pages, (∀ p ∈ pages, NavPage.Made p) →
      let g : NavGroup := { heading, icon, pages }
      ofJson? g.toJson = some g ∧ g.toDocument = g.toJson := by
  constructor
  · intro v g hread
    obtain ⟨hseparated, hfrom⟩ := pageOfJson?_spec v _ (ofJson?_eq_some_iff.1 hread)
    exact ⟨ofJson?_toJson hseparated, hfrom⟩
  · intro heading icon pages hpages
    exact ofJson?_toJson (NavPage.Made.group heading icon hpages).separated

/-- A group with further keys before, between and behind its own, and a group without an icon in it. -/
theorem groups_reread_guides :
    let v : Json := .obj [("open", .bool true), ("group", .str "Guides"), ("pages", .arr [.str "intro",
      .obj [("pages", .arr []), ("z", .null), ("a", .arr [.str "icon"]), ("group", .str "More")]]),
      ("icon", .null), ("order", .num (.natural 3))]
    let more : NavPage := .group "More" none [] [("z", .null), ("a", .arr [.str "icon"])]
    let g : NavGroup := {
      heading := "Guides", pages := [.page "intro", more]
      extra := [("open", .bool true), ("order", .num (.natural 3))] }
    ofJson? v = some g ∧ ofJson? g.toJson = some g ∧
      ∀ icon, ofJson? ({ heading := "All", icon, pages := [g.asPage] } : NavGroup).toJson =
        some { heading := "All", icon, pages := [g.asPage] } := by
  intro v more g
  have hread : ofJson? v = some g := rfl
  have hmade : ∀ p ∈ [g.asPage], NavPage.Made p := by
    intro p hp
    rw [List.mem_singleton.1 hp]
    exact .read hread
  exact ⟨hread, (groups_reread.1 v g hread).1.1, fun icon => (groups_reread.2 "All" icon _ hmade).1⟩

end NavGroup

end ReferenceSite
