import ReferenceSite.Navigation
import ReferenceSite.Proofs.Json.Parts

/-!
# Groups of registered pages

The groups that a navigation is arranged in have no keys beyond their own, so their JSON values are proper
documents (`proper_group`), which have the heading as their name (`get?_group`).
-/

namespace ReferenceSite

/-- No group in the page has further keys. -/
inductive NavPage.Plain : NavPage → Prop
  | page (path : String) : Plain (.page path)
  | group (heading : String) (icon : Option String) {pages : List NavPage} :
      (∀ p ∈ pages, Plain p) → Plain (.group heading icon pages [])

namespace NavGroup

theorem pagesToJson_eq_map (pages : List NavPage) : pagesToJson pages = pages.map pageToJson := by
  induction pages with
  | nil => rfl
  | cons p pages ih => rw [pagesToJson, ih, List.map_cons]

/-- The JSON value of a plain page is a proper document. -/
theorem proper_pageToJson {p : NavPage} (h : p.Plain) : (pageToJson p).Proper := by
  induction h with
  | page path => exact Json.proper_str path
  | group heading icon _ ih =>
    rw [pageToJson, pagesToJson_eq_map, Json.proper_obj]
    have hpages := Json.proper_arr.2 (List.forall_mem_map.2 ih)
    cases icon with
    | none => exact ⟨by simp, by simp [Json.proper_str, hpages]⟩
    | some icon => exact ⟨by simp, by simp [Json.proper_str, hpages]⟩

end NavGroup

namespace Navigation

variable (nav : Navigation)

theorem plain_node (unopened : List String) (e : Entry) : (nav.node unopened e).Plain := by
  induction unopened, e using node.induct with
  | case1 unopened e hmem ih =>
    rw [node, dif_pos hmem]
    exact .group _ none (List.forall_mem_cons.2 ⟨.page e.page, List.forall_mem_map.2 fun c _ => ih c⟩)
  | case2 unopened e hmem =>
    rw [node, dif_neg hmem]
    exact .page e.page

theorem plain_asPage_group (heading : String) : (nav.group heading).asPage.Plain := by
  refine .group heading none (List.forall_mem_map.2 fun g hg => ?_)
  obtain ⟨category, -, hg⟩ := List.mem_filterMap.1 hg
  unfold categoryGroup? at hg
  split at hg
  · cases hg
  · cases hg
    exact .group _ _ (List.forall_mem_map.2 fun e _ => nav.plain_node _ e)

/-- The document of all pages in one group is proper. -/
theorem proper_group (heading : String) : (nav.group heading).toDocument.Proper := by
  have h := NavGroup.proper_pageToJson (nav.plain_asPage_group heading)
  rwa [NavGroup.toDocument, NavGroup.toJson, h.merged]

/-- The group of all pages has its heading. -/
theorem get?_group (heading : String) :
    (nav.group heading).toDocument.get? "group" = some (.str heading) := by
  have h := NavGroup.proper_pageToJson (nav.plain_asPage_group heading)
  rw [NavGroup.toDocument, NavGroup.toJson, h.merged]
  simp [NavGroup.asPage, NavGroup.pageToJson, Json.get?, Json.find?, group]

end Navigation

end ReferenceSite
