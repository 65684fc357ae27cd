import ReferenceSite.Proofs.Generation.Navigation
import ReferenceSite.Proofs.Generation.Sections
import ReferenceSite.Proofs.Model.Tree

/-!
# The links of a run

A page is rendered with addresses of other pages: those on the way to it, of pages that were written before;
those of its members, most of them written later; and those that references in its text resolve to. All of
them are computed from names. In a run from the root that succeeds every item that is to have a page gets
one, so each of these addresses leads to a page of the run (`Generator.generate_interlinked`).
-/

namespace ReferenceSite

open Generation

namespace Model

variable {m : Model} {base : String} {id n : Nat}

/-- The nearest item with a page among an item and its ancestors. -/
structure NearestPage (m : Model) (id n : Nat) : Prop where
  produces : (m.item n).kind.producesPage = true
  nearest : ∃ front back, id :: m.ancestors id = front ++ n :: back ∧
    ∀ a ∈ front, (m.item a).kind.producesPage = false

theorem pageItem?_eq_some_iff : m.pageItem? id = some n ↔ m.NearestPage id n := by
  rw [pageItem?, List.find?_eq_some_iff_append]
  constructor
  · rintro ⟨hproduces, front, back, heq, hfront⟩
    exact ⟨hproduces, front, back, heq, fun a ha => by simpa using hfront a ha⟩
  · rintro ⟨hproduces, front, back, heq, hfront⟩
    exact ⟨hproduces, front, back, heq, fun a ha => by simpa using hfront a ha⟩

/-- A link leads to the nearest page of the item that its reference resolves to. -/
theorem links_eq_some_iff {r : Reference} {context : Nat} {address : String} :
    m.links base r context = some address ↔ ∃ id n, m.resolve r (some context) = .ok id ∧
      m.NearestPage id n ∧ m.pageAddress? base n = some address := by
  unfold links
  cases m.resolve r (some context) with
  | error e => simp
  | ok id =>
    dsimp only
    unfold documentedAt?
    rw [Option.bind_eq_some_iff]
    constructor
    · rintro ⟨n, hn, haddress⟩
      exact ⟨id, n, rfl, pageItem?_eq_some_iff.1 hn, haddress⟩
    · rintro ⟨id', n, hid, hn, haddress⟩
      cases hid
      exact ⟨n, pageItem?_eq_some_iff.2 hn, haddress⟩

/-- The items that are shown on the way to the page of an item, the outermost first: its ancestors that have
    a name and are no wrappers. -/
def crumbItems (m : Model) (id : Nat) : List Nat :=
  (m.ancestors id).reverse.filter fun a => !(m.item a).kind.isWrapper && !(m.item a).isAnonymous

end Model

namespace Generation.Task

/-- The page of an item, where the pages before it are given. -/
def page (k : Task) (front : List Emission) (id : Nat) : Page :=
  Page.ofItem k.model k.settings.pageBase (k.refs front) id

/-- The address of the page of an item, among the pages of a run. -/
def LeadsTo (k : Task) (pages : List Emission) (id : Nat) (address : String) : Prop :=
  ∃ q ∈ pages, q.item = id ∧ address = "/" ++ k.pageRef q

/-- All addresses on a page and behind its links, where `pages` are the pages of the run. The way to the page
    leads through the pages of the named ancestors that are no wrappers. Listed members have the addresses of
    their pages, but for inline members, which have none. A link leads to the nearest page of the item that
    its reference resolves to. -/
structure Interlinked (k : Task) (pages : List Emission) (page : Page) (links : Links) : Prop where
  way : ∃ crumbs, page.breadcrumb = crumbs ++ [{ name := page.title }] ∧
    List.Forall₂ (fun crumb a => crumb.name = (k.model.item a).shownName ∧
      ∃ address, crumb.address = some address ∧ k.LeadsTo pages a address)
      crumbs (k.model.crumbItems page.item)
  members : ∀ s ∈ page.sections, ∀ e ∈ s.members, e.item ∈ k.model.visibleMembers page.item ∧
    (s.inline = true ∧ e.address = none ∨
      s.inline = false ∧ ∃ address, e.address = some address ∧ k.LeadsTo pages e.item address)
  links : ∀ r context address, links r context = some address ↔
    ∃ id n, k.model.resolve r (some context) = .ok id ∧ k.model.NearestPage id n ∧
      k.LeadsTo pages n address

variable {k : Task} {pages front back : List Emission} {p q : Emission} {id a n : Nat} {address : String}

theorem pageAddress?_eq_some_iff (h : k.Sound pages) (hid : id ∈ pages.map Emission.item) :
    k.model.pageAddress? k.settings.pageBase id = some address ↔ k.LeadsTo pages id address := by
  have haddress : ∀ q ∈ pages, k.model.pageAddress? k.settings.pageBase q.item =
      some ("/" ++ k.pageRef q) := by
    intro q hq
    unfold Model.pageAddress?
    rw [(h.address hq).2]
    rfl
  obtain ⟨q, hq, rfl⟩ := List.mem_map.1 hid
  constructor
  · intro hq'
    rw [haddress q hq] at hq'
    exact ⟨q, hq, rfl, (Option.some.inj hq').symm⟩
  · rintro ⟨r, hr, hitem, rfl⟩
    rw [← hitem]
    exact haddress r hr

theorem HasPage.not_inline (h : k.HasPage id) : (k.model.item id).kind.isInlineMember = false := by
  unfold HasPage Kind.producesPage at h
  simp only [Bool.and_eq_true, Bool.not_eq_true'] at h
  exact h.2

theorem HasPage.lt_size (h : k.HasPage id) : id < k.model.size :=
  Model.lt_size_of_producesPage h

section

variable (hm : k.model.Built) (hshaped : k.model.Shaped)
  (h : k.Clears (k.model.itinerary Model.root 0 none))
include hm hshaped h

/-- A walk from the root makes a page for every item that is to have one. -/
theorem Clears.mem_items (hpage : k.HasPage id) :
    id ∈ (k.walkPages Model.root).map Emission.item := by
  obtain ⟨depth, hbelow⟩ := hm.exists_below_root hshaped hpage.lt_size hpage.not_inline
  obtain ⟨q, hq, rfl⟩ := h.exists_page hm hbelow hpage
  exact List.mem_map_of_mem hq

/-- The pages of the ancestors of an item are made before its own. -/
theorem Clears.mem_front (hpages : k.walkPages Model.root = front ++ p :: back)
    (ha : a ∈ k.model.ancestors p.item) (hpage : k.HasPage a) : a ∈ front.map Emission.item := by
  have hmem := h.mem_items hm hshaped hpage
  have horder : ((k.walkPages Model.root).map Emission.item).Pairwise k.model.Precedes := by
    rw [walkPages, h.map_item, List.pairwise_map]
    exact (Model.preorder_itinerary hm Model.root).order.filter _
  have hsound : k.Sound (k.walkPages Model.root) := h.sound
  obtain ⟨hitem, -, -⟩ := hsound.page front p back hpages
  obtain ⟨depth, habove⟩ := hm.below_of_mem_ancestors hshaped ha hitem.not_inline
  rw [hpages, List.map_append, List.map_cons] at hmem horder
  rcases List.mem_append.1 hmem with hfront | hrest
  · exact hfront
  · exfalso
    rcases List.mem_cons.1 hrest with hself | hback
    · have hlt := hm.linked.lt_of_below_succ habove
      omega
    · have hprecedes := (List.pairwise_cons.1 (List.pairwise_append.1 horder).2.1).1 a hback
      exact hm.not_precedes_above habove hprecedes

/-- The way to a page leads through pages of the run. -/
theorem Clears.way (hpages : k.walkPages Model.root = front ++ p :: back) :
    List.Forall₂ (fun crumb a => crumb.name = (k.model.item a).shownName ∧
      ∃ address, crumb.address = some address ∧ k.LeadsTo (k.walkPages Model.root) a address)
      ((k.model.crumbItems p.item).map fun a =>
        ({ name := (k.model.item a).shownName,
           address := ((k.refs front).lookup a).map ("/" ++ ·) } : Crumb))
      (k.model.crumbItems p.item) := by
  have hsound : k.Sound (k.walkPages Model.root) := h.sound
  have hfront : k.Sound front := by
    rw [hpages] at hsound
    exact hsound.front
  rw [List.forall₂_map_left_iff, List.forall₂_same]
  intro a ha
  unfold Model.crumbItems at ha
  rw [List.mem_filter, List.mem_reverse, Bool.and_eq_true, Bool.not_eq_true'] at ha
  obtain ⟨hancestor, hwrapper, -⟩ := ha
  obtain ⟨c, hc⟩ := hm.exists_member_of_mem_ancestors hancestor
  have hpage : k.HasPage a := by
    unfold HasPage
    rw [hshaped.producesPage hc, hwrapper, Bool.not_false]
  have hmem := h.mem_front hm hshaped hpages hancestor hpage
  obtain ⟨q, hq, rfl⟩ := List.mem_map.1 hmem
  refine ⟨rfl, "/" ++ k.pageRef q, ?_, q, ?_, rfl, rfl⟩
  · dsimp only
    rw [hfront.lookup_refs hmem, (hfront.address hq).2]
    rfl
  · rw [hpages]
    exact List.mem_append_left _ hq

/-- Every page of a walk from the root is interlinked with the others. -/
theorem Clears.interlinked (hpages : k.walkPages Model.root = front ++ p :: back) :
    k.Interlinked (k.walkPages Model.root) (k.page front p.item)
      (k.model.links k.settings.pageBase) := by
  have hsound : k.Sound (k.walkPages Model.root) := h.sound
  refine ⟨⟨_, rfl, h.way hm hshaped hpages⟩, ?_, ?_⟩
  · intro s hs e he
    obtain ⟨-, hvisible, hinline | ⟨hlisted, hproduces, haddress⟩⟩ := Page.mem_memberSections hs he
    · exact ⟨hvisible, Or.inl hinline⟩
    · have hitem := h.mem_items hm hshaped hproduces
      obtain ⟨q, hq, hqitem⟩ := List.mem_map.1 hitem
      have hleads : k.LeadsTo (k.walkPages Model.root) e.item ("/" ++ k.pageRef q) :=
        ⟨q, hq, hqitem, rfl⟩
      refine ⟨hvisible, Or.inr ⟨hlisted, _, ?_, hleads⟩⟩
      rw [haddress]
      exact (pageAddress?_eq_some_iff hsound hitem).2 hleads
  · intro r context address
    rw [Model.links_eq_some_iff]
    refine exists_congr fun id => exists_congr fun n => and_congr_right fun _ =>
      and_congr_right fun hn => ?_
    exact pageAddress?_eq_some_iff hsound (h.mem_items hm hshaped hn.produces)

end

end Generation.Task

/-! ## Other renderers -/

namespace Generation

variable {k : Task} {t : FileTree} {pages : List Emission} {w w' : Walk} {v : Visit}
  {front vs : List Visit} {renderer : Renderer}

/-- A visit renders nothing but the page of its item. -/
theorem visit_renderer (h : w.After k t pages) (hsame : k.HasPage v.item →
    renderer (k.page pages v.item) (k.model.links k.settings.pageBase) = k.text pages v.item) :
    w.visit { k with renderer } v = w.visit k v := by
  unfold Walk.visit
  dsimp only
  split_ifs with hdepth htime hpage
  · rfl
  · rfl
  · have hrender := h.render v.item
    have hrender' : renderer (Page.ofItem k.model k.settings.pageBase w.pageRefs v.item)
        (linksOf k.model k.settings.pageBase (resolveAll k.model w.cache
          (Page.ofItem k.model k.settings.pageBase w.pageRefs v.item).links).1) =
        k.text pages v.item := by
      rw [linksOf_resolveAll h.cache, h.pageRefs]
      exact hsame hpage
    unfold Walk.emit
    dsimp only
    cases k.model.address v.item with
    | error e => rfl
    | ok a =>
      dsimp only
      cases w.claimed.lookup (Text.lowercase a.toText) with
      | some other => rfl
      | none =>
        dsimp only
        unfold Walk.writeItem
        dsimp only
        rw [hrender, hrender']
        rfl
  · rfl

/-- A renderer that gives the pages of a walk the same texts makes the same walk. -/
theorem visitAll_renderer (h : w.After k t (k.emissions front)) (hclears : k.Clears front)
    (howners : k.OwnersFirst (front ++ vs)) (hrun : Walk.visitAll k w vs = (.ok (), w'))
    (hsame : ∀ before p after, k.emissions (front ++ vs) = before ++ p :: after →
      renderer (k.page before p.item) (k.model.links k.settings.pageBase) = .ok p.text) :
    Walk.visitAll { k with renderer } w vs = (.ok (), w') := by
  induction vs generalizing front w with
  | nil => exact hrun
  | cons v vs ih =>
    unfold Walk.visitAll at hrun ⊢
    split at hrun
    · cases hrun
    · next w₁ hvisit =>
      obtain ⟨hpasses, hafter⟩ := visit_ok h hclears.sound (hclears.owned howners) hvisit
      have hvisit' : w.visit { k with renderer } v = (.ok (), w₁) := by
        rw [visit_renderer h, hvisit]
        intro hpage
        obtain ⟨a, s, -, hs, hp⟩ := hpasses.emission? hpage
        obtain ⟨after, hafter⟩ := Task.isPrefix_emissions (k := k) (front ++ [v]) vs
        rw [Task.emissions_concat, hp, Option.toList_some, ← List.append_cons, List.append_assoc,
          List.singleton_append] at hafter
        rw [hs]
        exact hsame _ _ after hafter.symm
      rw [hvisit']
      dsimp only
      rw [← Task.emissions_concat] at hafter
      rw [List.append_cons] at howners hsame
      exact ih hafter (hclears.concat hpasses) howners hrun hsame

end Generation

namespace Generator

variable {g g' : Generator} {t t' : FileTree} {report : Report}

/-- A run from the root that succeeds makes a page for every item that is to have one, puts it in its file,
    and renders it interlinked with the other pages. Nothing else is rendered: another renderer that gives
    these pages the same texts makes the same run. -/
structure Connected (g : Generator) (t : FileTree) (report : Report) (g' : Generator) (t' : FileTree) :
    Prop where
  reached : ∀ id, id ∈ (g.pages Model.root).map Emission.item ↔ g.toTask.HasPage id
  filed : g.toTask.Filed t (g.pages Model.root) t'
  count : report.written + report.unchanged = (g.pages Model.root).length
  rendered : ∀ front p back, g.pages Model.root = front ++ p :: back →
    g.renderer (g.toTask.page front p.item) (g.model.links g.settings.pageBase) = .ok p.text
  interlinked : ∀ front p back, g.pages Model.root = front ++ p :: back →
    g.toTask.Interlinked (g.pages Model.root) (g.toTask.page front p.item)
      (g.model.links g.settings.pageBase)
  only : ∀ renderer : Renderer, (∀ front p back, g.pages Model.root = front ++ p :: back →
    renderer (g.toTask.page front p.item) (g.model.links g.settings.pageBase) = .ok p.text) →
    ({ g with renderer } : Generator).generate t Model.root = (.ok report, { g' with renderer }, t')

/-- In a run from the root of a model that was read from a text, every address that is handed to the renderer
    leads to a page of the run. -/
theorem generate_interlinked {text : String} (hm : Model.ofJsonText text = .ok g.model)
    (h : g.generate t Model.root = (.ok report, g', t')) : g.Connected t report g' t' := by
  have hbuilt := Model.built_ofJsonText hm
  have hshaped := Model.shaped_ofJsonText hm
  obtain ⟨w, hwalk, hroot, hreport, hkeep, htree⟩ := generate_ok h
  have howners := g.toTask.ownersFirst_itinerary hbuilt.linked Model.root
  obtain ⟨hclears, hafter⟩ := visitAll_ok (g.startWalk_after t) Task.clears_nil howners hwalk
  rw [List.nil_append] at hclears hafter
  have hsound : g.toTask.Sound (g.pages Model.root) := hclears.sound
  subst hreport hkeep htree
  refine ⟨fun id => ⟨fun hid => ?_, hclears.mem_items hbuilt hshaped⟩, hafter.filed, hafter.count,
    ?_, fun front p back hpages => hclears.interlinked hbuilt hshaped hpages, ?_⟩
  · obtain ⟨p, hp, rfl⟩ := List.mem_map.1 hid
    exact (hsound.address hp).1
  · intro front p back hpages
    exact (hsound.page front p back hpages).2.2
  · intro renderer hsame
    let g₂ : Generator := { g with renderer }
    have hwalk₂ : Walk.visitAll g₂.toTask (g₂.startWalk t) (g₂.model.itinerary Model.root 0 none) =
        (.ok (), w) :=
      visitAll_renderer (g.startWalk_after t) Task.clears_nil howners hwalk hsame
    have hroot₂ : g₂.model.contains Model.root = true := hroot
    have hrun : g₂.generate t Model.root = (.ok (reportOf w), g₂.keep w, w.tree) := by
      rw [generate_eq, if_pos hroot₂, hwalk₂]
      rfl
    exact hrun

theorem generate_interlinked_memberText : ∃ report g' t',
    Model.ofJsonText memberText = .ok (ofText memberText).model ∧
      (ofText memberText).generate pairFiles Model.root = (.ok report, g', t') ∧ report.written = 3 ∧
      (ofText memberText).Connected pairFiles report g' t' := by
  obtain ⟨hmodel, report, g', t', hrun, hwritten, -⟩ := generate_memberText
  exact ⟨report, g', t', hmodel, hrun, hwritten, generate_interlinked hmodel hrun⟩

end Generator

end ReferenceSite
