import ReferenceSite.Proofs.Generation.Outcome
import ReferenceSite.Proofs.Model.Source
import ReferenceSite.Proofs.Navigation.Arrangement
import ReferenceSite.Proofs.Owners

/-!
# The navigation of a run

A run that succeeds lists its pages in the order of the walk, all but those of items without a name that
nothing encloses, and names for each one the page of the nearest item that encloses it
(`Task.forall₂_entries`). Pages have references of their own and follow the pages that enclose them, so the
navigation is ordered (`Task.ordered`) and its groups refer to each listed page once.
-/

namespace ReferenceSite

open Generation

namespace Generation.Task

/-- A page that the navigation lists: its item has a name, or an item of the walk encloses it. -/
def Listed (k : Task) (root : Nat) (p : Emission) : Prop :=
  (k.model.item p.item).isAnonymous = false ∨ ∃ o, k.model.Encloses root o p.item

/-- The entry of a page among the pages of a walk. -/
structure EntryOf (k : Task) (root : Nat) (pages : List Emission) (e : Navigation.Entry)
    (p : Emission) : Prop where
  page : e.page = k.pageRef p
  category : e.category = Category.ofKind (k.model.item p.item).kind
  name : e.name = k.model.pageTitle p.item
  parent : (e.parent = none ∧ ∀ o, ¬ k.model.Encloses root o p.item) ∨
    ∃ q ∈ pages, k.model.NearestOwner root q.item p.item ∧ e.parent = some (k.pageRef q)

variable {k : Task} {root : Nat} {pages : List Emission} {p q : Emission} {v : Visit}

/-! ## Owners -/

/-- The page reference of an owner is that of its page. -/
theorem Sound.ownerRef_eq (h : k.Sound pages) (hq : q ∈ pages) (hv : v.owner = some q.item) :
    k.ownerRef v = some (k.pageRef q) := by
  rw [ownerRef, hv, Option.bind_some, (h.address hq).2]
  rfl

/-- Different pages have different page references. -/
theorem Sound.pairwise_pageRef_ne (h : k.Sound pages) :
    pages.Pairwise fun p q => k.pageRef p ≠ k.pageRef q := by
  refine (List.pairwise_map.1 h.distinct).imp fun hne hsame => hne ?_
  exact congrArg Text.lowercase (Address.pageRef_injective hsame)

theorem Sound.eq_of_pageRef (h : k.Sound pages) (hp : p ∈ pages) (hq : q ∈ pages)
    (hsame : k.pageRef p = k.pageRef q) : p = q :=
  List.inj_on_of_nodup_map h.distinct hp hq
    (congrArg Text.lowercase (Address.pageRef_injective hsame))

theorem hasPage_of_ownsNavigation {o : Nat} (h : (k.model.item o).kind.ownsNavigation = true) :
    k.HasPage o := by
  unfold HasPage
  cases hkind : (k.model.item o).kind <;> rw [hkind] at h <;> first | rfl | cases h

/-- The pages of the walk from an item. -/
def walkPages (k : Task) (root : Nat) : List Emission := k.emissions (k.model.itinerary root 0 none)

/-- A walk makes a page for every item that it reaches and that is to have one. -/
theorem Clears.exists_page (hm : k.model.Built) (h : k.Clears (k.model.itinerary root 0 none)) {id depth : Nat}
    (hbelow : k.model.Below root depth id) (hpage : k.HasPage id) :
    ∃ q ∈ k.walkPages root, q.item = id := by
  obtain ⟨v, hv, rfl⟩ := Model.exists_mem_itinerary hm.linked hbelow 0 none
  have hvisit : v ∈ (k.walkPages root).map Emission.visit := by
    rw [walkPages, h.map_visit]
    exact List.mem_filter.2 ⟨hv, by simpa using hpage⟩
  obtain ⟨q, hq, rfl⟩ := List.mem_map.1 hvisit
  exact ⟨q, hq, rfl⟩

/-- The owner of a page is the nearest item of the walk that encloses its item, and has a page itself. -/
theorem Clears.owner_cases (hm : k.model.Built) (h : k.Clears (k.model.itinerary root 0 none))
    (hp : p ∈ k.walkPages root) :
    (k.ownerRef p.visit = none ∧ ∀ o, ¬ k.model.Encloses root o p.item) ∨
      ∃ q ∈ k.walkPages root, p.visit.owner = some q.item ∧
        k.model.NearestOwner root q.item p.item ∧ k.ownerRef p.visit = some (k.pageRef q) := by
  have hvisit : p.visit ∈ k.model.itinerary root 0 none := by
    have hmem := List.mem_map_of_mem (f := Emission.visit) hp
    rw [walkPages, h.map_visit] at hmem
    exact (List.mem_filter.1 hmem).1
  rcases Model.owner_itinerary hm.forked hm.linked hvisit with ⟨howner, hnone⟩ | ⟨o, howner, hnearest⟩
  · exact Or.inl ⟨by rw [ownerRef, howner, Option.bind_none], hnone⟩
  · obtain ⟨depth, hwithin⟩ := hnearest.within
    obtain ⟨q, hq, rfl⟩ := h.exists_page hm hwithin (hasPage_of_ownsNavigation hnearest.owns)
    exact Or.inr ⟨q, hq, howner, hnearest, Sound.ownerRef_eq h.sound hq howner⟩

/-- The owner of a page has no later page. -/
theorem Clears.pairwise_owner_ne (hm : k.model.Built) (h : k.Clears (k.model.itinerary root 0 none)) :
    (k.walkPages root).Pairwise fun p q => p.visit.owner ≠ some q.item := by
  have hvisits := (Model.pairwise_owner_ne hm.forked hm.linked root 0).filter
    fun v => k.HasPage v.item
  rw [← h.map_visit, List.pairwise_map] at hvisits
  exact hvisits

/-! ## Entries -/

/-- An entry tells the category, the title and the owner of its page. -/
theorem fields_of_registered {e : Navigation.Entry} (h : k.entry? p = some e) :
    e.category = Category.ofKind (k.model.item p.item).kind ∧ e.name = k.model.pageTitle p.item ∧
      e.parent = k.ownerRef p.visit := by
  unfold entry? at h
  dsimp only at h
  split_ifs at h
  rw [← Option.some.inj h]
  dsimp only
  exact ⟨rfl, rfl, rfl⟩

theorem entry?_eq_none_iff : k.entry? p = none ↔
    k.ownerRef p.visit = none ∧ (k.model.item p.item).isAnonymous = true := by
  unfold entry?
  dsimp only
  split_ifs with hskip
  · simpa using hskip
  · simpa using hskip

/-- A page has an entry exactly if it is listed. -/
theorem Clears.entry?_cases (hm : k.model.Built) (h : k.Clears (k.model.itinerary root 0 none))
    (hp : p ∈ k.walkPages root) :
    (¬ k.Listed root p ∧ k.entry? p = none) ∨
      (k.Listed root p ∧ ∃ e, k.entry? p = some e ∧ k.EntryOf root (k.walkPages root) e p) := by
  have howner := h.owner_cases hm hp
  cases he : k.entry? p with
  | none =>
    obtain ⟨href, hname⟩ := entry?_eq_none_iff.1 he
    refine Or.inl ⟨?_, rfl⟩
    rcases howner with ⟨-, hnone⟩ | ⟨q, -, -, -, hq⟩
    · rintro (hnamed | ⟨o, ho⟩)
      · rw [hname] at hnamed
        cases hnamed
      · exact hnone o ho
    · rw [href] at hq
      cases hq
  | some e =>
    obtain ⟨hcategory, htitle, hparent⟩ := fields_of_registered he
    have hpage := page_of_entry? he
    refine Or.inr ⟨?_, e, rfl, hpage, hcategory, htitle, ?_⟩
    · rcases howner with ⟨href, -⟩ | ⟨q, -, -, hnearest, -⟩
      · refine Or.inl (Bool.eq_false_iff.2 fun hname => ?_)
        rw [entry?_eq_none_iff.2 ⟨href, hname⟩] at he
        cases he
      · exact Or.inr ⟨q.item, hnearest.toEncloses⟩
    · rw [hparent]
      exact howner.imp_right fun ⟨q, hq, _, hnearest, href⟩ => ⟨q, hq, hnearest, href⟩

open scoped Classical in
/-- The entries of a walk are those of its listed pages, in order. -/
theorem Clears.forall₂_entries (hm : k.model.Built) (h : k.Clears (k.model.itinerary root 0 none)) :
    List.Forall₂ (k.EntryOf root (k.walkPages root)) ((k.walkPages root).filterMap k.entry?)
      ((k.walkPages root).filter fun p => k.Listed root p) := by
  refine forall₂_filterMap fun p hp => ?_
  rw [decide_eq_false_iff_not, decide_eq_true_eq]
  exact h.entry?_cases hm hp

/-- The navigation of a walk has each page once, and after the page that it goes under. -/
theorem Clears.ordered (hm : k.model.Built) (h : k.Clears (k.model.itinerary root 0 none))
    {nav : Navigation} (hnav : nav.entries = (k.walkPages root).filterMap k.entry?) : nav.Ordered := by
  have hsound : k.Sound (k.walkPages root) := h.sound
  constructor
  · rw [hnav, List.Nodup, List.pairwise_map, List.pairwise_filterMap]
    refine hsound.pairwise_pageRef_ne.imp fun hne e he e' he' => ?_
    have hpage := page_of_entry? he
    have hpage' := page_of_entry? he'
    rwa [hpage, hpage']
  · -- a parent is known by its page reference, which leads back to one page only
    rw [hnav, List.pairwise_filterMap]
    refine (h.pairwise_owner_ne hm).imp_of_mem fun {p p'} hp hp' hne e he e' he' howner => ?_
    have hparent : e.parent = some e'.page := (Option.filter_eq_some_iff.1 howner).1
    have hpage := page_of_entry? he'
    obtain ⟨-, -, href⟩ := fields_of_registered he
    rw [href, hpage] at hparent
    rcases h.owner_cases hm hp with ⟨hnone, -⟩ | ⟨q, hq, hq', -, howner'⟩
    · rw [hnone] at hparent
      cases hparent
    · rw [howner'] at hparent
      obtain rfl := hsound.eq_of_pageRef hq hp' (Option.some.inj hparent)
      exact hne hq'

end Generation.Task

namespace Generator

variable {g g' : Generator} {t t' : FileTree} {root : Nat} {report : Report}

open scoped Classical in
/-- The navigation of a run that succeeds. The pages of the run are those of the items that are reached, in
    depth-first pre-order, each once, and they are in their files. The entries are those of the pages that
    are listed, in the same order, and the group of all pages refers to each of them exactly once. -/
structure Navigated (g : Generator) (t : FileTree) (root : Nat) (report : Report) (g' : Generator)
    (t' : FileTree) : Prop where
  reached : ∀ id, id ∈ (g.pages root).map Emission.item ↔
    g.toTask.HasPage id ∧ ∃ depth, g.model.Below root depth id
  once : ((g.pages root).map Emission.item).Nodup
  order : ((g.pages root).map Emission.item).Pairwise g.model.Precedes
  filed : g.toTask.Filed t (g.pages root) t'
  count : report.written + report.unchanged = (g.pages root).length
  entries : List.Forall₂ (g.toTask.EntryOf root (g.pages root)) g'.navigation.entries
    ((g.pages root).filter fun p => g.toTask.Listed root p)
  distinct : (g'.navigation.entries.map Navigation.Entry.page).Nodup
  refs : ∀ heading, (g'.navigation.group heading).refs.Perm
    (g'.navigation.entries.map Navigation.Entry.page)

/-- A run that succeeds lists its pages in order, under the pages that enclose them. -/
theorem navigated_of_generate (hm : g.model.Built) (h : g.generate t root = (.ok report, g', t')) :
    g.Navigated t root report g' t' := by
  obtain ⟨hclears, w, hafter, rfl, rfl, rfl⟩ := walk_of_generate hm h
  have hvisits : (g.pages root).map Emission.visit =
      (g.model.itinerary root 0 none).filter fun v => g.toTask.HasPage v.item := hclears.map_visit
  have hordered : w.navigation.Ordered := hclears.ordered hm hafter.entries
  refine ⟨fun id => ⟨fun hid => ?_, fun ⟨hpage, depth, hbelow⟩ => ?_⟩, hclears.sound.nodup_item, ?_,
    hafter.filed, hafter.count, ?_, hordered.nodup, Navigation.refs_group_perm hordered⟩
  · obtain ⟨p, hp, rfl⟩ := List.mem_map.1 hid
    have hvisit := List.mem_map_of_mem (f := Emission.visit) hp
    rw [hvisits, List.mem_filter, decide_eq_true_eq] at hvisit
    exact ⟨hvisit.2, _, (Model.preorder_itinerary hm root).below _ hvisit.1⟩
  · obtain ⟨q, hq, rfl⟩ := hclears.exists_page hm hbelow hpage
    exact List.mem_map_of_mem hq
  · have horder := (Model.preorder_itinerary hm root).order.filter fun v => g.toTask.HasPage v.item
    rw [← hvisits, List.pairwise_map] at horder
    exact List.pairwise_map.2 horder
  · rw [keep, hafter.entries]
    exact hclears.forall₂_entries hm

/-- The navigation of a run for a model that was read from a text. -/
theorem generate_navigated {text : String} (hm : Model.ofJsonText text = .ok g.model)
    (h : g.generate t root = (.ok report, g', t')) : g.Navigated t root report g' t' :=
  navigated_of_generate (Model.built_ofJsonText hm) h

/-- A class with a method that has no name, and a variable without a name. -/
def memberText : String :=
  "\x7b\"kind\":\"Model\",\"members\":[\x7b\"kind\":\"Class\",\"name\":\"C\",\"members\":[" ++
    "\x7b\"kind\":\"Method\"\x7d]\x7d,\x7b\"kind\":\"Variable\"\x7d]\x7d"

/-- A generator for the model in a text, which writes the titles of the items as pages. -/
def ofText (text : String) : Generator :=
  .ofTask {
    model := (Model.ofJsonText text).toOption.getD .empty
    renderer := fun page _ => .ok page.title
    settings := { outputDirectory := "out" } } {}

theorem ofJsonText_ofText {text : String} (h : (Model.ofJsonText text).toOption.isSome = true) :
    Model.ofJsonText text = .ok (ofText text).model := by
  unfold ofText ofTask
  cases hm : Model.ofJsonText text with
  | error e =>
    rw [hm] at h
    cases h
  | ok m => rfl

theorem exists_report {n : Nat} (h : (g.generate t root).1.toOption.map Report.written = some n) :
    ∃ report, g.generate t root = (.ok report, (g.generate t root).2.1, (g.generate t root).2.2) ∧
      report.written = n := by
  rcases hrun : g.generate t root with ⟨result, g', t'⟩
  rw [hrun] at h
  cases result with
  | error e => cases h
  | ok report => exact ⟨report, rfl, Option.some.inj h⟩

theorem generate_memberText : Model.ofJsonText memberText = .ok (ofText memberText).model ∧
    ∃ report g' t', (ofText memberText).generate pairFiles 0 = (.ok report, g', t') ∧
      report.written = 3 ∧ g'.navigation.entries.map Navigation.Entry.page = ["C", "C/method-1"] := by
  have hread : (Model.ofJsonText memberText).toOption.isSome = true := by decide +kernel
  have houtcome : (((ofText memberText).generate pairFiles 0).1.toOption.map Report.written,
      ((ofText memberText).generate pairFiles 0).2.1.navigation.entries.map Navigation.Entry.page) =
        (some 3, ["C", "C/method-1"]) := by decide +kernel
  obtain ⟨hwritten, hentries⟩ := Prod.mk.inj houtcome
  obtain ⟨report, hrun, hreport⟩ := exists_report hwritten
  exact ⟨ofJsonText_ofText hread, report, _, _, hrun, hreport, hentries⟩

/-- The method is listed under its class, the variable is not listed. -/
theorem generate_navigated_memberText : ∃ report g' t',
    Model.ofJsonText memberText = .ok (ofText memberText).model ∧
      (ofText memberText).generate pairFiles 0 = (.ok report, g', t') ∧ report.written = 3 ∧
      g'.navigation.entries.map Navigation.Entry.page = ["C", "C/method-1"] ∧
      (ofText memberText).Navigated pairFiles 0 report g' t' := by
  obtain ⟨hmodel, report, g', t', hrun, hwritten, hentries⟩ := generate_memberText
  exact ⟨report, g', t', hmodel, hrun, hwritten, hentries, generate_navigated hmodel hrun⟩

end Generator

end ReferenceSite
