import Mathlib.Data.List.Nodup
import ReferenceSite.Proofs.Address
import ReferenceSite.Proofs.Cache.Answers
import ReferenceSite.Proofs.Itinerary

/-!
# The pages of a run, without its state

What a run makes of a list of visits is determined by the model, the renderer and the settings: which
pages there are, with which addresses and texts (`Task.emissions`), what stops the run at a visit
(`Task.Fails`, in the order of `checks`), and what is registered for the navigation (`Task.entry?`). None of
this mentions the state of a walk or the files.
-/

namespace ReferenceSite.Generation

/-- A page of a run. -/
structure Emission where
  /-- The visit that made the page. -/
  visit : Visit
  /-- The address. -/
  address : Address
  /-- The rendered text. -/
  text : String

namespace Emission

/-- The item of the page. -/
def item (p : Emission) : Nat := p.visit.item

/-- The address in lower case. -/
def folded (p : Emission) : String := Text.lowercase p.address.toText

/-- The addresses of some pages in lower case, with their items, the latest first. -/
def claims (pages : List Emission) : List (String × Nat) :=
  (pages.map fun p => (p.folded, p.item)).reverse

/-- The size of the text, in bytes. -/
def size (p : Emission) : Nat := p.text.utf8ByteSize

/-- The size of several pages together. -/
def total (pages : List Emission) : Nat := pages.foldl (fun n p => n + p.size) 0

theorem total_concat (pages : List Emission) (p : Emission) :
    total (pages ++ [p]) = total pages + p.size := by
  simp [total]

theorem total_le_append (front back : List Emission) : total front ≤ total (front ++ back) := by
  induction back using List.reverseRecOn with
  | nil => rw [List.append_nil]
  | append_singleton back p ih =>
    rw [← List.append_assoc, total_concat]
    omega

end Emission

namespace Task

variable (k : Task)

/-- The item has a page. -/
def HasPage (id : Nat) : Prop := (k.model.item id).kind.producesPage = true

instance (id : Nat) : Decidable (k.HasPage id) := inferInstanceAs (Decidable (_ = true))

/-- The file of an address. -/
def fileOf (a : Address) : Path := Path.join k.settings.outputDirectory (a.file "mdx")

/-- The file of a page. -/
def path (p : Emission) : Path := k.fileOf p.address

/-- The page reference of a page. -/
def pageRef (p : Emission) : String := p.address.pageRef k.settings.pageBase

/-- The page references of some pages by item, the latest first. -/
def refs (pages : List Emission) : List (Nat × String) :=
  (pages.map fun p => (p.item, k.pageRef p)).reverse

/-- The text of the page of an item, where the pages before it are given. -/
def text (pages : List Emission) (id : Nat) : Except RenderError String :=
  k.renderer (Page.ofItem k.model k.settings.pageBase (k.refs pages) id)
    (k.model.links k.settings.pageBase)

/-- The page reference of the owner of a visit. -/
def ownerRef (v : Visit) : Option String :=
  v.owner.bind fun o => (k.model.address o).toOption.map (·.pageRef k.settings.pageBase)

/-- The entry that a page gets in the navigation. A page without an owner whose item has no name gets
    none. -/
def entry? (p : Emission) : Option Navigation.Entry :=
  let item := (k.model.item p.item).toDeclaration
  if (k.ownerRef p.visit).isNone && item.isAnonymous then none
  else some {
    page := k.pageRef p
    category := Category.ofKind item.kind
    name := k.model.pageTitle p.item
    parent := k.ownerRef p.visit }

/-! ## Checks -/

/-- What is checked at a visit, in this order. -/
def checks : List ErrorKind :=
  [.depthExceeded, .invalidPath, .pathCollision, .render, .fileTooLarge, .totalSizeExceeded]

/-- A visit fails a check, where the pages before it are given. All checks but the first are about
    items with a page. -/
def Fails (pages : List Emission) (v : Visit) : ErrorKind → Prop
  | .depthExceeded => k.settings.limits.maxDepth < v.depth
  | .invalidPath => k.HasPage v.item ∧ ∃ e, k.model.address v.item = .error e
  | .pathCollision => k.HasPage v.item ∧ ∃ a, k.model.address v.item = .ok a ∧
      ∃ p ∈ pages, p.folded = Text.lowercase a.toText
  | .render => k.HasPage v.item ∧ ∃ e, k.text pages v.item = .error e
  | .fileTooLarge => k.HasPage v.item ∧ ∃ s, k.text pages v.item = .ok s ∧
      k.settings.limits.maxFileBytes < s.utf8ByteSize
  | .totalSizeExceeded => k.HasPage v.item ∧ ∃ s, k.text pages v.item = .ok s ∧
      k.settings.limits.maxTotalBytes < Emission.total pages + s.utf8ByteSize
  | _ => False

/-- A check is the first one that a visit fails. -/
def FailsFirst (pages : List Emission) (v : Visit) (kind : ErrorKind) : Prop :=
  k.Fails pages v kind ∧
    ∃ front back, checks = front ++ kind :: back ∧ ∀ earlier ∈ front, ¬ k.Fails pages v earlier

/-- A visit passes all checks. -/
def Passes (pages : List Emission) (v : Visit) : Prop := ∀ kind, ¬ k.Fails pages v kind

/-! ## Pages -/

/-- The page of a visit, if it makes one, where the pages before it are given. -/
def emission? (pages : List Emission) (v : Visit) : Option Emission :=
  if k.HasPage v.item then
    match k.model.address v.item, k.text pages v.item with
    | .ok address, .ok text => some { visit := v, address, text }
    | _, _ => none
  else none

/-- The pages of a list of visits, in order. -/
def emissions (vs : List Visit) : List Emission :=
  vs.foldl (fun pages v => pages ++ (k.emission? pages v).toList) []

/-- Every visit passes all checks where its turn comes. -/
def Clears (vs : List Visit) : Prop :=
  ∀ front v back, vs = front ++ v :: back → k.Passes (k.emissions front) v

variable {k}

theorem emissions_concat (vs : List Visit) (v : Visit) :
    k.emissions (vs ++ [v]) = k.emissions vs ++ (k.emission? (k.emissions vs) v).toList := by
  simp [emissions]

/-- Later visits make no difference to the pages of earlier ones. -/
theorem isPrefix_emissions (front back : List Visit) : k.emissions front <+: k.emissions (front ++ back) := by
  induction back using List.reverseRecOn with
  | nil => rw [List.append_nil]
  | append_singleton back v ih =>
    rw [← List.append_assoc, emissions_concat]
    exact ih.trans (List.prefix_append _ _)

theorem emissions_subset (front back : List Visit) :
    k.emissions front ⊆ k.emissions (front ++ back) :=
  (isPrefix_emissions front back).subset

theorem clears_nil : k.Clears [] := by
  intro front v back h
  simp at h

theorem Clears.concat {vs : List Visit} {v : Visit} (h : k.Clears vs)
    (hv : k.Passes (k.emissions vs) v) : k.Clears (vs ++ [v]) := by
  intro front u back heq
  rcases List.eq_nil_or_concat back with rfl | ⟨back, w, rfl⟩
  · obtain ⟨rfl, hu⟩ := List.append_inj' heq rfl
    obtain rfl : v = u := by simpa using hu
    exact hv
  · rw [List.concat_eq_append, ← List.cons_append, ← List.append_assoc] at heq
    exact h front u back (List.append_inj' heq rfl).1

theorem Clears.front {front back : List Visit} (h : k.Clears (front ++ back)) : k.Clears front := by
  intro front' v back' heq
  exact h front' v (back' ++ back) (by rw [heq]; simp)

theorem emission?_eq_some {pages : List Emission} {v : Visit} {p : Emission}
    (h : k.emission? pages v = some p) : p.visit = v ∧ k.HasPage v.item ∧
      k.model.address v.item = .ok p.address ∧ k.text pages v.item = .ok p.text := by
  unfold emission? at h
  split at h
  · next hpage =>
    split at h
    · next a s ha hs =>
      obtain rfl := Option.some.inj h
      exact ⟨rfl, hpage, ha, hs⟩
    · cases h
  · cases h

/-- A visit that passes all checks makes a page, if its item has one. -/
theorem Passes.emission? {pages : List Emission} {v : Visit} (h : k.Passes pages v)
    (hpage : k.HasPage v.item) :
    ∃ a s, k.model.address v.item = .ok a ∧ k.text pages v.item = .ok s ∧
      k.emission? pages v = some { visit := v, address := a, text := s } := by
  cases ha : k.model.address v.item with
  | error e => exact absurd ⟨hpage, e, ha⟩ (h .invalidPath)
  | ok a =>
    cases hs : k.text pages v.item with
    | error e => exact absurd ⟨hpage, e, hs⟩ (h .render)
    | ok s => exact ⟨a, s, rfl, rfl, by simp [Task.emission?, hpage, ha, hs]⟩

theorem emission?_eq_none {pages : List Emission} {v : Visit} (hpage : ¬ k.HasPage v.item) :
    k.emission? pages v = none := by
  simp [emission?, hpage]

/-- What holds of the pages of visits that pass all checks: each one has the address and the text of its
    item, no two addresses are equal but for case, and the sizes keep to the limits. -/
structure Sound (k : Task) (pages : List Emission) : Prop where
  page : ∀ front p back, pages = front ++ p :: back → k.HasPage p.item ∧
    k.model.address p.item = .ok p.address ∧ k.text front p.item = .ok p.text
  distinct : (pages.map Emission.folded).Nodup
  size : ∀ p ∈ pages, p.size ≤ k.settings.limits.maxFileBytes
  total : Emission.total pages ≤ k.settings.limits.maxTotalBytes

theorem Sound.address {pages : List Emission} (h : k.Sound pages) {p : Emission} (hp : p ∈ pages) :
    k.HasPage p.item ∧ k.model.address p.item = .ok p.address := by
  obtain ⟨front, back, rfl⟩ := List.append_of_mem hp
  obtain ⟨hpage, haddress, -⟩ := h.page front p back rfl
  exact ⟨hpage, haddress⟩

theorem Sound.isSafe {pages : List Emission} (h : k.Sound pages) {p : Emission} (hp : p ∈ pages) :
    p.address.IsSafe := (Address.ofSegments_eq_ok (h.address hp).2).2

theorem Sound.front {front back : List Emission} (h : k.Sound (front ++ back)) : k.Sound front := by
  refine ⟨fun front' p back' heq => ?_, ?_, fun p hp => h.size p (List.mem_append_left _ hp), ?_⟩
  · exact h.page front' p (back' ++ back) (by rw [heq]; simp)
  · exact h.distinct.sublist ((List.sublist_append_left front back).map _)
  · exact Nat.le_trans (Emission.total_le_append front back) h.total

theorem sound_nil : k.Sound [] :=
  ⟨by simp, List.nodup_nil, by simp, Nat.zero_le _⟩

/-- One more visit that passes all checks keeps the pages sound. -/
theorem Sound.concat {pages : List Emission} {v : Visit} (h : k.Sound pages)
    (hv : k.Passes pages v) : k.Sound (pages ++ (k.emission? pages v).toList) := by
  by_cases hpage : k.HasPage v.item
  · obtain ⟨a, s, ha, hs, hp⟩ := hv.emission? hpage
    set p : Emission := { visit := v, address := a, text := s } with hpdef
    rw [hp, Option.toList_some]
    refine ⟨fun front q back heq => ?_, ?_, fun q hq => ?_, ?_⟩
    · rcases List.eq_nil_or_concat back with rfl | ⟨back, w, rfl⟩
      · obtain ⟨rfl, hq⟩ := List.append_inj' heq rfl
        obtain rfl : p = q := by simpa using hq
        exact ⟨hpage, ha, hs⟩
      · rw [List.concat_eq_append, ← List.cons_append, ← List.append_assoc] at heq
        exact h.page front q back (List.append_inj' heq rfl).1
    · rw [List.map_append, List.nodup_append]
      refine ⟨h.distinct, List.nodup_singleton _, fun x hx y hy hxy => ?_⟩
      obtain ⟨q, hq, rfl⟩ := List.mem_map.1 hx
      obtain rfl : y = p.folded := by simpa using hy
      exact hv .pathCollision ⟨hpage, a, ha, q, hq, hxy⟩
    · rcases List.mem_append.1 hq with hq | hq
      · exact h.size q hq
      · obtain rfl := List.mem_singleton.1 hq
        exact Nat.le_of_not_lt fun hlt => hv .fileTooLarge ⟨hpage, s, hs, hlt⟩
    · rw [Emission.total_concat]
      exact Nat.le_of_not_lt fun hlt => hv .totalSizeExceeded ⟨hpage, s, hs, hlt⟩
  · rw [emission?_eq_none hpage, Option.toList_none, List.append_nil]
    exact h

theorem Clears.sound {vs : List Visit} (h : k.Clears vs) : k.Sound (k.emissions vs) := by
  induction vs using List.reverseRecOn with
  | nil => exact sound_nil
  | append_singleton vs v ih =>
    rw [emissions_concat]
    exact (ih h.front).concat (h vs v [] rfl)

/-- Visits that pass all checks make one page for each visit of an item with a page. -/
theorem Clears.map_visit {vs : List Visit} (h : k.Clears vs) :
    (k.emissions vs).map Emission.visit = vs.filter fun v => k.HasPage v.item := by
  induction vs using List.reverseRecOn with
  | nil => rfl
  | append_singleton vs v ih =>
    rw [emissions_concat, List.map_append, List.filter_append, ih h.front]
    congr 1
    by_cases hpage : k.HasPage v.item
    · obtain ⟨a, s, -, -, hp⟩ := (h vs v [] rfl).emission? hpage
      simp [hp, hpage]
    · simp [emission?_eq_none hpage, hpage]

theorem Clears.map_item {vs : List Visit} (h : k.Clears vs) :
    (k.emissions vs).map Emission.item = (vs.filter fun v => k.HasPage v.item).map Visit.item := by
  rw [← h.map_visit, List.map_map]
  rfl

/-- No item has two pages. -/
theorem Sound.nodup_item {pages : List Emission} (h : k.Sound pages) :
    (pages.map Emission.item).Nodup := by
  have hfolded : (pages.map Emission.folded).map some = (pages.map Emission.item).map fun id =>
      (k.model.address id).toOption.map fun a => Text.lowercase a.toText := by
    rw [List.map_map, List.map_map]
    refine List.map_congr_left fun p hp => ?_
    rw [Function.comp_apply, Function.comp_apply, (h.address hp).2]
    rfl
  have hdistinct := h.distinct.map fun _ _ => Option.some.inj
  rw [hfolded] at hdistinct
  exact hdistinct.of_map

end Task

end ReferenceSite.Generation
