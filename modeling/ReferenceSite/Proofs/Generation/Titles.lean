import ReferenceSite.Proofs.Address.Fallback
import ReferenceSite.Proofs.Generation.Independence
import ReferenceSite.Proofs.Generation.Links
import ReferenceSite.Proofs.Text.Trim

/-!
# Titles

An item without a name is called by its fallback segment. The address of an item asks whether anything is left
of the name, its title only whether the name is blank, and the two differ for a constructor whose name is a
pair of parentheses around nothing (`Declaration.shownChars_eq_nil_iff`). Its title is blank, unless it has the
number of an overload, and so it is called wherever it is listed; no other item is ever called by a blank
name (`Generator.titles_blank_iff_untitled`).
-/

namespace ReferenceSite

open Text Generation

namespace Declaration

variable {d : Declaration}

/-- The name of a constructor is a pair of parentheses around nothing but blank characters. -/
structure Hollow (d : Declaration) : Prop where
  kind : d.kind = .constructor
  name : ∃ inner, trim d.name.toList = '(' :: (inner ++ [')']) ∧ ∀ c ∈ inner, isBlank c = true

/-- Nothing is shown for a hollow name, not even the number of an overload. -/
structure Untitled (d : Declaration) : Prop extends d.Hollow where
  single : ¬ 1 < d.overloadIndex

theorem between?_eq_some_iff {opening closing : Char} {cs inner : List Char} :
    between? opening closing cs = some inner ↔ cs = opening :: (inner ++ [closing]) := by
  unfold between?
  split
  · next c e rest =>
    simp only [Bool.and_eq_true, beq_iff_eq]
    constructor
    · intro h
      split_ifs at h with hends
      obtain ⟨rfl, hlast⟩ := hends
      obtain ⟨front, hfront⟩ := List.getLast?_eq_some_iff.1 hlast
      rw [hfront, List.dropLast_concat] at h
      rw [hfront, Option.some.inj h]
    · intro h
      obtain ⟨rfl, hrest⟩ := List.cons.inj h
      have hlast : (e :: rest).getLast? = some closing := by rw [hrest, List.getLast?_concat]
      rw [if_pos ⟨rfl, hlast⟩, hrest, List.dropLast_concat]
  · next hshort =>
    constructor
    · intro h
      cases h
    · intro h
      -- there are at least two characters
      cases inner with
      | nil => exact absurd h (hshort opening closing [])
      | cons c inner => exact absurd h (hshort opening c (inner ++ [closing]))

theorem isAnonymous_iff : d.isAnonymous = true ↔ trim d.name.toList = [] := by
  rw [trim_eq_nil_iff, isAnonymous, isBlankText_iff]

theorem isTrimmed_shownChars (d : Declaration) : IsTrimmed d.shownChars := by
  unfold shownChars
  dsimp only
  split_ifs
  · cases between? '(' ')' (trim d.name.toList) with
    | none => exact isTrimmed_trim _
    | some inner => exact isTrimmed_trim _
  · exact isTrimmed_trim _

/-- Nothing is shown for a blank name and for a hollow one. -/
theorem shownChars_eq_nil_iff : d.shownChars = [] ↔ d.isAnonymous = true ∨ d.Hollow := by
  rw [isAnonymous_iff]
  unfold shownChars
  dsimp only
  by_cases hkind : d.kind = .constructor
  · rw [if_pos (by simpa using hkind)]
    cases hinner : between? '(' ')' (trim d.name.toList) with
    | none =>
      have hsolid : ¬ d.Hollow := by
        rintro ⟨-, inner, hname, -⟩
        rw [between?_eq_some_iff.2 hname] at hinner
        cases hinner
      simp [hsolid]
    | some inner =>
      have hname := between?_eq_some_iff.1 hinner
      rw [Option.map_some, Option.getD_some, trim_eq_nil_iff]
      constructor
      · intro hblank
        exact Or.inr ⟨hkind, inner, hname, hblank⟩
      · rintro (hnone | ⟨-, inner', hname', hblank⟩)
        · rw [hname] at hnone
          cases hnone
        · rw [between?_eq_some_iff.2 hname'] at hinner
          obtain rfl := Option.some.inj hinner
          exact hblank
  · have hsolid : ¬ d.Hollow := fun h => hkind h.kind
    rw [if_neg (by simpa using hkind), or_iff_left hsolid]

theorem shownName_eq_empty_iff : d.shownName = "" ↔ d.shownChars = [] := by
  rw [shownName, ← String.toList_eq_nil_iff, String.toList_ofList]

theorem Hollow.not_isAnonymous (h : d.Hollow) : d.isAnonymous = false := by
  obtain ⟨-, inner, hname, -⟩ := h
  apply Bool.eq_false_iff.2
  intro hnone
  rw [isAnonymous_iff, hname] at hnone
  cases hnone

/-- Where nothing is shown for a name, it shows nothing in the address either. -/
theorem unnamed_of_shownName (h : d.shownName = "") : d.Unnamed := by
  have hchars := shownName_eq_empty_iff.1 h
  rcases shownChars_eq_nil_iff.1 hchars with hblank | hhollow
  · exact unnamed_of_isAnonymous hblank
  · have hbase : Address.baseOf d = .ofList (Address.hyphenated d.shownChars) := by
      unfold Address.baseOf
      rw [hhollow.kind]
      rfl
    rw [Unnamed, hbase, hchars]
    rfl

/-- The ending of the title of an overload other than the first. -/
def titleEnding (d : Declaration) : String :=
  if 1 < d.overloadIndex then " (" ++ toString d.overloadIndex.toNat ++ ")" else ""

theorem isBlankText_titleEnding : isBlankText d.titleEnding = true ↔ ¬ 1 < d.overloadIndex := by
  unfold titleEnding
  split_ifs with hindex
  · rw [isBlankText_append, isBlankText_append]
    have hparen : isBlankText " (" ≠ true := by decide
    simp [hparen, hindex]
  · have hnothing : isBlankText "" = true := by decide
    simp [hnothing, hindex]

end Declaration

namespace Model

variable {m : Model} {id : Nat}

theorem pageTitle_eq (m : Model) (id : Nat) : m.pageTitle id =
    (if (m.item id).isAnonymous then m.fallbackSegment id else (m.item id).shownName) ++
      (m.item id).titleEnding := by
  unfold pageTitle Declaration.titleEnding
  dsimp only
  by_cases hindex : 1 < (m.item id).overloadIndex
  · rw [if_pos hindex, if_pos hindex]
    simp only [String.append_assoc]
  · rw [if_neg hindex, if_neg hindex, String.append_empty]

/-- A fallback segment has a hyphen. -/
theorem isBlankText_fallbackSegment (m : Model) (id : Nat) : isBlankText (m.fallbackSegment id) = false := by
  apply Bool.eq_false_iff.2
  intro hblank
  have hhyphen : isBlankText "-" = true := by
    unfold fallbackSegment at hblank
    exact (isBlankText_append.1 (isBlankText_append.1 hblank).1).2
  exact absurd hhyphen (by decide)

/-- Where nothing is shown for a name, the title is made of the fallback segment only if the name is blank. -/
theorem pageTitle_eq_fallback_iff (h : (m.item id).shownName = "") :
    m.pageTitle id = m.fallbackSegment id ++ (m.item id).titleEnding ↔ (m.item id).isAnonymous = true := by
  rw [pageTitle_eq]
  constructor
  · intro htitle
    by_contra hname
    rw [if_neg hname, h] at htitle
    have htext := congrArg String.toList htitle
    rw [String.toList_append, String.toList_append] at htext
    have hempty : m.fallbackSegment id = "" := by
      rw [← String.toList_eq_nil_iff]
      exact (List.append_cancel_right htext).symm
    have hblank := m.isBlankText_fallbackSegment id
    rw [hempty] at hblank
    exact absurd hblank (by decide)
  · intro hblank
    rw [if_pos hblank]

theorem isBlankText_pageTitle_iff : isBlankText (m.pageTitle id) = true ↔ (m.item id).Untitled := by
  rw [pageTitle_eq, isBlankText_append, Declaration.isBlankText_titleEnding]
  constructor
  · rintro ⟨hname, hsingle⟩
    split_ifs at hname with hblank
    · rw [m.isBlankText_fallbackSegment id] at hname
      cases hname
    · have hshown : (m.item id).shownChars = [] := by
        apply (m.item id).isTrimmed_shownChars.eq_nil
        rw [isBlankText_iff, Declaration.shownName, String.toList_ofList] at hname
        exact hname
      exact ⟨(Declaration.shownChars_eq_nil_iff.1 hshown).resolve_left hblank, hsingle⟩
  · rintro ⟨hhollow, hsingle⟩
    have hshown : (m.item id).shownName = "" :=
      Declaration.shownName_eq_empty_iff.2 (Declaration.shownChars_eq_nil_iff.2 (Or.inr hhollow))
    rw [hhollow.not_isAnonymous, if_neg Bool.false_ne_true, hshown]
    exact ⟨by decide, hsingle⟩

end Model

/-! ## Registered names -/

namespace Generation

variable {k : Task} {w : Walk} {v : Visit} {vs : List Visit} {e : Navigation.Entry}

/-- An entry is that of the page of an item. -/
structure Task.Registers (k : Task) (id : Nat) (e : Navigation.Entry) : Prop where
  page : k.HasPage id
  address : ∃ a, k.model.address id = .ok a ∧ e.page = a.pageRef k.settings.pageBase
  category : e.category = Category.ofKind (k.model.item id).kind
  name : e.name = k.model.pageTitle id

theorem mem_entries_register {nav : Navigation} {d : Declaration} {title ref : String}
    {owner : Option String} (h : e ∈ (register nav d title ref owner).entries) :
    e ∈ nav.entries ∨ e.page = ref ∧ e.category = Category.ofKind d.kind ∧ e.name = title := by
  unfold register Navigation.add at h
  split_ifs at h
  · exact Or.inl h
  · exact Or.inl h
  · rcases List.mem_append.1 h with h | h
    · exact Or.inl h
    · right
      rw [List.mem_singleton.1 h]
      exact ⟨rfl, rfl, rfl⟩

theorem mem_entries_finishPage {a : Address} {title : String} {size : Nat} {written : Bool}
    (hpage : k.HasPage v.item) (ha : k.model.address v.item = .ok a)
    (htitle : title = k.model.pageTitle v.item)
    (h : e ∈ (w.finishPage k v a title size written).navigation.entries) :
    e ∈ w.navigation.entries ∨ k.Registers v.item e := by
  rcases mem_entries_register h with h | ⟨href, hcategory, hname⟩
  · exact Or.inl h
  · exact Or.inr ⟨hpage, ⟨a, ha, href⟩, hcategory, hname.trans htitle⟩

theorem mem_entries_writeItem {a : Address} (hpage : k.HasPage v.item)
    (ha : k.model.address v.item = .ok a) (h : e ∈ (w.writeItem k v a).2.navigation.entries) :
    e ∈ w.navigation.entries ∨ k.Registers v.item e := by
  have htitle : (Page.ofItem k.model k.settings.pageBase w.pageRefs v.item).title =
      k.model.pageTitle v.item := rfl
  unfold Walk.writeItem at h
  dsimp only at h
  split at h
  · exact Or.inl h
  · split at h
    · exact Or.inl h
    · split at h
      · exact Or.inl h
      · dsimp only at h
        rcases mem_entries_finishPage hpage ha htitle h with h | hregisters
        · exact Or.inl h
        · exact Or.inr hregisters

/-- An entry was there before a visit or is that of the page of its item. -/
theorem mem_entries_visit (h : e ∈ (w.visit k v).2.navigation.entries) :
    e ∈ w.navigation.entries ∨ k.Registers v.item e := by
  unfold Walk.visit Walk.emit at h
  dsimp only at h
  split_ifs at h with hdepth htime hpage
  · exact Or.inl h
  · exact Or.inl h
  · split at h
    · exact Or.inl h
    · next a ha =>
      split at h
      · exact Or.inl h
      · let claiming : Walk := { w with claimed := (lowercase a.toText, v.item) :: w.claimed }
        exact mem_entries_writeItem (w := claiming) hpage ha h
  · exact Or.inl h

theorem mem_entries_visitAll (h : e ∈ (Walk.visitAll k w vs).2.navigation.entries) :
    e ∈ w.navigation.entries ∨ ∃ id, k.Registers id e := by
  induction vs generalizing w with
  | nil => exact Or.inl h
  | cons v vs ih =>
    have hstep : ∀ {e}, e ∈ (w.visit k v).2.navigation.entries →
        e ∈ w.navigation.entries ∨ ∃ id, k.Registers id e :=
      fun he => (mem_entries_visit he).imp_right fun hregisters => ⟨v.item, hregisters⟩
    unfold Walk.visitAll at h
    split at h
    · next e' w₁ heq =>
      rw [heq] at hstep
      exact hstep h
    · next w₁ heq =>
      rw [heq] at hstep
      rcases ih h with h | hregisters
      · exact hstep h
      · exact Or.inr hregisters

end Generation

namespace Generator

variable {g : Generator} {t : FileTree} {root : Nat} {e : Navigation.Entry}

theorem mem_entries_generate (h : e ∈ (g.generate t root).2.1.navigation.entries) :
    e ∈ g.navigation.entries ∨ ∃ id, g.toTask.Registers id e := by
  rw [generate_eq] at h
  split_ifs at h
  · rcases mem_entries_visitAll h with h | hregisters
    · cases h
    · exact Or.inr hregisters
  · exact Or.inl h

theorem mem_entries_call {c : Call} (h : e ∈ (g.call t c).2.1.navigation.entries) :
    e ∈ g.navigation.entries ∨ ∃ id, g.toTask.Registers id e := by
  cases c with
  | generate root => exact mem_entries_generate h
  | run root =>
    have hgenerator : (g.call t (.run root)).2.1 = (g.generate t root).2.1 := g.run_generator t root
    rw [hgenerator] at h
    exact mem_entries_generate h

/-- Whatever a generator was called for, all its entries are those of pages of items. -/
theorem registers_afterCalls (k : Task) (settings : Cache.Settings) (history : List (FileTree × Call))
    (h : e ∈ ((ofTask k settings).afterCalls history).navigation.entries) :
    ∃ id, k.Registers id e := by
  induction history using List.reverseRecOn with
  | nil => cases h
  | append_singleton history c ih =>
    have htask : ((ofTask k settings).afterCalls history).toTask = k :=
      (SameSetup.afterCalls ⟨rfl, rfl⟩ history).task
    unfold afterCalls at h htask ih
    rw [List.foldl_append, List.foldl_cons, List.foldl_nil] at h
    rcases mem_entries_call h with h | hregisters
    · exact ih h
    · rwa [htask] at hregisters

/-- How items are called. Where nothing is shown for a name, the segment of the item is the fallback segment,
    and the title is so only if the name is blank. A title is blank exactly if its item is untitled, and so
    are the title of its page, the end of the way to it, its name in the sections of other pages, and
    its name in the navigation after any calls of a generator. -/
structure Titled (k : Task) : Prop where
  segment : ∀ id, (k.model.item id).shownName = "" →
    k.model.segment id = k.model.fallbackSegment id ++ (k.model.item id).segmentEnding
  title : ∀ id, (k.model.item id).shownName = "" →
    (k.model.pageTitle id = k.model.fallbackSegment id ++ (k.model.item id).titleEnding ↔
      (k.model.item id).isAnonymous = true)
  blank : ∀ id, isBlankText (k.model.pageTitle id) = true ↔ (k.model.item id).Untitled
  page : ∀ front id, isBlankText (k.page front id).title = true ↔ (k.model.item id).Untitled
  crumb : ∀ front id, ∃ crumb, (k.page front id).breadcrumb.getLast? = some crumb ∧
    (isBlankText crumb.name = true ↔ (k.model.item id).Untitled)
  members : ∀ front id, ∀ s ∈ (k.page front id).sections, ∀ e ∈ s.members,
    isBlankText e.name = true ↔ (k.model.item e.item).Untitled
  entries : ∀ settings history, ∀ e ∈ ((ofTask k settings).afterCalls history).navigation.entries,
    ∃ id, k.Registers id e ∧ (isBlankText e.name = true ↔ (k.model.item id).Untitled)

/-- Items without a name to show are called by their fallback segments, all but untitled constructors, and no
    other item is called by a blank name. -/
theorem titles_blank_iff_untitled (k : Task) : Titled k := by
  have hblank : ∀ id, isBlankText (k.model.pageTitle id) = true ↔ (k.model.item id).Untitled :=
    fun id => Model.isBlankText_pageTitle_iff
  refine ⟨fun id h => Model.segment_of_unnamed (Declaration.unnamed_of_shownName h),
    fun id h => Model.pageTitle_eq_fallback_iff h, hblank, fun front id => hblank id, ?_, ?_, ?_⟩
  · intro front id
    refine ⟨{ name := k.model.pageTitle id }, ?_, hblank id⟩
    exact List.getLast?_concat
  · intro front id s hs e he
    obtain ⟨hname, -⟩ := Page.mem_memberSections hs he
    rw [hname]
    exact hblank e.item
  · intro settings history e he
    obtain ⟨id, hregisters⟩ := registers_afterCalls k settings history he
    refine ⟨id, hregisters, ?_⟩
    rw [hregisters.name]
    exact hblank id

/-- A class with a constructor whose name is a pair of parentheses. -/
def hollowText : String :=
  "\x7b\"kind\":\"Model\",\"members\":[\x7b\"kind\":\"Class\",\"name\":\"C\",\"members\":[" ++
    "\x7b\"kind\":\"Constructor\",\"name\":\"()\"\x7d]\x7d]\x7d"

/-- The constructor has a blank title and is listed under that name, while its segment is the fallback
    segment. -/
theorem constructor_untitled : Model.ofJsonText hollowText = .ok (ofText hollowText).model ∧
    (ofText hollowText).model.segment 2 = "constructor-1" ∧ (ofText hollowText).model.pageTitle 2 = "" ∧
    ¬ (∀ id, (ofText hollowText).toTask.HasPage id →
      isBlankText ((ofText hollowText).model.pageTitle id) = false) ∧
    ∃ report g' t', (ofText hollowText).generate pairFiles Model.root = (.ok report, g', t') ∧
      ∃ e ∈ g'.navigation.entries, e.page = "C/constructor-1" ∧ e.name = "" := by
  have houtcome : (Model.ofJsonText hollowText).toOption.isSome = true ∧
      (ofText hollowText).toTask.HasPage 2 ∧
      ((ofText hollowText).model.segment 2 = "constructor-1" ∧ (ofText hollowText).model.pageTitle 2 = "") ∧
      ((ofText hollowText).generate pairFiles Model.root).1.toOption.map Report.written = some 2 ∧
      ∃ e ∈ ((ofText hollowText).generate pairFiles Model.root).2.1.navigation.entries,
        e.page = "C/constructor-1" ∧ e.name = "" := by
    decide +kernel
  obtain ⟨hread, hpage, ⟨hsegment, htitle⟩, hwritten, hentry⟩ := houtcome
  obtain ⟨report, hrun, -⟩ := exists_report hwritten
  refine ⟨ofJsonText_ofText hread, hsegment, htitle, fun hall => ?_, report, _, _, hrun, hentry⟩
  have hblank := hall 2 hpage
  rw [htitle] at hblank
  exact absurd hblank (by decide)

end Generator

end ReferenceSite
