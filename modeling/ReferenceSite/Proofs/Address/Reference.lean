import ReferenceSite.Navigation.Group
import ReferenceSite.Proofs.Address.Safety
import ReferenceSite.Proofs.Text.Trim

/-!
# Page references and the checks of groups

A page reference below a plain path in the site is made of the components of that path and the segments of an
address, all of them without separators and without two dots in a row. Of the faults that a group is checked
for, such a reference can only look like a drive (`refFault?_toText`), and it does so only if it is an
address of its own whose second character is a colon (`refFault?_pageRef`). The check of addresses refuses
a colon there only behind a letter, so the two checks do not agree.
-/

namespace ReferenceSite

namespace Text

/-- Nothing is taken from a text that does not have the character at its ends. -/
theorem stripChar_eq_self {c : Char} {s : String} (hfront : s.toList.head? ≠ some c)
    (hback : s.toList.getLast? ≠ some c) : stripChar c s = s := by
  have hdrop : s.toList.dropWhile (· == c) = s.toList := by
    refine dropWhile_eq_self fun d hd => ?_
    rw [beq_eq_false_iff_ne]
    rintro rfl
    exact hfront hd
  unfold stripChar
  rw [hdrop, dropEndWhile_eq_self, String.ofList_toList]
  intro a ha
  by_contra hlast
  rw [Bool.not_eq_false, beq_iff_eq] at hlast
  exact hback (hlast ▸ ha)

theorem occursIn_self (w : List Char) : occursIn w w = true := by
  cases w with
  | nil => rfl
  | cons c w => simp [occursIn]

/-- A word does not occur in a text without its first character. -/
theorem occursIn_cons_eq_false {c : Char} {w cs : List Char} (h : c ∉ cs) :
    occursIn (c :: w) cs = false := by
  induction cs with
  | nil => rfl
  | cons d ds ih =>
    rw [List.mem_cons, not_or] at h
    rw [occursIn, ih h.2, Bool.or_false, List.isPrefixOf]
    simp [h.1]

end Text

namespace Address

open NavGroup

/-! ## Joined segments -/

/-- Joined segments are cut apart again at every separator. -/
theorem splitWhere_toText {a : Address} (hne : a.segments ≠ [])
    (h : ∀ s ∈ a.segments, IsClean s) :
    Text.splitWhere Text.isSeparator a.toText.toList = a.segments.map String.toList := by
  have hsingle : ∀ s, IsClean s → Text.splitWhere Text.isSeparator s.toList = [s.toList] := by
    intro s hs
    rw [Text.splitWhere_eq_splitOnP]
    exact List.splitOnP_eq_singleton hs.separator
  obtain ⟨segments⟩ := a
  unfold toText
  dsimp only at hne h ⊢
  induction segments with
  | nil => exact absurd rfl hne
  | cons s ss ih =>
    obtain ⟨hs, hss⟩ := List.forall_mem_cons.1 h
    cases ss with
    | nil =>
      rw [String.intercalate_singleton]
      exact hsingle s hs
    | cons u us =>
      have hslash : Text.isSeparator '/' = true := by decide
      rw [Path.toList_intercalate_cons_cons, Text.splitWhere_eq_splitOnP,
        List.splitOnP_append_cons _ _ hslash,
        ← Text.splitWhere_eq_splitOnP, ← Text.splitWhere_eq_splitOnP, hsingle s hs,
        ih (List.cons_ne_nil u us) hss]
      rfl

theorem IsClean.ne_dots {s : String} (h : IsClean s) : s.toList ≠ ['.', '.'] := by
  intro hdots
  have := h.dots
  rw [hdots, Text.occursIn_self] at this
  cases this

/-- The second character is a colon. -/
def HasColon (s : String) : Prop := s.toList[1]? = some ':'

instance (s : String) : Decidable (HasColon s) := inferInstanceAs (Decidable (_ = _))

/-- Joined segments have no fault as a page reference, unless they look like a drive. -/
theorem refFault?_toText {a : Address} (hne : a.segments ≠ []) (h : ∀ s ∈ a.segments, IsClean s) :
    refFault? a.toText = if HasColon a.toText then some .drive else none := by
  obtain ⟨c, hhead, hsep⟩ := head?_toText hne h
  have hempty : a.toText.toList.isEmpty = false := by
    cases htext : a.toText.toList with
    | nil =>
      rw [htext] at hhead
      cases hhead
    | cons d ds => rfl
  have hdots : (Text.splitWhere Text.isSeparator a.toText.toList).any (· == ['.', '.']) = false := by
    rw [splitWhere_toText hne h, List.any_eq_false]
    intro piece hpiece
    obtain ⟨s, hs, rfl⟩ := List.mem_map.1 hpiece
    simpa using (h s hs).ne_dots
  have hseparator : Text.isSeparator c = false := hsep
  unfold refFault?
  dsimp only
  rw [hempty, hhead, hdots]
  by_cases hcolon : HasColon a.toText
  · have hsecond : a.toText.toList[1]? = some ':' := hcolon
    simp [hseparator, hcolon, hsecond]
  · have hsecond : a.toText.toList[1]? ≠ some ':' := hcolon
    simp [hseparator, hcolon, hsecond]

/-! ## References below a path -/

/-- A component with some characters, none of which is a separator, a colon or a full stop. All components
    of letters and digits are plain. -/
structure IsPlain (s : String) : Prop where
  ne_empty : s ≠ ""
  chars : ∀ c ∈ s.toList, c ∉ ['/', '\x5c', ':', '.']

theorem IsPlain.isClean {s : String} (h : IsPlain s) : IsClean s := by
  refine ⟨h.ne_empty, ?_, ?_⟩
  · intro c hc
    have := h.chars c hc
    simp only [List.mem_cons, not_or] at this
    simp [Text.isSeparator, this.1, this.2.1]
  · exact Text.occursIn_cons_eq_false fun hdot => h.chars '.' hdot (by simp)

theorem IsPlain.isName {s : String} (h : IsPlain s) : Path.IsName s := by
  refine ⟨h.ne_empty, ?_, ?_, ?_⟩
  · intro hslash
    exact h.chars '/' hslash (by simp)
  · rintro rfl
    exact h.chars '.' (by decide) (by simp)
  · rintro rfl
    exact h.chars '.' (by decide) (by simp)

/-- A path in the site that is empty or made of plain components. -/
def PlainBase (base : String) : Prop :=
  ∃ components : List String, base = String.intercalate "/" components ∧ ∀ s ∈ components, IsPlain s

/-- A page reference below a path of names is made of these names and the segments. -/
theorem pageRef_eq_toText {a : Address} {components : List String} (hne : a.segments ≠ [])
    (hname : ∀ s ∈ components, Path.IsName s) :
    a.pageRef (String.intercalate "/" components) = toText ⟨components ++ a.segments⟩ := by
  have hstrip : Text.stripChar '/' (String.intercalate "/" components) =
      String.intercalate "/" components := by
    refine Text.stripChar_eq_self ?_ ?_
    · have hrelative := Path.isAbsolute_intercalate hname
      simpa [Path.isAbsolute] using hrelative
    · simpa [Path.endsWithSeparator] using Path.endsWithSeparator_intercalate hname
  unfold pageRef
  rw [hstrip]
  dsimp only [toText]
  by_cases hnil : components = []
  · subst hnil
    rfl
  · have hbase : (String.intercalate "/" components).isEmpty = false := by
      simpa using Path.intercalate_ne_empty hnil hname
    rw [hbase, if_neg Bool.false_ne_true, String.intercalate_append_of_ne_nil hnil hne]

/-- Behind a plain component stands no colon at the second place. -/
theorem not_hasColon_of_isPlain {a : Address} {s : String} {ss : List String} (hs : IsPlain s)
    (hne : ss ≠ []) (ha : a.segments = s :: ss) : ¬ HasColon a.toText := by
  obtain ⟨u, us, rfl⟩ := List.exists_cons_of_ne_nil hne
  unfold HasColon
  rw [toText, ha, Path.toList_intercalate_cons_cons]
  cases hchars : s.toList with
  | nil => exact absurd (String.toList_eq_nil_iff.1 hchars) hs.ne_empty
  | cons c cs =>
    cases cs with
    | nil => simp
    | cons d ds =>
      have hd := hs.chars d (by simp [hchars])
      simp only [List.mem_cons, not_or] at hd
      simpa using hd.2.2.1

/-- A reference to an accepted address below a plain path has no fault, unless the path is empty and the
    address looks like a drive. -/
theorem refFault?_pageRef {segments : List String} {a : Address} (ha : ofSegments segments = .ok a)
    {base : String} (hbase : PlainBase base) :
    refFault? (a.pageRef base) = if base = "" ∧ HasColon a.toText then some .drive else none := by
  obtain ⟨hne, hclean⟩ := isClean_of_ofSegments ha
  obtain ⟨components, rfl, hplain⟩ := hbase
  have hall : ∀ s ∈ components ++ a.segments, IsClean s := by
    intro s hs
    rcases List.mem_append.1 hs with hs | hs
    · exact (hplain s hs).isClean
    · exact hclean s hs
  rw [pageRef_eq_toText hne fun s hs => (hplain s hs).isName, refFault?_toText (by simp [hne]) hall]
  cases components with
  | nil =>
    have hempty : String.intercalate "/" [] = "" := rfl
    simp [hempty]
  | cons s ss =>
    have hs := hplain s List.mem_cons_self
    have hcolon : ¬ HasColon (toText ⟨s :: (ss ++ a.segments)⟩) :=
      not_hasColon_of_isPlain hs (by simp [hne]) rfl
    have hbase : String.intercalate "/" (s :: ss) ≠ "" :=
      Path.intercalate_ne_empty (List.cons_ne_nil s ss) fun u hu => (hplain u hu).isName
    rw [List.cons_append, if_neg hcolon, if_neg fun h => hbase h.1]

end Address

namespace NavGroup

/-- A page reference that leads downward from where the site is. -/
structure SafeRef (ref : String) : Prop where
  nonempty : ref ≠ ""
  relative : ∀ c, ref.toList.head? = some c → Text.isSeparator c = false
  downward : ['.', '.'] ∉ ref.toList.splitOnP Text.isSeparator
  driveless : ref.toList[1]? ≠ some ':'

/-- A page reference without a fault is a safe one. -/
theorem refFault?_eq_none_iff {ref : String} : refFault? ref = none ↔ SafeRef ref := by
  have hempty : ref.toList.isEmpty = true ↔ ref = "" := by simp
  have habsolute : (ref.toList.head?.map Text.isSeparator).getD false = true ↔
      ∃ c, ref.toList.head? = some c ∧ Text.isSeparator c = true := by
    cases ref.toList.head? <;> simp
  have hparent : (Text.splitWhere Text.isSeparator ref.toList).any (· == ['.', '.']) = true ↔
      ['.', '.'] ∈ ref.toList.splitOnP Text.isSeparator := by
    rw [Text.splitWhere_eq_splitOnP, List.any_beq']
    exact List.contains_iff_mem
  unfold refFault?
  dsimp only
  simp only [hempty, habsolute, hparent, beq_iff_eq]
  constructor
  · intro h
    split_ifs at h with hne hrel hdown hdrive
    refine ⟨hne, fun c hc => ?_, hdown, hdrive⟩
    exact Bool.eq_false_iff.2 fun hsep => hrel ⟨c, hc, hsep⟩
  · intro h
    rw [if_neg h.nonempty, if_neg, if_neg h.downward, if_neg h.driveless]
    rintro ⟨c, hc, hsep⟩
    rw [h.relative c hc] at hsep
    cases hsep

/-- A group passes its check exactly if no reference in it has a fault. -/
theorem invalidRef?_eq_none_iff {g : NavGroup} :
    g.invalidRef? = none ↔ ∀ ref ∈ g.refs, refFault? ref = none := by
  simp [invalidRef?, List.findSome?_eq_none_iff]

/-- What a group is refused for is the fault of one of its references. -/
theorem invalidRef?_eq_some {g : NavGroup} {i : InvalidRef} (h : g.invalidRef? = some i) :
    i.ref ∈ g.refs ∧ refFault? i.ref = some i.fault := by
  obtain ⟨ref, href, hmap⟩ := List.exists_of_findSome?_eq_some h
  obtain ⟨fault, hfault, rfl⟩ := Option.map_eq_some_iff.1 hmap
  exact ⟨href, hfault⟩

end NavGroup

end ReferenceSite
