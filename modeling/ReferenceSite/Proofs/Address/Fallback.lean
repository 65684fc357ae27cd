import ReferenceSite.Proofs.Address.Obstruction
import ReferenceSite.Proofs.Model.Visible
import ReferenceSite.Proofs.Text.Digits
import ReferenceSite.Proofs.Text.Split
import ReferenceSite.Proofs.Text.Trim

/-!
# Segments of items without a name

The segment of an item whose name shows nothing is made of its kind and of its number among the members of its
parent. Siblings have different numbers, so their segments differ. But an address leaves wrappers out, and
below two wrappers the numbers start anew: items with the same enclosing item have the same address exactly
if they are alike, with the same number below different wrappers (`Model.keptApart_of_unnamed`).
-/

namespace ReferenceSite

open Text

theorem Kind.slug_injective : Function.Injective Kind.slug := by
  have hfind : ∀ k : Kind, Kind.all.find? (·.slug == k.slug) = some k := by
    intro k
    cases k <;> rfl
  intro k k' h
  have hk := hfind k
  rw [h, hfind k'] at hk
  exact (Option.some.inj hk).symm

namespace Text

/-- The lowercase form of a text does not depend on what stands behind a character that ends a word. -/
theorem lowerAfter_append_cons {c : Char} (hc : isCaseIgnorable c = false) (cs before : List Char) :
    ∃ front, ∀ ds, lowerAfter before (cs ++ c :: ds) =
      front ++ lowerAfter (cs.reverse ++ before) (c :: ds) := by
  induction cs generalizing before with
  | nil => exact ⟨[], fun ds => rfl⟩
  | cons d cs ih =>
    obtain ⟨front, hfront⟩ := ih (d :: before)
    -- a sigma looks no further than to the character
    have hmeets : ∀ ds, meetsCased (cs ++ c :: ds) = meetsCased (cs ++ [c]) := by
      intro ds
      have hstop : ∀ ds, (c :: ds).dropWhile isCaseIgnorable = c :: ds := fun ds =>
        List.dropWhile_cons_of_neg (by simp [hc])
      unfold meetsCased
      rw [List.dropWhile_append, List.dropWhile_append, hstop, hstop]
      cases cs.dropWhile isCaseIgnorable <;> rfl
    refine ⟨(if d.toNat == 0x3A3 then
        [if meetsCased before && !meetsCased (cs ++ [c]) then Char.ofNat 0x3C2 else Char.ofNat 0x3C3]
      else lowerChar d) ++ front, fun ds => ?_⟩
    rw [List.cons_append, lowerAfter, hmeets, hfront, List.append_assoc, List.reverse_cons,
      List.append_assoc cs.reverse, List.singleton_append]

end Text

/-! ## Fallback segments -/

/-- The name of an item shows nothing in its address: it is blank, or is made of empty parentheses. -/
def Declaration.Unnamed (d : Declaration) : Prop := Address.baseOf d = ""

theorem Declaration.unnamed_of_isAnonymous {d : Declaration} (h : d.isAnonymous = true) : d.Unnamed := by
  have htrim : trim d.name.toList = [] := trim_eq_nil_iff.2 (isBlankText_iff.1 h)
  have hshown : d.shownChars = [] := by
    rw [shownChars, htrim]
    cases d.kind <;> rfl
  rw [Unnamed, Address.baseOf, htrim, hshown]
  cases d.kind <;> rfl

/-- The ending of the segment of an overload other than the first. -/
def Declaration.segmentEnding (d : Declaration) : String :=
  if 1 < d.overloadIndex then "_" ++ toString d.overloadIndex.toNat else ""

namespace Model

variable {m : Model} {x y : Nat}

theorem segment_of_unnamed (h : (m.item x).Unnamed) :
    m.segment x = m.fallbackSegment x ++ (m.item x).segmentEnding := by
  have hempty : (Address.baseOf (m.item x).toDeclaration).isEmpty = true := by
    rw [h]
    rfl
  rw [segment, if_pos hempty]
  rfl

/-- The number of an item among the members of its parent. -/
def position (m : Model) (id : Nat) : Nat :=
  match (m.item id).parent with
  | none => 1
  | some p => (((m.item p).members.findIdx? (· == id)).map (· + 1)).getD 1

/-- The ending of the segment of an item with overloads. -/
def overloadEnding (n : Nat) : List Char := if 1 < n then '_' :: Nat.toDigits 10 n else []

/-- Two items get the same segment where their names show nothing. -/
structure Alike (m : Model) (x y : Nat) : Prop where
  kind : (m.item x).kind = (m.item y).kind
  position : m.position x = m.position y
  overload : (m.item x).overloadOrdinal = (m.item y).overloadOrdinal

theorem toList_segment (h : (m.item x).Unnamed) : (m.segment x).toList =
    (m.item x).kind.slug.toList ++
      '-' :: (Nat.toDigits 10 (m.position x) ++ overloadEnding (m.item x).overloadOrdinal) := by
  have hfallback : m.fallbackSegment x = (m.item x).kind.slug ++ "-" ++ toString (m.position x) := rfl
  have hmany : 1 < (m.item x).overloadIndex ↔ 1 < (m.item x).overloadOrdinal := by
    rw [Declaration.overloadOrdinal, UInt32.lt_iff_toNat_lt, UInt32.toNat_one]
    omega
  rw [segment_of_unnamed h, hfallback, Declaration.segmentEnding, overloadEnding]
  by_cases hindex : 1 < (m.item x).overloadIndex
  · have hordinal : (m.item x).overloadOrdinal = (m.item x).overloadIndex.toNat :=
      Nat.max_eq_left (Nat.le_of_lt (UInt32.lt_iff_toNat_lt.1 hindex))
    rw [if_pos hindex, if_pos (hmany.1 hindex), hordinal]
    simp
  · rw [if_neg hindex, if_neg fun hordinal => hindex (hmany.2 hordinal)]
    simp

/-- The digits of a number and the ending behind them are told apart by the first character that is no digit. -/
theorem digits_overloadEnding_injective {n n' i i' : Nat} (hi : 0 < i) (hi' : 0 < i')
    (h : Nat.toDigits 10 n ++ overloadEnding i = Nat.toDigits 10 n' ++ overloadEnding i') :
    n = n' ∧ i = i' := by
  have hmark : ∀ i, NoDigit (overloadEnding i) := by
    intro i
    unfold overloadEnding
    split_ifs <;> simp [NoDigit]
  obtain ⟨hn, hending⟩ := toDigits_append_inj (hmark i) (hmark i') h
  unfold overloadEnding at hending
  refine ⟨hn, ?_⟩
  split_ifs at hending
  · exact toDigits_injective (List.cons.inj hending).2
  · omega

/-- Where names show nothing, the segments are equal exactly for items that are alike. -/
theorem segment_eq_iff (hx : (m.item x).Unnamed) (hy : (m.item y).Unnamed) :
    m.segment x = m.segment y ↔ m.Alike x y := by
  constructor
  · intro h
    have htext := congrArg String.toList h
    rw [toList_segment hx, toList_segment hy] at htext
    have hdash : ∀ n i, '-' ∉ Nat.toDigits 10 n ++ overloadEnding i := by
      have hno : ∀ n, '-' ∉ Nat.toDigits 10 n := by
        intro n hmem
        exact absurd (isDigit_of_mem_toDigits _ hmem) (by decide)
      intro n i
      unfold overloadEnding
      split_ifs <;> simp [hno]
    obtain ⟨hslug, hnumbers⟩ := eq_of_append_cons_eq htext (hdash _ _) (hdash _ _)
    have hordinal : ∀ id, 0 < (m.item id).overloadOrdinal := fun id =>
      Nat.lt_of_lt_of_le Nat.zero_lt_one (Nat.le_max_right _ _)
    obtain ⟨hposition, hoverload⟩ :=
      digits_overloadEnding_injective (hordinal x) (hordinal y) hnumbers
    exact ⟨Kind.slug_injective (String.toList_injective hslug), hposition, hoverload⟩
  · rintro ⟨hkind, hposition, hoverload⟩
    apply String.toList_injective
    rw [toList_segment hx, toList_segment hy, hkind, hposition, hoverload]

/-- A segment where the name shows nothing has no capital letters. -/
theorem lowerChar_of_mem_segment (hx : (m.item x).Unnamed) :
    ∀ c ∈ (m.segment x).toList, (c.toNat == 0x3A3) = false ∧ lowerChar c = [c] := by
  have hslug : ∀ k : Kind, ∀ c ∈ k.slug.toList, 0x5A < c.toNat ∧ c.toNat < 0xC0 ∨ c = '-' := by
    intro k
    have hall : k.slug.toList.all (fun c => 0x5A < c.toNat ∧ c.toNat < 0xC0 ∨ c = '-') = true := by
      cases k <;> decide
    exact fun c hc => of_decide_eq_true (List.all_eq_true.1 hall c hc)
  have hplain : ∀ c ∈ (m.segment x).toList,
      0x5A < c.toNat ∧ c.toNat < 0xC0 ∨ c = '-' ∨ c.isDigit = true := by
    intro c hc
    have hdigit : ∀ n, c ∈ Nat.toDigits 10 n → c.isDigit = true := fun n =>
      isDigit_of_mem_toDigits c
    rw [toList_segment hx, overloadEnding, List.mem_append, List.mem_cons, List.mem_append] at hc
    rcases hc with hc | hc | hc | hc
    · rcases hslug _ c hc with hc | hc
      · exact Or.inl hc
      · exact Or.inr (Or.inl hc)
    · exact Or.inr (Or.inl hc)
    · exact Or.inr (Or.inr (hdigit _ hc))
    · split_ifs at hc
      · rcases List.mem_cons.1 hc with rfl | hc
        · exact Or.inl (by decide)
        · exact Or.inr (Or.inr (hdigit _ hc))
      · cases hc
  intro c hc
  have hrange : (c.toNat < 0x41 ∨ 0x5A < c.toNat) ∧ c.toNat < 0xC0 := by
    rcases hplain c hc with hc | rfl | hc
    · exact ⟨Or.inr hc.1, hc.2⟩
    · decide
    · have hdigit : 48 ≤ c.toNat ∧ c.toNat ≤ 57 := by
        simpa [Char.isDigit, UInt32.le_iff_toNat_le] using hc
      omega
  refine ⟨?_, lowerChar_of_not_capital hrange.1 hrange.2⟩
  rw [beq_eq_false_iff_ne]
  omega

end Model

/-! ## Addresses of alike items -/

/-- Addresses that end in segments without capital letters, behind the same segments, are equal but for case
    only if these segments are equal. -/
theorem Address.last_eq_of_lowercase_eq (front : List String) {s s' : String}
    (hs : ∀ c ∈ s.toList, (c.toNat == 0x3A3) = false ∧ lowerChar c = [c])
    (hs' : ∀ c ∈ s'.toList, (c.toNat == 0x3A3) = false ∧ lowerChar c = [c])
    (h : lowercase (toText ⟨front ++ [s]⟩) = lowercase (toText ⟨front ++ [s']⟩)) : s = s' := by
  have hlower := congrArg String.toList h
  rw [lowercase, lowercase, String.toList_ofList, String.toList_ofList, lower, lower] at hlower
  apply String.toList_injective
  by_cases hfront : front = []
  · subst hfront
    have htext : ∀ s, (toText ⟨[] ++ [s]⟩).toList = s.toList := by
      intro s
      rw [toText, List.nil_append, String.intercalate_singleton]
    rwa [htext, htext, lowerAfter_of_forall hs, lowerAfter_of_forall hs'] at hlower
  · have htext : ∀ s, (toText ⟨front ++ [s]⟩).toList =
        (String.intercalate "/" front).toList ++ '/' :: s.toList := by
      intro s
      rw [toText, String.intercalate_append_of_ne_nil hfront (List.cons_ne_nil _ _),
        String.intercalate_singleton]
      simp
    have hslash : ('/'.toNat == 0x3A3) = false ∧ lowerChar '/' = ['/'] :=
      ⟨by decide, lowerChar_of_not_capital (by decide) (by decide)⟩
    obtain ⟨begun, hbegun⟩ := lowerAfter_append_cons (c := '/') (by decide +kernel)
      (String.intercalate "/" front).toList []
    rw [htext, htext, hbegun, hbegun,
      lowerAfter_of_forall (List.forall_mem_cons.2 ⟨hslash, hs⟩),
      lowerAfter_of_forall (List.forall_mem_cons.2 ⟨hslash, hs'⟩)] at hlower
    exact (List.cons.inj (List.append_cancel_left hlower)).2

namespace Model

variable {m : Model} {x y : Nat}

/-- The segments before that of an item with a page are those of the item that encloses it. -/
theorem Built.addressItems_eq (hm : m.Built) (hpage : (m.item x).kind.producesPage = true) :
    m.addressItems x = ((m.enclosing? x).map m.addressItems).getD [] ++ [x] := by
  have hkeep : (!(m.item x).kind.isWrapper && !(m.item x).kind.isInlineMember) = true := hpage
  have hskip : ∀ ws : List Nat, (∀ w ∈ ws, (m.item w).kind.isWrapper = true) →
      ws.filter (fun i => !(m.item i).kind.isWrapper && !(m.item i).kind.isInlineMember) = [] :=
    fun ws hws => List.filter_eq_nil_iff.2 fun w hw => by simp [hws w hw]
  rw [addressItems, lineage, List.filter_reverse, List.filter_cons, if_pos hkeep, List.reverse_cons]
  congr 1
  cases henclosing : m.enclosing? x with
  | none =>
    have hwrappers := List.find?_eq_none.1 henclosing
    rw [hskip _ fun a ha => by simpa using hwrappers a ha]
    rfl
  | some e =>
    obtain ⟨-, between, above, hancestors, hbetween⟩ := List.find?_eq_some_iff_append.1 henclosing
    rw [hancestors, List.filter_append, hskip _ fun w hw => by simpa using hbetween w hw,
      List.nil_append, hm.ancestors_append hancestors, Option.map_some, Option.getD_some,
      addressItems, lineage, List.filter_reverse]

/-- The segments before that of an item with a page. -/
def outerSegments (m : Model) (id : Nat) : List String :=
  (((m.enclosing? id).map m.addressItems).getD []).map m.segment

theorem Built.address_eq (hm : m.Built) (hpage : (m.item x).kind.producesPage = true) :
    m.address x = Address.ofSegments (m.outerSegments x ++ [m.segment x]) := by
  rw [address, hm.addressItems_eq hpage, List.map_append, List.map_singleton, outerSegments]

/-- Siblings are never alike: they have numbers of their own. -/
theorem Built.parent_ne_of_alike (hm : m.Built) (hne : x ≠ y)
    (hpagex : (m.item x).kind.producesPage = true) (hpagey : (m.item y).kind.producesPage = true)
    (h : m.Alike x y) : (m.item x).parent ≠ (m.item y).parent := by
  intro hsame
  have hsome : (m.item x).parent ≠ none := fun hnone =>
    hne ((hm.eq_root_of_no_parent hpagex hnone).trans
      (hm.eq_root_of_no_parent hpagey (hsame ▸ hnone)).symm)
  obtain ⟨p, hp⟩ := Option.ne_none_iff_exists'.1 hsome
  have hnumber : ∀ id, (m.item id).parent = some p →
      ∃ i, (m.item p).members[i]? = some id ∧ m.position id = i + 1 := by
    intro id hid
    have hmem := hm.mem_members_iff.2 hid
    cases hfind : (m.item p).members.findIdx? (· == id) with
    | none => exact absurd (List.findIdx?_eq_none_iff.1 hfind id hmem) (by simp)
    | some i =>
      obtain ⟨hi, hat, -⟩ := List.findIdx?_eq_some_iff_getElem.1 hfind
      refine ⟨i, ?_, by simp [position, hid, hfind]⟩
      rw [List.getElem?_eq_getElem hi]
      exact congrArg some (by simpa using hat)
  obtain ⟨i, hxi, hi⟩ := hnumber x hp
  obtain ⟨j, hyj, hj⟩ := hnumber y (hsame ▸ hp)
  have hij : i = j := by
    have hposition := h.position
    omega
  rw [hij, hyj] at hxi
  exact hne (Option.some.inj hxi).symm

/-- What keeps apart the addresses of two items with pages in the same item, where their names show nothing. -/
structure KeptApart (m : Model) (x y : Nat) : Prop where
  same : m.Alike x y → m.address x = m.address y
  address : ∀ a b, m.address x = .ok a → m.address y = .ok b → (a = b ↔ m.Alike x y)
  folded : ∀ a b, m.address x = .ok a → m.address y = .ok b →
    (lowercase a.toText = lowercase b.toText ↔ m.Alike x y)
  siblings : m.Alike x y → (m.item x).parent ≠ (m.item y).parent

/-- Items whose names show nothing have the same address, in either case of letters, exactly if they are
    alike. -/
theorem Built.keptApart_of_unnamed (hm : m.Built) (hne : x ≠ y)
    (hpagex : (m.item x).kind.producesPage = true) (hpagey : (m.item y).kind.producesPage = true)
    (hx : (m.item x).Unnamed) (hy : (m.item y).Unnamed) (hsame : m.enclosing? x = m.enclosing? y) :
    m.KeptApart x y := by
  have houter : m.outerSegments y = m.outerSegments x := by rw [outerSegments, outerSegments, hsame]
  have haddress : m.Alike x y → m.address x = m.address y := by
    intro h
    rw [hm.address_eq hpagex, hm.address_eq hpagey, houter, (segment_eq_iff hx hy).2 h]
  have hfolded : ∀ a b, m.address x = .ok a → m.address y = .ok b →
      lowercase a.toText = lowercase b.toText → m.Alike x y := by
    intro a b ha hb h
    rw [hm.address_eq hpagex] at ha
    rw [hm.address_eq hpagey, houter] at hb
    obtain ⟨hasegments, -⟩ := Address.ofSegments_eq_ok ha
    obtain ⟨hbsegments, -⟩ := Address.ofSegments_eq_ok hb
    rw [← segment_eq_iff hx hy]
    refine Address.last_eq_of_lowercase_eq (m.outerSegments x) (lowerChar_of_mem_segment hx)
      (lowerChar_of_mem_segment hy) ?_
    rwa [← hasegments, ← hbsegments]
  refine ⟨haddress, fun a b ha hb => ⟨?_, fun h => ?_⟩,
    fun a b ha hb => ⟨hfolded a b ha hb, fun h => ?_⟩, hm.parent_ne_of_alike hne hpagex hpagey⟩
  · rintro rfl
    exact hfolded a a ha hb rfl
  · rw [haddress h, hb] at ha
    exact (Except.ok.inj ha).symm
  · rw [haddress h, hb] at ha
    rw [Except.ok.inj ha]

end Model

end ReferenceSite
