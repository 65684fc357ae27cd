import ReferenceSite.Generation.Content
import ReferenceSite.Proofs.Text.Words

/-!
# The description of a page

A page is described by the first sentence of the summary of its item. The texts of the summary are put together
before their blank characters are collapsed, so a sentence may end between two of them, and a full stop ends it
exactly if a space follows. Whatever is cut off, the description is one line that neither begins nor ends with a
blank character (`describes_ofItem`).
-/

namespace ReferenceSite.Page

open Text

/-- The characters that end a line. -/
def isLineEnd (c : Char) : Bool :=
  let n := c.toNat
  (10 ≤ n && n ≤ 13) || n == 0x85 || n == 0x2028 || n == 0x2029

/-- At a place of a text stands a full stop that a space follows. -/
def StopsAt (cs : List Char) (n : Nat) : Prop := cs[n]? = some '.' ∧ cs[n + 1]? = some ' '

/-- The text up to and including its first full stop that a space follows, or all of it if there is none. -/
inductive FirstSentence (cs : List Char) : List Char → Prop
  | stopped {n : Nat} : StopsAt cs n → (∀ k < n, ¬ StopsAt cs k) → FirstSentence cs (cs.take (n + 1))
  | whole : (∀ n, ¬ StopsAt cs n) → FirstSentence cs cs

/-- The second text is the first one without the blank characters at its end, and an ellipsis. -/
def Ellipsized (cs ds : List Char) : Prop :=
  ∃ kept blanks, cs = kept ++ blanks ∧ (∀ c ∈ blanks, isBlank c = true) ∧
    (∀ c, kept.getLast? = some c → isBlank c = false) ∧ ds = kept ++ [Char.ofNat 0x2026]

/-- A text is described in one line by its first sentence, or by the beginning of that if it is too long. -/
structure Describes (cs ds : List Char) : Prop where
  nonempty : ds ≠ []
  short : ds.length ≤ 160
  unbroken : ∀ c ∈ ds, isLineEnd c = false
  spaced : IsSpaced ds
  sentence : ∃ s, FirstSentence cs s ∧ (s.length ≤ 160 → ds = s) ∧ (160 < s.length → Ellipsized (s.take 159) ds)

variable {cs ds : List Char} {n : Nat} {c : Char}

/-! ## The first sentence -/

theorem stopsAt_cons_succ : StopsAt (c :: cs) (n + 1) ↔ StopsAt cs n := by
  rw [StopsAt, StopsAt, List.getElem?_cons_succ, List.getElem?_cons_succ]

theorem FirstSentence.cons (hc : ¬ StopsAt (c :: cs) 0) (h : FirstSentence cs ds) :
    FirstSentence (c :: cs) (c :: ds) := by
  cases h with
  | @stopped n hn hfirst =>
    refine FirstSentence.stopped (n := n + 1) (stopsAt_cons_succ.2 hn) fun k hk => ?_
    cases k with
    | zero => exact hc
    | succ k => exact fun hstop => hfirst k (Nat.lt_of_succ_lt_succ hk) (stopsAt_cons_succ.1 hstop)
  | whole hnone =>
    refine FirstSentence.whole fun k => ?_
    cases k with
    | zero => exact hc
    | succ k => exact fun hstop => hnone k (stopsAt_cons_succ.1 hstop)

theorem firstSentence_spec (cs : List Char) : FirstSentence cs (firstSentence cs) := by
  induction cs using firstSentence.induct with
  | case1 rest =>
    rw [firstSentence]
    exact .stopped (n := 0) ⟨rfl, rfl⟩ fun k hk => absurd hk (Nat.not_lt_zero k)
  | case2 c cs hother ih =>
    have hc : ¬ StopsAt (c :: cs) 0 := by
      rintro ⟨hstop, hspace⟩
      have hhead : cs.head? = some ' ' := by rwa [List.head?_eq_getElem?]
      obtain ⟨rest, hrest⟩ := List.head?_eq_some_iff.1 hhead
      exact hother rest (Option.some.inj hstop) hrest
    rw [firstSentence]
    · exact ih.cons hc
    · exact hother
  | case3 => exact .whole fun n hstop => by cases hstop.1

/-- A sentence is cut off behind a full stop, if at all. -/
theorem FirstSentence.exists_append (h : FirstSentence cs ds) :
    ∃ rest, cs = ds ++ rest ∧ (rest = [] ∨ ds.getLast? = some '.') := by
  cases h with
  | @stopped n hn hfirst =>
    refine ⟨cs.drop (n + 1), (List.take_append_drop _ _).symm, Or.inr ?_⟩
    rw [List.getLast?_take, if_neg (Nat.succ_ne_zero n), Nat.add_sub_cancel, hn.1, Option.some_or]
  | whole hnone => exact ⟨[], (List.append_nil _).symm, Or.inl rfl⟩

theorem FirstSentence.isSpaced (h : FirstSentence cs ds) (hcs : IsSpaced cs) : IsSpaced ds := by
  obtain ⟨rest, rfl, hend⟩ := h.exists_append
  refine hcs.of_append fun c hc => ?_
  rcases hend with rfl | hstop
  · exact hcs.back c (by rwa [List.append_nil])
  · rw [hstop] at hc
    rw [← Option.some.inj hc]
    rfl

theorem FirstSentence.ne_nil (h : FirstSentence cs ds) (hne : cs ≠ []) : ds ≠ [] := by
  obtain ⟨rest, rfl, hend⟩ := h.exists_append
  rintro rfl
  rcases hend with rfl | hstop
  · exact hne rfl
  · cases hstop

/-! ## Shortening -/

theorem ellipsized_trimEnd (cs : List Char) : Ellipsized cs (trimEnd cs ++ [Char.ofNat 0x2026]) := by
  obtain ⟨blanks, hcs, hblanks, hback⟩ := exists_trimEnd cs
  exact ⟨trimEnd cs, blanks, hcs, hblanks, hback, rfl⟩

theorem Ellipsized.length_le (h : Ellipsized cs ds) : ds.length ≤ cs.length + 1 := by
  obtain ⟨kept, blanks, rfl, -, -, rfl⟩ := h
  rw [List.length_append, List.length_append, List.length_singleton]
  omega

theorem Ellipsized.isSpaced (h : Ellipsized (cs.take n) ds) (hcs : IsSpaced cs) : IsSpaced ds := by
  obtain ⟨kept, blanks, hkept, -, hback, rfl⟩ := h
  have hspaced : IsSpaced (kept ++ (blanks ++ cs.drop n)) := by
    rwa [← List.append_assoc, ← hkept, List.take_append_drop]
  exact (hspaced.of_append hback).concat (by decide)

theorem Ellipsized.mem (h : Ellipsized (cs.take n) ds) (hc : c ∈ ds) : c ∈ cs ∨ c = Char.ofNat 0x2026 := by
  obtain ⟨kept, blanks, hkept, -, -, rfl⟩ := h
  rcases List.mem_append.1 hc with hc | hc
  · left
    apply List.mem_of_mem_take (i := n)
    rw [hkept]
    exact List.mem_append_left _ hc
  · exact Or.inr (List.mem_singleton.1 hc)

/-! ## Descriptions -/

/-- No line ends at a character that is not blank, or at a space. -/
theorem isLineEnd_eq_false (h : c = ' ' ∨ isBlank c = false) : isLineEnd c = false := by
  rcases h with rfl | h
  · rfl
  · rw [Bool.eq_false_iff]
    intro hend
    rw [Bool.eq_false_iff] at h
    apply h
    simp only [isLineEnd, isBlank, Bool.or_eq_true, Bool.and_eq_true, decide_eq_true_eq, beq_iff_eq] at hend ⊢
    omega

/-- A collapsed text is described in one line. -/
theorem describes_shorten (cs : List Char) (hne : collapse cs ≠ []) :
    Describes (collapse cs) (shorten maxDescriptionLength (firstSentence (collapse cs))) := by
  have hsentence := firstSentence_spec (collapse cs)
  have hspaced := hsentence.isSpaced (isSpaced_collapse cs)
  obtain ⟨rest, hrest, -⟩ := hsentence.exists_append
  set s := firstSentence (collapse cs) with hs
  have hline : ∀ c ∈ s, isLineEnd c = false := fun c hc =>
    isLineEnd_eq_false (mem_collapse (by rw [hrest]; exact List.mem_append_left _ hc))
  unfold shorten
  split_ifs with hlength
  · exact ⟨hsentence.ne_nil hne, hlength, hline, hspaced, s, hsentence, fun _ => rfl,
      fun hlong => absurd hlength (Nat.not_le.2 hlong)⟩
  · have hcut : Ellipsized (s.take 159) (trimEnd (s.take 159) ++ [Char.ofNat 0x2026]) :=
      ellipsized_trimEnd _
    refine ⟨by simp, ?_, fun c hc => ?_, hcut.isSpaced hspaced, s, hsentence,
      fun hshort => absurd hshort hlength, fun _ => hcut⟩
    · have htake : (s.take 159).length ≤ 159 := List.length_take_le _ _
      have hle := hcut.length_le
      exact Nat.le_trans hle (by omega)
    · rcases hcut.mem hc with hmem | rfl
      · exact hline c hmem
      · rfl

theorem toList_plainText (nodes : List Doc.Node) :
    (Doc.plainText nodes).toList = collapse (nodes.flatMap fun n => n.plainText.toList) :=
  String.toList_ofList

theorem toList_describe {d : Declaration} (h : Doc.plainText (d.docs.getD {}).summary ≠ "") (title : String) :
    (describe d title).toList =
      shorten maxDescriptionLength (firstSentence (Doc.plainText (d.docs.getD {}).summary).toList) := by
  have hsummary : (Doc.plainText (d.docs.getD {}).summary).isEmpty = false := by
    rw [Bool.eq_false_iff]
    exact mt String.isEmpty_iff.1 h
  unfold describe
  dsimp only
  rw [hsummary, if_neg Bool.false_ne_true, String.toList_ofList]

theorem toList_description_ofItem {m : Model} {id : Nat} (h : Doc.plainText ((m.item id).docs.getD {}).summary ≠ "")
    (base : String) (refs : List (Nat × String)) :
    (ofItem m base refs id).description.toList =
      shorten maxDescriptionLength (firstSentence (Doc.plainText ((m.item id).docs.getD {}).summary).toList) := by
  have hdescription : (ofItem m base refs id).description =
      describe (m.item id).toDeclaration (m.pageTitle id) := by rw [ofItem]
  rw [hdescription, toList_describe h]

/-- The page of an item whose summary has a plain text is described in one line by the first sentence of this
    text, or by the beginning of that sentence if it is too long. -/
theorem describes_ofItem (m : Model) (base : String) (refs : List (Nat × String)) (id : Nat)
    (h : Doc.plainText ((m.item id).docs.getD {}).summary ≠ "") :
    Describes (Doc.plainText ((m.item id).docs.getD {}).summary).toList
      (ofItem m base refs id).description.toList := by
  have hne : (Doc.plainText ((m.item id).docs.getD {}).summary).toList ≠ [] :=
    mt String.toList_eq_nil_iff.1 h
  rw [toList_plainText] at hne
  rw [toList_description_ofItem h, toList_plainText]
  exact describes_shorten _ hne

/-- A text with a space where it is cut off. -/
def longText : List Char := List.replicate 158 (Char.ofNat 0xE4) ++ [' ', 'b', 'c']

/-- A package with a sentence that ends between two parts of its summary, and a class with a long sentence. -/
def summarized : Model :=
  (Model.empty.add 0
    { kind := .package
      name := "p"
      docs := some { summary := [.text "Draws\n  shapes", .code ".", .paragraph, .text "See 2.0. "] } }).add 1
    { kind := .class, name := "C", docs := some (.ofSummary (.ofList longText)) }

theorem describes_ofItem_summarized :
    Doc.plainText ((summarized.item 1).docs.getD {}).summary = "Draws shapes. See 2.0." ∧
    Describes (Doc.plainText ((summarized.item 1).docs.getD {}).summary).toList
      (ofItem summarized "api" [] 1).description.toList ∧
    (ofItem summarized "api" [] 1).description = "Draws shapes." ∧
    (Doc.plainText ((summarized.item 2).docs.getD {}).summary).toList = longText ∧
    Describes (Doc.plainText ((summarized.item 2).docs.getD {}).summary).toList
      (ofItem summarized "api" [] 2).description.toList ∧
    (ofItem summarized "api" [] 2).description.toList =
      List.replicate 158 (Char.ofNat 0xE4) ++ [Char.ofNat 0x2026] := by
  have hfirst : Doc.plainText ((summarized.item 1).docs.getD {}).summary = "Draws shapes. See 2.0." := by
    decide +kernel
  have hsecond : (Doc.plainText ((summarized.item 2).docs.getD {}).summary).toList = longText := by
    have hnodes : ((summarized.item 2).docs.getD {}).summary = [.text (.ofList longText)] := rfl
    have hcollapse : collapse longText = longText := by decide +kernel
    rw [hnodes, toList_plainText, List.flatMap_singleton, Doc.Node.plainText, String.toList_ofList, hcollapse]
  have hne : Doc.plainText ((summarized.item 1).docs.getD {}).summary ≠ "" := by
    rw [hfirst]
    decide
  have hne' : Doc.plainText ((summarized.item 2).docs.getD {}).summary ≠ "" := by
    intro hempty
    rw [hempty] at hsecond
    exact absurd hsecond (by decide +kernel)
  have hshown : (ofItem summarized "api" [] 1).description = "Draws shapes." := by
    decide +kernel
  have hcut : (ofItem summarized "api" [] 2).description.toList =
      List.replicate 158 (Char.ofNat 0xE4) ++ [Char.ofNat 0x2026] := by
    rw [toList_description_ofItem hne', hsecond]
    decide +kernel
  exact ⟨hfirst, describes_ofItem summarized "api" [] 1 hne, hshown, hsecond,
    describes_ofItem summarized "api" [] 2 hne', hcut⟩

end ReferenceSite.Page
