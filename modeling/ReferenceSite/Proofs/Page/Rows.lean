import Mathlib.Data.List.Forall2
import ReferenceSite.Page.View
import ReferenceSite.Proofs.Mdx.Escaping
import ReferenceSite.Proofs.Text.Split

/-!
# Rows of the tables on a page

A page shows its parameters and the members of its inline sections in tables of two columns. A text fills one
cell of a row if it stays on its line and each bar in it is escaped (`IsCell`). The name in a row is a code
span, which changes neither line breaks nor bars (`isCell_codeSpan`), so a name goes over its cell as soon as
it has a bar of its own. The description stays on its line, but a bar in it is escaped by one more backslash
whatever stands before it (`isCell_tableCell`). Both together say which rows have two cells
(`rows_isCell_iff`).
-/

namespace ReferenceSite

namespace Mdx

open Text

/-- The character between two cells. -/
def isBar (c : Char) : Bool := c == '|'

/-- A text fills one cell of a row: it stays on its line, and each bar in it is escaped. -/
structure IsCell (s : String) : Prop where
  oneLine : ∀ c ∈ s.toList, isLineBreak c = false
  bars : Escaped isBar s.toList

theorem isCell_iff {s : String} :
    IsCell s ↔ (∀ c ∈ s.toList, isLineBreak c = false) ∧ Escaped isBar s.toList :=
  ⟨fun h => ⟨h.oneLine, h.bars⟩, fun h => ⟨h.1, h.2⟩⟩

instance : DecidablePred IsCell := fun s =>
  decidable_of_iff (s.toList.all (fun c => !isLineBreak c) = true ∧ Escaped isBar s.toList)
    (by simp [isCell_iff])

variable {p : Char → Bool} {c : Char} {n : Nat} {cs front back : List Char}

/-! ## Runs of backslashes in parts of a text -/

theorem runsFrom_of_neutral (hc : p c = false) (hslash : isBackslash c = false) (n : Nat)
    (cs : List Char) : runsFrom p n (c :: cs) = runsBefore p cs := by
  simp [runsFrom, runsBefore, hc, hslash]

/-- Behind a character that is neither a backslash nor of the kind, the count of backslashes starts again. -/
theorem runsFrom_append_cons (hc : p c = false) (hslash : isBackslash c = false) (n : Nat)
    (front back : List Char) :
    runsFrom p n (front ++ c :: back) = runsFrom p n front ++ runsBefore p back := by
  induction front generalizing n with
  | nil => exact runsFrom_of_neutral hc hslash n back
  | cons a front ih =>
    rw [List.cons_append, runsFrom, runsFrom, ih]
    by_cases ha : p a = true
    · simp [ha]
    · simp [ha]

theorem runsBefore_neutral_append (h : ∀ c ∈ front, p c = false ∧ isBackslash c = false)
    (cs : List Char) : runsBefore p (front ++ cs) = runsBefore p cs := by
  induction front with
  | nil => rfl
  | cons a front ih =>
    rw [List.forall_mem_cons] at h
    have hhead : runsBefore p (a :: (front ++ cs)) = runsBefore p (front ++ cs) :=
      runsFrom_of_neutral h.1.1 h.1.2 0 _
    rw [List.cons_append, hhead, ih h.2]

theorem runsFrom_append_of_none (h : ∀ c ∈ back, p c = false) (n : Nat) (cs : List Char) :
    runsFrom p n (cs ++ back) = runsFrom p n cs := by
  induction cs generalizing n with
  | nil =>
    induction back generalizing n with
    | nil => rfl
    | cons a back ih =>
      rw [List.forall_mem_cons] at h
      have hback := ih h.2 (if isBackslash a then n + 1 else 0)
      rw [List.nil_append] at hback ⊢
      simp [runsFrom, h.1, hback]
  | cons a cs ih =>
    rw [List.cons_append, runsFrom, runsFrom, ih]

/-! ## Collapsed texts -/

theorem isBackslash_of_isBlank (h : isBlank c = true) : isBackslash c = false := by
  by_contra hslash
  have heq : c = '\x5c' := by simpa [isBackslash] using hslash
  subst heq
  revert h
  decide

theorem flatMap_filter_ne_nil (pieces : List (List Char)) :
    (pieces.filter (!·.isEmpty)).flatMap (runsBefore p) = pieces.flatMap (runsBefore p) := by
  induction pieces with
  | nil => rfl
  | cons piece pieces ih =>
    cases piece with
    | nil => simpa [runsBefore, runsFrom] using ih
    | cons c cs => simpa using ih

section Collapse

variable (hblank : ∀ c, isBlank c = true → p c = false)

include hblank

theorem runsFrom_splitWhere {piece : List Char} {pieces : List (List Char)} (n : Nat)
    (h : splitWhere isBlank cs = piece :: pieces) :
    runsFrom p n piece ++ pieces.flatMap (runsBefore p) = runsFrom p n cs := by
  induction cs generalizing n piece pieces with
  | nil =>
    obtain ⟨rfl, rfl⟩ := List.cons.inj h
    rfl
  | cons a cs ih =>
    rw [splitWhere_cons] at h
    cases hsplit : splitWhere isBlank cs with
    | nil =>
      rw [splitWhere_eq_splitOnP] at hsplit
      exact absurd hsplit (List.splitOnP_ne_nil isBlank cs)
    | cons piece' pieces' =>
      rw [hsplit] at h
      by_cases ha : isBlank a = true
      · -- a blank ends the piece, and the next one starts a count of its own
        rw [if_pos ha] at h
        obtain ⟨rfl, rfl⟩ := List.cons.inj h
        rw [runsFrom_of_neutral (hblank a ha) (isBackslash_of_isBlank ha)]
        exact ih 0 hsplit
      · rw [if_neg ha, consFirst] at h
        obtain ⟨rfl, rfl⟩ := List.cons.inj h
        have hrest := ih (if isBackslash a then n + 1 else 0) hsplit
        rw [runsFrom, runsFrom, ← hrest]
        by_cases hp : p a = true
        · simp [hp]
        · simp [hp]

theorem runsBefore_intercalate (words : List (List Char)) :
    runsBefore p (List.intercalate [' '] words) = words.flatMap (runsBefore p) := by
  induction words with
  | nil => rfl
  | cons word words ih =>
    cases words with
    | nil => simp
    | cons word' words =>
      have hspace : p ' ' = false := hblank ' ' rfl
      rw [List.intercalate_cons_cons, List.append_assoc, List.singleton_append, List.flatMap_cons, ← ih]
      exact runsFrom_append_cons hspace rfl 0 word _

/-- Blank characters come between no character of the kind and the backslashes before it, so the runs stay
    as they are when the blanks are collapsed. -/
theorem runsBefore_collapse (cs : List Char) : runsBefore p (collapse cs) = runsBefore p cs := by
  cases hsplit : splitWhere isBlank cs with
  | nil =>
    rw [splitWhere_eq_splitOnP] at hsplit
    exact absurd hsplit (List.splitOnP_ne_nil isBlank cs)
  | cons piece pieces =>
    have hpieces := runsFrom_splitWhere hblank 0 hsplit
    rw [collapse, runsBefore_intercalate hblank, words, flatMap_filter_ne_nil, hsplit,
      List.flatMap_cons]
    exact hpieces

theorem bare_collapse : Bare p (collapse cs) ↔ Bare p cs := by
  rw [bare_iff_runsBefore, bare_iff_runsBefore, runsBefore_collapse hblank]

end Collapse

/-! ## Cells -/

theorem isBar_of_isBlank (h : isBlank c = true) : isBar c = false := by
  by_contra hbar
  have heq : c = '|' := by simpa [isBar] using hbar
  subst heq
  revert h
  decide

theorem escapes_bars : Escapes isBar escapeCellChar where
  plain := rfl
  escaped := by
    intro c hc
    have hbar : (c == '|') = true := hc
    unfold escapeCellChar
    rw [if_pos hbar]
  backslash := rfl
  others := by
    intro c hc hslash n cs
    have hne : ¬ (c == '|') = true := by simpa [isBar] using hc
    unfold escapeCellChar
    rw [if_neg hne, List.singleton_append]
    exact runsFrom_of_neutral hc hslash n cs

/-- The text of a cell has no line breaks. -/
theorem oneLine_tableCell (text : String) : ∀ c ∈ (tableCell text).toList, isLineBreak c = false := by
  intro c hc
  rw [tableCell, String.toList_ofList, List.mem_flatMap] at hc
  obtain ⟨d, hd, hc⟩ := hc
  have hline : isLineBreak d = false := by
    rcases mem_collapse hd with rfl | hblank
    · rfl
    · rw [Bool.eq_false_iff]
      intro hbreak
      rcases (by simpa [isLineBreak] using hbreak : d = '\n' ∨ d = '\r') with rfl | rfl
      · exact absurd hblank (by decide)
      · exact absurd hblank (by decide)
  unfold escapeCellChar at hc
  split_ifs at hc
  · rcases List.mem_cons.1 hc with rfl | hc
    · rfl
    · rwa [List.mem_singleton.1 hc]
  · rwa [List.mem_singleton.1 hc]

/-- The text of a cell fills it exactly if no bar was escaped before. -/
theorem isCell_tableCell (text : String) : IsCell (tableCell text) ↔ Bare isBar text.toList := by
  have hbars : Escaped isBar (tableCell text).toList ↔ Bare isBar text.toList := by
    rw [tableCell, String.toList_ofList, escapes_bars.escaped_iff]
    exact bare_collapse fun _ => isBar_of_isBlank
  constructor
  · exact fun h => hbars.1 h.bars
  · exact fun h => ⟨oneLine_tableCell text, hbars.2 h⟩

theorem eq_of_mem_fence (h : c ∈ fence n) : c = backtick := List.eq_of_mem_replicate h

/-- A code span is its code between backticks and at most one space on each side. -/
theorem exists_toList_codeSpan (code : String) :
    ∃ front back, (codeSpan code).toList = front ++ code.toList ++ back ∧
      (∀ c ∈ front, c = backtick ∨ c = ' ') ∧ ∀ c ∈ back, c = backtick ∨ c = ' ' := by
  have hticks : ∀ n, ∀ c ∈ fence n, c = backtick ∨ c = ' ' := fun n c hc => Or.inl (eq_of_mem_fence hc)
  unfold codeSpan
  simp only [String.toList_ofList]
  split_ifs
  · refine ⟨fence (longestRun code.toList + 1) ++ [' '], ' ' :: fence (longestRun code.toList + 1), by simp,
      ?_, ?_⟩
    · intro c hc
      rcases List.mem_append.1 hc with hc | hc
      · exact hticks _ c hc
      · exact Or.inr (List.mem_singleton.1 hc)
    · intro c hc
      rcases List.mem_cons.1 hc with hc | hc
      · exact Or.inr hc
      · exact hticks _ c hc
  · exact ⟨fence (longestRun code.toList + 1), fence (longestRun code.toList + 1), rfl, hticks _, hticks _⟩

/-- Code fills a cell exactly if it did so without its backticks. -/
theorem isCell_codeSpan (code : String) : IsCell (codeSpan code) ↔ IsCell code := by
  obtain ⟨front, back, hspan, hfront, hback⟩ := exists_toList_codeSpan code
  have hneutral : ∀ c, c = backtick ∨ c = ' ' →
      isBar c = false ∧ isBackslash c = false ∧ isLineBreak c = false := by
    rintro c (rfl | rfl)
    · decide
    · decide
  have hruns : runsBefore isBar (codeSpan code).toList = runsBefore isBar code.toList := by
    rw [hspan, runsBefore, runsFrom_append_of_none fun c hc => (hneutral c (hback c hc)).1]
    refine runsBefore_neutral_append (fun c hc => ?_) code.toList
    exact ⟨(hneutral c (hfront c hc)).1, (hneutral c (hfront c hc)).2.1⟩
  have hline : (∀ c ∈ (codeSpan code).toList, isLineBreak c = false) ↔
      ∀ c ∈ code.toList, isLineBreak c = false := by
    rw [hspan, List.forall_mem_append, List.forall_mem_append]
    constructor
    · exact fun h => h.1.2
    · intro h
      exact ⟨⟨fun c hc => (hneutral c (hfront c hc)).2.2, h⟩, fun c hc => (hneutral c (hback c hc)).2.2⟩
  rw [isCell_iff, isCell_iff, hline, escaped_iff_runsBefore, escaped_iff_runsBefore, hruns]

end Mdx

/-! ## Rows -/

/-- The rows of the tables on a page, each with its name and its description. -/
def PageView.rows (v : PageView) : List (String × String) :=
  v.params.map (fun param => (param.name, param.description)) ++
    (v.sections.filter SectionView.inline).flatMap fun s => s.members.map fun m => (m.name, m.summary)

/-- The names of the documented parameters and of the members of inline sections, each with its rendered
    description. -/
def Page.described (links : Links) (p : Page) : List (String × String) :=
  (p.docs.getD {}).params.map (fun param => (param.name, Mdx.renderNodes links p.item param.description)) ++
    (p.sections.filter MemberSection.inline).flatMap fun s =>
      s.members.map fun m => (m.name, Mdx.renderNodes links m.item m.summary)

namespace Page

theorem rows_view (language : String) (links : Links) (p : Page) :
    (p.view language links).rows =
      (p.described links).map fun d => (Mdx.codeSpan d.1, Mdx.tableCell d.2) := by
  have hsections : ∀ sections : List MemberSection,
      (((sections.map (sectionView links)).filter SectionView.inline).flatMap fun s =>
        s.members.map fun m => (m.name, m.summary)) =
      ((sections.filter MemberSection.inline).flatMap fun s =>
        s.members.map fun m => (m.name, Mdx.renderNodes links m.item m.summary)).map
          fun d => (Mdx.codeSpan d.1, Mdx.tableCell d.2) := by
    intro sections
    induction sections with
    | nil => rfl
    | cons s sections ih =>
      by_cases hinline : s.inline = true
      · simp [sectionView, memberView, hinline, ih]
      · simp [sectionView, hinline, ih]
  simp [PageView.rows, described, view, hsections]

/-- The cells of each row: the name fills its cell exactly if it is such a text itself, and the description,
    which never leaves its line, does so exactly if no bar was escaped before. -/
theorem rows_isCell_iff (language : String) (links : Links) (p : Page) :
    List.Forall₂
      (fun row d => (Mdx.IsCell row.1 ↔ Mdx.IsCell d.1) ∧
        (∀ c ∈ row.2.toList, Text.isLineBreak c = false) ∧
        (Mdx.IsCell row.2 ↔ Mdx.Bare Mdx.isBar d.2.toList))
      (p.view language links).rows (p.described links) := by
  rw [rows_view, List.forall₂_map_left_iff, List.forall₂_same]
  intro d _
  exact ⟨Mdx.isCell_codeSpan d.1, Mdx.oneLine_tableCell d.2, Mdx.isCell_tableCell d.2⟩

/-- A page with a parameter whose name has a bar and another one in whose description a bar is escaped. -/
def barred : Page where
  item := 0
  kind := .function
  title := "pick"
  description := "Picks one."
  icon := "code"
  docs := some {
    params := [
      { name := "a|b", description := [.text "Either"] },
      { name := "c", description := [.text "x \x5c| y"] }] }

/-- Neither the bar in a name nor the one behind a backslash in a description is escaped in its row. -/
theorem barred_overflows :
    ∃ first second, (barred.view "ts" fun _ _ => none).rows = [first, second] ∧
      ¬ Mdx.IsCell first.1 ∧ Mdx.IsCell first.2 ∧ Mdx.IsCell second.1 ∧ ¬ Mdx.IsCell second.2 := by
  refine ⟨_, _, rows_view "ts" (fun _ _ => none) barred, ?_⟩
  decide +kernel

end Page

end ReferenceSite
