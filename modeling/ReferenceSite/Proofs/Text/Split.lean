import Mathlib.Tactic.SplitIfs
import ReferenceSite.Text.Blank

/-!
# Splitting texts

`Text.splitWhere` is the standard library's `List.splitOnP`, so splitting at a character undoes joining
pieces without it, and joining undoes splitting. `Text.splitFirst` and `Text.splitLast` cut a list at the
first and at the last occurrence of a separator. The only blank characters of a collapsed text are the spaces
between its words (`mem_collapse`).
-/

namespace ReferenceSite.Text

variable {α : Type} {p : α → Bool}

theorem consFirst_eq_modifyHead (a : α) (ls : List (List α)) (h : ls ≠ []) :
    consFirst a ls = ls.modifyHead (a :: ·) := by
  cases ls with
  | nil => exact absurd rfl h
  | cons l ls => rfl

theorem splitWhere_cons (a : α) (l : List α) :
    splitWhere p (a :: l) = if p a then [] :: splitWhere p l else consFirst a (splitWhere p l) := rfl

theorem splitWhere_eq_splitOnP (l : List α) : splitWhere p l = l.splitOnP p := by
  induction l with
  | nil => rfl
  | cons a l ih =>
    rw [splitWhere_cons, List.splitOnP_cons_eq_if_modifyHead, ih]
    split_ifs with ha
    · rfl
    · exact consFirst_eq_modifyHead a _ (List.splitOnP_ne_nil p l)

theorem map_toList_splitAt (c : Char) (s : String) :
    (splitAt c s).map String.toList = s.toList.splitOn c := by
  simp [splitAt, splitWhere_eq_splitOnP, List.splitOn_eq_splitOnP, Function.comp_def]

theorem map_toList_injective {ss ss' : List String}
    (h : ss.map String.toList = ss'.map String.toList) : ss = ss' :=
  List.map_inj_right (fun _ _ => String.toList_inj.1) |>.1 h

/-- The pieces are split again where they were joined. -/
theorem splitAt_intercalate {c : Char} {ss : List String} (hne : ss ≠ [])
    (h : ∀ s ∈ ss, c ∉ s.toList) :
    splitAt c (String.intercalate (String.singleton c) ss) = ss := by
  apply map_toList_injective
  rw [map_toList_splitAt, String.toList_intercalate, String.toList_singleton]
  refine List.splitOn_intercalate c ?_ (by simpa using hne)
  intro l hl
  obtain ⟨s, hs, rfl⟩ := List.mem_map.1 hl
  exact h s hs

/-- A text is its pieces joined. -/
theorem intercalate_splitAt (c : Char) (s : String) :
    String.intercalate (String.singleton c) (splitAt c s) = s := by
  apply String.toList_injective
  rw [String.toList_intercalate, String.toList_singleton, map_toList_splitAt,
    List.intercalate_splitOn]

/-- No piece has a separator. -/
theorem splitWhere_forall (l : List α) : ∀ piece ∈ splitWhere p l, ∀ a ∈ piece, p a = false := by
  induction l with
  | nil => simp [splitWhere]
  | cons a l ih =>
    rw [splitWhere_cons]
    split_ifs with ha
    · simpa using ih
    · cases hl : splitWhere p l with
      | nil => simpa [consFirst] using ha
      | cons piece pieces =>
        rw [hl, List.forall_mem_cons] at ih
        rw [consFirst, List.forall_mem_cons, List.forall_mem_cons]
        exact ⟨⟨by simpa using ha, ih.1⟩, ih.2⟩

theorem not_mem_of_mem_splitAt {c : Char} {s piece : String} (h : piece ∈ splitAt c s) :
    c ∉ piece.toList := by
  obtain ⟨l, hl, rfl⟩ := List.mem_map.1 h
  intro hc
  have := splitWhere_forall s.toList l hl c (by simpa using hc)
  simp at this

/-- A separator divides the pieces of what stands before it from those of what stands behind it. -/
theorem splitAt_append_sep (c : Char) (s u : String) :
    splitAt c (s ++ String.singleton c ++ u) = splitAt c s ++ splitAt c u := by
  apply map_toList_injective
  rw [List.map_append, map_toList_splitAt, map_toList_splitAt, map_toList_splitAt,
    String.toList_append, String.toList_append, String.toList_singleton, List.append_assoc,
    List.singleton_append, List.splitOn_append_cons_self]

/-! ## The first and the last separator -/

section Separators

variable [BEq α] [LawfulBEq α] {c : α} {l x y : List α}

theorem splitFirst_eq_none_iff : splitFirst (· == c) l = none ↔ c ∉ l := by
  induction l with
  | nil => simp [splitFirst]
  | cons a l ih =>
    rw [splitFirst, List.mem_cons, not_or]
    by_cases ha : a = c
    · simp [ha]
    · simp [ha, Ne.symm ha, ih]

theorem splitFirst_eq_some_iff : splitFirst (· == c) l = some (x, y) ↔ l = x ++ c :: y ∧ c ∉ x := by
  induction l generalizing x with
  | nil => simp [splitFirst]
  | cons a l ih =>
    rw [splitFirst]
    by_cases ha : a = c
    · subst ha
      cases x with
      | nil => simp [eq_comm]
      | cons b x => simp +contextual [eq_comm]
    · rw [if_neg (by simpa using ha), Option.map_eq_some_iff]
      constructor
      · rintro ⟨⟨x, y⟩, hsplit, heq⟩
        obtain ⟨rfl, rfl⟩ := Prod.mk.inj heq
        obtain ⟨rfl, hx⟩ := ih.1 hsplit
        exact ⟨rfl, by simp [Ne.symm ha, hx]⟩
      · rintro ⟨heq, hx⟩
        cases x with
        | nil => exact absurd (List.cons.inj heq).1 ha
        | cons b x =>
          obtain ⟨rfl, rfl⟩ := List.cons.inj heq
          exact ⟨(x, y), ih.2 ⟨rfl, fun hc => hx (List.mem_cons_of_mem a hc)⟩, rfl⟩

theorem splitLast_eq_none_iff : splitLast (· == c) l = none ↔ c ∉ l := by
  rw [splitLast, Option.map_eq_none_iff, splitFirst_eq_none_iff, List.mem_reverse]

theorem splitLast_eq_some_iff : splitLast (· == c) l = some (x, y) ↔ l = x ++ c :: y ∧ c ∉ y := by
  rw [splitLast, Option.map_eq_some_iff]
  constructor
  · rintro ⟨⟨y', x'⟩, hsplit, heq⟩
    obtain ⟨rfl, rfl⟩ := Prod.mk.inj heq
    obtain ⟨hl, hy⟩ := splitFirst_eq_some_iff.1 hsplit
    rw [List.reverse_eq_iff] at hl
    exact ⟨by simp [hl], by simpa using hy⟩
  · rintro ⟨rfl, hy⟩
    exact ⟨(y.reverse, x.reverse), splitFirst_eq_some_iff.2 ⟨by simp, by simpa using hy⟩, by simp⟩

/-- A list is cut at the last occurrence of a separator in one way only. -/
theorem eq_of_append_cons_eq {x' y' : List α} (h : x ++ c :: y = x' ++ c :: y') (hy : c ∉ y)
    (hy' : c ∉ y') : x = x' ∧ y = y' := by
  have hsplit := splitLast_eq_some_iff.2 ⟨h, hy'⟩
  rw [splitLast_eq_some_iff.2 ⟨rfl, hy⟩] at hsplit
  exact Prod.mk.inj (Option.some.inj hsplit)

end Separators

/-! ## Words -/

theorem mem_intercalate {sep : List α} {ls : List (List α)} {a : α} (h : a ∈ List.intercalate sep ls) :
    a ∈ sep ∨ ∃ l ∈ ls, a ∈ l := by
  induction ls with
  | nil => simp at h
  | cons l ls ih =>
    cases ls with
    | nil =>
      rw [List.intercalate_singleton] at h
      exact Or.inr ⟨l, List.mem_cons_self, h⟩
    | cons l' ls =>
      rw [List.intercalate_cons_cons, List.append_assoc, List.mem_append, List.mem_append] at h
      rcases h with h | h | h
      · exact Or.inr ⟨l, List.mem_cons_self, h⟩
      · exact Or.inl h
      · rcases ih h with hsep | ⟨l'', hl'', ha⟩
        · exact Or.inl hsep
        · exact Or.inr ⟨l'', List.mem_cons_of_mem l hl'', ha⟩

theorem mem_collapse {cs : List Char} {c : Char} (h : c ∈ collapse cs) : c = ' ' ∨ isBlank c = false := by
  rcases mem_intercalate h with hspace | ⟨word, hword, hc⟩
  · exact Or.inl (List.mem_singleton.1 hspace)
  · exact Or.inr (splitWhere_forall cs word (List.mem_filter.1 hword).1 c hc)

end ReferenceSite.Text
