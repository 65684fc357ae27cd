import Mathlib.Data.List.Chain
import ReferenceSite.Proofs.Text.Split
import ReferenceSite.Proofs.Text.Trim

/-!
# The words of a text

Collapsing a text leaves its words with one space between neighbours, so no blank character stands at an end and
no two of them stand side by side (`isSpaced_collapse`). Cutting such a text off behind a character that is not
blank leaves another one (`IsSpaced.of_append`).
-/

namespace ReferenceSite.Text

/-- At least one of two characters is not blank. -/
def Apart (c d : Char) : Prop := ¬ (isBlank c = true ∧ isBlank d = true)

/-- Every blank character stands alone between two characters that are not blank. -/
structure IsSpaced (cs : List Char) : Prop extends IsTrimmed cs where
  apart : cs.IsChain Apart

variable {cs ds : List Char} {c d : Char}

theorem apart_of_left (h : isBlank c = false) (d : Char) : Apart c d := by
  rintro ⟨hblank, -⟩
  rw [h] at hblank
  cases hblank

theorem apart_of_right (c : Char) (h : isBlank d = false) : Apart c d := by
  rintro ⟨-, hblank⟩
  rw [h] at hblank
  cases hblank

theorem isSpaced_of_forall (h : ∀ c ∈ cs, isBlank c = false) : IsSpaced cs := by
  refine ⟨⟨fun c hc => h c (List.mem_of_mem_head? hc), fun c hc => h c (List.mem_of_mem_getLast? hc)⟩, ?_⟩
  exact List.Pairwise.isChain (List.pairwise_of_forall_mem_list fun c hc d _ => apart_of_left (h c hc) d)

/-- Anything may follow behind a character that is not blank. -/
theorem IsSpaced.isChain_append (h : IsSpaced cs) (h' : ds.IsChain Apart) : (cs ++ ds).IsChain Apart :=
  List.isChain_append.2 ⟨h.apart, h', fun c hc d _ => apart_of_left (h.back c hc) d⟩

theorem IsSpaced.append_space (h : IsSpaced cs) (h' : IsSpaced ds) (hne : cs ≠ []) (hne' : ds ≠ []) :
    IsSpaced (cs ++ [' '] ++ ds) := by
  obtain ⟨c, cs, rfl⟩ := List.exists_cons_of_ne_nil hne
  obtain ⟨d, ds, rfl⟩ := List.exists_cons_of_ne_nil hne'
  have hrest : (' ' :: d :: ds).IsChain Apart :=
    List.isChain_cons_cons.2 ⟨apart_of_right ' ' (h'.front d rfl), h'.apart⟩
  refine ⟨⟨fun e he => h.front e he, fun e he => h'.back e ?_⟩, ?_⟩
  · rwa [List.getLast?_append_of_ne_nil _ hne'] at he
  · rw [List.append_assoc, List.singleton_append]
    exact h.isChain_append hrest

/-- Words with spaces between them. -/
theorem isSpaced_intercalate {ws : List (List Char)} (h : ∀ w ∈ ws, w ≠ [] ∧ ∀ c ∈ w, isBlank c = false) :
    IsSpaced (List.intercalate [' '] ws) := by
  induction ws with
  | nil => exact isSpaced_of_forall (by simp)
  | cons w ws ih =>
    rw [List.forall_mem_cons] at h
    obtain ⟨⟨hne, hw⟩, hws⟩ := h
    cases ws with
    | nil =>
      rw [List.intercalate_singleton]
      exact isSpaced_of_forall hw
    | cons w' ws =>
      have hrest : List.intercalate [' '] (w' :: ws) ≠ [] := by
        obtain ⟨c, cs, hcs⟩ := List.exists_cons_of_ne_nil (hws w' List.mem_cons_self).1
        cases ws with
        | nil => rw [List.intercalate_singleton, hcs]; exact List.cons_ne_nil _ _
        | cons w'' ws => rw [List.intercalate_cons_cons, hcs]; exact List.cons_ne_nil _ _
      rw [List.intercalate_cons_cons]
      exact (isSpaced_of_forall hw).append_space (ih hws) hne hrest

theorem isSpaced_collapse (cs : List Char) : IsSpaced (collapse cs) := by
  refine isSpaced_intercalate fun w hw => ?_
  obtain ⟨hpiece, hne⟩ := List.mem_filter.1 hw
  exact ⟨by simpa using hne, splitWhere_forall cs w hpiece⟩

/-- What is left of a spaced text if it is cut off behind a character that is not blank. -/
theorem IsSpaced.of_append (h : IsSpaced (cs ++ ds)) (hback : ∀ c, cs.getLast? = some c → isBlank c = false) :
    IsSpaced cs := by
  refine ⟨⟨fun c hc => h.front c ?_, hback⟩, (List.isChain_append.1 h.apart).1⟩
  rw [List.head?_append, hc, Option.some_or]

theorem IsSpaced.concat (h : IsSpaced cs) (hc : isBlank c = false) : IsSpaced (cs ++ [c]) := by
  have hlast : IsSpaced [c] := isSpaced_of_forall (by simpa using hc)
  refine ⟨⟨fun d hd => ?_, fun d hd => ?_⟩, h.isChain_append hlast.apart⟩
  · cases cs with
    | nil => exact hlast.front d hd
    | cons e cs => exact h.front d hd
  · rw [List.getLast?_concat] at hd
    rw [← Option.some.inj hd, hc]

/-! ## The end of a text -/

/-- What is trimmed off the end is blank, and what is left does not end in a blank character. -/
theorem exists_trimEnd (cs : List Char) : ∃ blanks, cs = trimEnd cs ++ blanks ∧
    (∀ c ∈ blanks, isBlank c = true) ∧ ∀ c, (trimEnd cs).getLast? = some c → isBlank c = false := by
  refine ⟨cs.rtakeWhile isBlank, ?_, fun _ => List.mem_rtakeWhile_imp, fun _ => getLast?_dropEndWhile⟩
  rw [trimEnd, dropEndWhile_eq_rdropWhile, List.rdropWhile_append_rtakeWhile]

end ReferenceSite.Text
