import Mathlib.Data.List.DropRight
import ReferenceSite.Text.Blank

/-!
# Trimming

Trimming takes blank characters from both ends of a text (`exists_trim`) until none stands there
(`isTrimmed_trim`), and it changes nothing where none stands (`IsTrimmed.trim_eq`). Nothing is left exactly of
texts that have no other characters (`trim_eq_nil_iff`).
-/

namespace ReferenceSite.Text

section Lists

variable {α : Type} {p : α → Bool} {l : List α} {a : α}

theorem dropEndWhile_eq_rdropWhile (p : α → Bool) (l : List α) : dropEndWhile p l = l.rdropWhile p :=
  rfl

theorem dropEndWhile_eq_self (h : ∀ a, l.getLast? = some a → p a = false) : dropEndWhile p l = l := by
  rw [dropEndWhile_eq_rdropWhile, List.rdropWhile_eq_self_iff]
  intro hne
  simp [h _ (List.getLast?_eq_some_getLast hne)]

theorem dropWhile_eq_self (h : ∀ a, l.head? = some a → p a = false) : l.dropWhile p = l := by
  cases l with
  | nil => rfl
  | cons a l => rw [List.dropWhile_cons_of_neg (by simp [h a rfl])]

theorem head?_dropWhile (h : (l.dropWhile p).head? = some a) : p a = false := by
  have := List.head?_dropWhile_not p l
  rwa [h] at this

theorem getLast?_dropEndWhile (h : (dropEndWhile p l).getLast? = some a) : p a = false := by
  rw [dropEndWhile, List.getLast?_reverse] at h
  exact head?_dropWhile h

end Lists

/-- No blank character stands at an end of a text. -/
structure IsTrimmed (cs : List Char) : Prop where
  front : ∀ c, cs.head? = some c → isBlank c = false
  back : ∀ c, cs.getLast? = some c → isBlank c = false

variable {cs : List Char}

theorem IsTrimmed.trim_eq (h : IsTrimmed cs) : trim cs = cs := by
  rw [trim, dropWhile_eq_self h.front, trimEnd, dropEndWhile_eq_self h.back]

theorem isTrimmed_trim (cs : List Char) : IsTrimmed (trim cs) where
  front := by
    intro c h
    obtain ⟨back, hback⟩ := List.rdropWhile_prefix isBlank (cs.dropWhile isBlank)
    rw [trim, trimEnd, dropEndWhile_eq_rdropWhile] at h
    refine head?_dropWhile (l := cs) ?_
    rw [← hback, List.head?_append, h, Option.some_or]
  back := fun _ h => getLast?_dropEndWhile h

/-- What is trimmed off is blank. -/
theorem exists_blank_ends (cs : List Char) : ∃ front back, cs = front ++ trim cs ++ back ∧
    (∀ c ∈ front, isBlank c = true) ∧ ∀ c ∈ back, isBlank c = true := by
  refine ⟨cs.takeWhile isBlank, (cs.dropWhile isBlank).rtakeWhile isBlank, ?_,
    fun _ => List.mem_takeWhile_imp, fun _ => List.mem_rtakeWhile_imp⟩
  rw [trim, trimEnd, dropEndWhile_eq_rdropWhile, List.append_assoc, List.rdropWhile_append_rtakeWhile,
    List.takeWhile_append_dropWhile]

/-- What is trimmed off the end is blank. -/
theorem exists_trim (cs : List Char) :
    ∃ front back, cs = front ++ trim cs ++ back ∧ ∀ c ∈ back, isBlank c = true := by
  obtain ⟨front, back, hends, -, hback⟩ := exists_blank_ends cs
  exact ⟨front, back, hends, hback⟩

/-- A trimmed text is blank only if it is empty. -/
theorem IsTrimmed.eq_nil (h : IsTrimmed cs) (hblank : ∀ c ∈ cs, isBlank c = true) : cs = [] := by
  cases cs with
  | nil => rfl
  | cons c cs =>
    have hfront := h.front c rfl
    rw [hblank c List.mem_cons_self] at hfront
    cases hfront

theorem trim_eq_nil_iff : trim cs = [] ↔ ∀ c ∈ cs, isBlank c = true := by
  obtain ⟨front, back, hends, hfront, hback⟩ := exists_blank_ends cs
  constructor
  · intro h c hc
    rw [hends, h, List.append_nil] at hc
    rcases List.mem_append.1 hc with hc | hc
    · exact hfront c hc
    · exact hback c hc
  · intro h
    apply (isTrimmed_trim cs).eq_nil
    intro c hc
    apply h
    rw [hends]
    exact List.mem_append_left _ (List.mem_append_right _ hc)

/-! ## Blank texts -/

variable {s t : String}

theorem isBlankText_iff : isBlankText s = true ↔ ∀ c ∈ s.toList, isBlank c = true := List.all_eq_true

theorem isBlankText_append : isBlankText (s ++ t) = true ↔ isBlankText s = true ∧ isBlankText t = true := by
  rw [isBlankText_iff, isBlankText_iff, isBlankText_iff, String.toList_append, List.forall_mem_append]

end ReferenceSite.Text
