import Mathlib.Data.List.Basic

/-!
# Decimal digits

The digits of a number are followed by a character that is no digit, or they stand at the end. So they can be
told from what follows (`span_digits`), and a number that is written before such a text is determined by what is
written (`toDigits_append_inj`).
-/

namespace ReferenceSite.Text

variable {n n' : Nat} {digits rest rest' : List Char}

/-- No digit stands in front. -/
def NoDigit (rest : List Char) : Prop := ∀ c ∈ rest.head?, c.isDigit = false

theorem isDigit_of_mem_toDigits : ∀ c ∈ Nat.toDigits 10 n, c.isDigit = true := fun _ hc =>
  Nat.isDigit_of_mem_toDigits (by decide) (by decide) hc

theorem toDigits_injective : Function.Injective (Nat.toDigits 10) := by
  intro n n' h
  rw [← Nat.ofDigitChars_ten_toDigits (n := n), h, Nat.ofDigitChars_ten_toDigits]

theorem span_digits (h : ∀ c ∈ digits, c.isDigit = true) (hrest : NoDigit rest) :
    (digits ++ rest).takeWhile Char.isDigit = digits ∧ (digits ++ rest).dropWhile Char.isDigit = rest := by
  rw [List.takeWhile_append_of_pos h, List.dropWhile_append_of_pos h]
  cases rest with
  | nil => simp
  | cons c rest =>
    have hc := hrest c rfl
    simp [hc]

theorem toDigits_append_inj (hrest : NoDigit rest) (hrest' : NoDigit rest')
    (h : Nat.toDigits 10 n ++ rest = Nat.toDigits 10 n' ++ rest') : n = n' ∧ rest = rest' := by
  obtain ⟨htake, hdrop⟩ := span_digits isDigit_of_mem_toDigits hrest
  obtain ⟨htake', hdrop'⟩ := span_digits isDigit_of_mem_toDigits hrest'
  rw [h] at htake hdrop
  exact ⟨toDigits_injective (htake.symm.trans htake'), hdrop.symm.trans hdrop'⟩

end ReferenceSite.Text
