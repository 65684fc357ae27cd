import ReferenceSite.Json.Printer
import ReferenceSite.Proofs.Json.Doubles
import ReferenceSite.Proofs.Json.Parts

/-!
# Reading printed numbers

Every number is printed with digits, a fraction and an exponent of the right form (`Number.exists_spelling`),
so its text is read to its end. An integer is read as itself (`Number.reread_of_integer`). A double need not
be: its text is the shortest one that is nearer to it than to any other double, but the reader rounds twice.
-/

namespace ReferenceSite.Json

/-! ## Integers -/

theorem le_ofDigitChars (n : Nat) (digits : List Char) : n ≤ Nat.ofDigitChars 10 digits n := by
  rw [Nat.ofDigitChars_eq_ofDigitChars_zero]
  have hpow : 0 < 10 ^ digits.length := Nat.pow_pos (by decide)
  have := Nat.le_mul_of_pos_left n hpow
  omega

/-- Digits are taken into the significand as long as the number fits 64 bits. -/
theorem absorb_of_le {n : Nat} {digits : List Char}
    (h : Nat.ofDigitChars 10 digits n ≤ maxNatural) :
    absorb n digits = (Nat.ofDigitChars 10 digits n, []) := by
  induction digits generalizing n with
  | nil => simp [absorb]
  | cons d digits ih =>
    rw [Nat.ofDigitChars_cons, Nat.mul_comm] at h ⊢
    have hle := le_ofDigitChars (n * 10 + (d.toNat - '0'.toNat)) digits
    unfold absorb
    dsimp only
    rw [show 48 = '0'.toNat from rfl, if_neg (Nat.not_lt.2 (Nat.le_trans hle h))]
    exact ih h

theorem absorb_toDigits {n : Nat} (h : n ≤ maxNatural) :
    absorb 0 (Nat.toDigits 10 n) = (n, []) := by
  rw [absorb_of_le (by rwa [Nat.ofDigitChars_ten_toDigits]), Nat.ofDigitChars_ten_toDigits]

/-- The spelling of an integer. -/
def integerSpelling (negative : Bool) (n : Nat) : Spelling where
  negative
  digits := Nat.toDigits 10 n

theorem valid_integerSpelling (negative : Bool) (n : Nat) : (integerSpelling negative n).Valid :=
  ⟨isInteger_toDigits n, by simp [integerSpelling], by simp [integerSpelling]⟩

/-- An integer in its range is spelled by its digits, which have its value. -/
theorem Number.integer_spelling {n : Number} (hrange : n.InRange) (hinteger : ∀ x, n ≠ .double x) :
    ∃ negative m, n.toText.toList = (integerSpelling negative m).text ∧
      (integerSpelling negative m).value = .num n := by
  cases n with
  | natural n =>
    refine ⟨false, n, by simp [Number.toText, integerSpelling, Spelling.text, Spelling.body,
      Spelling.fractionText, Spelling.exponentText], ?_⟩
    have hvalue : numberOf? false (Nat.toDigits 10 n) [] none = some (.natural n) := by
      simp [numberOf?, absorb_toDigits (Nat.le_pred_of_lt hrange)]
    simp [Spelling.value, integerSpelling, hvalue]
  | negative n =>
    obtain ⟨hpos, hle⟩ := hrange
    refine ⟨true, n, by simp [Number.toText, integerSpelling, Spelling.text, Spelling.body,
      Spelling.fractionText, Spelling.exponentText], ?_⟩
    have hmax : n ≤ maxNatural := Nat.le_trans hle (by decide)
    have hvalue : numberOf? true (Nat.toDigits 10 n) [] none = some (.negative n) := by
      have hfits : n ≤ 9223372036854775808 := hle
      simp [numberOf?, absorb_toDigits hmax, hpos, hfits]
    simp [Spelling.value, integerSpelling, hvalue]
  | double x => exact absurd rfl (hinteger x)

/-! ## Printed numbers -/

/-- The value that the text of a number is read as. -/
def Number.reread (n : Number) : Json := ((readNumber n.toText.toList).map Prod.fst).getD .unreadable

/-- A number is printed with digits, a fraction and an exponent of the right form. -/
theorem Number.exists_spelling {n : Number} (h : n.InRange) :
    ∃ s : Spelling, s.Valid ∧ n.toText.toList = s.text := by
  by_cases hinteger : ∀ x, n ≠ .double x
  · obtain ⟨negative, m, htext, -⟩ := n.integer_spelling h hinteger
    exact ⟨_, valid_integerSpelling negative m, htext⟩
  · push Not at hinteger
    obtain ⟨x, rfl⟩ := hinteger
    exact x.exists_spelling

theorem ends_nil : Ends [] := by
  intro c hc
  cases hc

theorem Number.reread_of_text {n : Number} {s : Spelling} (hs : s.Valid)
    (htext : n.toText.toList = s.text) : n.reread = s.value := by
  have hread := hs.readNumber_text ends_nil
  rw [List.append_nil] at hread
  rw [reread, htext, hread]
  rfl

/-- A printed number is read to its end. -/
theorem Number.readNumber_toText {n : Number} (hrange : n.InRange) {rest : List Char} (h : Ends rest) :
    readNumber (n.toText.toList ++ rest) = some (n.reread, rest) := by
  obtain ⟨s, hs, htext⟩ := n.exists_spelling hrange
  rw [htext, hs.readNumber_text h, n.reread_of_text hs htext]

/-- A printed integer is read back. -/
theorem Number.reread_of_integer {n : Number} (hrange : n.InRange) (hinteger : ∀ x, n ≠ .double x) :
    n.reread = .num n := by
  obtain ⟨negative, m, htext, hvalue⟩ := n.integer_spelling hrange hinteger
  rw [n.reread_of_text (valid_integerSpelling negative m) htext, hvalue]

-- the double that `1.20e120` is read as is printed as `1.2e+120`, which is read as a smaller one
example : ((Number.double ⟨false, 8371489682243225, 346⟩).reread ==
    .num (.double ⟨false, 8371489682243225, 346⟩)) = false := by decide +kernel

end ReferenceSite.Json
