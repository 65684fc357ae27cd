import Mathlib.Data.List.Basic
import Mathlib.Tactic.SplitIfs
import ReferenceSite.Json.Reader
import ReferenceSite.Proofs.Text.Digits

/-!
# The grammar of numbers

The text of a number consists of a sign, digits, a fraction and an exponent (`Spelling`). A number that is
spelled in this way is read to the end of its spelling, if what follows does not go on with it, and what is
read does not depend on what follows (`Spelling.Valid.readNumber_text`).
-/

namespace ReferenceSite.Json

open Text

/-! ## Digits -/

/-- No number goes on in what follows. -/
def Ends (rest : List Char) : Prop :=
  ∀ c ∈ rest.head?, c.isDigit = false ∧ c ≠ '.' ∧ c ≠ 'e' ∧ c ≠ 'E'

/-- Digits as the reader of an integer takes them: at least one, and the first is no zero unless it is the
only one. -/
structure IsInteger (digits : List Char) : Prop where
  digit : ∀ c ∈ digits, c.isDigit = true
  ne_nil : digits ≠ []
  leading : digits = ['0'] ∨ digits.head? ≠ some '0'

theorem Ends.noDigit {rest : List Char} (h : Ends rest) : NoDigit rest := fun c hc => (h c hc).1

theorem readDigits_append {digits rest : List Char} (h : IsInteger digits) (hrest : NoDigit rest) :
    readDigits (digits ++ rest) = some (digits, rest) := by
  rcases h.leading with rfl | hhead
  · cases rest with
    | nil => rfl
    | cons c rest => simp [readDigits, hrest c rfl]
  · obtain ⟨htake, hdrop⟩ := span_digits h.digit hrest
    cases digits with
    | nil => exact absurd rfl h.ne_nil
    | cons c digits =>
      have hc : c ≠ '0' := by simpa using hhead
      have hdigit := h.digit c List.mem_cons_self
      rw [List.cons_append] at htake hdrop ⊢
      unfold readDigits
      split
      · next heq => exact absurd (List.cons.inj heq).1 hc
      · next heq => exact absurd (List.cons.inj heq).1 hc
      · next heq =>
        obtain ⟨rfl, rfl⟩ := List.cons.inj heq
        rw [if_pos hdigit, htake, hdrop]
      · next heq => cases heq

theorem head?_toDigits_ne_zero {n : Nat} (h : 0 < n) : (Nat.toDigits 10 n).head? ≠ some '0' := by
  induction n using Nat.strongRecOn with
  | _ n ih =>
    rw [Nat.toDigits_eq_if (by decide)]
    split_ifs with hlt
    · simp
      omega
    · rw [List.head?_append_of_ne_nil _ Nat.toDigits_ne_nil]
      exact ih (n / 10) (by omega) (by omega)

theorem isInteger_toDigits (n : Nat) : IsInteger (Nat.toDigits 10 n) := by
  refine ⟨isDigit_of_mem_toDigits, Nat.toDigits_ne_nil, ?_⟩
  rcases Nat.eq_zero_or_pos n with rfl | hpos
  · exact Or.inl (Nat.toDigits_zero 10)
  · exact Or.inr (head?_toDigits_ne_zero hpos)

theorem isInteger_zero : IsInteger ['0'] := isInteger_toDigits 0

/-! ## Spellings -/

/-- The parts of the text of a number. -/
structure Spelling where
  /-- Whether there is a minus sign. -/
  negative : Bool := false
  /-- The digits before the point. -/
  digits : List Char
  /-- The digits behind the point; without any there is no point. -/
  fraction : List Char := []
  /-- Whether the exponent has a minus sign, and its digits. -/
  exponent : Option (Bool × List Char) := none

namespace Spelling

/-- The point and what is behind it. -/
def fractionText : List Char → List Char
  | [] => []
  | ds => '.' :: ds

/-- The exponent, which always has a sign. -/
def exponentText : Option (Bool × List Char) → List Char
  | none => []
  | some (negative, ds) => 'e' :: (if negative then '-' else '+') :: ds

/-- The text behind the sign. -/
def body (s : Spelling) : List Char :=
  s.digits ++ (fractionText s.fraction ++ exponentText s.exponent)

/-- The text. -/
def text (s : Spelling) : List Char := (if s.negative then ['-'] else []) ++ s.body

/-- The exponent as a number. -/
def exponentValue : Bool × List Char → Int
  | (negative, ds) =>
    let n : Int := ds.foldl (fun n d => n * 10 + (d.toNat - 48)) (0 : Nat)
    if negative then -n else n

/-- What the text is read as. -/
def value (s : Spelling) : Json :=
  match numberOf? s.negative s.digits s.fraction (s.exponent.map exponentValue) with
  | some n => .num n
  | none => .unreadable

/-- The parts are of the form that the grammar asks for. -/
structure Valid (s : Spelling) : Prop where
  digits : IsInteger s.digits
  fraction : ∀ c ∈ s.fraction, c.isDigit = true
  exponent : ∀ e ∈ s.exponent, e.2 ≠ [] ∧ ∀ c ∈ e.2, c.isDigit = true

variable {s : Spelling} {rest : List Char}

theorem fractionText_of_ne_nil {ds : List Char} (h : ds ≠ []) : fractionText ds = '.' :: ds := by
  cases ds with
  | nil => exact absurd rfl h
  | cons d ds => rfl

theorem readExponent_append {e : Option (Bool × List Char)}
    (he : ∀ p ∈ e, p.2 ≠ [] ∧ ∀ c ∈ p.2, c.isDigit = true) (h : Ends rest) :
    readExponent (exponentText e ++ rest) = some (e.map exponentValue, rest) := by
  cases e with
  | none =>
    cases rest with
    | nil => rfl
    | cons c rest =>
      obtain ⟨-, -, hlower, hupper⟩ := h c rfl
      simp [exponentText, readExponent, hlower, hupper]
  | some p =>
    obtain ⟨negative, ds⟩ := p
    obtain ⟨hne, hdigits⟩ : ds ≠ [] ∧ ∀ c ∈ ds, c.isDigit = true := he _ rfl
    obtain ⟨htake, hdrop⟩ := span_digits hdigits h.noDigit
    cases ds with
    | nil => exact absurd rfl hne
    | cons d ds =>
      rw [List.cons_append] at htake hdrop
      cases negative <;> simp [exponentText, readExponent, htake, hdrop, exponentValue]

theorem readFraction_append {fraction after : List Char} (h : ∀ c ∈ fraction, c.isDigit = true)
    (hdigit : NoDigit after) (hpoint : ∀ c ∈ after.head?, c ≠ '.') :
    readFraction (fractionText fraction ++ after) = some (fraction, after) := by
  cases fraction with
  | nil =>
    rw [fractionText, List.nil_append]
    unfold readFraction
    split
    · exact absurd rfl (hpoint '.' rfl)
    · rfl
  | cons d ds =>
    obtain ⟨htake, hdrop⟩ := span_digits h hdigit
    rw [fractionText_of_ne_nil (List.cons_ne_nil d ds), List.cons_append]
    simp only [readFraction, htake, hdrop]

/-- An exponent or the end goes on with neither the digits nor the fraction. -/
theorem head?_exponentText_append {e : Option (Bool × List Char)} (h : Ends rest) :
    ∀ c ∈ (exponentText e ++ rest).head?, c.isDigit = false ∧ c ≠ '.' := by
  intro c hc
  cases e with
  | none => exact ⟨(h c hc).1, (h c hc).2.1⟩
  | some p =>
    cases hc
    decide

theorem noDigit_fractionText_append (fraction : List Char) {after : List Char} (h : NoDigit after) :
    NoDigit (fractionText fraction ++ after) := by
  cases fraction with
  | nil => exact h
  | cons d ds =>
    intro c hc
    cases hc
    rfl

/-- Read a number behind its sign. -/
def readBody (negative : Bool) (cs : List Char) : Option (Json × List Char) := do
  let (digits, cs) ← readDigits cs
  let (fraction, cs) ← readFraction cs
  let (exponent, cs) ← readExponent cs
  match numberOf? negative digits fraction exponent with
  | some n => return (.num n, cs)
  | none => return (.unreadable, cs)

theorem readNumber_minus (cs : List Char) : readNumber ('-' :: cs) = readBody true cs := rfl

theorem readNumber_of_ne_minus {c : Char} (h : c ≠ '-') (cs : List Char) :
    readNumber (c :: cs) = readBody false (c :: cs) := by
  unfold readNumber
  split
  next hsign =>
    split at hsign
    · next heq => exact absurd (List.cons.inj heq).1 h
    · cases hsign
      rfl

theorem Valid.readBody_body (hs : s.Valid) (h : Ends rest) :
    readBody s.negative (s.body ++ rest) = some (s.value, rest) := by
  have hafter := head?_exponentText_append (e := s.exponent) h
  have hnodigit : NoDigit (exponentText s.exponent ++ rest) := fun c hc => (hafter c hc).1
  have hexponent := readExponent_append hs.exponent h
  have hfraction := readFraction_append hs.fraction hnodigit fun c hc => (hafter c hc).2
  have hdigits := readDigits_append hs.digits (noDigit_fractionText_append s.fraction hnodigit)
  rw [body, List.append_assoc, List.append_assoc]
  simp only [readBody, hdigits, hfraction, hexponent, Option.bind_eq_bind, Option.bind_some, value]
  split <;> rfl

theorem Valid.exists_body_eq_cons (hs : s.Valid) : ∃ c cs, s.body = c :: cs ∧ c.isDigit = true := by
  cases hd : s.digits with
  | nil => exact absurd hd hs.digits.ne_nil
  | cons c ds =>
    refine ⟨c, ds ++ (fractionText s.fraction ++ exponentText s.exponent), by rw [body, hd]; rfl,
      hs.digits.digit c ?_⟩
    rw [hd]
    exact List.mem_cons_self

/-- The text starts with its sign or with a digit. -/
theorem Valid.exists_text_eq_cons (hs : s.Valid) :
    ∃ c cs, s.text = c :: cs ∧ (c.isDigit = true ∨ c = '-') := by
  cases hsign : s.negative with
  | true => exact ⟨'-', s.body, by rw [text, hsign]; rfl, Or.inr rfl⟩
  | false =>
    obtain ⟨c, cs, hbody, hc⟩ := hs.exists_body_eq_cons
    exact ⟨c, cs, by rw [text, hsign, hbody]; rfl, Or.inl hc⟩

/-- A spelled number is read to its end, whatever follows that does not go on with it. -/
theorem Valid.readNumber_text (hs : s.Valid) (h : Ends rest) :
    readNumber (s.text ++ rest) = some (s.value, rest) := by
  have hread := hs.readBody_body h
  cases hsign : s.negative with
  | true =>
    rw [hsign] at hread
    rw [text, hsign, if_pos rfl, List.singleton_append, List.cons_append, readNumber_minus, hread]
  | false =>
    obtain ⟨c, cs, hbody, hc⟩ := hs.exists_body_eq_cons
    have hminus : c ≠ '-' := by
      rintro rfl
      cases hc
    rw [hsign, hbody] at hread
    rw [text, hsign, if_neg Bool.false_ne_true, List.nil_append, hbody, List.cons_append,
      readNumber_of_ne_minus hminus, ← List.cons_append, hread]

end Spelling

end ReferenceSite.Json
