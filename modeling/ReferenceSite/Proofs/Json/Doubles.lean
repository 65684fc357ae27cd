import ReferenceSite.Proofs.Json.Spelling

/-!
# The texts of doubles

A double other than zero has a shortest decimal other than zero (`shortest_ne_zero`), whose digits are laid
out with a point and, for very large and very small numbers, with an exponent. All of these layouts are
spellings of numbers (`exists_spelling`).
-/

namespace ReferenceSite.Binary64

/-! ## The shortest decimal -/

/-- Zero reads back as no other number. -/
theorem ne_zero_of_mem_neighbours {x : Binary64} (hx : x.significand ≠ 0) {place : Int} {d : Nat}
    (hd : d ∈ x.neighbours place) : d ≠ 0 := by
  rintro rfl
  have hread := (List.mem_filter.1 hd).2
  unfold neighbours.readsBack at hread
  dsimp only at hread
  rw [Nat.zero_mul, Nat.zero_mul] at hread
  set scale := Nat.pow 10 (-place).toNat * Nat.pow 2 (x.exponent - 2).toNat
  have hscale : 0 < scale := Nat.mul_pos (Nat.pow_pos (by decide)) (Nat.pow_pos (by decide))
  have hlow : ∀ n ≤ 2, 0 < (4 * x.significand - n) * scale := fun n hn =>
    Nat.mul_pos (by omega) hscale
  have hlow₁ := hlow 1 (by decide)
  have hlow₂ := hlow 2 (by decide)
  split_ifs at hread <;> simp at hread <;> omega

theorem shortestFrom_ne_zero {x : Binary64} (hx : x.significand ≠ 0) (decade : Int) (fuel count : Nat) :
    (x.shortestFrom decade fuel count).1 ≠ 0 := by
  induction fuel generalizing count with
  | zero => exact hx
  | succ fuel ih =>
    unfold shortestFrom
    split
    · next d _ hd => exact ne_zero_of_mem_neighbours hx (hd ▸ List.mem_cons_self)
    · exact ih (count + 1)

theorem dropZeros_ne_zero {d : Nat × Int} (h : d.1 ≠ 0) (fuel : Nat) : (dropZeros fuel d).1 ≠ 0 := by
  induction fuel generalizing d with
  | zero => exact h
  | succ fuel ih =>
    unfold dropZeros
    split_ifs with hzero
    · have hzero' : d.1 % 10 = 0 := by simpa [h] using hzero
      exact ih (by dsimp only; omega)
    · exact h

theorem shortest_ne_zero {x : Binary64} (hx : x.significand ≠ 0) : x.shortest.1 ≠ 0 :=
  dropZeros_ne_zero (shortestFrom_ne_zero hx _ _ _) _

/-! ## The text -/

theorem toList_sign (negative : Bool) : (if negative then "-" else "").toList =
    if negative then ['-'] else [] := by
  cases negative <;> rfl

/-- The digits of a decimal other than zero, continued by digits. -/
theorem isInteger_append {d : Nat} (hd : d ≠ 0) {more : List Char} (h : ∀ c ∈ more, c.isDigit = true) :
    Json.IsInteger (Nat.toDigits 10 d ++ more) := by
  refine ⟨List.forall_mem_append.2 ⟨Text.isDigit_of_mem_toDigits, h⟩, by simp, Or.inr ?_⟩
  rw [List.head?_append_of_ne_nil _ Nat.toDigits_ne_nil]
  exact Json.head?_toDigits_ne_zero (Nat.pos_of_ne_zero hd)

/-- A first part of the digits of a decimal other than zero. -/
theorem isInteger_take {d : Nat} (hd : d ≠ 0) {n : Nat} (hn : 0 < n) :
    Json.IsInteger ((Nat.toDigits 10 d).take n) := by
  have hhead := Json.head?_toDigits_ne_zero (Nat.pos_of_ne_zero hd)
  refine ⟨fun c hc => Text.isDigit_of_mem_toDigits c (List.mem_of_mem_take hc), ?_, Or.inr ?_⟩
  · simp [Nat.ne_of_gt hn]
  · rwa [List.head?_take, if_neg (Nat.ne_of_gt hn)]

theorem isDigit_of_mem_replicate (n : Nat) : ∀ c ∈ List.replicate n '0', c.isDigit = true := by
  intro c hc
  rw [List.eq_of_mem_replicate hc]
  rfl

/-- The first digit of a decimal other than zero before the point, the others behind it, and an exponent. -/
theorem valid_scientific {d : Nat} (hd : d ≠ 0) {c : Char} {cs : List Char}
    (hcs : Nat.toDigits 10 d = c :: cs) (negative minus : Bool) (e : Nat) :
    Json.Spelling.Valid { negative, digits := [c], fraction := cs,
                          exponent := some (minus, Nat.toDigits 10 e) } := by
  have hfirst := isInteger_take hd Nat.one_pos
  rw [hcs] at hfirst
  refine ⟨hfirst, fun a ha => Text.isDigit_of_mem_toDigits (n := d) a ?_, fun p hp => ?_⟩
  · rw [hcs]
    exact List.mem_cons_of_mem _ ha
  · cases hp
    exact ⟨Nat.toDigits_ne_nil, Text.isDigit_of_mem_toDigits⟩

open Json Json.Spelling in
/-- A double is printed with digits, a fraction and an exponent of the right form. -/
theorem exists_spelling (x : Binary64) : ∃ s : Spelling, s.Valid ∧ x.toText.toList = s.text := by
  -- the spelling has the sign of the double, so only what is behind the sign matters
  suffices ∃ digits fraction exponent,
      Valid { negative := x.negative, digits, fraction, exponent } ∧
        x.toText.toList = (if x.negative then ['-'] else []) ++
          (digits ++ (fractionText fraction ++ exponentText exponent)) by
    obtain ⟨digits, fraction, exponent, hvalid, htext⟩ := this
    exact ⟨_, hvalid, htext⟩
  unfold toText
  cases hx : x.significand == 0 with
  | true =>
    refine ⟨['0'], ['0'], none, ⟨isInteger_zero, isDigit_of_mem_replicate 1, by simp⟩, ?_⟩
    rw [if_pos rfl, String.toList_append, toList_sign]
    rfl
  | false =>
    have hne : x.shortest.1 ≠ 0 := shortest_ne_zero (ne_of_beq_false hx)
    generalize x.shortest = decimal at hne
    obtain ⟨d, place⟩ := decimal
    have hd : d ≠ 0 := hne
    rw [if_neg Bool.false_ne_true]
    simp only [String.toList_append, toList_sign, String.toList_ofList, Bool.and_eq_true,
      decide_eq_true_eq]
    generalize (if x.negative = true then ['-'] else []) = sign
    have hdigit := Text.isDigit_of_mem_toDigits (n := d)
    set point : Int := (Nat.toDigits 10 d).length + place with hpoint
    split_ifs with hinteger hfixed hsmall hexponent
    · refine ⟨Nat.toDigits 10 d ++ List.replicate place.toNat '0', ['0'], none,
        ⟨isInteger_append hd (isDigit_of_mem_replicate _), isDigit_of_mem_replicate 1, by simp⟩, ?_⟩
      rfl
    · -- the last place is behind the point, so some of the digits are
      have hdrop : (Nat.toDigits 10 d).drop point.toNat ≠ [] := by
        rw [Ne, List.drop_eq_nil_iff]
        omega
      refine ⟨(Nat.toDigits 10 d).take point.toNat, (Nat.toDigits 10 d).drop point.toNat, none,
        ⟨isInteger_take hd (by omega), fun c hc => hdigit c (List.mem_of_mem_drop hc), by simp⟩, ?_⟩
      rw [fractionText_of_ne_nil hdrop, exponentText, List.append_nil]
    · refine ⟨['0'], List.replicate (-point).toNat '0' ++ Nat.toDigits 10 d, none, ⟨isInteger_zero,
        List.forall_mem_append.2 ⟨isDigit_of_mem_replicate _, hdigit⟩, by simp⟩, ?_⟩
      rw [fractionText_of_ne_nil (by simp), exponentText, List.append_nil]
      rfl
    all_goals
      obtain ⟨c, cs, hcs⟩ := List.exists_cons_of_ne_nil (Nat.toDigits_ne_nil (n := d) (b := 10))
      rw [hcs]
    · refine ⟨[c], cs, some (true, Nat.toDigits 10 (point - 1).natAbs),
        valid_scientific hd hcs x.negative true _, ?_⟩
      cases cs <;> simp [fractionText, exponentText]
    · refine ⟨[c], cs, some (false, Nat.toDigits 10 (point - 1).natAbs),
        valid_scientific hd hcs x.negative false _, ?_⟩
      cases cs <;> simp [fractionText, exponentText]

end ReferenceSite.Binary64
