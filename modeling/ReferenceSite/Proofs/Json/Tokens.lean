import Mathlib.Tactic.SplitIfs
import ReferenceSite.Json.Printer
import ReferenceSite.Json.Reader
import ReferenceSite.Proofs.Json.Parts

/-!
# Reading printed strings

A string that was printed is read back, whatever follows it (`readString_stringText`).
-/

namespace ReferenceSite.Json

theorem readHex4_append {cs rest : List Char} {n : Nat} (h : readHex4 cs = some (n, [])) :
    readHex4 (cs ++ rest) = some (n, rest) := by
  unfold readHex4 at h
  split at h
  · next a b c d tail =>
    simp only [Option.bind_eq_bind, Option.bind_eq_some_iff] at h
    obtain ⟨a', ha, b', hb, c', hc, d', hd, h⟩ := h
    cases h
    simp [readHex4, ha, hb, hc, hd]
  · cases h

theorem readHex4_hexPadded {n : Nat} (h : n < 0x20) (rest : List Char) :
    readHex4 (Text.hexPadded 4 n ++ rest) = some (n, rest) := by
  have hall : ∀ n < 0x20, readHex4 (Text.hexPadded 4 n) = some (n, []) := by decide
  exact readHex4_append (hall n h)

/-- A printed character is read as its code point. -/
theorem readCodes_escapeChar (c : Char) (fuel : Nat) (read : List Nat) (rest : List Char) :
    readCodes (fuel + 1) read (escapeChar c ++ rest) = readCodes fuel (c.toNat :: read) rest := by
  unfold escapeChar
  split
  case h_8 hquote hbackslash _ _ _ _ _ =>
    split_ifs with hcontrol
    · simp [readCodes, readHex4_hexPadded hcontrol]
    · have hquote : c.toNat ≠ 0x22 := hquote
      have hbackslash : c.toNat ≠ 0x5C := hbackslash
      simp [readCodes, hquote, hbackslash, hcontrol]
  all_goals
    next hcode =>
      rw [hcode]
      simp [readCodes, escaped?]

/-- The characters of a printed string are read as their code points. -/
theorem readCodes_flatMap (cs : List Char) {fuel : Nat} (read : List Nat) (rest : List Char)
    (h : cs.length < fuel) :
    readCodes fuel read (cs.flatMap escapeChar ++ '\x22' :: rest) =
      some (read.reverse ++ cs.map Char.toNat, rest) := by
  induction cs generalizing fuel read with
  | nil =>
    cases fuel with
    | zero => cases h
    | succ fuel => simp [readCodes]
  | cons c cs ih =>
    cases fuel with
    | zero => cases h
    | succ fuel =>
      rw [List.flatMap_cons, List.append_assoc, readCodes_escapeChar]
      rw [ih _ (Nat.lt_of_succ_lt_succ h)]
      simp

theorem joinSurrogates_map_toNat (cs : List Char) : joinSurrogates (cs.map Char.toNat) = some cs := by
  have hno : ∀ c : Char, (0xD800 ≤ c.toNat && c.toNat < 0xE000) = false := by
    intro c
    have hvalid : c.toNat < 0xD800 ∨ 0xDFFF < c.toNat ∧ c.toNat < 0x110000 := c.valid
    rw [Bool.and_eq_false_iff, decide_eq_false_iff_not, decide_eq_false_iff_not]
    omega
  induction cs with
  | nil => rfl
  | cons c cs ih =>
    cases cs with
    | nil => simp [joinSurrogates, hno]
    | cons d cs =>
      rw [List.map_cons] at ih
      simp [joinSurrogates, hno, ih]

theorem length_le_flatMap_escapeChar (cs : List Char) : cs.length ≤ (cs.flatMap escapeChar).length := by
  induction cs with
  | nil => exact Nat.le_refl 0
  | cons c cs ih =>
    have hpos : 0 < (escapeChar c).length := by
      unfold escapeChar
      split
      case h_8 =>
        split_ifs
        · rw [List.length_append]
          exact Nat.add_pos_left Nat.two_pos _
        · exact Nat.one_pos
      all_goals exact Nat.two_pos
    rw [List.flatMap_cons, List.length_append, List.length_cons]
    omega

/-- A printed string is read back. -/
theorem readString_stringText (s : String) (rest : List Char) :
    ∃ body, (stringText s).toList = '\x22' :: body ∧ readString (body ++ rest) = some (some s, rest) := by
  refine ⟨s.toList.flatMap escapeChar ++ ['\x22'], by simp [stringText], ?_⟩
  have hlength := length_le_flatMap_escapeChar s.toList
  rw [readString, List.append_assoc, List.singleton_append, readCodes_flatMap]
  · simp [joinSurrogates_map_toNat]
  · simp only [List.length_append, List.length_cons]
    omega

end ReferenceSite.Json
