import ReferenceSite.Environment
import ReferenceSite.Proofs.Text.Split

/-!
# Pieces of texts

What stands at the start of a text decides which pieces are read first and how much is left (`Starts`), so a
text has the same pieces for any fuel that is enough (`piecesFrom_eq_scan`). Pieces are replaced by texts one
after the other, and the first variable that has no text ends this (`evaluate`).
-/

namespace ReferenceSite.Environment

/-- The pieces of some characters. -/
def scan (cs : List Char) : List Piece := piecesFrom cs.length cs

/-- The pieces that are read first and the characters that are left. -/
inductive Starts : List Char → List Piece → List Char → Prop
  /-- A character other than a dollar sign. -/
  | other {c : Char} {cs : List Char} (hc : c ≠ '$') : Starts (c :: cs) [.char c] cs
  /-- A dollar sign at the end. -/
  | last : Starts ['$'] [.char '$'] []
  /-- A reference in braces. -/
  | braced {inner after : List Char} (hinner : closing ∉ inner) :
    Starts ('$' :: opening :: (inner ++ closing :: after)) [.reference (parts inner).1 (parts inner).2] after
  /-- A brace that is not closed. -/
  | unclosed {cs : List Char} (hcs : closing ∉ cs) :
    Starts ('$' :: opening :: cs) [.char '$', .char opening] cs
  /-- A name without braces. -/
  | bare {c : Char} {cs : List Char} (hc : isNameChar c = true) :
    Starts ('$' :: c :: cs) [.reference (.ofList ((c :: cs).takeWhile isNameChar)) none]
      ((c :: cs).dropWhile isNameChar)
  /-- Two dollar signs. -/
  | double {cs : List Char} : Starts ('$' :: '$' :: cs) [.char '$'] cs
  /-- A dollar sign that stands for itself. -/
  | lone {c : Char} {cs : List Char} (hopening : c ≠ opening) (hdollar : c ≠ '$')
      (hname : isNameChar c = false) : Starts ('$' :: c :: cs) [.char '$'] (c :: cs)

variable {env : Environment} {c : Char} {cs rest : List Char} {ps : List Piece} {s : String}
  {name : String} {fallback : Option String} {e : Failure}

theorem opening_ne_dollar : opening ≠ '$' := by decide

theorem isNameChar_opening : isNameChar opening = false := by decide +kernel

theorem isNameChar_dollar : isNameChar '$' = false := by decide +kernel

theorem exists_starts (hne : cs ≠ []) : ∃ ps rest, Starts cs ps rest := by
  obtain ⟨c, cs, rfl⟩ := List.exists_cons_of_ne_nil hne
  by_cases hc : c = '$'
  · subst hc
    cases cs with
    | nil => exact ⟨_, _, .last⟩
    | cons d cs =>
      by_cases hopening : d = opening
      · subst hopening
        cases hsplit : Text.splitFirst (· == closing) cs with
        | none => exact ⟨_, _, .unclosed (Text.splitFirst_eq_none_iff.1 hsplit)⟩
        | some halves =>
          obtain ⟨rfl, hinner⟩ := Text.splitFirst_eq_some_iff.1 hsplit
          exact ⟨_, _, .braced hinner⟩
      · by_cases hdollar : d = '$'
        · subst hdollar
          exact ⟨_, _, .double⟩
        · cases hname : isNameChar d with
          | true => exact ⟨_, _, .bare hname⟩
          | false => exact ⟨_, _, .lone hopening hdollar hname⟩
  · exact ⟨_, _, .other hc⟩

namespace Starts

theorem length_lt (h : Starts cs ps rest) : rest.length < cs.length := by
  cases h with
  | other => exact Nat.lt_succ_self _
  | last => exact Nat.one_pos
  | braced =>
    simp only [List.length_cons, List.length_append]
    omega
  | unclosed => exact Nat.lt_succ_of_lt (Nat.lt_succ_self _)
  | bare => exact Nat.lt_succ_of_le (List.dropWhile_sublist _).length_le
  | double => exact Nat.lt_succ_of_lt (Nat.lt_succ_self _)
  | lone => exact Nat.lt_succ_self _

theorem piecesFrom_succ (h : Starts cs ps rest) (fuel : Nat) :
    piecesFrom (fuel + 1) cs = ps ++ piecesFrom fuel rest := by
  cases h with
  | other hc => simp [piecesFrom]
  | last =>
    cases fuel <;> rfl
  | @braced inner _ hinner =>
    have hsplit : Text.splitFirst (· == closing) (inner ++ closing :: rest) = some (inner, rest) :=
      Text.splitFirst_eq_some_iff.2 ⟨rfl, hinner⟩
    simp [piecesFrom, hsplit]
  | unclosed hcs =>
    have hsplit := Text.splitFirst_eq_none_iff.2 hcs
    simp [piecesFrom, hsplit]
  | @bare c _ hc =>
    have hopening : c ≠ opening := by
      rintro rfl
      rw [isNameChar_opening] at hc
      cases hc
    simp [piecesFrom, hopening, hc]
  | double => simp [piecesFrom, opening_ne_dollar.symm, isNameChar_dollar]
  | lone hopening hdollar hname => simp [piecesFrom, hopening, hdollar, hname]

end Starts

/-- Any fuel that is at least the number of characters is enough. -/
theorem piecesFrom_eq_of_le {n m : Nat} (hn : cs.length ≤ n) (hm : cs.length ≤ m) :
    piecesFrom n cs = piecesFrom m cs := by
  induction n generalizing cs m with
  | zero =>
    obtain rfl := List.length_eq_zero_iff.1 (Nat.le_zero.1 hn)
    cases m <;> rfl
  | succ n ih =>
    by_cases hcs : cs = []
    · subst hcs
      cases m <;> rfl
    · obtain ⟨ps, rest, hstarts⟩ := exists_starts hcs
      have hlength := hstarts.length_lt
      obtain ⟨m, rfl⟩ : ∃ k, m = k + 1 := ⟨m - 1, by omega⟩
      rw [hstarts.piecesFrom_succ, hstarts.piecesFrom_succ, ih (m := m) (by omega) (by omega)]

theorem Starts.scan_eq (h : Starts cs ps rest) : scan cs = ps ++ scan rest := by
  have hlength := h.length_lt
  obtain ⟨n, hn⟩ : ∃ n, cs.length = n + 1 := ⟨cs.length - 1, by omega⟩
  rw [scan, hn, h.piecesFrom_succ, piecesFrom_eq_of_le (by omega) (Nat.le_refl _)]
  rfl

/-! ## Texts of pieces -/

/-- The text of some pieces; the first variable without a text is an error. -/
def evaluate (env : Environment) (ps : List Piece) : Except Failure String :=
  (ps.mapM env.valueOf).map String.join

theorem expand_eq (env : Environment) (text : String) : env.expand text =
    if Text.occursIn ['$', opening] text.toList then env.evaluate (scan text.toList) else .ok text := rfl

theorem evaluate_cons_ok {p : Piece} (h : env.valueOf p = .ok s) :
    env.evaluate (p :: ps) = (env.evaluate ps).map (s ++ ·) := by
  unfold evaluate
  rw [List.mapM_cons, h]
  cases ps.mapM env.valueOf with
  | error e => rfl
  | ok ss =>
    show Except.ok (String.join (s :: ss)) = Except.ok (s ++ String.join ss)
    rw [String.join_cons]

theorem evaluate_cons_error {p : Piece} (h : env.valueOf p = .error e) :
    env.evaluate (p :: ps) = .error e := by
  unfold evaluate
  rw [List.mapM_cons, h]
  rfl

theorem evaluate_chars_append (cs : List Char) (ps : List Piece) :
    env.evaluate (cs.map .char ++ ps) = (env.evaluate ps).map (String.ofList cs ++ ·) := by
  induction cs with
  | nil =>
    cases hps : env.evaluate ps with
    | error e => exact hps
    | ok s =>
      show env.evaluate ps = .ok ("" ++ s)
      rw [hps, String.empty_append]
  | cons c cs ih =>
    have hc : env.valueOf (.char c) = .ok (String.ofList [c]) := rfl
    rw [List.map_cons, List.cons_append, evaluate_cons_ok hc, ih]
    cases env.evaluate ps with
    | error e => rfl
    | ok s =>
      show Except.ok (String.ofList [c] ++ (String.ofList cs ++ s)) = .ok (String.ofList (c :: cs) ++ s)
      rw [← String.append_assoc, ← String.ofList_append]
      rfl

/-! ## What stands between braces -/

theorem splitFallback_cons (h : ':' ≠ c) (cs : List Char) :
    splitFallback (c :: cs) = (splitFallback cs).map fun (name, fallback) => (c :: name, fallback) := by
  rw [splitFallback]
  intro rest hcolon _
  exact h hcolon.symm

theorem splitFallback_eq_none (h : ':' ∉ cs) : splitFallback cs = none := by
  induction cs with
  | nil => rfl
  | cons c cs ih =>
    rw [List.mem_cons, not_or] at h
    rw [splitFallback_cons h.1, ih h.2, Option.map_none]

theorem splitFallback_append (h : ':' ∉ cs) (rest : List Char) :
    splitFallback (cs ++ ':' :: '-' :: rest) = some (cs, rest) := by
  induction cs with
  | nil => rfl
  | cons c cs ih =>
    rw [List.mem_cons, not_or] at h
    rw [List.cons_append, splitFallback_cons h.1, ih h.2, Option.map_some]

theorem parts_name (h : ':' ∉ name.toList) : parts name.toList = (name, none) := by
  unfold parts
  rw [splitFallback_eq_none h, String.ofList_toList]

theorem parts_fallback (hne : name ≠ "") (h : ':' ∉ name.toList) (fallback : String) :
    parts (name.toList ++ ':' :: '-' :: fallback.toList) = (name, some fallback) := by
  obtain ⟨c, cs, hname⟩ := List.exists_cons_of_ne_nil (mt String.toList_eq_nil_iff.1 hne)
  unfold parts
  rw [splitFallback_append h, hname]
  dsimp only
  rw [← hname, String.ofList_toList, String.ofList_toList]

end ReferenceSite.Environment
