import Mathlib.Algebra.Ring.Parity
import Mathlib.Data.List.DropRight
import Mathlib.Tactic.SplitIfs
import ReferenceSite.Mdx

/-!
# Escaped characters

A reader of Markdown takes a character literally if an odd number of backslashes stands right before it: of
an even number each second one is escaped by the one before it. A writer that puts one backslash before each
character of a kind and looks at nothing else makes all these runs longer by one
(`Escapes.runsBefore_flatMap`). So it escapes just the characters that were not escaped before, and takes the
escape from the others (`Escapes.escaped_iff`). `escape` is such a writer (`escape_escaped_iff`).
-/

namespace ReferenceSite.Mdx

/-- The character that escapes the one behind it. -/
def isBackslash (c : Char) : Bool := c == '\x5c'

/-- The length of the run of backslashes at the end of a text. -/
def slashRun (cs : List Char) : Nat := (cs.rtakeWhile isBackslash).length

/-- An odd number of backslashes stands before each character of a kind. -/
def Escaped (p : Char → Bool) (cs : List Char) : Prop :=
  ∀ front c back, cs = front ++ c :: back → p c = true → Odd (slashRun front)

/-- An even number of backslashes stands before each character of a kind. -/
def Bare (p : Char → Bool) (cs : List Char) : Prop :=
  ∀ front c back, cs = front ++ c :: back → p c = true → Even (slashRun front)

/-- The lengths of the runs of backslashes before the characters of a kind, in a text behind a run of `n`
    backslashes. -/
def runsFrom (p : Char → Bool) : (n : Nat) → List Char → List Nat
  | _, [] => []
  | n, c :: cs =>
    let runs := runsFrom p (if isBackslash c then n + 1 else 0) cs
    if p c then n :: runs else runs

/-- The lengths of the runs of backslashes before the characters of a kind. -/
def runsBefore (p : Char → Bool) (cs : List Char) : List Nat := runsFrom p 0 cs

variable {p : Char → Bool} {c : Char} {n : Nat} {cs front back : List Char}

theorem slashRun_concat (front : List Char) (c : Char) :
    slashRun (front ++ [c]) = if isBackslash c then slashRun front + 1 else 0 := by
  unfold slashRun
  rw [List.rtakeWhile_concat]
  split_ifs
  · rw [List.length_append, List.length_singleton]
  · rfl

/-- The runs in a text are those that a scan of it counts, also behind another text. -/
theorem mem_runsFrom_iff (before : List Char) {m : Nat} :
    m ∈ runsFrom p (slashRun before) cs ↔
      ∃ front c back, cs = front ++ c :: back ∧ p c = true ∧ slashRun (before ++ front) = m := by
  induction cs generalizing before with
  | nil => simp [runsFrom]
  | cons a cs ih =>
    have hnext := ih (before ++ [a])
    rw [slashRun_concat] at hnext
    have hhead : m ∈ runsFrom p (slashRun before) (a :: cs) ↔ (p a = true ∧ m = slashRun before) ∨
        m ∈ runsFrom p (if isBackslash a then slashRun before + 1 else 0) cs := by
      rw [runsFrom]
      by_cases ha : p a = true
      · simp [ha]
      · simp [ha]
    rw [hhead, hnext]
    constructor
    · rintro (⟨ha, rfl⟩ | ⟨front, c, back, hcs, hc, hm⟩)
      · exact ⟨[], a, cs, rfl, ha, by rw [List.append_nil]⟩
      · exact ⟨a :: front, c, back, by rw [hcs]; rfl, hc, by simpa using hm⟩
    · rintro ⟨front, c, back, hcs, hc, hm⟩
      cases front with
      | nil =>
        obtain ⟨rfl, rfl⟩ := List.cons.inj hcs
        exact Or.inl ⟨hc, by rw [← hm, List.append_nil]⟩
      | cons b front =>
        obtain ⟨rfl, rfl⟩ := List.cons.inj hcs
        exact Or.inr ⟨front, c, back, rfl, hc, by simpa using hm⟩

/-- Something holds of the run before each character of a kind exactly if it holds of all runs of a scan. -/
theorem forall_slashRun_iff {P : Nat → Prop} :
    (∀ front c back, cs = front ++ c :: back → p c = true → P (slashRun front)) ↔
      ∀ m ∈ runsBefore p cs, P m := by
  constructor
  · intro h m hm
    obtain ⟨front, c, back, hcs, hc, rfl⟩ := (mem_runsFrom_iff []).1 hm
    exact h front c back hcs hc
  · intro h front c back hcs hc
    exact h _ ((mem_runsFrom_iff []).2 ⟨front, c, back, hcs, hc, rfl⟩)

theorem escaped_iff_runsBefore : Escaped p cs ↔ ∀ m ∈ runsBefore p cs, Odd m := forall_slashRun_iff

theorem bare_iff_runsBefore : Bare p cs ↔ ∀ m ∈ runsBefore p cs, Even m := forall_slashRun_iff

instance : DecidablePred (Escaped p) := fun _ => decidable_of_iff _ escaped_iff_runsBefore.symm

instance : DecidablePred (Bare p) := fun _ => decidable_of_iff _ bare_iff_runsBefore.symm

/-! ## Writers that escape -/

/-- Each character of a kind is written behind one backslash, a backslash as it is, and every other character
    as something that neither is of the kind nor leaves a run of backslashes. -/
structure Escapes (p : Char → Bool) (write : Char → List Char) : Prop where
  plain : p '\x5c' = false
  escaped : ∀ c, p c = true → write c = ['\x5c', c]
  backslash : write '\x5c' = ['\x5c']
  others : ∀ c, p c = false → isBackslash c = false → ∀ n cs,
    runsFrom p n (write c ++ cs) = runsFrom p 0 cs

namespace Escapes

variable {write : Char → List Char}

theorem isBackslash_eq_false (h : Escapes p write) (hc : p c = true) : isBackslash c = false := by
  by_contra hslash
  have heq : c = '\x5c' := by simpa [isBackslash] using hslash
  rw [heq, h.plain] at hc
  cases hc

theorem runsFrom_flatMap (h : Escapes p write) (n : Nat) (cs : List Char) :
    runsFrom p n (cs.flatMap write) = (runsFrom p n cs).map (· + 1) := by
  induction cs generalizing n with
  | nil => rfl
  | cons c cs ih =>
    rw [List.flatMap_cons]
    by_cases hc : p c = true
    · have hslash := h.isBackslash_eq_false hc
      rw [h.escaped c hc]
      have hback : isBackslash '\x5c' = true := rfl
      simp [runsFrom, h.plain, hc, hslash, hback, ih]
    · rw [Bool.not_eq_true] at hc
      by_cases hslash : isBackslash c = true
      · have heq : c = '\x5c' := by simpa [isBackslash] using hslash
        subst heq
        rw [h.backslash]
        simp [runsFrom, h.plain, hslash, ih]
      · rw [Bool.not_eq_true] at hslash
        rw [h.others c hc hslash]
        simp [runsFrom, hc, hslash, ih]

/-- Each character of the kind has one more backslash before it than it had. -/
theorem runsBefore_flatMap (h : Escapes p write) (cs : List Char) :
    runsBefore p (cs.flatMap write) = (runsBefore p cs).map (· + 1) :=
  h.runsFrom_flatMap 0 cs

/-- All characters of the kind are escaped exactly if none of them was. -/
theorem escaped_iff (h : Escapes p write) : Escaped p (cs.flatMap write) ↔ Bare p cs := by
  rw [escaped_iff_runsBefore, bare_iff_runsBefore, h.runsBefore_flatMap, List.forall_mem_map]
  simp only [Nat.odd_add_one, Nat.not_odd_iff_even]

end Escapes

/-! ## Running text -/

/-- The characters that open and close expressions. -/
def isBrace (c : Char) : Bool := c == '\x7b' || c == '\x7d'

theorem escapeChar_of_ne (hbrace : isBrace c = false) (hless : c ≠ '<') (hgreater : c ≠ '>') :
    escapeChar c = [c] := by
  have hval : ∀ d : Char, c.toNat = d.toNat → c = d := fun d h => Char.toNat_inj.1 h
  unfold escapeChar
  split
  · next h => simp [hval '\x7b' h, isBrace] at hbrace
  · next h => simp [hval '\x7d' h, isBrace] at hbrace
  · next h => exact absurd (hval '<' h) hless
  · next h => exact absurd (hval '>' h) hgreater
  · rfl

theorem escapes_braces : Escapes isBrace escapeChar where
  plain := rfl
  escaped := by
    intro c hc
    rcases (by simpa [isBrace] using hc : c = '\x7b' ∨ c = '\x7d') with rfl | rfl <;> rfl
  backslash := rfl
  others := by
    intro c hc hslash n cs
    by_cases hless : c = '<'
    · subst hless
      rfl
    by_cases hgreater : c = '>'
    · subst hgreater
      rfl
    rw [escapeChar_of_ne hc hless hgreater]
    simp [runsFrom, hc, hslash]

/-- Angle brackets are written as names. -/
theorem ne_angle_of_mem_escapeChar {d : Char} (h : d ∈ escapeChar c) : d ≠ '<' ∧ d ≠ '>' := by
  by_cases hbrace : isBrace c = true
  · rw [escapes_braces.escaped c hbrace] at h
    rcases List.mem_cons.1 h with rfl | h
    · decide
    · rw [List.mem_singleton.1 h]
      constructor
      · rintro rfl
        cases hbrace
      · rintro rfl
        cases hbrace
  rw [Bool.not_eq_true] at hbrace
  by_cases hless : c = '<'
  · have hname : escapeChar '<' = ['&', 'l', 't', ';'] := rfl
    rw [hless, hname] at h
    rcases (by simpa using h : d = '&' ∨ d = 'l' ∨ d = 't' ∨ d = ';') with rfl | rfl | rfl | rfl <;> decide
  by_cases hgreater : c = '>'
  · have hname : escapeChar '>' = ['&', 'g', 't', ';'] := rfl
    rw [hgreater, hname] at h
    rcases (by simpa using h : d = '&' ∨ d = 'g' ∨ d = 't' ∨ d = ';') with rfl | rfl | rfl | rfl <;> decide
  rw [escapeChar_of_ne hbrace hless hgreater, List.mem_singleton] at h
  exact ⟨h ▸ hless, h ▸ hgreater⟩

/-- An escaped text has no angle brackets, and each of its braces has one more backslash before it than the
    brace of the text that it stands for. So all its braces are escaped exactly if no brace of the text was. -/
theorem escape_escaped_iff (text : String) :
    (∀ c ∈ (escape text).toList, c ≠ '<' ∧ c ≠ '>') ∧
      runsBefore isBrace (escape text).toList = (runsBefore isBrace text.toList).map (· + 1) ∧
      (Escaped isBrace (escape text).toList ↔ Bare isBrace text.toList) := by
  rw [escape, String.toList_ofList]
  refine ⟨?_, escapes_braces.runsBefore_flatMap _, escapes_braces.escaped_iff⟩
  intro d hd
  obtain ⟨c, -, hc⟩ := List.mem_flatMap.1 hd
  exact ne_angle_of_mem_escapeChar hc

/-- A backslash before a brace takes the effect of the one that is written before the brace. -/
theorem escape_leaves_brace : ¬ Escaped isBrace (escape "\x5c\x7b").toList := by
  decide +kernel

end ReferenceSite.Mdx
