import Mathlib.Tactic.SplitIfs
import ReferenceSite.Mdx
import ReferenceSite.Proofs.Text.Split
import ReferenceSite.Proofs.Text.Trim

/-!
# Fences

A reader of Markdown looks for maximal runs of backticks: it takes a text for a list of marks, each of them a
character or such a run (`marks`). Texts are read apart where no run of backticks goes over from one to the
other (`marks_append`). A fence has one backtick more than the longest run in the code, so the first and the
last run of a code span are its fences and every run between them is shorter (`Fenced`), and the same holds of
the first and the last line of a block of code (`FencedBlock`).
-/

namespace ReferenceSite.Mdx

open Text

/-! ## Maximal runs -/

/-- A part of a text as a reader of Markdown takes it. -/
inductive Mark where
  /-- A character other than a backtick. -/
  | char (c : Char)
  /-- A maximal run of backticks. -/
  | ticks (n : Nat)
deriving DecidableEq, Repr

/-- The characters of a mark. -/
def Mark.chars : Mark → List Char
  | char c => [c]
  | ticks n => fence n

/-- The characters of marks. -/
def spelled (ts : List Mark) : List Char := ts.flatMap Mark.chars

/-- Put a backtick in front. -/
def addTick : List Mark → List Mark
  | .ticks n :: ts => .ticks (n + 1) :: ts
  | ts => .ticks 1 :: ts

/-- The marks of a text: its characters and its maximal runs of backticks. -/
def marks : List Char → List Mark
  | [] => []
  | c :: cs => if c == backtick then addTick (marks cs) else .char c :: marks cs

/-- A run of backticks with other characters, or none, on both sides. -/
structure MaximalRun (cs front : List Char) (n : Nat) (back : List Char) : Prop where
  pos : 0 < n
  eq : cs = front ++ fence n ++ back
  before : isBacktick front.getLast? = false
  after : isBacktick back.head? = false

variable {c : Char} {n k : Nat} {cs front back : List Char} {ts : List Mark}

theorem isBacktick_eq_false {o : Option Char} (h : ∀ c ∈ o, c ≠ backtick) : isBacktick o = false := by
  rw [isBacktick, beq_eq_false_iff_ne]
  exact fun hc => h backtick hc rfl

theorem marks_cons_of_ne (hc : c ≠ backtick) (cs : List Char) : marks (c :: cs) = .char c :: marks cs := by
  rw [marks, if_neg (by simpa using hc)]

theorem marks_backtick_cons (cs : List Char) : marks (backtick :: cs) = addTick (marks cs) := by
  rw [marks, if_pos (beq_self_eq_true _)]

theorem marks_eq_map_char (h : ∀ c ∈ cs, c ≠ backtick) : marks cs = cs.map .char := by
  induction cs with
  | nil => rfl
  | cons c cs ih =>
    rw [List.forall_mem_cons] at h
    rw [marks_cons_of_ne h.1, ih h.2, List.map_cons]

theorem spelled_append (ts ts' : List Mark) : spelled (ts ++ ts') = spelled ts ++ spelled ts' :=
  List.flatMap_append

theorem spelled_addTick (ts : List Mark) : spelled (addTick ts) = backtick :: spelled ts := by
  cases ts with
  | nil => rfl
  | cons t ts => cases t <;> rfl

/-- The marks of a text spell it. -/
theorem spelled_marks (cs : List Char) : spelled (marks cs) = cs := by
  induction cs with
  | nil => rfl
  | cons c cs ih =>
    by_cases hc : c = backtick
    · subst hc
      rw [marks_backtick_cons, spelled_addTick, ih]
    · rw [marks_cons_of_ne hc]
      exact congrArg (c :: ·) ih

theorem addTick_append (h : ts ≠ []) (ts' : List Mark) : addTick (ts ++ ts') = addTick ts ++ ts' := by
  cases ts with
  | nil => exact absurd rfl h
  | cons t ts => cases t <;> rfl

theorem marks_ne_nil (h : cs ≠ []) : marks cs ≠ [] := by
  intro hnil
  have hspelled := spelled_marks cs
  rw [hnil] at hspelled
  exact h hspelled.symm

theorem addTick_marks_of_after (h : isBacktick cs.head? = false) :
    addTick (marks cs) = .ticks 1 :: marks cs := by
  cases cs with
  | nil => rfl
  | cons c cs =>
    rw [marks_cons_of_ne (by simpa [isBacktick] using h)]
    rfl

/-- Two texts have their marks one after the other, unless a run of backticks goes over from one to the
    other. -/
theorem marks_append (h : isBacktick front.getLast? = false ∨ isBacktick back.head? = false) :
    marks (front ++ back) = marks front ++ marks back := by
  induction front with
  | nil => rfl
  | cons c front ih =>
    cases front with
    | nil =>
      rw [List.singleton_append]
      by_cases hc : c = backtick
      · subst hc
        have hback : isBacktick back.head? = false := h.resolve_left (by decide)
        rw [marks_backtick_cons, addTick_marks_of_after hback]
        rfl
      · rw [marks_cons_of_ne hc, marks_cons_of_ne hc]
        rfl
    | cons d front =>
      have hrest := ih (by simpa using h)
      rw [List.cons_append]
      by_cases hc : c = backtick
      · subst hc
        rw [marks_backtick_cons, marks_backtick_cons, hrest,
          addTick_append (marks_ne_nil (List.cons_ne_nil d front))]
      · rw [marks_cons_of_ne hc, marks_cons_of_ne hc, hrest]
        rfl

theorem marks_fence_append (hn : 0 < n) (h : isBacktick back.head? = false) :
    marks (fence n ++ back) = .ticks n :: marks back := by
  induction n with
  | zero => exact absurd hn (Nat.lt_irrefl 0)
  | succ n ih =>
    rw [fence, List.replicate_succ, List.cons_append, marks_backtick_cons]
    cases n with
    | zero => exact addTick_marks_of_after h
    | succ n =>
      have hrest := ih (Nat.succ_pos n)
      rw [fence] at hrest
      rw [hrest]
      rfl

/-- A maximal run of backticks is one mark. -/
theorem MaximalRun.marks_eq (h : MaximalRun cs front n back) :
    marks cs = marks front ++ .ticks n :: marks back := by
  rw [h.eq, List.append_assoc, marks_append (Or.inl h.before), marks_fence_append h.pos h.after]

/-! ## The longest run -/

/-- The run that a text begins with is within the first of the pieces between other characters. -/
theorem exists_piece_of_prefix (h : fence n <+: cs) :
    ∃ piece pieces, splitWhere (fun c => !(c == backtick)) cs = piece :: pieces ∧ n ≤ piece.length := by
  induction n generalizing cs with
  | zero =>
    cases hsplit : splitWhere (fun c => !(c == backtick)) cs with
    | nil =>
      rw [splitWhere_eq_splitOnP] at hsplit
      exact absurd hsplit (List.splitOnP_ne_nil _ cs)
    | cons piece pieces => exact ⟨piece, pieces, rfl, Nat.zero_le _⟩
  | succ n ih =>
    obtain ⟨back, rfl⟩ := h
    obtain ⟨piece, pieces, hsplit, hlength⟩ := ih (List.prefix_append (fence n) back)
    refine ⟨backtick :: piece, pieces, ?_, Nat.succ_le_succ hlength⟩
    rw [fence, List.replicate_succ, List.cons_append, splitWhere_cons, if_neg (by simp)]
    rw [fence] at hsplit
    rw [hsplit, consFirst]

theorem exists_piece_of_infix (h : fence n <:+: cs) :
    ∃ piece ∈ splitWhere (fun c => !(c == backtick)) cs, n ≤ piece.length := by
  induction cs with
  | nil =>
    have hprefix : fence n <+: [] := by simp [List.infix_nil.1 h]
    obtain ⟨piece, pieces, hsplit, hlength⟩ := exists_piece_of_prefix hprefix
    exact ⟨piece, by rw [hsplit]; exact List.mem_cons_self, hlength⟩
  | cons c cs ih =>
    rcases List.infix_cons_iff.1 h with h | h
    · obtain ⟨piece, pieces, hsplit, hlength⟩ := exists_piece_of_prefix h
      exact ⟨piece, by rw [hsplit]; exact List.mem_cons_self, hlength⟩
    · obtain ⟨piece, hpiece, hlength⟩ := ih h
      rw [splitWhere_cons]
      split_ifs
      · exact ⟨piece, List.mem_cons_of_mem _ hpiece, hlength⟩
      · -- the first piece gains a character, the others stay
        cases hsplit : splitWhere (fun c => !(c == backtick)) cs with
        | nil =>
          rw [hsplit] at hpiece
          cases hpiece
        | cons first pieces =>
          rw [hsplit] at hpiece
          rw [consFirst]
          rcases List.mem_cons.1 hpiece with rfl | hpiece
          · exact ⟨c :: piece, List.mem_cons_self, Nat.le_succ_of_le hlength⟩
          · exact ⟨piece, List.mem_cons_of_mem _ hpiece, hlength⟩

/-- No run of backticks in a text is longer than the longest. -/
theorem le_longestRun (h : fence n <:+: cs) : n ≤ longestRun cs := by
  rcases Nat.eq_zero_or_pos n with rfl | hn
  · exact Nat.zero_le _
  obtain ⟨piece, hpiece, hlength⟩ := exists_piece_of_infix h
  have hmem : piece.length ∈ runLengths (· == backtick) cs :=
    List.mem_filter.2 ⟨List.mem_map_of_mem hpiece, by simpa using Nat.lt_of_lt_of_le hn hlength⟩
  rw [longestRun, List.foldl_max]
  cases hmax : (runLengths (· == backtick) cs).max? with
  | none =>
    rw [List.max?_eq_none_iff] at hmax
    rw [hmax] at hmem
    cases hmem
  | some k =>
    have hle := (List.max?_eq_some_iff.1 hmax).2 _ hmem
    rw [Option.getD_some]
    omega

theorem infix_of_mem_marks (h : .ticks n ∈ marks cs) : fence n <:+: cs := by
  obtain ⟨before, after, heq⟩ := List.append_of_mem h
  have hspelled := spelled_marks cs
  rw [heq, spelled_append] at hspelled
  exact ⟨spelled before, spelled after, by rw [← hspelled, List.append_assoc]; rfl⟩

/-! ## Code spans -/

/-- A text between two fences of one length: both are maximal runs of backticks, and every maximal run between
    them is shorter. -/
structure Fenced (cs : List Char) (n : Nat) (content : List Char) : Prop where
  eq : cs = fence n ++ content ++ fence n
  opening : MaximalRun cs [] n (content ++ fence n)
  closing : MaximalRun cs (fence n ++ content) n []
  between : ∀ front k back, MaximalRun cs front k back → front ≠ [] → back ≠ [] → k < n

/-- The code in a code span: with a space on each side if a backtick stands at one of its ends. -/
def paddedCode (code : String) : List Char :=
  let cs := code.toList
  if isBacktick cs.head? || isBacktick cs.getLast? then ' ' :: cs ++ [' '] else cs

/-- The length of the fences of a code span. -/
def spanFence (code : String) : Nat := longestRun code.toList + 1

theorem toList_codeSpan (code : String) :
    (codeSpan code).toList = fence (spanFence code) ++ paddedCode code ++ fence (spanFence code) := by
  rw [codeSpan, String.toList_ofList]
  rfl

theorem isBacktick_paddedCode (code : String) : isBacktick (paddedCode code).head? = false ∧
    isBacktick (paddedCode code).getLast? = false := by
  unfold paddedCode
  dsimp only
  split_ifs with hends
  · exact ⟨rfl, by rw [List.cons_append, ← List.cons_append, List.getLast?_concat]; rfl⟩
  · simpa using hends

theorem paddedCode_ne_nil {code : String} (h : code ≠ "") : paddedCode code ≠ [] := by
  unfold paddedCode
  dsimp only
  split_ifs
  · exact List.cons_ne_nil _ _
  · rwa [ne_eq, String.toList_eq_nil_iff]

/-- The runs of backticks in a code span are shorter than its fences. -/
theorem lt_spanFence {code : String} (h : .ticks k ∈ marks (paddedCode code)) : k < spanFence code := by
  have hcode : .ticks k ∈ marks code.toList := by
    unfold paddedCode at h
    dsimp only at h
    split_ifs at h
    · have hspace : marks [' '] = [.char ' '] := rfl
      rw [List.cons_append, marks_cons_of_ne (by decide), marks_append (Or.inr rfl), hspace] at h
      simpa using h
    · exact h
  exact Nat.lt_succ_of_le (le_longestRun (infix_of_mem_marks hcode))

/-- The marks of a text that a fence follows, if it does not end with a backtick. -/
theorem marks_append_fence (hn : 0 < n) (h : isBacktick cs.getLast? = false) :
    marks (cs ++ fence n) = marks cs ++ [.ticks n] := by
  have hfence : marks (fence n) = [.ticks n] := by
    rw [← List.append_nil (fence n), marks_fence_append hn rfl]
    rfl
  rw [marks_append (Or.inl h), hfence]

theorem isBacktick_head?_append (hne : cs ≠ []) (back : List Char) :
    isBacktick (cs ++ back).head? = isBacktick cs.head? := by
  cases cs with
  | nil => exact absurd rfl hne
  | cons c cs => rfl

theorem isBacktick_getLast?_append (hne : cs ≠ []) (front : List Char) :
    isBacktick (front ++ cs).getLast? = isBacktick cs.getLast? := by
  rw [List.getLast?_append, List.getLast?_eq_some_getLast hne, Option.some_or]

/-- What stands between the first and the last element of a list is neither of them. -/
theorem mem_of_between {α : Type} {a b x : α} {l front back : List α}
    (h : a :: (l ++ [b]) = front ++ x :: back) (hfront : front ≠ []) (hback : back ≠ []) : x ∈ l := by
  cases front with
  | nil => exact absurd rfl hfront
  | cons a' front =>
    obtain ⟨back, b', rfl⟩ := (List.eq_nil_or_concat back).resolve_left hback
    obtain ⟨-, heq⟩ := List.cons.inj h
    have heq' : l ++ [b] = (front ++ x :: back) ++ [b'] := by simpa using heq
    rw [(List.append_inj' heq' rfl).1]
    simp

/-- A text without backticks at its ends is fenced by any run that is longer than the runs in it. -/
theorem fenced_of_shorter (hn : 0 < n) (hne : cs ≠ []) (hfirst : isBacktick cs.head? = false)
    (hlast : isBacktick cs.getLast? = false) (hshorter : ∀ k, .ticks k ∈ marks cs → k < n) :
    Fenced (fence n ++ cs ++ fence n) n cs where
  eq := rfl
  opening := ⟨hn, by simp, rfl, by rwa [isBacktick_head?_append hne]⟩
  closing := ⟨hn, by simp, by rwa [isBacktick_getLast?_append hne], rfl⟩
  between := by
    intro front k back hrun hfront hback
    have hmarks : marks (fence n ++ cs ++ fence n) = .ticks n :: (marks cs ++ [.ticks n]) := by
      rw [List.append_assoc, marks_fence_append hn (by rwa [isBacktick_head?_append hne]),
        marks_append_fence hn hlast]
    have heq := hrun.marks_eq
    rw [hmarks] at heq
    exact hshorter k (mem_of_between heq (marks_ne_nil hfront) (marks_ne_nil hback))

theorem fenced_codeSpan {code : String} (h : code ≠ "") :
    Fenced (codeSpan code).toList (spanFence code) (paddedCode code) := by
  obtain ⟨hfirst, hlast⟩ := isBacktick_paddedCode code
  rw [toList_codeSpan]
  exact fenced_of_shorter (Nat.succ_pos _) (paddedCode_ne_nil h) hfirst hlast fun _ => lt_spanFence

/-! ## Blocks of code -/

/-- A block of code: a line of backticks with the name of the language, the lines of the code without the
    blanks at its end, and a line of as many backticks. The backticks of the first and of the last line are
    maximal runs, and there are not as many in a row between these lines. -/
structure FencedBlock (text : String) (m : Nat) (code language : String) : Prop where
  long : 3 ≤ m
  lines : splitAt '\n' text =
    .ofList (fence m ++ language.toList) :: splitAt '\n' (trimmedEnd code) ++ [.ofList (fence m)]
  opening : ∃ back, MaximalRun text.toList [] m back
  closing : ∃ front, MaximalRun text.toList front m []
  between : ¬ fence m <:+: (trimmedEnd code).toList

/-- The length of the fences of a block of code. -/
def blockFence (code : String) : Nat := max (longestRun code.toList) 2 + 1

theorem toList_codeBlock (code language : String) : (codeBlock code language).toList =
    fence (blockFence code) ++
      (language.toList ++ '\n' :: trimEnd code.toList ++ ['\n']) ++ fence (blockFence code) := by
  rw [codeBlock, String.toList_ofList, blockFence]
  simp

theorem codeBlock_eq (code language : String) : codeBlock code language =
    .ofList (fence (blockFence code) ++ language.toList) ++ String.singleton '\n' ++
      (trimmedEnd code ++ String.singleton '\n' ++ .ofList (fence (blockFence code))) := by
  apply String.toList_injective
  rw [toList_codeBlock]
  simp [trimmedEnd]

/-- A text without line breaks is one line. -/
theorem splitAt_of_not_mem {s : String} (h : c ∉ s.toList) : splitAt c s = [s] := by
  have := splitAt_intercalate (List.cons_ne_nil s []) (by simpa using h)
  rwa [String.intercalate_singleton] at this

theorem not_mem_fence (hc : c ≠ backtick) (n : Nat) : c ∉ fence n :=
  fun hmem => hc (List.eq_of_mem_replicate hmem)

theorem fencedBlock_codeBlock {code language : String} (hticks : backtick ∉ language.toList)
    (hline : '\n' ∉ language.toList) :
    FencedBlock (codeBlock code language) (blockFence code) code language where
  long := by
    unfold blockFence
    omega
  lines := by
    have hbreak : ∀ n, '\n' ∉ fence n := not_mem_fence (by decide)
    rw [codeBlock_eq, splitAt_append_sep, splitAt_append_sep,
      splitAt_of_not_mem (s := .ofList (fence (blockFence code) ++ language.toList))
        (by simp [hbreak, hline]),
      splitAt_of_not_mem (s := .ofList (fence (blockFence code))) (by simp [hbreak]),
      List.singleton_append, List.cons_append]
  opening := by
    refine ⟨_, Nat.succ_pos _, by rw [toList_codeBlock, List.nil_append, List.append_assoc], rfl, ?_⟩
    cases hl : language.toList with
    | nil => rfl
    | cons d ds =>
      have hd : d ≠ backtick := fun heq => hticks (by simp [hl, heq])
      simpa [isBacktick] using hd
  closing := by
    refine ⟨_, Nat.succ_pos _, by rw [toList_codeBlock, List.append_nil], ?_, rfl⟩
    rw [← List.append_assoc, ← List.append_assoc, List.getLast?_concat]
    simp [isBacktick, backtick]
  between := by
    intro hwithin
    rw [trimmedEnd, String.toList_ofList, trimEnd, dropEndWhile_eq_rdropWhile] at hwithin
    have hle := le_longestRun (hwithin.trans (List.rdropWhile_prefix isBlank code.toList).isInfix)
    unfold blockFence at hle
    omega

/-- Fences hold: a code span lies between two maximal runs of one length and has only shorter ones inside,
    and a block of code between two lines that no line of the code is taken for. -/
theorem codes_fenced :
    (∀ code : String, code ≠ "" → ∃ n, Fenced (codeSpan code).toList n (paddedCode code)) ∧
      ∀ code language : String, backtick ∉ language.toList → '\n' ∉ language.toList →
        ∃ m, FencedBlock (codeBlock code language) m code language :=
  ⟨fun code h => ⟨spanFence code, fenced_codeSpan h⟩,
    fun code _ hticks hline => ⟨blockFence code, fencedBlock_codeBlock hticks hline⟩⟩

/-- Code that ends with the two backticks that it also has inside. -/
theorem codes_fenced_backticks :
    ("a\x60\x60b\x60\x60" ≠ "" ∧
      ∃ n, Fenced (codeSpan "a\x60\x60b\x60\x60").toList n (paddedCode "a\x60\x60b\x60\x60")) ∧
    backtick ∉ "ts".toList ∧ '\n' ∉ "ts".toList ∧
      ∃ m, FencedBlock (codeBlock "a\x60\x60b\x60\x60" "ts") m "a\x60\x60b\x60\x60" "ts" :=
  ⟨⟨by decide, codes_fenced.1 _ (by decide)⟩, by decide, by decide,
    codes_fenced.2 _ _ (by decide) (by decide)⟩

end ReferenceSite.Mdx
