import ReferenceSite.Proofs.Mdx.Escaping
import ReferenceSite.Proofs.Mdx.Fences

/-!
# Code spans in running text

A reader of Markdown takes a maximal run of backticks for the start of a code span that ends at the next maximal
run of the same length; a run without such a partner is text (`pieces`). Running text is written node by node,
and the fences of a code span are chosen for its code alone. So the spans are read back as they were written
exactly if something stands between any two of them (`spans_renderNodes_iff`): where two spans touch, their
fences become one run, the reader comes too late for the first of them, and a reader that is late for a span
stays late for all that follow (`spans_ne_of_late`).
-/

namespace ReferenceSite.Mdx

open Text

/-! ## Reading -/

/-- A part of a text as a reader of Markdown shows it. -/
inductive Piece where
  /-- A character outside all code spans. -/
  | char (c : Char)
  /-- Backticks that begin no code span. -/
  | ticks (n : Nat)
  /-- A code span. -/
  | span (content : List Char)
deriving DecidableEq, Repr

/-- The pieces of a text that is given by its marks: a run of backticks begins a code span if there is another
    run of the same length behind it, and the next one ends the span. -/
def pieces : List Mark → List Piece
  | [] => []
  | .char c :: ts => .char c :: pieces ts
  | .ticks n :: ts =>
    match h : splitFirst (· == .ticks n) ts with
    | some (content, rest) =>
      have : rest.length < ts.length := by
        rw [(splitFirst_eq_some_iff.1 h).1]
        simp
        omega
      .span (spelled content) :: pieces rest
    | none => .ticks n :: pieces ts
termination_by ts => ts.length

/-- The content of a code span. -/
def Piece.content? : Piece → Option (List Char)
  | span content => some content
  | _ => none

/-- The contents of the code spans, in order. -/
def spans (ps : List Piece) : List (List Char) := ps.filterMap Piece.content?

variable {c : Char} {n k : Nat} {cs front back : List Char} {ts ts' content rest : List Mark}

theorem pieces_char (c : Char) (ts : List Mark) : pieces (.char c :: ts) = .char c :: pieces ts := by
  rw [pieces]

theorem pieces_span (h : .ticks n ∉ content) (rest : List Mark) :
    pieces (.ticks n :: (content ++ .ticks n :: rest)) = .span (spelled content) :: pieces rest := by
  have hsplit : splitFirst (· == .ticks n) (content ++ .ticks n :: rest) = some (content, rest) :=
    splitFirst_eq_some_iff.2 ⟨rfl, h⟩
  rw [pieces]
  split
  · next heq =>
    obtain ⟨rfl, rfl⟩ := Prod.mk.inj (Option.some.inj (heq.symm.trans hsplit))
    rfl
  · next heq =>
    rw [heq] at hsplit
    cases hsplit

theorem pieces_ticks (h : .ticks n ∉ ts) : pieces (.ticks n :: ts) = .ticks n :: pieces ts := by
  have hsplit := splitFirst_eq_none_iff.2 h
  rw [pieces]
  split
  · next heq =>
    rw [heq] at hsplit
    cases hsplit
  · rfl

/-- A run of backticks either begins a code span or is text. -/
theorem ticks_cases (n : Nat) (ts : List Mark) : .ticks n ∉ ts ∨
    ∃ content rest, ts = content ++ .ticks n :: rest ∧ .ticks n ∉ content := by
  cases hsplit : splitFirst (· == .ticks n) ts with
  | none => exact Or.inl (splitFirst_eq_none_iff.1 hsplit)
  | some cut =>
    obtain ⟨content, rest⟩ := cut
    exact Or.inr ⟨content, rest, splitFirst_eq_some_iff.1 hsplit⟩

theorem pieces_map_char_append (cs : List Char) (ts : List Mark) :
    pieces (cs.map .char ++ ts) = cs.map .char ++ pieces ts := by
  induction cs with
  | nil => rfl
  | cons c cs ih =>
    rw [List.map_cons, List.cons_append, pieces_char, ih]
    rfl

/-- Characters at the end are read as such, since they end no code span. -/
theorem pieces_append_map_char (ts : List Mark) (cs : List Char) :
    pieces (ts ++ cs.map .char) = pieces ts ++ cs.map .char := by
  fun_induction pieces ts with
  | case1 =>
    have hchars := pieces_map_char_append cs []
    rw [List.append_nil, pieces, List.append_nil] at hchars
    rw [List.nil_append, List.nil_append, hchars]
  | case2 c ts ih =>
    rw [List.cons_append, pieces_char, ih]
    rfl
  | case3 n ts inside rest hsplit _ ih =>
    obtain ⟨rfl, hinside⟩ := splitFirst_eq_some_iff.1 hsplit
    rw [List.cons_append, List.append_assoc, List.cons_append, pieces_span hinside, ih]
    rfl
  | case4 n ts hsplit ih =>
    have hnone := splitFirst_eq_none_iff.1 hsplit
    rw [List.cons_append, pieces_ticks (by simpa using hnone), ih]
    rfl

theorem spans_append (ps ps' : List Piece) : spans (ps ++ ps') = spans ps ++ spans ps' :=
  List.filterMap_append

theorem spans_map_char (cs : List Char) : spans (cs.map .char) = [] := by
  rw [spans, List.filterMap_map]
  exact List.filterMap_eq_nil_iff.2 fun _ _ => rfl

/-- The first code span lies between two runs of backticks, and the others are read behind it. -/
theorem exists_first_span {content : List Char} {contents : List (List Char)}
    (h : spans (pieces ts) = content :: contents) :
    ∃ before n inside rest, ts = before ++ .ticks n :: (inside ++ .ticks n :: rest) ∧
      spelled inside = content ∧ spans (pieces rest) = contents := by
  induction ts with
  | nil => simp [pieces, spans] at h
  | cons t ts ih =>
    have hlater : spans (pieces ts) = content :: contents → ∃ before n inside rest,
        t :: ts = before ++ .ticks n :: (inside ++ .ticks n :: rest) ∧
          spelled inside = content ∧ spans (pieces rest) = contents := by
      intro h
      obtain ⟨before, n, inside, rest, rfl, hinside, hrest⟩ := ih h
      exact ⟨t :: before, n, inside, rest, rfl, hinside, hrest⟩
    cases t with
    | char c =>
      rw [pieces_char] at h
      exact hlater h
    | ticks n =>
      rcases ticks_cases n ts with hnone | ⟨inside, rest, rfl, hinside⟩
      · rw [pieces_ticks hnone] at h
        exact hlater h
      · rw [pieces_span hinside] at h
        obtain ⟨hcontent, hcontents⟩ := List.cons.inj h
        exact ⟨[], n, inside, rest, rfl, hcontent, hcontents⟩

/-! ## Suffixes of marks -/

theorem chars_ne_nil_of_mem_addTick (h : ∀ t ∈ ts, t.chars ≠ []) : ∀ t ∈ addTick ts, t.chars ≠ [] := by
  have hsucc : ∀ n, (Mark.ticks (n + 1)).chars ≠ [] := fun n => List.cons_ne_nil _ _
  cases ts with
  | nil => exact List.forall_mem_singleton.2 (hsucc 0)
  | cons t ts =>
    cases t with
    | char c => exact List.forall_mem_cons.2 ⟨hsucc 0, h⟩
    | ticks n => exact List.forall_mem_cons.2 ⟨hsucc n, (List.forall_mem_cons.1 h).2⟩

theorem chars_ne_nil_of_mem_marks (cs : List Char) : ∀ t ∈ marks cs, t.chars ≠ [] := by
  induction cs with
  | nil => simp [marks]
  | cons c cs ih =>
    by_cases hc : c = backtick
    · rw [hc, marks_backtick_cons]
      exact chars_ne_nil_of_mem_addTick ih
    · rw [marks_cons_of_ne hc]
      exact List.forall_mem_cons.2 ⟨List.cons_ne_nil _ _, ih⟩

theorem spelled_cons (t : Mark) (ts : List Mark) : spelled (t :: ts) = t.chars ++ spelled ts := rfl

theorem spelled_length_le (h : ts <:+ ts') : (spelled ts).length ≤ (spelled ts').length := by
  obtain ⟨before, rfl⟩ := h
  rw [spelled_append, List.length_append]
  exact Nat.le_add_left _ _

/-- Marks of a text that spell nothing are none. -/
theorem spelled_eq_nil (h : ts <:+: marks cs) (hnil : spelled ts = []) : ts = [] := by
  cases ts with
  | nil => rfl
  | cons t ts =>
    have hchars : t.chars = [] := (List.append_eq_nil_iff.1 hnil).1
    exact absurd hchars (chars_ne_nil_of_mem_marks cs t (h.subset List.mem_cons_self))

/-- Of two suffixes of marks that which spells no more is a suffix of the other one. -/
theorem suffix_of_spelled_le (h : ts <:+ marks cs) (h' : ts' <:+ marks cs)
    (hle : (spelled ts).length ≤ (spelled ts').length) : ts <:+ ts' := by
  rcases List.suffix_or_suffix_of_suffix h h' with hsuffix | ⟨before, rfl⟩
  · exact hsuffix
  · have hnil : spelled before = [] := by
      rw [spelled_append, List.length_append] at hle
      exact List.eq_nil_of_length_eq_zero (by omega)
    have hinfix : before <:+: marks cs := (List.prefix_append before ts').isInfix.trans h.isInfix
    rw [spelled_eq_nil hinfix hnil]
    exact List.suffix_refl _

/-- What stands behind marks is known from what these spell. -/
theorem eq_of_spelled_eq (h : marks cs = ts ++ rest) (h' : marks cs = ts' ++ content)
    (hspelled : spelled ts = spelled ts') : rest = content := by
  have hrest : rest <:+ marks cs := ⟨ts, h.symm⟩
  have hcontent : content <:+ marks cs := ⟨ts', h'.symm⟩
  have hlength : (spelled rest).length = (spelled content).length := by
    have hwhole := congrArg List.length (congrArg spelled (h.symm.trans h'))
    rw [spelled_append, spelled_append, hspelled, List.length_append, List.length_append] at hwhole
    omega
  exact (suffix_of_spelled_le hrest hcontent (Nat.le_of_eq hlength)).sublist.antisymm
    (suffix_of_spelled_le hcontent hrest (Nat.le_of_eq hlength.symm)).sublist

/-- Characters alone end with no run of backticks. -/
theorem suffix_of_ticks_suffix (h : .ticks n :: ts <:+ cs.map .char ++ ts') : .ticks n :: ts <:+ ts' := by
  induction cs with
  | nil => exact h
  | cons c cs ih =>
    rcases List.suffix_cons_iff.1 h with heq | h
    · cases heq
    · exact ih h

/-- The run of backticks that a text begins with, and what stands behind it. -/
theorem exists_leading_fence (cs : List Char) : ∃ k rest, cs = fence k ++ rest ∧
    isBacktick rest.head? = false ∧ (0 < k ↔ isBacktick cs.head? = true) := by
  induction cs with
  | nil => exact ⟨0, [], rfl, rfl, by simp [isBacktick]⟩
  | cons c cs ih =>
    by_cases hc : c = backtick
    · subst hc
      obtain ⟨k, rest, rfl, hrest, -⟩ := ih
      exact ⟨k + 1, rest, rfl, hrest, by simp [isBacktick]⟩
    · exact ⟨0, c :: cs, rfl, by simpa [isBacktick] using hc, by simpa [isBacktick] using hc⟩

/-- A fence before a text is longer by the backticks that the text begins with. -/
theorem exists_marks_fence_append (hn : 0 < n) (cs : List Char) : ∃ k rest,
    marks (fence n ++ cs) = .ticks (n + k) :: rest ∧ rest <:+ marks cs ∧
      (0 < k ↔ isBacktick cs.head? = true) := by
  obtain ⟨k, rest, rfl, hrest, hk⟩ := exists_leading_fence cs
  refine ⟨k, marks rest, ?_, ?_, hk⟩
  · rw [← List.append_assoc, fence, fence, List.replicate_append_replicate]
    exact marks_fence_append (Nat.lt_of_lt_of_le hn (Nat.le_add_right n k)) hrest
  · rcases Nat.eq_zero_or_pos k with rfl | hpos
    · exact List.suffix_refl _
    · rw [marks_fence_append hpos hrest]
      exact List.suffix_cons _ _

/-! ## Writing -/

/-- A text as a list of nodes, without the blanks at its ends being taken off. -/
def written (links : Links) (context : Nat) (nodes : List Doc.Node) : List Char :=
  nodes.flatMap fun node => (renderNode links context node).toList

/-- The code of a node. -/
def codeOf? : Doc.Node → Option String
  | .code code => some code
  | _ => none

/-- The codes among nodes, in order, as they stand in their spans. -/
def codes (nodes : List Doc.Node) : List (List Char) := (nodes.filterMap codeOf?).map paddedCode

/-- Code is shown first: nothing is shown of the nodes before it. -/
def BeginsWithCode (links : Links) (context : Nat) (nodes : List Doc.Node) : Prop :=
  ∃ before code behind, nodes = before ++ .code code :: behind ∧
    ∀ node ∈ before, renderNode links context node = ""

/-- No two codes touch: what is shown next behind a code is no code. -/
def Apart (links : Links) (context : Nat) (nodes : List Doc.Node) : Prop :=
  ∀ before code behind, nodes = before ++ .code code :: behind → ¬ BeginsWithCode links context behind

/-- Outside the code spans nothing begins an element or an expression: there are no angle brackets, and every
    brace has a backslash before it. -/
structure Inert (ps : List Piece) : Prop where
  noAngles : ∀ c, .char c ∈ ps → c ≠ '<' ∧ c ≠ '>'
  guarded : ∀ front c back, ps = front ++ .char c :: back → isBrace c = true →
    front.getLast? = some (.char '\x5c')

/-- A text in which nothing begins a code span, an element or an expression. -/
structure Prose (cs : List Char) : Prop where
  noTicks : ∀ c ∈ cs, c ≠ backtick
  inert : Inert (cs.map .char)

/-- A text has neither backticks nor backslashes. -/
def Tame (s : String) : Prop := ∀ c ∈ s.toList, c ≠ backtick ∧ c ≠ '\x5c'

/-- A text has neither braces nor angle brackets. -/
def Unbraced (s : String) : Prop := ∀ c ∈ s.toList, isBrace c = false ∧ c ≠ '<' ∧ c ≠ '>'

/-- A node whose code is not empty, or whose texts have neither backticks nor backslashes and whose address,
    if it has one, has no braces and angle brackets either. -/
def Readable (links : Links) (context : Nat) : Doc.Node → Prop
  | .text t => Tame t
  | .code code => code ≠ ""
  | .link target shown => Tame (Doc.Node.link target shown).plainText ∧
      ∀ address ∈ links target context, Tame address ∧ Unbraced address
  | .paragraph => True

instance (s : String) : Decidable (Tame s) :=
  List.decidableBAll (fun c => c ≠ backtick ∧ c ≠ '\x5c') s.toList

instance (s : String) : Decidable (Unbraced s) :=
  List.decidableBAll (fun c => isBrace c = false ∧ c ≠ '<' ∧ c ≠ '>') s.toList

instance (links : Links) (context : Nat) : DecidablePred (Readable links context) := fun node =>
  match node with
  | .text t => inferInstanceAs (Decidable (Tame t))
  | .code code => inferInstanceAs (Decidable (code ≠ ""))
  | .link target shown => inferInstanceAs (Decidable (Tame (Doc.Node.link target shown).plainText ∧
      ∀ address ∈ links target context, Tame address ∧ Unbraced address))
  | .paragraph => .isTrue trivial

theorem Inert.append {ps qs : List Piece} (h : Inert ps) (h' : Inert qs) : Inert (ps ++ qs) where
  noAngles := by
    intro c hc
    rcases List.mem_append.1 hc with hc | hc
    · exact h.noAngles c hc
    · exact h'.noAngles c hc
  guarded := by
    intro front c back heq hc
    rcases List.append_eq_append_iff.1 heq with ⟨between, rfl, hqs⟩ | ⟨between, hps, hback⟩
    · rw [List.getLast?_append, h'.guarded between c back hqs hc, Option.some_or]
    · cases between with
      | nil =>
        have hlast := h'.guarded [] c back hback.symm hc
        cases hlast
      | cons p between =>
        obtain ⟨rfl, -⟩ := List.cons.inj hback
        exact h.guarded front c between hps hc

theorem inert_flatMap {α : Type} {show' : α → List Piece} {l : List α} (h : ∀ a ∈ l, Inert (show' a)) :
    Inert (l.flatMap show') := by
  induction l with
  | nil => exact ⟨by simp, by simp⟩
  | cons a l ih =>
    rw [List.forall_mem_cons] at h
    exact h.1.append (ih h.2)

theorem Prose.append {cs ds : List Char} (h : Prose cs) (h' : Prose ds) : Prose (cs ++ ds) where
  noTicks := List.forall_mem_append.2 ⟨h.noTicks, h'.noTicks⟩
  inert := by
    rw [List.map_append]
    exact h.inert.append h'.inert

/-- A character without a meaning of its own. -/
def isNeutral (c : Char) : Bool := c != backtick && c != '<' && c != '>' && !isBrace c

theorem prose_of_neutral (h : cs.all isNeutral = true) : Prose cs := by
  have hneutral : ∀ c ∈ cs, c ≠ backtick ∧ c ≠ '<' ∧ c ≠ '>' ∧ isBrace c = false := by
    intro c hc
    simpa [isNeutral, and_assoc] using List.all_eq_true.1 h c hc
  have hchar : ∀ c, Piece.char c ∈ cs.map .char → c ∈ cs := by
    intro c hc
    simpa using hc
  refine ⟨fun c hc => (hneutral c hc).1, fun c hc => ?_, fun front c back heq hbrace => ?_⟩
  · have hsafe := hneutral c (hchar c hc)
    exact ⟨hsafe.2.1, hsafe.2.2.1⟩
  · have hc : Piece.char c ∈ cs.map .char := by
      rw [heq]
      exact List.mem_append_right _ List.mem_cons_self
    rw [(hneutral c (hchar c hc)).2.2.2] at hbrace
    cases hbrace

theorem prose_flatMap {write : Char → List Char} (h : ∀ c ∈ cs, Prose (write c)) :
    Prose (cs.flatMap write) := by
  induction cs with
  | nil => exact prose_of_neutral rfl
  | cons c cs ih =>
    rw [List.forall_mem_cons] at h
    exact h.1.append (ih h.2)

/-- A backslash guards the character behind it. -/
theorem prose_guarded (hc : c ≠ backtick) (hless : c ≠ '<') (hgreater : c ≠ '>') : Prose ['\x5c', c] where
  noTicks := by simpa using ⟨by decide, hc⟩
  inert := by
    refine ⟨by simp [hless, hgreater], fun front d back heq hbrace => ?_⟩
    rw [List.map_cons, List.map_singleton] at heq
    cases front with
    | nil =>
      obtain ⟨hd, -⟩ := List.cons.inj heq
      rw [← Piece.char.inj hd] at hbrace
      cases hbrace
    | cons e front =>
      obtain ⟨rfl, heq⟩ := List.cons.inj heq
      cases front with
      | nil => rfl
      | cons e front => simp at heq

theorem prose_escapeChar (hc : c ≠ backtick) : Prose (escapeChar c) := by
  by_cases hbrace : isBrace c = true
  · rw [escapes_braces.escaped c hbrace]
    refine prose_guarded hc ?_ ?_
    · rintro rfl
      cases hbrace
    · rintro rfl
      cases hbrace
  rw [Bool.not_eq_true] at hbrace
  by_cases hless : c = '<'
  · rw [hless]
    exact prose_of_neutral (by decide)
  by_cases hgreater : c = '>'
  · rw [hgreater]
    exact prose_of_neutral (by decide)
  rw [escapeChar_of_ne hbrace hless hgreater]
  exact prose_of_neutral (by simp [isNeutral, hc, hless, hgreater, hbrace])

theorem prose_escapeLinkChar (hc : c ≠ backtick) : Prose (escapeLinkChar c) := by
  unfold escapeLinkChar
  split_ifs with hbracket
  · rcases (by simpa using hbracket : c = '[' ∨ c = ']') with rfl | rfl
    · exact prose_guarded (by decide) (by decide) (by decide)
    · exact prose_guarded (by decide) (by decide) (by decide)
  · exact prose_escapeChar hc

theorem prose_escape {s : String} (h : Tame s) : Prose (escape s).toList := by
  rw [escape, String.toList_ofList]
  exact prose_flatMap fun c hc => prose_escapeChar (h c hc).1

theorem prose_escapeLink {s : String} (h : Tame s) : Prose (escapeLink s).toList := by
  rw [escapeLink, String.toList_ofList]
  exact prose_flatMap fun c hc => prose_escapeLinkChar (h c hc).1

/-- All that is written for a readable node without code is prose. -/
theorem prose_renderNode {links : Links} {context : Nat} {node : Doc.Node}
    (h : Readable links context node) (hcode : codeOf? node = none) :
    Prose (renderNode links context node).toList := by
  cases node with
  | text t => exact prose_escape h
  | code code => cases hcode
  | paragraph =>
    have hbreaks : Prose "\n\n".toList := prose_of_neutral (by decide)
    exact hbreaks
  | link target shown =>
    obtain ⟨htext, haddress⟩ := h
    cases hlink : links target context with
    | none =>
      simp only [renderNode, hlink]
      exact prose_escape htext
    | some address =>
      obtain ⟨htame, hplain⟩ := haddress address hlink
      have hprose : Prose address.toList := prose_of_neutral <|
        List.all_eq_true.2 fun c hc => by simp [isNeutral, (htame c hc).1, hplain c hc]
      have hopen : Prose "[".toList := prose_of_neutral (by decide)
      have hmiddle : Prose "](".toList := prose_of_neutral (by decide)
      have hclose : Prose ")".toList := prose_of_neutral (by decide)
      simp only [renderNode, hlink, link, String.toList_append]
      exact (((hopen.append (prose_escapeLink htext)).append hmiddle).append hprose).append hclose

/-! ## Reading what was written -/

section Written

variable {links : Links} {context : Nat} {node : Doc.Node} {nodes : List Doc.Node} {code : String}

theorem codes_cons_of_none (hcode : codeOf? node = none) : codes (node :: nodes) = codes nodes := by
  rw [codes, List.filterMap_cons_none hcode]
  rfl

theorem marks_written_of_none (h : Readable links context node) (hcode : codeOf? node = none) :
    marks (written links context (node :: nodes)) =
      (renderNode links context node).toList.map .char ++ marks (written links context nodes) := by
  have hprose := prose_renderNode h hcode
  have hlast : isBacktick (renderNode links context node).toList.getLast? = false :=
    isBacktick_eq_false fun c hc => hprose.noTicks c (List.mem_of_getLast? hc)
  rw [written, List.flatMap_cons, marks_append (Or.inl hlast), marks_eq_map_char hprose.noTicks]
  rfl

theorem marks_written_code (h : code ≠ "") : marks (written links context (.code code :: nodes)) =
    .ticks (spanFence code) :: (marks (paddedCode code) ++
      marks (fence (spanFence code) ++ written links context nodes)) := by
  obtain ⟨hfirst, hlast⟩ := isBacktick_paddedCode code
  have hpos : 0 < spanFence code := Nat.succ_pos _
  rw [written, List.flatMap_cons, renderNode, toList_codeSpan, List.append_assoc, List.append_assoc,
    marks_fence_append hpos (by rwa [isBacktick_head?_append (paddedCode_ne_nil h)]),
    marks_append (Or.inl hlast)]
  rfl

/-- A span with the right content that is read from behind the first fence of a code ends among the nodes
    behind the code. -/
theorem closing_suffix {before inside rest : List Mark}
    (h : before ++ .ticks n :: (inside ++ .ticks n :: rest) <:+
      marks (paddedCode code) ++ marks (fence (spanFence code) ++ written links context nodes))
    (hinside : spelled inside = paddedCode code) :
    .ticks n :: rest <:+ marks (written links context nodes) := by
  obtain ⟨-, hlast⟩ := isBacktick_paddedCode code
  have hpos : 0 < spanFence code := Nat.succ_pos _
  obtain ⟨k, behind, hfence, hbehind, -⟩ := exists_marks_fence_append hpos (written links context nodes)
  have hlength := spelled_length_le h
  have htext : marks (paddedCode code ++ (fence (spanFence code) ++ written links context nodes)) =
      marks (paddedCode code) ++ marks (fence (spanFence code) ++ written links context nodes) :=
    marks_append (Or.inl hlast)
  rw [hfence] at h hlength htext
  have hopening : (Mark.ticks n).chars ≠ [] := by
    rw [← htext] at h
    exact chars_ne_nil_of_mem_marks _ _ (h.subset (by simp))
  -- the opening run and the content take up more than the code does
  have hlt : (spelled (.ticks n :: rest)).length <
      (spelled (.ticks (spanFence code + k) :: behind)).length := by
    have hlen := List.length_pos_of_ne_nil hopening
    rw [spelled_append, spelled_append, spelled_marks, spelled_cons, spelled_append, hinside] at hlength
    simp only [List.length_append] at hlength
    omega
  have hclosing : .ticks n :: rest <:+ before ++ .ticks n :: (inside ++ .ticks n :: rest) :=
    ⟨before ++ .ticks n :: inside, by simp⟩
  have hsuffix : .ticks n :: rest <:+ .ticks (spanFence code + k) :: behind :=
    suffix_of_spelled_le (htext ▸ hclosing.trans h) (htext ▸ List.suffix_append _ _) (Nat.le_of_lt hlt)
  rcases List.suffix_cons_iff.1 hsuffix with heq | hsuffix
  · rw [heq] at hlt
    exact absurd hlt (Nat.lt_irrefl _)
  · exact hsuffix.trans hbehind

/-- A reader that begins behind the first fence of a code span does not find the codes from there on: it takes
    the content of each span from a later place than where that was written. -/
theorem spans_ne_of_late (h : ∀ node ∈ nodes, Readable links context node)
    (hts : .ticks n :: ts <:+ marks (written links context nodes)) : spans (pieces ts) ≠ codes nodes := by
  induction nodes generalizing n ts with
  | nil =>
    have hnil := List.suffix_nil.1 hts
    cases hnil
  | cons node nodes ih =>
    rw [List.forall_mem_cons] at h
    cases hcode : codeOf? node with
    | none =>
      rw [marks_written_of_none h.1 hcode] at hts
      rw [codes_cons_of_none hcode]
      exact ih h.2 (suffix_of_ticks_suffix hts)
    | some code =>
      cases node <;> cases hcode
      intro hspans
      obtain ⟨before, n', inside, rest, rfl, hinside, hrest⟩ := exists_first_span hspans
      have hlate : before ++ .ticks n' :: (inside ++ .ticks n' :: rest) <:+ marks (paddedCode code) ++
          marks (fence (spanFence code) ++ written links context nodes) := by
        rw [marks_written_code h.1] at hts
        rcases List.suffix_cons_iff.1 hts with heq | hts
        · exact (List.cons.inj heq).2 ▸ List.suffix_refl _
        · exact (List.suffix_cons _ _).trans hts
      exact ih h.2 (closing_suffix hlate hinside) hrest

theorem beginsWithCode_cons_of_none (hcode : codeOf? node = none) :
    BeginsWithCode links context (node :: nodes) ↔
      renderNode links context node = "" ∧ BeginsWithCode links context nodes := by
  constructor
  · rintro ⟨before, code, behind, heq, hbefore⟩
    cases before with
    | nil =>
      obtain ⟨rfl, -⟩ := List.cons.inj heq
      cases hcode
    | cons first before =>
      obtain ⟨rfl, hnodes⟩ := List.cons.inj heq
      rw [List.forall_mem_cons] at hbefore
      exact ⟨hbefore.1, before, code, behind, hnodes, hbefore.2⟩
  · rintro ⟨hempty, before, code, behind, rfl, hbefore⟩
    exact ⟨node :: before, code, behind, rfl, List.forall_mem_cons.2 ⟨hempty, hbefore⟩⟩

theorem apart_cons : Apart links context (node :: nodes) ↔
    (∀ code, node = .code code → ¬ BeginsWithCode links context nodes) ∧ Apart links context nodes := by
  constructor
  · intro h
    refine ⟨fun code hcode => h [] code nodes (by rw [hcode]; rfl), fun before code behind hnodes => ?_⟩
    exact h (node :: before) code behind (by rw [hnodes]; rfl)
  · rintro ⟨hfirst, hrest⟩ before code behind heq
    cases before with
    | nil =>
      obtain ⟨hnode, rfl⟩ := List.cons.inj heq
      exact hfirst code hnode
    | cons first before => exact hrest before code behind (List.cons.inj heq).2

theorem apart_cons_of_none (hcode : codeOf? node = none) :
    Apart links context (node :: nodes) ↔ Apart links context nodes := by
  rw [apart_cons, and_iff_right_iff_imp]
  rintro - code rfl
  cases hcode

/-- A text begins with a backtick exactly if code is shown first. -/
theorem isBacktick_written_iff (h : ∀ node ∈ nodes, Readable links context node) :
    isBacktick (written links context nodes).head? = true ↔ BeginsWithCode links context nodes := by
  induction nodes with
  | nil => simp [written, isBacktick, BeginsWithCode]
  | cons node nodes ih =>
    rw [List.forall_mem_cons] at h
    rw [written, List.flatMap_cons]
    cases hcode : codeOf? node with
    | some code =>
      cases node <;> cases hcode
      rw [renderNode, toList_codeSpan]
      exact iff_of_true rfl ⟨[], code, nodes, rfl, by simp⟩
    | none =>
      rw [beginsWithCode_cons_of_none hcode, ← ih h.2]
      cases hchars : (renderNode links context node).toList with
      | nil => exact (and_iff_right (String.toList_eq_nil_iff.1 hchars)).symm
      | cons c cs =>
        have hc : c ≠ backtick := (prose_renderNode h.1 hcode).noTicks c (by simp [hchars])
        have hshown : renderNode links context node ≠ "" := by
          rw [ne_eq, ← String.toList_eq_nil_iff, hchars]
          exact List.cons_ne_nil c cs
        exact iff_of_false (by simpa [isBacktick] using hc) fun hempty => hshown hempty.1

/-- How a node is to be read. -/
def shownAs (links : Links) (context : Nat) (node : Doc.Node) : List Piece :=
  match codeOf? node with
  | some code => [.span (paddedCode code)]
  | none => (renderNode links context node).toList.map .char

/-- Codes that do not touch are read as they were written. -/
theorem pieces_written (h : ∀ node ∈ nodes, Readable links context node)
    (hapart : Apart links context nodes) :
    pieces (marks (written links context nodes)) = nodes.flatMap (shownAs links context) := by
  induction nodes with
  | nil => rw [written, List.flatMap_nil, marks, pieces, List.flatMap_nil]
  | cons node nodes ih =>
    rw [List.forall_mem_cons] at h
    rw [List.flatMap_cons, shownAs]
    cases hcode : codeOf? node with
    | none =>
      rw [apart_cons_of_none hcode] at hapart
      rw [marks_written_of_none h.1 hcode, pieces_map_char_append, ih h.2 hapart]
    | some code =>
      cases node <;> cases hcode
      obtain ⟨hfirst, hrest⟩ := apart_cons.1 hapart
      have hticks : isBacktick (written links context nodes).head? = false := by
        rw [Bool.eq_false_iff, ne_eq, isBacktick_written_iff h.2]
        exact hfirst code rfl
      have hshorter : .ticks (spanFence code) ∉ marks (paddedCode code) :=
        fun hmem => Nat.lt_irrefl _ (lt_spanFence hmem)
      have hpos : 0 < spanFence code := Nat.succ_pos _
      rw [marks_written_code h.1, marks_fence_append hpos hticks, pieces_span hshorter, spelled_marks,
        ih h.2 hrest]
      rfl

/-- Codes that are found where they were written do not touch. -/
theorem apart_of_spans (h : ∀ node ∈ nodes, Readable links context node)
    (hspans : spans (pieces (marks (written links context nodes))) = codes nodes) :
    Apart links context nodes := by
  induction nodes with
  | nil => simp [Apart]
  | cons node nodes ih =>
    have hlate : ∀ n ts, .ticks n :: ts <:+ marks (written links context (node :: nodes)) →
        spans (pieces ts) ≠ codes (node :: nodes) := fun _ _ => spans_ne_of_late h
    rw [List.forall_mem_cons] at h
    cases hcode : codeOf? node with
    | none =>
      rw [marks_written_of_none h.1 hcode, pieces_map_char_append, spans_append, spans_map_char,
        List.nil_append, codes_cons_of_none hcode] at hspans
      exact (apart_cons_of_none hcode).2 (ih h.2 hspans)
    | some code =>
      cases node <;> cases hcode
      rw [marks_written_code h.1] at hspans hlate
      rcases ticks_cases (spanFence code) (marks (paddedCode code) ++
          marks (fence (spanFence code) ++ written links context nodes)) with
        hnone | ⟨inside, rest, hsplit, hinside⟩
      · rw [pieces_ticks hnone] at hspans
        exact absurd hspans (hlate _ _ (List.suffix_refl _))
      · rw [hsplit, pieces_span hinside] at hspans
        obtain ⟨hcontent, hspans⟩ := List.cons.inj hspans
        -- the run that ends the span is the second fence alone
        have hfence : marks (fence (spanFence code) ++ written links context nodes) =
            .ticks (spanFence code) :: rest := by
          obtain ⟨-, hlast⟩ := isBacktick_paddedCode code
          rw [← marks_append (Or.inl hlast)] at hsplit
          exact eq_of_spelled_eq (marks_append (Or.inl hlast)) hsplit
            ((spelled_marks _).trans hcontent.symm)
        have hpos : 0 < spanFence code := Nat.succ_pos _
        obtain ⟨k, behind, hmarks, -, hk⟩ := exists_marks_fence_append hpos (written links context nodes)
        have hnone : isBacktick (written links context nodes).head? = false := by
          rw [hmarks] at hfence
          have hlength := Mark.ticks.inj (List.cons.inj hfence).1
          rw [Bool.eq_false_iff, ne_eq, ← hk]
          omega
        rw [marks_fence_append hpos hnone] at hfence
        rw [← (List.cons.inj hfence).2] at hspans
        refine apart_cons.2 ⟨fun _ _ => ?_, ih h.2 hspans⟩
        rw [← isBacktick_written_iff h.2, hnone]
        exact Bool.false_ne_true

theorem spans_flatMap_shownAs (links : Links) (context : Nat) (nodes : List Doc.Node) :
    spans (nodes.flatMap (shownAs links context)) = codes nodes := by
  induction nodes with
  | nil => rfl
  | cons node nodes ih =>
    rw [List.flatMap_cons, spans_append, ih, shownAs]
    cases hcode : codeOf? node with
    | none => rw [codes_cons_of_none hcode, spans_map_char, List.nil_append]
    | some code =>
      rw [codes, codes, List.filterMap_cons_some hcode]
      rfl

theorem inert_shownAs (h : Readable links context node) : Inert (shownAs links context node) := by
  unfold shownAs
  cases hcode : codeOf? node with
  | some code =>
    refine ⟨by simp, fun front c back heq _ => ?_⟩
    cases front <;> simp at heq
  | none => exact (prose_renderNode h hcode).inert

/-! ## Without the blanks at the ends -/

theorem toList_renderNodes (links : Links) (context : Nat) (nodes : List Doc.Node) :
    (renderNodes links context nodes).toList = trim (written links context nodes) := by
  have hjoin : ∀ nodes : List Doc.Node, (String.join (nodes.map (renderNode links context))).toList =
      written links context nodes := by
    intro nodes
    induction nodes with
    | nil => rfl
    | cons node nodes ih =>
      rw [List.map_cons, String.join_cons, String.toList_append, ih]
      rfl
  rw [renderNodes, trimmed, String.toList_ofList, hjoin]

theorem ne_backtick_of_isBlank (h : isBlank c = true) : c ≠ backtick := by
  rintro rfl
  revert h
  decide

/-- The blanks at the ends of a text belong to no code span. -/
theorem exists_pieces_trim (cs : List Char) : ∃ front back : List Char,
    pieces (marks cs) = front.map .char ++ pieces (marks (trim cs)) ++ back.map .char ∧
      ∀ c ∈ front, isBlank c = true := by
  obtain ⟨front, back, heq, hfront, hback⟩ := exists_blank_ends cs
  have hticks : ∀ ds : List Char, (∀ c ∈ ds, isBlank c = true) → ∀ c ∈ ds, c ≠ backtick :=
    fun ds hds c hc => ne_backtick_of_isBlank (hds c hc)
  have hlast : isBacktick front.getLast? = false :=
    isBacktick_eq_false fun c hc => hticks front hfront c (List.mem_of_getLast? hc)
  have hfirst : isBacktick back.head? = false :=
    isBacktick_eq_false fun c hc => hticks back hback c (List.mem_of_head? hc)
  refine ⟨front, back, ?_, hfront⟩
  have hmarks : marks cs = front.map .char ++ marks (trim cs) ++ back.map .char := by
    conv_lhs => rw [heq]
    rw [marks_append (Or.inr hfirst), marks_append (Or.inl hlast), marks_eq_map_char (hticks front hfront),
      marks_eq_map_char (hticks back hback)]
  rw [hmarks, pieces_append_map_char, pieces_map_char_append]

/-- Blanks guard no brace, so it does not matter if they are taken off. -/
theorem Inert.of_blank_ends {ps : List Piece} (front back : List Char)
    (h : Inert (front.map .char ++ ps ++ back.map .char)) (hfront : ∀ c ∈ front, isBlank c = true) :
    Inert ps where
  noAngles := fun c hc => h.noAngles c (by simp [hc])
  guarded := by
    intro before c behind heq hc
    have hlast := h.guarded (front.map .char ++ before) c (behind ++ back.map .char) (by simp [heq]) hc
    cases hbefore : before.getLast? with
    | some p =>
      rw [List.getLast?_append, hbefore, Option.some_or] at hlast
      exact hlast
    | none =>
      rw [List.getLast?_append, hbefore, Option.none_or, List.getLast?_map, Option.map_eq_some_iff] at hlast
      obtain ⟨d, hd, heq⟩ := hlast
      have hblank := hfront d (List.mem_of_getLast? hd)
      rw [Piece.char.inj heq] at hblank
      revert hblank
      decide

/-- Running text is read back as it was written, each code as one code span and in order, exactly if no two
    codes touch; and then nothing outside the spans begins an element or an expression. -/
theorem spans_renderNodes_iff (h : ∀ node ∈ nodes, Readable links context node) :
    (spans (pieces (marks (renderNodes links context nodes).toList)) = codes nodes ↔
      Apart links context nodes) ∧
    (Apart links context nodes → Inert (pieces (marks (renderNodes links context nodes).toList))) := by
  obtain ⟨front, back, htrim, hfront⟩ := exists_pieces_trim (written links context nodes)
  rw [← toList_renderNodes] at htrim
  have hinert : Apart links context nodes →
      Inert (pieces (marks (renderNodes links context nodes).toList)) := by
    intro hapart
    rw [pieces_written h hapart] at htrim
    refine Inert.of_blank_ends front back ?_ hfront
    rw [← htrim]
    exact inert_flatMap fun node hnode => inert_shownAs (h node hnode)
  have hspans : spans (pieces (marks (written links context nodes))) =
      spans (pieces (marks (renderNodes links context nodes).toList)) := by
    rw [htrim, spans_append, spans_append, spans_map_char, spans_map_char, List.nil_append, List.append_nil]
  rw [← hspans]
  refine ⟨⟨apart_of_spans h, fun hapart => ?_⟩, hinert⟩
  rw [pieces_written h hapart, spans_flatMap_shownAs]

end Written

/-- Words, code with a backtick, a link with brackets in its text, and a code of one backtick. -/
def mixedNodes : List Doc.Node :=
  [.text "see \x7ba\x7d ", .code "a\x60b", .link {} (some "[x]"), .code "\x60"]

theorem spans_renderNodes_iff_mixedNodes :
    (∀ node ∈ mixedNodes, Readable (fun _ _ => some "/p/x") 0 node) ∧
    (spans (pieces (marks (renderNodes (fun _ _ => some "/p/x") 0 mixedNodes).toList)) = codes mixedNodes ↔
      Apart (fun _ _ => some "/p/x") 0 mixedNodes) ∧
    (Apart (fun _ _ => some "/p/x") 0 mixedNodes →
      Inert (pieces (marks (renderNodes (fun _ _ => some "/p/x") 0 mixedNodes).toList))) := by
  have h : ∀ node ∈ mixedNodes, Readable (fun _ _ => some "/p/x") 0 node := by decide +kernel
  exact ⟨h, spans_renderNodes_iff h⟩

/-- Two codes that touch. -/
def touchingNodes : List Doc.Node := [.code "<a>", .code "\x60\x60"]

/-- Where two codes touch there may be no code span at all, and their characters are taken for elements. -/
theorem touching_codes_misread :
    (∀ node ∈ touchingNodes, Readable (fun _ _ => none) 0 node) ∧
      spans (pieces (marks (renderNodes (fun _ _ => none) 0 touchingNodes).toList)) = [] ∧
      codes touchingNodes ≠ [] ∧
      ¬ Inert (pieces (marks (renderNodes (fun _ _ => none) 0 touchingNodes).toList)) := by
  have hread : (∀ node ∈ touchingNodes, Readable (fun _ _ => none) 0 node) ∧
      spans (pieces (marks (renderNodes (fun _ _ => none) 0 touchingNodes).toList)) = [] ∧
      codes touchingNodes ≠ [] ∧
      .char '<' ∈ pieces (marks (renderNodes (fun _ _ => none) 0 touchingNodes).toList) := by
    decide +kernel
  obtain ⟨hreadable, hspans, hcodes, hangle⟩ := hread
  exact ⟨hreadable, hspans, hcodes, fun h => (h.noAngles '<' hangle).1 rfl⟩

end ReferenceSite.Mdx
