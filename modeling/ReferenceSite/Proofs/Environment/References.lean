import Mathlib.Data.List.Induction
import ReferenceSite.Configuration.File
import ReferenceSite.Proofs.Environment.Composed

/-!
# References in settings

A setting whose references are to be replaced comes out as it is meant in every environment if and only if it
has no references, or no dollar sign of its literals stands before a character of a name or before another
dollar sign (`ConfigurationFile.expandSetting_iff`). For the converse one environment is enough, in which all
variables have the value `v`: two dollar signs come out as one, and no literal behind them makes up for
it (`lone_of_marked`).
-/

namespace ReferenceSite

namespace Environment

variable {env : Environment} {r : Placeholder} {v : Composed} {l next f cs : List Char} {c : Char}
  {ps : List Piece} {s : String} {names : List String}

/-! ## All variables with one value -/

/-- The variable of a reference. -/
def Piece.name? : Piece → Option String
  | .char _ => none
  | .reference name _ => some name

/-- A character for every piece: a reference becomes the value `v`. -/
def mark : Piece → Char
  | .char c => c
  | .reference _ _ => 'v'

/-- A text with all that is read as a reference replaced by `v`. -/
def marked (cs : List Char) : List Char := (scan cs).map mark

/-- A text with all that is meant as a reference replaced by `v`. -/
def Composed.marks : Composed → List Char
  | literal s => s.toList
  | mixed s _ rest => s.toList ++ 'v' :: rest.marks

/-- The environment in which some variables have the value `v`. -/
def uniform (names : List String) : Environment := ⟨names.map fun name => (name, .text "v")⟩

theorem lookup_uniform {name : String} (h : name ∈ names) :
    (uniform names).values.lookup name = some (.text "v") := by
  induction names with
  | nil => cases h
  | cons name' names ih =>
    show List.lookup name ((name', Value.text "v") :: (uniform names).values) = _
    rw [List.lookup_cons]
    by_cases hname : name = name'
    · rw [beq_iff_eq.2 hname]
    · rw [beq_eq_false_iff_ne.2 hname]
      exact ih ((List.mem_cons.1 h).resolve_left hname)

theorem evaluate_uniform (h : ∀ name fallback, Piece.reference name fallback ∈ ps → name ∈ names) :
    (uniform names).evaluate ps = .ok (.ofList (ps.map mark)) := by
  induction ps with
  | nil => rfl
  | cons p ps ih =>
    have hp : (uniform names).valueOf p = .ok (.ofList [mark p]) := by
      cases p with
      | char c => rfl
      | reference name fallback =>
        show (uniform names).getOr name fallback = _
        unfold getOr get
        rw [lookup_uniform (h name fallback List.mem_cons_self)]
        cases fallback <;> rfl
    rw [evaluate_cons_ok hp, ih fun name fallback hmem => h name fallback (List.mem_cons_of_mem _ hmem)]
    show Except.ok (String.ofList [mark p] ++ String.ofList (ps.map mark)) = _
    rw [← String.ofList_append]
    rfl

theorem Composed.filled_uniform (h : ∀ r ∈ v.references, r.name ∈ names) :
    v.filled (uniform names) = .ofList v.marks := by
  induction v with
  | literal s => exact s.ofList_toList.symm
  | mixed s r rest ih =>
    have hr : r.filled (uniform names) = "v" := by
      unfold Placeholder.filled
      rw [lookup_uniform (h r List.mem_cons_self)]
    have hrest := ih fun r hr => h r (List.mem_cons_of_mem _ hr)
    have hmarks : "v" ++ String.ofList rest.marks = String.ofList ('v' :: rest.marks) := by
      show String.ofList ['v'] ++ String.ofList rest.marks = _
      rw [← String.ofList_append]
      rfl
    rw [filled, hr, hrest, hmarks, marks, String.ofList_append, String.ofList_toList]

theorem Starts.marked_eq {rest : List Char} (h : Starts cs ps rest) :
    marked cs = ps.map mark ++ marked rest := by
  unfold marked
  rw [h.scan_eq, List.map_append]

theorem marked_other (hc : c ≠ '$') (cs : List Char) : marked (c :: cs) = c :: marked cs :=
  (Starts.other hc).marked_eq

theorem marked_double (cs : List Char) : marked ('$' :: '$' :: cs) = '$' :: marked cs :=
  Starts.double.marked_eq

theorem marked_bare (hname : isNameChar c = true) (cs : List Char) :
    ∃ rest, marked ('$' :: c :: cs) = 'v' :: rest :=
  ⟨_, (Starts.bare hname).marked_eq⟩

theorem marked_lone (hopening : c ≠ opening) (hdollar : c ≠ '$') (hname : isNameChar c = false)
    (cs : List Char) : marked ('$' :: c :: cs) = '$' :: marked (c :: cs) :=
  (Starts.lone hopening hdollar hname).marked_eq

theorem replicate_append_cons (n : Nat) (cs : List Char) :
    List.replicate n '$' ++ '$' :: cs = '$' :: (List.replicate n '$' ++ cs) := by
  rw [List.append_cons, ← List.replicate_succ', List.replicate_succ, List.cons_append]

theorem lost_eq_zero {lost : Nat} {cs' : List Char} (hc : c ≠ '$')
    (h : c :: cs = List.replicate lost '$' ++ cs') : lost = 0 := by
  cases lost with
  | zero => rfl
  | succ lost => exact absurd (List.cons.inj h).1 hc

/-- A literal that is left as it is once all that is read as a reference is replaced has lone dollar signs
    only. No literal makes up for dollar signs that the text before it has lost. -/
theorem lone_of_marked (hl : Text.occursIn ['$', opening] l = false)
    (hnext : next = [] ∨ ∃ cs, next = '$' :: opening :: cs) (hmarked : (marked next).head? ≠ some '$')
    (hf : f.head? ≠ some opening) {lost : Nat}
    (h : marked (l ++ next) = List.replicate lost '$' ++ (l ++ f)) :
    lost = 0 ∧ Lone next l ∧ marked next = f := by
  induction l using List.twoStepInduction generalizing lost with
  | nil =>
    cases lost with
    | zero => exact ⟨rfl, trivial, h⟩
    | succ lost =>
      rw [List.nil_append] at h
      rw [h] at hmarked
      exact absurd rfl hmarked
  | singleton c =>
    rw [List.singleton_append, List.singleton_append] at h
    by_cases hc : c = '$'
    · subst hc
      rw [replicate_append_cons] at h
      rcases hnext with rfl | ⟨cs, rfl⟩
      · rw [Starts.last.marked_eq] at h
        obtain ⟨hlost, rfl⟩ := List.append_eq_nil_iff.1 (List.cons.inj h).2.symm
        have hlone : Lone [] ['$'] := by decide
        exact ⟨(List.replicate_eq_nil_iff _).1 hlost, hlone, rfl⟩
      · -- the brace behind the two dollar signs stands where a dollar sign or a replaced reference should
        rw [marked_double, marked_other opening_ne_dollar] at h
        have hbrace : opening :: marked cs = List.replicate lost '$' ++ f := (List.cons.inj h).2
        obtain rfl := lost_eq_zero opening_ne_dollar hbrace
        have hhead : f = opening :: marked cs := hbrace.symm
        rw [hhead] at hf
        exact absurd rfl hf
    · rw [marked_other hc] at h
      obtain rfl := lost_eq_zero hc h
      exact ⟨rfl, ⟨fun heq => absurd heq hc, trivial⟩, (List.cons.inj h).2⟩
  | cons_cons c d l ih₂ ih₁ =>
    have htail := literal_tail hl
    rw [List.cons_append, List.cons_append, List.cons_append] at h
    by_cases hc : c = '$'
    · subst hc
      rw [replicate_append_cons] at h
      by_cases hd : d = '$'
      · subst hd
        rw [List.cons_append, marked_double, replicate_append_cons] at h
        have hrest : marked (l ++ next) = List.replicate (lost + 1) '$' ++ (l ++ f) := (List.cons.inj h).2
        obtain ⟨hlost, -⟩ := ih₂ (literal_tail htail) hrest
        cases hlost
      · cases hname : isNameChar d with
        | true =>
          obtain ⟨rest, hbare⟩ := marked_bare hname (l ++ next)
          rw [List.cons_append, hbare] at h
          have hv : 'v' = '$' := (List.cons.inj h).1
          exact absurd hv (by decide)
        | false =>
          rw [List.cons_append, marked_lone (ne_opening_of_literal hl) hd hname] at h
          obtain ⟨hlost, hlone, hrest⟩ := ih₁ d htail (List.cons.inj h).2
          refine ⟨hlost, ⟨fun _ d' hd' => ?_, hlone⟩, hrest⟩
          obtain rfl : d = d' := Option.some.inj hd'
          exact ⟨hd, hname⟩
    · rw [marked_other hc] at h
      obtain rfl := lost_eq_zero hc h
      have hkept : marked (d :: l ++ next) = List.replicate 0 '$' ++ (d :: l ++ f) := (List.cons.inj h).2
      obtain ⟨-, hlone, hrest⟩ := ih₁ d htail hkept
      exact ⟨rfl, ⟨fun heq => absurd heq hc, hlone⟩, hrest⟩

theorem Composed.loneDollars_of_marked (hv : v.WellFormed) (h : marked v.chars = v.marks) :
    v.LoneDollars := by
  induction v with
  | literal s =>
    have hs := hv.literals s List.mem_cons_self
    have hmarks : marked (s.toList ++ []) = List.replicate 0 '$' ++ (s.toList ++ []) := by
      rw [List.append_nil]
      exact h
    exact (lone_of_marked hs (Or.inl rfl) (by decide) (by decide) hmarks).2.1
  | mixed s r rest ih =>
    have hs := hv.literals s List.mem_cons_self
    have hreference : marked (r.chars ++ rest.chars) = 'v' :: marked rest.chars := by
      unfold marked
      rw [scan_placeholder (hv.references r List.mem_cons_self)]
      rfl
    have hnext : ∃ cs, r.chars ++ rest.chars = '$' :: opening :: cs := ⟨_, rfl⟩
    have hhead : (marked (r.chars ++ rest.chars)).head? ≠ some '$' := by
      rw [hreference, List.head?_cons]
      decide
    have hmarks : marked (s.toList ++ (r.chars ++ rest.chars)) =
        List.replicate 0 '$' ++ (s.toList ++ 'v' :: rest.marks) := h
    have hv' : ('v' :: rest.marks).head? ≠ some opening := by
      rw [List.head?_cons]
      decide
    obtain ⟨-, hlone, hrest⟩ := lone_of_marked hs (Or.inr hnext) hhead hv' hmarks
    rw [hreference] at hrest
    exact ⟨hlone, ih hv.rest (List.cons.inj hrest).2⟩

/-! ## Whole settings -/

namespace Composed

/-- The references are replaced and the literals are left as they are, and if a variable without a text
    prevents it, the error names the first one and the setting. -/
structure Expands (v : Composed) (env : Environment) (setting : String) : Prop where
  value : (∀ r ∈ v.references, r.Resolved env) →
    ConfigurationFile.expandSetting env setting (some v.text) = .ok (some (v.filled env))
  error : ∀ front r back, v.references = front ++ r :: back → (∀ r ∈ front, r.Resolved env) →
    ¬ r.Resolved env → ConfigurationFile.expandSetting env setting (some v.text) =
      .error { setting, failure := ⟨r.name, .notSet⟩ }

theorem occursIn_append_placeholder (l : List Char) (r : Placeholder) (rest : List Char) :
    Text.occursIn ['$', opening] (l ++ (r.chars ++ rest)) = true := by
  induction l with
  | nil =>
    show Text.occursIn ['$', opening] ('$' :: opening :: _) = true
    simp [Text.occursIn, List.isPrefixOf]
  | cons c l ih => rw [List.cons_append, Text.occursIn, ih, Bool.or_true]

theorem expand_literal (h : (literal s).WellFormed) : env.expand (literal s).text = .ok s := by
  have hs := h.literals s List.mem_cons_self
  rw [text, chars, expand_eq, String.ofList_toList, hs, if_neg Bool.false_ne_true]

theorem expand_mixed {rest : Composed} : env.expand (mixed s r rest).text =
    env.evaluate (scan (mixed s r rest).chars) := by
  have hs := occursIn_append_placeholder s.toList r rest.chars
  rw [expand_eq, text, String.toList_ofList, chars, hs, if_pos rfl]

theorem textsIn_uniform (h : ∀ r ∈ v.references, r.name ∈ names) : v.TextsIn (uniform names) := by
  intro r hr value hvalue
  rw [lookup_uniform (h r hr)] at hvalue
  exact ⟨"v", by decide, (Option.some.inj hvalue).symm⟩

theorem resolved_uniform (h : r.name ∈ names) : r.Resolved (uniform names) := by
  left
  rw [lookup_uniform h]
  exact Option.some_ne_none _

/-- One environment is enough to see whether a text with a reference has lone dollar signs only. -/
theorem loneDollars_of_expand {rest : Composed} (hv : (mixed s r rest).WellFormed)
    (h : ∀ env, (mixed s r rest).TextsIn env → (∀ r' ∈ (mixed s r rest).references, r'.Resolved env) →
      env.expand (mixed s r rest).text = .ok ((mixed s r rest).filled env)) :
    (mixed s r rest).LoneDollars := by
  let read := (scan (mixed s r rest).chars).filterMap Piece.name?
  let meant := (mixed s r rest).references.map Placeholder.name
  have hmeant : ∀ r' ∈ (mixed s r rest).references, r'.name ∈ read ++ meant := fun r' hr' =>
    List.mem_append_right _ (List.mem_map_of_mem hr')
  have hread : ∀ name fallback, Piece.reference name fallback ∈ scan (mixed s r rest).chars →
      name ∈ read ++ meant := fun name fallback hp =>
    List.mem_append_left _ (List.mem_filterMap.2 ⟨_, hp, rfl⟩)
  have hexpand := h (uniform (read ++ meant)) (textsIn_uniform hmeant)
    fun r' hr' => resolved_uniform (hmeant r' hr')
  rw [expand_mixed, evaluate_uniform hread, filled_uniform hmeant] at hexpand
  exact loneDollars_of_marked hv (String.ofList_injective (Except.ok.inj hexpand))

end Composed

end Environment

namespace ConfigurationFile

open Environment Environment.Composed

variable {env : Environment} {v : Composed} {setting : String}

theorem expandSetting_eq_ok_iff {s s' : String} :
    expandSetting env setting (some s) = .ok (some s') ↔ env.expand s = .ok s' := by
  rw [expandSetting]
  cases env.expand s with
  | ok s'' => simp [Except.map, Except.mapError]
  | error failure => simp [Except.map, Except.mapError]

/-- A setting has its references replaced and its literals left as they are in every environment in which
    their variables have texts, if they are set, exactly if it has no references or lone dollar signs only. -/
theorem expandSetting_iff (hv : v.WellFormed) :
    (∀ env setting, v.TextsIn env → v.Expands env setting) ↔ v.references = [] ∨ v.LoneDollars := by
  constructor
  · intro h
    cases v with
    | literal s => exact Or.inl rfl
    | mixed s r rest =>
      right
      refine loneDollars_of_expand hv fun env htexts hresolved => ?_
      exact expandSetting_eq_ok_iff.1 ((h env "" htexts).value hresolved)
  · intro h env setting htexts
    cases v with
    | literal s =>
      refine ⟨fun _ => expandSetting_eq_ok_iff.2 (expand_literal hv), fun front r back href => ?_⟩
      have hnil : front ++ r :: back = [] := href.symm
      simp at hnil
    | mixed s r rest =>
      have hlone : (mixed s r rest).LoneDollars := h.resolve_left (List.cons_ne_nil _ _)
      refine ⟨fun hresolved => ?_, fun front r' back href hfront hr' => ?_⟩
      · rw [expandSetting_eq_ok_iff, expand_mixed]
        exact evaluate_of_resolved hv hlone htexts hresolved
      · rw [expandSetting, expand_mixed, evaluate_of_not_resolved hv hlone htexts href hfront hr']
        rfl

/-- Dollar signs before other characters stay as they are. -/
def loneText : Composed :=
  .mixed "$/" ⟨"A", none⟩ (.mixed "-$ " ⟨"B", some "$C"⟩ (.literal "$"))

theorem expandSetting_loneText : loneText.text = "$/$\x7bA\x7d-$ $\x7bB:-$C\x7d$" ∧
    ∀ env setting, loneText.TextsIn env → loneText.Expands env setting := by
  have hv : loneText.WellFormed := by
    refine ⟨by decide, ?_⟩
    have hfirst : Placeholder.WellFormed ⟨"A", none⟩ := ⟨by decide, by decide, by decide, by decide⟩
    have hsecond : Placeholder.WellFormed ⟨"B", some "$C"⟩ := ⟨by decide, by decide, by decide, by decide⟩
    simp [loneText, Composed.references, hfirst, hsecond]
  have hlone : loneText.LoneDollars := by decide +kernel
  exact ⟨by decide +kernel, (expandSetting_iff hv).2 (Or.inr hlone)⟩

/-- A name without braces before a reference. -/
def bareText : Composed := .mixed "$A/" ⟨"B", none⟩ (.literal "")

/-- Both variables of the text are set. -/
def bareVariables : Environment := ⟨[("A", .text "a"), ("B", .text "b")]⟩

/-- The name without braces is replaced by a value because there is a reference behind it. -/
theorem bareText_not_expands : bareText.WellFormed ∧ bareText.text = "$A/$\x7bB\x7d" ∧
    bareText.filled bareVariables = "$A/b" ∧
    expandSetting bareVariables "model.path" (some bareText.text) = .ok (some "a/b") ∧
    ¬ ∀ env setting, bareText.TextsIn env → bareText.Expands env setting := by
  have hreference : Placeholder.WellFormed ⟨"B", none⟩ := ⟨by decide, by decide, by decide, by decide⟩
  have hfilled : bareText.filled bareVariables = "$A/b" := by decide +kernel
  have hrun : expandSetting bareVariables "model.path" (some bareText.text) = .ok (some "a/b") := by
    decide +kernel
  refine ⟨⟨by decide, by simp [bareText, Composed.references, hreference]⟩, by decide +kernel, hfilled, hrun,
    fun h => ?_⟩
  have hb : bareVariables.values.lookup "B" = some (.text "b") := by decide
  have htexts : bareText.TextsIn bareVariables := by
    intro r hr value hvalue
    obtain rfl := List.mem_singleton.1 hr
    rw [hb] at hvalue
    exact ⟨"b", by decide, (Option.some.inj hvalue).symm⟩
  have hresolved : ∀ r ∈ bareText.references, r.Resolved bareVariables := by
    intro r hr
    obtain rfl := List.mem_singleton.1 hr
    left
    rw [hb]
    exact Option.some_ne_none _
  have hvalue := (h bareVariables "model.path" htexts).value hresolved
  rw [hrun, hfilled] at hvalue
  exact absurd hvalue (by decide)

end ConfigurationFile

end ReferenceSite
