import Mathlib.Data.Option.Basic
import ReferenceSite.Proofs.Environment.Pieces

/-!
# Literals with references between them

A text is meant as literals with references in braces between them (`Composed`): the references are to be
replaced, and the literals are to be left as they are. It is read so if no dollar sign of a literal stands
before a character of a name or before another dollar sign (`Composed.scan_mixed`), and then it comes out as
it is meant (`Composed.evaluate_of_resolved`).
-/

namespace ReferenceSite

namespace Environment

/-- A reference in braces. -/
structure Placeholder where
  /-- The variable. -/
  name : String
  /-- What takes its place if it is not set. -/
  fallback : Option String
deriving DecidableEq, Repr

namespace Placeholder

/-- What stands between the braces. -/
def inner (r : Placeholder) : List Char :=
  match r.fallback with
  | none => r.name.toList
  | some fallback => r.name.toList ++ ':' :: '-' :: fallback.toList

/-- The reference as it is written. -/
def chars (r : Placeholder) : List Char := '$' :: opening :: (r.inner ++ [closing])

/-- The reference is read as it is meant. -/
structure WellFormed (r : Placeholder) : Prop where
  name_ne_empty : r.name ≠ ""
  name_unclosed : closing ∉ r.name.toList
  name_colon : ':' ∉ r.name.toList
  fallback_unclosed : ∀ fallback ∈ r.fallback, closing ∉ fallback.toList

/-- The variable is set, or there is something to take its place. -/
def Resolved (env : Environment) (r : Placeholder) : Prop :=
  env.values.lookup r.name ≠ none ∨ r.fallback ≠ none

/-- The text of the variable or else what takes its place. -/
def filled (env : Environment) (r : Placeholder) : String :=
  match env.values.lookup r.name with
  | some (.text s) => s
  | _ => r.fallback.getD ""

end Placeholder

/-- A text of literals with references between them. -/
inductive Composed where
  /-- A literal. -/
  | literal (s : String)
  /-- A literal, a reference and what stands behind it. -/
  | mixed (s : String) (r : Placeholder) (rest : Composed)
deriving Repr

/-- No dollar sign of a literal that has some characters behind it stands before a character of a name or
    before another dollar sign. -/
def Lone (next : List Char) : List Char → Prop
  | [] => True
  | c :: cs => (c = '$' → ∀ d ∈ (cs ++ next).head?, d ≠ '$' ∧ isNameChar d = false) ∧ Lone next cs

instance decidableLone (next : List Char) : ∀ cs, Decidable (Lone next cs)
  | [] => isTrue trivial
  | c :: cs =>
    -- only one character is to be looked at, not all there are
    have : Decidable (∀ d ∈ (cs ++ next).head?, d ≠ '$' ∧ isNameChar d = false) :=
      Option.decidableForallMem _
    have := decidableLone next cs
    inferInstanceAs (Decidable ((c = '$' → _) ∧ _))

namespace Composed

/-- The characters as they are written. -/
def chars : Composed → List Char
  | literal s => s.toList
  | mixed s r rest => s.toList ++ (r.chars ++ rest.chars)

/-- The text as it is written. -/
def text (v : Composed) : String := .ofList v.chars

/-- The references, in order. -/
def references : Composed → List Placeholder
  | literal _ => []
  | mixed _ r rest => r :: rest.references

/-- The literals, in order. -/
def literals : Composed → List String
  | literal s => [s]
  | mixed s _ rest => s :: rest.literals

/-- The text with its references replaced and its literals as they are. -/
def filled (env : Environment) : Composed → String
  | literal s => s
  | mixed s r rest => s ++ (r.filled env ++ rest.filled env)

/-- No dollar sign of a literal stands before an opening brace, and every reference is read as it is meant. -/
structure WellFormed (v : Composed) : Prop where
  literals : ∀ s ∈ v.literals, Text.occursIn ['$', opening] s.toList = false
  references : ∀ r ∈ v.references, r.WellFormed

/-- No dollar sign of any literal stands before a character of a name or before another dollar sign. -/
def LoneDollars : Composed → Prop
  | literal s => Lone [] s.toList
  | mixed s r rest => Lone (r.chars ++ rest.chars) s.toList ∧ rest.LoneDollars

instance decidableLoneDollars : ∀ v : Composed, Decidable v.LoneDollars
  | literal s => inferInstanceAs (Decidable (Lone [] s.toList))
  | mixed _ _ rest => have := decidableLoneDollars rest; inferInstanceAs (Decidable (_ ∧ _))

end Composed

variable {env : Environment} {r : Placeholder} {v : Composed} {l next : List Char} {c : Char} {s : String}

/-! ## Literals and references are read as they are meant -/

theorem literal_tail (h : Text.occursIn ['$', opening] (c :: l) = false) :
    Text.occursIn ['$', opening] l = false := by
  rw [Text.occursIn, Bool.or_eq_false_iff] at h
  exact h.2

theorem ne_opening_of_literal {d : Char} (h : Text.occursIn ['$', opening] ('$' :: d :: l) = false) :
    d ≠ opening := by
  rintro rfl
  rw [Text.occursIn, Bool.or_eq_false_iff] at h
  simp [List.isPrefixOf] at h

theorem Placeholder.head?_chars (r : Placeholder) (rest : List Char) :
    (r.chars ++ rest).head? = some '$' := rfl

theorem scan_literal (hl : Text.occursIn ['$', opening] l = false) (hlone : Lone next l)
    (hnext : next.head? ≠ some opening) : scan (l ++ next) = l.map .char ++ scan next := by
  induction l with
  | nil => rfl
  | cons c l ih =>
    have hrest := ih (literal_tail hl) hlone.2
    by_cases hc : c = '$'
    · subst hc
      cases htail : l ++ next with
      | nil =>
        obtain ⟨rfl, rfl⟩ := List.append_eq_nil_iff.1 htail
        exact Starts.last.scan_eq
      | cons d cs =>
        have hd := hlone.1 rfl d (by rw [htail]; rfl)
        have hopening : d ≠ opening := by
          cases l with
          | nil =>
            rintro rfl
            rw [List.nil_append] at htail
            exact hnext (by rw [htail]; rfl)
          | cons d' l =>
            obtain ⟨rfl, -⟩ := List.cons.inj htail
            exact ne_opening_of_literal hl
        have hstarts : Starts ('$' :: d :: cs) [.char '$'] (d :: cs) := .lone hopening hd.1 hd.2
        rw [List.cons_append, htail, hstarts.scan_eq, ← htail, hrest]
        rfl
    · have hstarts : Starts (c :: (l ++ next)) [.char c] (l ++ next) := .other hc
      rw [List.cons_append, hstarts.scan_eq, hrest]
      rfl

theorem Placeholder.WellFormed.parts_inner (h : r.WellFormed) : parts r.inner = (r.name, r.fallback) := by
  obtain ⟨name, fallback⟩ := r
  cases fallback with
  | none => exact parts_name h.name_colon
  | some fallback => exact parts_fallback h.name_ne_empty h.name_colon fallback

theorem Placeholder.WellFormed.closing_not_mem (h : r.WellFormed) : closing ∉ r.inner := by
  obtain ⟨name, fallback⟩ := r
  cases fallback with
  | none => exact h.name_unclosed
  | some fallback =>
    have hfallback := h.fallback_unclosed fallback rfl
    have hname := h.name_unclosed
    have hcolon : closing ≠ ':' := by decide
    have hhyphen : closing ≠ '-' := by decide
    simp [Placeholder.inner, hname, hfallback, hcolon, hhyphen]

theorem scan_placeholder (h : r.WellFormed) (rest : List Char) :
    scan (r.chars ++ rest) = .reference r.name r.fallback :: scan rest := by
  have hstarts : Starts ('$' :: opening :: (r.inner ++ closing :: rest))
      [.reference (parts r.inner).1 (parts r.inner).2] rest := .braced h.closing_not_mem
  have hchars : r.chars ++ rest = '$' :: opening :: (r.inner ++ closing :: rest) := by
    simp [Placeholder.chars]
  rw [hchars, hstarts.scan_eq, h.parts_inner]
  rfl

/-! ## Replaced references -/

/-- The variables of the references have texts that are not empty, if they are set. -/
def Composed.TextsIn (env : Environment) (v : Composed) : Prop :=
  ∀ r ∈ v.references, ∀ value, env.values.lookup r.name = some value → ∃ s, s ≠ "" ∧ value = .text s

theorem getOr_of_resolved
    (htext : ∀ value, env.values.lookup r.name = some value → ∃ s, s ≠ "" ∧ value = .text s)
    (h : r.Resolved env) : env.getOr r.name r.fallback = .ok (r.filled env) := by
  unfold getOr get Placeholder.filled
  cases hvalue : env.values.lookup r.name with
  | some value =>
    obtain ⟨s, -, rfl⟩ := htext value hvalue
    cases r.fallback <;> rfl
  | none =>
    obtain ⟨fallback, hfallback⟩ := Option.ne_none_iff_exists'.1 (h.resolve_left (not_not_intro hvalue))
    rw [hfallback]
    rfl

theorem getOr_of_not_resolved (h : ¬ r.Resolved env) :
    env.getOr r.name r.fallback = .error ⟨r.name, .notSet⟩ := by
  unfold Placeholder.Resolved at h
  rw [not_or, not_not, not_not] at h
  unfold getOr get
  rw [h.1, h.2]

theorem Composed.scan_mixed {rest : Composed} (hv : (mixed s r rest).WellFormed)
    (hlone : (mixed s r rest).LoneDollars) : scan (mixed s r rest).chars =
      s.toList.map .char ++ .reference r.name r.fallback :: scan rest.chars := by
  have hs := hv.literals s List.mem_cons_self
  have hr := hv.references r List.mem_cons_self
  have hnext : (r.chars ++ rest.chars).head? ≠ some opening := by
    rw [r.head?_chars]
    decide
  rw [chars, scan_literal hs hlone.1 hnext, scan_placeholder hr]

theorem Composed.WellFormed.rest {rest : Composed} (hv : (mixed s r rest).WellFormed) : rest.WellFormed :=
  ⟨fun s hs => hv.literals s (List.mem_cons_of_mem _ hs),
    fun r hr => hv.references r (List.mem_cons_of_mem _ hr)⟩

theorem Composed.evaluate_of_resolved (hv : v.WellFormed) (hlone : v.LoneDollars) (htexts : v.TextsIn env)
    (h : ∀ r ∈ v.references, r.Resolved env) : env.evaluate (scan v.chars) = .ok (v.filled env) := by
  induction v with
  | literal s =>
    have hscan : scan (s.toList ++ []) = s.toList.map .char ++ scan [] :=
      scan_literal (hv.literals s List.mem_cons_self) hlone (by simp)
    rw [List.append_nil] at hscan
    rw [chars, hscan, evaluate_chars_append]
    show Except.ok (String.ofList s.toList ++ "") = .ok s
    rw [String.ofList_toList, String.append_empty]
  | mixed s r rest ih =>
    have hrest := ih hv.rest hlone.2 (fun r hr => htexts r (List.mem_cons_of_mem _ hr))
      (fun r hr => h r (List.mem_cons_of_mem _ hr))
    have hr : env.valueOf (.reference r.name r.fallback) = .ok (r.filled env) :=
      getOr_of_resolved (htexts r List.mem_cons_self) (h r List.mem_cons_self)
    rw [scan_mixed hv hlone, evaluate_chars_append, evaluate_cons_ok hr, hrest]
    show Except.ok (String.ofList s.toList ++ _) = Except.ok (s ++ _)
    rw [String.ofList_toList]

theorem Composed.evaluate_of_not_resolved (hv : v.WellFormed) (hlone : v.LoneDollars) (htexts : v.TextsIn env)
    {front back : List Placeholder} (href : v.references = front ++ r :: back)
    (hfront : ∀ r ∈ front, r.Resolved env) (hr : ¬ r.Resolved env) :
    env.evaluate (scan v.chars) = .error ⟨r.name, .notSet⟩ := by
  induction v generalizing front with
  | literal s =>
    have hnil : front ++ r :: back = [] := href.symm
    simp at hnil
  | mixed s r' rest ih =>
    rw [scan_mixed hv hlone, evaluate_chars_append]
    cases front with
    | nil =>
      obtain ⟨rfl, -⟩ := List.cons.inj href
      have herror : env.valueOf (.reference r'.name r'.fallback) = .error ⟨r'.name, .notSet⟩ :=
        getOr_of_not_resolved hr
      rw [evaluate_cons_error herror]
      rfl
    | cons r'' front =>
      obtain ⟨rfl, hreferences⟩ := List.cons.inj href
      have hok : env.valueOf (.reference r'.name r'.fallback) = .ok (r'.filled env) :=
        getOr_of_resolved (htexts r' List.mem_cons_self) (hfront r' List.mem_cons_self)
      have hrest := ih hv.rest hlone.2 (fun r hr => htexts r (List.mem_cons_of_mem _ hr)) hreferences
        (fun r hr => hfront r (List.mem_cons_of_mem _ hr))
      rw [evaluate_cons_ok hok, hrest]
      rfl

end Environment

end ReferenceSite
