import ReferenceSite.Proofs.Text.Digits
import ReferenceSite.Proofs.Text.Split
import ReferenceSite.Proofs.Text.Trim
import ReferenceSite.Reference

/-!
# The short form of references

A short form consists of a package, of names and of an overload, the first and the last of which may be
missing (`IsShortForm`); `Reference.ofText?` reads exactly these texts, blank characters at the ends aside
(`ofText?_eq_ok_iff`). Not every reference is read back from the text that is written for it, since a
separator or a blank character in a name may be taken for one of the text. `HasShortForm` says which are
(`reread_iff_hasShortForm`).
-/

namespace ReferenceSite.Reference

open Text

/-! ## The parts of a short form -/

/-- The names of members, joined. -/
def joined (members : List String) : List Char := List.intercalate ['.'] (members.map String.toList)

/-- The digits of an overload. -/
def digits (n : UInt32) : List Char := Nat.toDigits 10 n.toNat

/-- The name of a member in a short form. -/
def IsMemberName (name : String) : Prop := name ≠ "" ∧ '.' ∉ name.toList

/-- A text names a package, or none, in front of a rest. -/
inductive Packaged : (package : Option String) → (cs rest : List Char) → Prop where
  | named {p : String} {rest : List Char} (hne : p ≠ "") (h : '!' ∉ p.toList) :
    Packaged (some p) (p.toList ++ '!' :: rest) rest
  | marked {rest : List Char} : Packaged none ('!' :: rest) rest
  | absent {rest : List Char} (h : '!' ∉ rest) : Packaged none rest rest

/-- A text names an overload, or none, behind a path. -/
inductive Overloaded : (overload : Option UInt32) → (rest path : List Char) → Prop where
  | given {n : UInt32} {path index : List Char} (h : ':' ∉ index) (hindex : overload? index = some n) :
    Overloaded (some n) (path ++ ':' :: index) path
  | absent {path : List Char} (h : ':' ∉ path) : Overloaded none path path

/-- A text is a short form of a reference. -/
structure IsShortForm (cs : List Char) (r : Reference) : Prop where
  parts : ∃ rest, Packaged r.package cs rest ∧ Overloaded r.overload rest (joined r.members)
  names : ∀ name ∈ r.members, IsMemberName name
  nonempty : r.package = none → r.members ≠ []

/-- A name begins with a blank character. -/
def StartsBlank (name : String) : Prop := ∃ c, name.toList.head? = some c ∧ isBlank c = true

/-- A name ends with a blank character. -/
def EndsBlank (name : String) : Prop := ∃ c, name.toList.getLast? = some c ∧ isBlank c = true

/-- No name in a reference is mistaken for anything else in its text. Without a package the members are the
    front of the text, and without an overload they are its back. -/
structure HasShortForm (r : Reference) : Prop where
  names : ∀ name ∈ r.members, IsMemberName name
  package : ∀ p, r.package = some p → p ≠ "" ∧ '!' ∉ p.toList ∧ ¬ StartsBlank p
  front : r.package = none → r.members ≠ [] ∧ (∀ name ∈ r.members, '!' ∉ name.toList) ∧
    ∀ first, r.members.head? = some first → ¬ StartsBlank first
  back : r.overload = none → (∀ name ∈ r.members, ':' ∉ name.toList) ∧
    ∀ last, r.members.getLast? = some last → ¬ EndsBlank last

variable {cs rest path : List Char} {package : Option String} {overload : Option UInt32}
  {members : List String} {r : Reference}

theorem Packaged.exists_append (h : Packaged package cs rest) : ∃ front, cs = front ++ rest := by
  cases h with
  | @named p rest _ _ => exact ⟨p.toList ++ ['!'], by simp⟩
  | marked => exact ⟨['!'], rfl⟩
  | absent => exact ⟨[], rfl⟩

/-- Only the text that leaves the package out begins with a mark. -/
theorem Packaged.eq_of_head? (h : Packaged package cs rest) (hmark : cs.head? = some '!') :
    package = none ∧ cs = '!' :: rest := by
  cases h with
  | named hne hname =>
    rw [List.head?_append_of_ne_nil _ (by simpa using hne)] at hmark
    exact absurd (List.mem_of_head? hmark) hname
  | marked => exact ⟨rfl, rfl⟩
  | absent hrest => exact absurd (List.mem_of_head? hmark) hrest

theorem Overloaded.exists_index {n : UInt32} (h : Overloaded (some n) rest path) :
    ∃ index, rest = path ++ ':' :: index ∧ ':' ∉ index := by
  cases h with
  | given hcolon => exact ⟨_, rfl, hcolon⟩

theorem Overloaded.exists_append (h : Overloaded overload rest path) : ∃ back, rest = path ++ back := by
  cases h with
  | given => exact ⟨_, rfl⟩
  | absent => exact ⟨[], (List.append_nil _).symm⟩

theorem not_startsBlank_iff {name : String} :
    ¬ StartsBlank name ↔ ∀ c, name.toList.head? = some c → isBlank c = false := by
  simp [StartsBlank]

theorem not_endsBlank_iff {name : String} :
    ¬ EndsBlank name ↔ ∀ c, name.toList.getLast? = some c → isBlank c = false := by
  simp [EndsBlank]

/-! ## Reading the parts -/

theorem splitPackage_eq_iff : splitPackage cs = (package, rest) ↔ Packaged package cs rest := by
  unfold splitPackage
  constructor
  · intro h
    cases hsplit : splitFirst (· == '!') cs with
    | none =>
      rw [hsplit] at h
      obtain ⟨rfl, rfl⟩ := Prod.mk.inj h
      exact .absent (splitFirst_eq_none_iff.1 hsplit)
    | some parts =>
      obtain ⟨front, back⟩ := parts
      obtain ⟨rfl, hfront⟩ := splitFirst_eq_some_iff.1 hsplit
      rw [hsplit] at h
      cases front with
      | nil =>
        obtain ⟨rfl, rfl⟩ := Prod.mk.inj h
        exact .marked
      | cons c front =>
        obtain ⟨rfl, rfl⟩ := Prod.mk.inj h
        have hpackage : Packaged (some (.ofList (c :: front)))
            ((String.ofList (c :: front)).toList ++ '!' :: back) back :=
          .named (by simp) (by simpa using hfront)
        rwa [String.toList_ofList] at hpackage
  · rintro (⟨hne, h⟩ | _ | h)
    · next p =>
      rw [splitFirst_eq_some_iff.2 ⟨rfl, h⟩]
      cases hp : p.toList with
      | nil => exact absurd (by simpa using hp) hne
      | cons c front => simp [← hp]
    · rw [splitFirst_eq_some_iff.2 ⟨(List.nil_append _).symm, List.not_mem_nil⟩]
    · rw [splitFirst_eq_none_iff.2 h]

/-- What stands before the overload, and the overload. -/
def splitOverload? (rest : List Char) : Option (List Char × Option UInt32) :=
  match splitLast (· == ':') rest with
  | none => some (rest, none)
  | some (path, index) => (overload? index).map fun n => (path, some n)

theorem splitOverload?_eq_some_iff :
    splitOverload? rest = some (path, overload) ↔ Overloaded overload rest path := by
  unfold splitOverload?
  constructor
  · intro h
    cases hsplit : splitLast (· == ':') rest with
    | none =>
      rw [hsplit] at h
      obtain ⟨rfl, rfl⟩ := Prod.mk.inj (Option.some.inj h)
      exact .absent (splitLast_eq_none_iff.1 hsplit)
    | some parts =>
      obtain ⟨front, index⟩ := parts
      obtain ⟨rfl, hcolon⟩ := splitLast_eq_some_iff.1 hsplit
      rw [hsplit] at h
      obtain ⟨n, hindex, heq⟩ := Option.map_eq_some_iff.1 h
      obtain ⟨rfl, rfl⟩ := Prod.mk.inj heq
      exact .given hcolon hindex
  · rintro (⟨hcolon, hindex⟩ | h)
    · rw [splitLast_eq_some_iff.2 ⟨rfl, hcolon⟩]
      simp [hindex]
    · rw [splitLast_eq_none_iff.2 h]

/-! ## Joined names -/

theorem joined_cons_cons (s u : String) (us : List String) :
    joined (s :: u :: us) = s.toList ++ '.' :: joined (u :: us) := by
  simp [joined, List.intercalate_cons_cons]

theorem joined_singleton (s : String) : joined [s] = s.toList := by
  simp [joined]

theorem joined_ne_nil (hne : members ≠ []) (h : ∀ name ∈ members, IsMemberName name) :
    joined members ≠ [] := by
  cases members with
  | nil => exact absurd rfl hne
  | cons s ss =>
    have hs : s.toList ≠ [] := by simpa using (h s List.mem_cons_self).1
    cases ss with
    | nil => rwa [joined_singleton]
    | cons u us => simp [joined_cons_cons]

/-- Joined names begin as the first one does. -/
theorem head?_joined (h : ∀ name ∈ members, IsMemberName name) :
    (joined members).head? = members.head?.bind fun name => name.toList.head? := by
  cases members with
  | nil => rfl
  | cons s ss =>
    have hs : s.toList ≠ [] := by simpa using (h s List.mem_cons_self).1
    cases ss with
    | nil => rw [joined_singleton]; rfl
    | cons u us =>
      rw [joined_cons_cons, List.head?_append_of_ne_nil _ hs]
      rfl

/-- Joined names end as the last one does. -/
theorem getLast?_joined (h : ∀ name ∈ members, IsMemberName name) :
    (joined members).getLast? = members.getLast?.bind fun name => name.toList.getLast? := by
  induction members with
  | nil => rfl
  | cons s ss ih =>
    cases ss with
    | nil => rw [joined_singleton]; rfl
    | cons u us =>
      have hrest := fun name hname => h name (List.mem_cons_of_mem s hname)
      have hne := joined_ne_nil (List.cons_ne_nil u us) hrest
      have hlast : ('.' :: joined (u :: us)).getLast? = (joined (u :: us)).getLast? := by
        rw [← List.singleton_append, List.getLast?_append_of_ne_nil _ hne]
      rw [joined_cons_cons, List.getLast?_append_of_ne_nil _ (List.cons_ne_nil _ _), hlast, ih hrest]
      simp

theorem isBlank_head?_joined_iff (h : ∀ name ∈ members, IsMemberName name) :
    (∀ c, (joined members).head? = some c → isBlank c = false) ↔
      ∀ first, members.head? = some first → ¬ StartsBlank first := by
  simp only [head?_joined h, Option.bind_eq_some_iff, not_startsBlank_iff]
  exact ⟨fun hc first hfirst c hhead => hc c ⟨first, hfirst, hhead⟩,
    fun hfirst c ⟨first, hmem, hhead⟩ => hfirst first hmem c hhead⟩

theorem isBlank_getLast?_joined_iff (h : ∀ name ∈ members, IsMemberName name) :
    (∀ c, (joined members).getLast? = some c → isBlank c = false) ↔
      ∀ last, members.getLast? = some last → ¬ EndsBlank last := by
  simp only [getLast?_joined h, Option.bind_eq_some_iff, not_endsBlank_iff]
  exact ⟨fun hc last hlast c hend => hc c ⟨last, hlast, hend⟩,
    fun hlast c ⟨last, hmem, hend⟩ => hlast last hmem c hend⟩

/-- Apart from separators, joined names have the characters of the names. -/
theorem mem_joined_iff {c : Char} (hc : c ≠ '.') :
    c ∈ joined members ↔ ∃ name ∈ members, c ∈ name.toList := by
  induction members with
  | nil => simp [joined]
  | cons s ss ih =>
    cases ss with
    | nil => simp [joined_singleton]
    | cons u us =>
      rw [joined_cons_cons, List.mem_append, List.mem_cons, ih]
      simp [hc]

/-- The names in a path. -/
def pathNames (path : List Char) : List (List Char) :=
  if path.isEmpty then [] else splitWhere (· == '.') path

theorem pathNames_joined (h : ∀ name ∈ members, IsMemberName name) :
    pathNames (joined members) = members.map String.toList := by
  unfold pathNames
  cases members with
  | nil => rfl
  | cons s ss =>
    have hne : joined (s :: ss) ≠ [] := joined_ne_nil (List.cons_ne_nil s ss) h
    rw [if_neg (by simpa using hne), splitWhere_eq_splitOnP, ← List.splitOn_eq_splitOnP]
    refine List.splitOn_intercalate '.' ?_ (by simp)
    intro l hl
    obtain ⟨name, hname, rfl⟩ := List.mem_map.1 hl
    exact (h name hname).2

theorem joined_pathNames (path : List Char) : joined ((pathNames path).map String.ofList) = path := by
  unfold pathNames
  split_ifs with hempty
  · rw [List.isEmpty_iff.1 hempty]
    rfl
  · have hchars : (splitWhere (· == '.') path).map (String.toList ∘ String.ofList) =
        splitWhere (· == '.') path := by simp [Function.comp_def]
    rw [joined, List.map_map, hchars, splitWhere_eq_splitOnP, ← List.splitOn_eq_splitOnP,
      List.intercalate_splitOn]

/-- No name in a path has a separator. -/
theorem not_mem_of_mem_pathNames {name : List Char} (h : name ∈ pathNames path) : '.' ∉ name := by
  unfold pathNames at h
  split_ifs at h
  · cases h
  · intro hdot
    have := splitWhere_forall path name h '.' hdot
    simp at this

/-! ## Reading a short form -/

/-- The reference of a package, a path and an overload, if no name in the path is empty and something is
    named. -/
def assembled (cs : List Char) (package : Option String) (path : List Char)
    (overload : Option UInt32) : Except ParseError Reference :=
  if (pathNames path).any List.isEmpty then .error (.emptySegment (.ofList cs))
  else if package.isNone && (pathNames path).isEmpty then .error .empty
  else .ok { package, members := (pathNames path).map String.ofList, overload }

theorem ofText?_eq (text : String) : ofText? text =
    let cs := trim text.toList
    if cs.isEmpty then .error .empty
    else
      match splitOverload? (splitPackage cs).2 with
      | none => .error (.invalidOverload (.ofList cs))
      | some (path, overload) => assembled cs (splitPackage cs).1 path overload := by
  unfold ofText? splitOverload?
  dsimp only [bind, Except.bind, pure, Except.pure, throw, throwThe, MonadExceptOf.throw]
  by_cases hempty : (trim text.toList).isEmpty = true
  · rw [if_pos hempty, if_pos hempty]
  · rw [if_neg hempty, if_neg hempty]
    cases splitLast (· == ':') (splitPackage (trim text.toList)).2 with
    | none => rfl
    | some parts =>
      dsimp only
      cases overload? parts.2 <;> rfl

theorem assembled_eq_ok_iff : assembled cs package path overload = .ok r ↔
    (package = r.package ∧ path = joined r.members ∧ overload = r.overload) ∧
      (∀ name ∈ r.members, IsMemberName name) ∧ (r.package = none → r.members ≠ []) := by
  unfold assembled
  constructor
  · intro h
    split_ifs at h with hempty hnone
    cases h
    refine ⟨⟨rfl, (joined_pathNames path).symm, rfl⟩, fun name hname => ?_,
      fun hpackage hmembers => ?_⟩
    · obtain ⟨chars, hchars, rfl⟩ := List.mem_map.1 hname
      refine ⟨fun hnil => hempty (List.any_eq_true.2 ⟨chars, hchars, ?_⟩), ?_⟩
      · simpa using hnil
      · simpa using not_mem_of_mem_pathNames hchars
    · dsimp only at hpackage hmembers
      simp [hpackage, List.map_eq_nil_iff.1 hmembers] at hnone
  · rintro ⟨⟨rfl, rfl, rfl⟩, hnames, hnonempty⟩
    rw [pathNames_joined hnames]
    have hempty : (r.members.map String.toList).any List.isEmpty = false := by
      rw [List.any_eq_false]
      intro chars hchars
      obtain ⟨name, hname, rfl⟩ := List.mem_map.1 hchars
      simpa using (hnames name hname).1
    have hnone : (r.package.isNone && (r.members.map String.toList).isEmpty) = false := by
      cases hpackage : r.package with
      | none => simpa using hnonempty hpackage
      | some p => rfl
    rw [hempty, hnone]
    simp

theorem IsShortForm.ne_nil (h : IsShortForm cs r) : cs ≠ [] := by
  intro hnil
  obtain ⟨⟨rest, hpackage, hoverload⟩, hnames, hnonempty⟩ := h
  generalize hp : r.package = package at hpackage
  generalize hj : joined r.members = path at hoverload
  generalize r.overload = overload at hoverload
  cases hpackage with
  | named => simp at hnil
  | marked => cases hnil
  | absent =>
    cases hoverload with
    | given => simp at hnil
    | absent => exact joined_ne_nil (hnonempty hp) hnames (hj.trans hnil)

/-- A text is read as a reference exactly if it is a short form of it, blank characters at the ends
    aside. -/
theorem ofText?_eq_ok_iff {text : String} :
    ofText? text = .ok r ↔ IsShortForm (trim text.toList) r := by
  rw [ofText?_eq]
  dsimp only
  constructor
  · intro h
    split_ifs at h
    split at h
    · cases h
    · next path overload hsplit =>
      obtain ⟨⟨hpackage, rfl, rfl⟩, hnames, hnonempty⟩ := assembled_eq_ok_iff.1 h
      exact ⟨⟨_, splitPackage_eq_iff.1 (Prod.ext hpackage rfl), splitOverload?_eq_some_iff.1 hsplit⟩,
        hnames, hnonempty⟩
  · intro h
    have hne := h.ne_nil
    obtain ⟨⟨rest, hpackage, hoverload⟩, hnames, hnonempty⟩ := h
    rw [if_neg (by simpa using hne), splitPackage_eq_iff.2 hpackage,
      splitOverload?_eq_some_iff.2 hoverload]
    exact assembled_eq_ok_iff.2 ⟨⟨rfl, rfl, rfl⟩, hnames, hnonempty⟩

/-! ## Writing a short form -/

/-- What is written for a package. -/
def packageText : Option String → List Char
  | none => []
  | some p => p.toList ++ ['!']

/-- What is written for an overload. -/
def overloadText : Option UInt32 → List Char
  | none => []
  | some n => ':' :: digits n

theorem toList_toText (r : Reference) :
    r.toText.toList = packageText r.package ++ joined r.members ++ overloadText r.overload := by
  obtain ⟨package, members, overload⟩ := r
  cases package <;> cases overload <;>
    simp [toText, packageText, overloadText, joined, digits, String.toList_intercalate]

theorem isDigit_of_mem_digits {n : UInt32} {c : Char} (h : c ∈ digits n) : c.isDigit = true :=
  isDigit_of_mem_toDigits c h

theorem not_mem_digits {n : UInt32} {c : Char} (h : c.isDigit = false) : c ∉ digits n := by
  intro hmem
  simp [isDigit_of_mem_digits hmem] at h

theorem isBlank_of_isDigit {c : Char} (h : c.isDigit = true) : isBlank c = false := by
  have hrange : 48 ≤ c.toNat ∧ c.toNat ≤ 57 := by
    simpa [Char.isDigit, UInt32.le_iff_toNat_le] using h
  simp only [isBlank, Bool.or_eq_false_iff, Bool.and_eq_false_iff, decide_eq_false_iff_not,
    beq_eq_false_iff_ne]
  omega

theorem natOfDigits?_toDigits (n : Nat) : natOfDigits? (Nat.toDigits 10 n) = some n := by
  have hdigits : (Nat.toDigits 10 n).any (fun c => !c.isDigit) = false := by
    simp only [List.any_eq_false, Bool.not_eq_true', Bool.not_eq_false]
    exact isDigit_of_mem_toDigits
  have hvalue : (Nat.toDigits 10 n).foldl (fun n c => n * 10 + (c.toNat - '0'.toNat)) 0 = n := by
    simpa only [Nat.ofDigitChars, Nat.mul_comm] using Nat.ofDigitChars_ten_toDigits
  simp [natOfDigits?, hdigits]
  exact hvalue

theorem overload?_digits (n : UInt32) : overload? (digits n) = some n := by
  have hplus : '+' ∉ digits n := not_mem_digits (by decide)
  have hread : natOfDigits? (digits n) = some n.toNat := natOfDigits?_toDigits n.toNat
  unfold overload?
  split
  · next heq => simp [heq] at hplus
  · dsimp only
    rw [hread, Option.bind_some, if_pos n.toNat_lt, UInt32.ofNat_toNat]

theorem isBlank_getLast?_digits {n : UInt32} {c : Char} (h : (digits n).getLast? = some c) :
    isBlank c = false :=
  isBlank_of_isDigit (isDigit_of_mem_digits (List.mem_of_getLast? h))

/-! ## References that are read back -/

namespace HasShortForm

theorem isBlank_front (h : r.HasShortForm) {c : Char} (hc : r.toText.toList.head? = some c) :
    isBlank c = false := by
  rw [toList_toText, List.append_assoc] at hc
  cases hp : r.package with
  | some p =>
    obtain ⟨hne, -, hblank⟩ := h.package p hp
    rw [hp, packageText, List.append_assoc, List.head?_append_of_ne_nil _ (by simpa using hne)] at hc
    exact not_startsBlank_iff.1 hblank c hc
  | none =>
    obtain ⟨hne, -, hblank⟩ := h.front hp
    rw [hp, packageText, List.nil_append, List.head?_append_of_ne_nil _ (joined_ne_nil hne h.names)] at hc
    exact (isBlank_head?_joined_iff h.names).2 hblank c hc

theorem isBlank_back (h : r.HasShortForm) {c : Char} (hc : r.toText.toList.getLast? = some c) :
    isBlank c = false := by
  rw [toList_toText] at hc
  cases ho : r.overload with
  | some n =>
    have hne : digits n ≠ [] := Nat.toDigits_ne_nil
    rw [ho, overloadText, List.getLast?_append_of_ne_nil _ (List.cons_ne_nil _ _), ← List.singleton_append,
      List.getLast?_append_of_ne_nil _ hne] at hc
    exact isBlank_getLast?_digits hc
  | none =>
    rw [ho, overloadText, List.append_nil] at hc
    by_cases hne : r.members = []
    · cases hp : r.package with
      | some p =>
        rw [hp, hne, packageText] at hc
        simp [joined] at hc
        subst hc
        decide
      | none => exact absurd hne (h.front hp).1
    · rw [List.getLast?_append_of_ne_nil _ (joined_ne_nil hne h.names)] at hc
      exact (isBlank_getLast?_joined_iff h.names).2 (h.back ho).2 c hc

theorem isTrimmed (h : r.HasShortForm) : IsTrimmed r.toText.toList :=
  ⟨fun _ => h.isBlank_front, fun _ => h.isBlank_back⟩

/-- What is written behind the package has no mark of its own where none is written for a package. -/
theorem packaged (h : r.HasShortForm) :
    Packaged r.package r.toText.toList (joined r.members ++ overloadText r.overload) := by
  rw [toList_toText, List.append_assoc]
  cases hp : r.package with
  | some p =>
    obtain ⟨hne, hmark, -⟩ := h.package p hp
    simpa [packageText] using Packaged.named hne hmark
  | none =>
    rw [packageText, List.nil_append]
    refine .absent fun hmem => ?_
    rcases List.mem_append.1 hmem with hmem | hmem
    · obtain ⟨name, hname, hmark⟩ := (mem_joined_iff (by decide)).1 hmem
      exact (h.front hp).2.1 name hname hmark
    · cases ho : r.overload with
      | none => simp [ho, overloadText] at hmem
      | some n =>
        rw [ho, overloadText, List.mem_cons] at hmem
        exact not_mem_digits (by decide) (hmem.resolve_left (by decide))

theorem overloaded (h : r.HasShortForm) :
    Overloaded r.overload (joined r.members ++ overloadText r.overload) (joined r.members) := by
  cases ho : r.overload with
  | some n =>
    exact .given (not_mem_digits (by decide)) (overload?_digits n)
  | none =>
    rw [overloadText, List.append_nil]
    refine .absent fun hmem => ?_
    obtain ⟨name, hname, hcolon⟩ := (mem_joined_iff (by decide)).1 hmem
    exact (h.back ho).1 name hname hcolon

theorem isShortForm (h : r.HasShortForm) : IsShortForm r.toText.toList r :=
  ⟨⟨_, h.packaged, h.overloaded⟩, h.names, fun hp => (h.front hp).1⟩

end HasShortForm

namespace IsShortForm

/-- A short form that begins neither with a mark nor with a blank character is one of a reference that is
    read back. -/
theorem hasShortForm (h : IsShortForm cs r) (htrimmed : IsTrimmed cs) (hmark : cs.head? ≠ some '!') :
    r.HasShortForm := by
  obtain ⟨⟨rest, hpackage, hoverload⟩, hnames, hnonempty⟩ := h
  refine ⟨hnames, fun p hp => ?_, fun hp => ?_, fun ho => ?_⟩
  · rw [hp] at hpackage
    cases hpackage with
    | named hne hp =>
      refine ⟨hne, hp, not_startsBlank_iff.2 fun c hc => htrimmed.front c ?_⟩
      rwa [List.head?_append_of_ne_nil _ (by simpa using hne)]
  · rw [hp] at hpackage
    obtain ⟨back, rfl⟩ := hoverload.exists_append
    have hne := joined_ne_nil (hnonempty hp) hnames
    cases hpackage with
    | marked => exact absurd rfl hmark
    | absent hrest =>
      refine ⟨hnonempty hp, fun name hname hmem => hrest (List.mem_append_left _ ?_), ?_⟩
      · exact (mem_joined_iff (by decide)).2 ⟨name, hname, hmem⟩
      · refine (isBlank_head?_joined_iff hnames).1 fun c hc => htrimmed.front c ?_
        rwa [List.head?_append_of_ne_nil _ hne]
  · rw [ho] at hoverload
    cases hoverload with
    | absent hrest =>
      obtain ⟨front, rfl⟩ := hpackage.exists_append
      refine ⟨fun name hname hmem => hrest ?_, ?_⟩
      · exact (mem_joined_iff (by decide)).2 ⟨name, hname, hmem⟩
      · refine (isBlank_getLast?_joined_iff hnames).1 fun c hc => htrimmed.back c ?_
        rw [List.getLast?_append, hc, Option.some_or]

/-- The text of a reference has no mark in front if it is read back: without a package the mark would have
    to be a part of the members, which are read behind it. -/
theorem head?_ne_of_toText (h : IsShortForm (trim r.toText.toList) r) :
    (trim r.toText.toList).head? ≠ some '!' := by
  intro hmark
  obtain ⟨⟨rest, hpackage, hoverload⟩, -, -⟩ := h
  obtain ⟨front, back, hends, hback⟩ := exists_trim r.toText.toList
  obtain ⟨hnone, hmarked⟩ := hpackage.eq_of_head? hmark
  rw [hmarked, toList_toText, hnone, packageText, List.nil_append] at hends
  cases ho : r.overload with
  | none =>
    obtain ⟨path, rfl⟩ := hoverload.exists_append
    have hlength := congrArg List.length hends
    simp only [ho, overloadText, List.length_append, List.length_cons, List.length_nil] at hlength
    omega
  | some n =>
    rw [ho] at hoverload
    obtain ⟨index, rfl, hindex⟩ := hoverload.exists_index
    -- What is trimmed off the end belongs to the index that is read, so both cuts are at the last colon.
    have hread : ':' ∉ index ++ back := by
      rw [List.mem_append, not_or]
      exact ⟨hindex, fun hmem => absurd (hback ':' hmem) (by decide)⟩
    have hcut : joined r.members ++ ':' :: digits n =
        (front ++ '!' :: joined r.members) ++ ':' :: (index ++ back) := by
      simpa [ho, overloadText] using hends
    have hpath := (eq_of_append_cons_eq hcut (not_mem_digits (by decide)) hread).1
    have hlength := congrArg List.length hpath
    simp only [List.length_append, List.length_cons] at hlength
    omega

end IsShortForm

/-- The references that are read back from their own text are exactly those that have a short form, and so
    has every reference that is read from a text without a mark in front. -/
theorem reread_iff_hasShortForm :
    (∀ r : Reference, ofText? r.toText = .ok r ↔ r.HasShortForm) ∧
      ∀ (text : String) (r : Reference), ofText? text = .ok r → (trim text.toList).head? ≠ some '!' →
        r.HasShortForm := by
  refine ⟨fun r => ⟨fun h => ?_, fun h => ?_⟩, fun text r h hmark => ?_⟩
  · have hshort := ofText?_eq_ok_iff.1 h
    exact hshort.hasShortForm (isTrimmed_trim _) hshort.head?_ne_of_toText
  · rw [ofText?_eq_ok_iff, h.isTrimmed.trim_eq]
    exact h.isShortForm
  · exact (ofText?_eq_ok_iff.1 h).hasShortForm (isTrimmed_trim _) hmark

/-- A reference with a separator and a blank character in the name before its overload. -/
def spaced : Reference := ⟨some "lib", ["Outer", "in:ner "], some 2⟩

/-- A text with blank characters at its ends and a sign before the overload is read as a reference that is
    read back from its own text. -/
theorem reread_spaced :
    ofText? " lib!Outer.in:ner :+2\n" = .ok spaced ∧ spaced.toText = "lib!Outer.in:ner :2" ∧
      ofText? spaced.toText = .ok spaced := by
  have hread : ofText? " lib!Outer.in:ner :+2\n" = .ok spaced := by decide +kernel
  have hshort := reread_iff_hasShortForm.2 _ _ hread (by decide +kernel)
  exact ⟨hread, by decide +kernel, (reread_iff_hasShortForm.1 spaced).2 hshort⟩

end ReferenceSite.Reference
