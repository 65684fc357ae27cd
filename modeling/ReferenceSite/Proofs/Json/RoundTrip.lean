import Mathlib.Data.List.DropRight
import ReferenceSite.Proofs.Json.Reader
import ReferenceSite.Proofs.Json.Reread
import ReferenceSite.Proofs.Json.Tokens

/-!
# Reading printed values

A proper value that was printed with one value on a line is read as `Json.reread` says
(`ofText?_pretty_reread`), so it is read back exactly if the doubles in it are and it nests no deeper than
the reader allows (`document?_pretty_iff`). The proof follows the value: `Reads` says of one value that it is
read wherever it stands, and the values in an array or an object are read one after the other.
-/

namespace ReferenceSite.Json

/-! ## Blanks -/

theorem skipSpace_of_not_isSpace {c : Char} (h : isSpace c = false) (cs : List Char) :
    skipSpace (c :: cs) = c :: cs := by
  simp [skipSpace, h]

theorem skipSpace_skipSpace (cs : List Char) : skipSpace (skipSpace cs) = skipSpace cs :=
  List.dropWhile_idempotent isSpace cs

theorem readElements_skipSpace (fuel : Nat) (read : List Json) (cs : List Char) :
    readElements fuel read (skipSpace cs) = readElements fuel read cs := by
  have hvalue : ∀ fuel, readValue fuel (skipSpace cs) = readValue fuel cs := by
    intro fuel
    cases fuel with
    | zero => simp [readValue]
    | succ fuel => rw [readValue, readValue, skipSpace_skipSpace]
  cases fuel with
  | zero => simp [readElements]
  | succ fuel => rw [readElements, readElements, hvalue]

theorem readMembers_skipSpace (fuel : Nat) (read : List (Option String × Json)) (cs : List Char) :
    readMembers fuel read (skipSpace cs) = readMembers fuel read cs := by
  cases fuel with
  | zero => simp [readMembers]
  | succ fuel => rw [readMembers, readMembers, skipSpace_skipSpace]

theorem toList_newline (level : Nat) :
    (newline level).toList = '\n' :: List.replicate (2 * level) ' ' := by
  simp [newline]

theorem skipSpace_newline (level : Nat) (cs : List Char) :
    skipSpace ((newline level).toList ++ cs) = skipSpace cs := by
  unfold skipSpace
  refine List.dropWhile_append_of_pos fun c hc => ?_
  rw [toList_newline] at hc
  rcases List.mem_cons.1 hc with rfl | hc
  · rfl
  · rw [List.eq_of_mem_replicate hc]
    rfl

theorem ends_newline (level : Nat) (cs : List Char) : Ends ((newline level).toList ++ cs) := by
  intro c hc
  rw [toList_newline, List.cons_append, List.head?_cons] at hc
  cases hc
  decide

theorem ends_comma (cs : List Char) : Ends (',' :: cs) := by
  intro c hc
  cases hc
  decide

/-! ## Values without parts -/

/-- A printed value is read wherever it stands. -/
structure Reads (v : Json) : Prop where
  starts : ∀ level, ∃ c cs, (prettyAt level v).toList = c :: cs ∧ isSpace c = false ∧ c ≠ ']'
  read : ∀ (level fuel : Nat) (cs rest : List Char),
    skipSpace cs = (prettyAt level v).toList ++ rest → Ends rest →
    2 * (skipSpace cs).length < fuel → readValue (fuel + 1) cs = some (v.reread, rest)

theorem reads_null : Reads .null := by
  have htext : ∀ level, (prettyAt level .null).toList = ['n', 'u', 'l', 'l'] := by
    simp [prettyAt, scalarText]
  refine ⟨fun level => ⟨_, _, htext level, rfl, by decide⟩, fun level fuel cs rest hskip _ _ => ?_⟩
  unfold readValue
  rw [hskip, htext]
  rfl

theorem reads_bool (b : Bool) : Reads (.bool b) := by
  cases b
  · have htext : ∀ level, (prettyAt level (.bool false)).toList = ['f', 'a', 'l', 's', 'e'] := by
      simp [prettyAt, scalarText]
    refine ⟨fun level => ⟨_, _, htext level, rfl, by decide⟩, fun level fuel cs rest hskip _ _ => ?_⟩
    unfold readValue
    rw [hskip, htext]
    rfl
  · have htext : ∀ level, (prettyAt level (.bool true)).toList = ['t', 'r', 'u', 'e'] := by
      simp [prettyAt, scalarText]
    refine ⟨fun level => ⟨_, _, htext level, rfl, by decide⟩, fun level fuel cs rest hskip _ _ => ?_⟩
    unfold readValue
    rw [hskip, htext]
    rfl

theorem reads_str (s : String) : Reads (.str s) := by
  have htext : ∀ level, (prettyAt level (.str s)).toList = (stringText s).toList := by
    simp [prettyAt, scalarText]
  refine ⟨fun level => ?_, fun level fuel cs rest hskip _ _ => ?_⟩
  · obtain ⟨body, hbody, -⟩ := readString_stringText s []
    exact ⟨_, body, (htext level).trans hbody, rfl, by decide⟩
  · obtain ⟨body, hbody, hread⟩ := readString_stringText s rest
    unfold readValue
    rw [hskip, htext, hbody]
    simp [hread, reread]

/-- A value that starts like a number is read as one. -/
theorem readValue_number {fuel : Nat} {cs tail : List Char} {c : Char} (hskip : skipSpace cs = c :: tail)
    (hc : c.isDigit = true ∨ c = '-') : readValue (fuel + 1) cs = readNumber (c :: tail) := by
  have hrange : c.toNat = 45 ∨ 48 ≤ c.toNat ∧ c.toNat ≤ 57 := by
    rcases hc with hc | rfl
    · exact Or.inr (Char.isDigit_iff_toNat.1 hc)
    · exact Or.inl rfl
  unfold readValue
  rw [hskip]
  dsimp only
  split
  · omega
  · omega
  · omega
  · omega
  · omega
  · omega
  · rfl

theorem reads_num {n : Number} (hrange : n.InRange) : Reads (.num n) := by
  have htext : ∀ level, (prettyAt level (.num n)).toList = n.toText.toList := by
    simp [prettyAt, scalarText]
  obtain ⟨s, hs, hspelling⟩ := n.exists_spelling hrange
  obtain ⟨c, digits, hstart, hc⟩ := hs.exists_text_eq_cons
  rw [← hspelling] at hstart
  refine ⟨fun level => ⟨c, digits, (htext level).trans hstart, ?_⟩,
    fun level fuel cs rest hskip h _ => ?_⟩
  · simp only [isSpace, Bool.or_eq_false_iff, beq_eq_false_iff_ne]
    refine ⟨⟨⟨⟨?_, ?_⟩, ?_⟩, ?_⟩, ?_⟩ <;> rintro rfl <;> revert hc <;> decide
  · rw [htext] at hskip
    have hread := n.readNumber_toText hrange h
    rw [hstart, List.cons_append] at hskip hread
    rw [readValue_number hskip hc, hread, reread]

/-! ## Arrays -/

theorem Reads.skipSpace {v : Json} (h : Reads v) (level : Nat) (rest : List Char) :
    skipSpace ((newline level).toList ++ ((prettyAt level v).toList ++ rest)) =
      (prettyAt level v).toList ++ rest := by
  obtain ⟨c, cs, htext, hc, -⟩ := h.starts level
  rw [skipSpace_newline, htext, List.cons_append, skipSpace_of_not_isSpace hc]

theorem length_newline_append (level : Nat) (cs : List Char) :
    ((newline level).toList ++ cs).length = 2 * level + 1 + cs.length := by
  rw [List.length_append, toList_newline, List.length_cons, List.length_replicate]

theorem toList_prettyElements_cons (level : Nat) (v : Json) (vs : List Json) :
    (prettyElements level (v :: vs)).toList = (newline level).toList ++ ((prettyAt level v).toList ++
      if vs = [] then [] else ',' :: (prettyElements level vs).toList) := by
  cases vs <;> simp [prettyElements]

/-- The elements of an array are read one after the other, up to its end. -/
theorem readElements_pretty {vs : List Json} (hvs : ∀ v ∈ vs, Reads v) (hne : vs ≠ [])
    (level fuel : Nat) (read : List Json) (rest : List Char)
    (hfuel : 2 * ((prettyElements (level + 1) vs).toList ++ ((newline level).toList ++ ']' :: rest)).length
      < fuel) :
    readElements (fuel + 1) read
        ((prettyElements (level + 1) vs).toList ++ ((newline level).toList ++ ']' :: rest)) =
      some (read.reverse ++ rereadElements vs, rest) := by
  -- an element takes two units of fuel, one for the list and one for the value, and more than one character
  induction vs generalizing fuel read with
  | nil => exact absurd rfl hne
  | cons v vs ih =>
    obtain ⟨hv, hrest⟩ := List.forall_mem_cons.1 hvs
    obtain ⟨fuel, rfl⟩ : ∃ n, fuel = n + 1 := ⟨fuel - 1, by omega⟩
    cases vs with
    | nil =>
      rw [toList_prettyElements_cons, if_pos rfl, List.append_nil, List.append_assoc] at hfuel ⊢
      have hskip := hv.skipSpace (level + 1) ((newline level).toList ++ ']' :: rest)
      rw [length_newline_append] at hfuel
      have hread := hv.read (level + 1) fuel _ _ hskip (ends_newline level _) (by rw [hskip]; omega)
      have hclose : skipSpace ((newline level).toList ++ ']' :: rest) = ']' :: rest :=
        (skipSpace_newline level _).trans (skipSpace_of_not_isSpace rfl rest)
      rw [readElements, hread]
      simp [hclose, rereadElements]
    | cons w vs =>
      rw [toList_prettyElements_cons, if_neg (List.cons_ne_nil w vs), List.append_assoc,
        List.append_assoc, List.cons_append] at hfuel ⊢
      set tail := (prettyElements (level + 1) (w :: vs)).toList ++ ((newline level).toList ++ ']' :: rest)
      have hskip := hv.skipSpace (level + 1) (',' :: tail)
      rw [length_newline_append, List.length_append, List.length_cons] at hfuel
      have hread := hv.read (level + 1) fuel _ _ hskip (ends_comma tail)
        (by rw [hskip, List.length_append, List.length_cons]; omega)
      have hcomma : skipSpace (',' :: tail) = ',' :: tail := skipSpace_of_not_isSpace rfl tail
      have htail := ih hrest (List.cons_ne_nil w vs) fuel (v.reread :: read) (by omega)
      rw [readElements, hread]
      simp [hcomma, htail, rereadElements]

/-- A value that starts like an array with elements is read as one. -/
theorem readValue_array {fuel : Nat} {cs tail after : List Char} {c : Char}
    (hskip : skipSpace cs = '[' :: tail) (htail : skipSpace tail = c :: after) (hc : c ≠ ']') :
    readValue (fuel + 1) cs = (readElements fuel [] tail).map fun r => (.arr r.1, r.2) := by
  rw [← readElements_skipSpace, htail]
  unfold readValue
  rw [hskip]
  dsimp only
  rw [htail]
  cases hread : readElements fuel [] (c :: after) <;> simp [hc, hread]

theorem reads_arr {vs : List Json} (hvs : ∀ v ∈ vs, Reads v) : Reads (.arr vs) := by
  cases vs with
  | nil =>
    have htext : ∀ level, (prettyAt level (.arr [])).toList = ['[', ']'] := by simp [prettyAt]
    refine ⟨fun level => ⟨_, _, htext level, rfl, by decide⟩, fun level fuel cs rest hskip _ _ => ?_⟩
    unfold readValue
    rw [hskip, htext]
    rfl
  | cons v vs =>
    have htext : ∀ level, (prettyAt level (.arr (v :: vs))).toList =
        '[' :: ((prettyElements (level + 1) (v :: vs)).toList ++ ((newline level).toList ++ [']'])) := by
      simp [prettyAt]
    refine ⟨fun level => ⟨_, _, htext level, rfl, by decide⟩,
      fun level fuel cs rest hskip _ hfuel => ?_⟩
    obtain ⟨fuel, rfl⟩ : ∃ n, fuel = n + 1 := ⟨fuel - 1, by omega⟩
    rw [htext, List.cons_append, List.append_assoc, List.append_assoc, List.singleton_append] at hskip
    rw [hskip, List.length_cons] at hfuel
    have helements := readElements_pretty hvs (List.cons_ne_nil v vs) level fuel [] rest (by omega)
    have hv := hvs v List.mem_cons_self
    obtain ⟨c, after, hstart, -, hc⟩ := hv.starts (level + 1)
    obtain ⟨more, htail⟩ : ∃ more, skipSpace ((prettyElements (level + 1) (v :: vs)).toList ++
        ((newline level).toList ++ ']' :: rest)) = c :: more := by
      rw [toList_prettyElements_cons, List.append_assoc, List.append_assoc, hv.skipSpace, hstart,
        List.cons_append]
      exact ⟨_, rfl⟩
    rw [readValue_array hskip htail hc, helements]
    rfl

/-! ## Objects -/

theorem toList_prettyMembers_cons (level : Nat) (k : String) (v : Json) (ms : List (String × Json)) :
    (prettyMembers level ((k, v) :: ms)).toList = (newline level).toList ++ ((stringText k).toList ++
      ':' :: ' ' :: ((prettyAt level v).toList ++
        if ms = [] then [] else ',' :: (prettyMembers level ms).toList)) := by
  cases ms <;> simp [prettyMembers]

/-- One member of an object is read up to what follows its value. -/
theorem readMembers_member (k : String) {v : Json} (hv : Reads v) (level fuel : Nat)
    (read : List (Option String × Json)) {rest after : List Char} {c : Char} (hrest : Ends rest)
    (hnext : skipSpace rest = c :: after)
    (hfuel : 2 * ((prettyAt level v).toList ++ rest).length < fuel) :
    readMembers (fuel + 2) read ((newline level).toList ++ ((stringText k).toList ++
        ':' :: ' ' :: ((prettyAt level v).toList ++ rest))) =
      if c = ',' then readMembers (fuel + 1) ((some k, v.reread) :: read) after
      else if c = '\x7d' then some (read.reverse ++ [(some k, v.reread)], after)
      else none := by
  obtain ⟨body, hbody, hkey⟩ :=
    readString_stringText k (':' :: ' ' :: ((prettyAt level v).toList ++ rest))
  obtain ⟨d, more, hstart, hd, -⟩ := hv.starts level
  have hskip : skipSpace (' ' :: ((prettyAt level v).toList ++ rest)) =
      (prettyAt level v).toList ++ rest := by
    have hblank : skipSpace (' ' :: ((prettyAt level v).toList ++ rest)) =
        skipSpace ((prettyAt level v).toList ++ rest) := rfl
    rw [hblank, hstart, List.cons_append, skipSpace_of_not_isSpace hd]
  have hvalue := hv.read level fuel _ rest hskip hrest (by rw [hskip]; exact hfuel)
  have hcolon : ∀ cs, skipSpace (':' :: cs) = ':' :: cs := fun cs => skipSpace_of_not_isSpace rfl cs
  have hclose : c.toNat = 0x7D ↔ c = '\x7d' := Char.toNat_inj (d := '\x7d')
  rw [readMembers, skipSpace_newline, hbody, List.cons_append, skipSpace_of_not_isSpace rfl]
  simp [hkey, hcolon, hvalue, hnext, hclose]

/-- The members of an object are read one after the other, up to its end. -/
theorem readMembers_pretty {ms : List (String × Json)} (hms : ∀ m ∈ ms, Reads m.2) (hne : ms ≠ [])
    (level fuel : Nat) (read : List (Option String × Json)) (rest : List Char)
    (hfuel : 2 * ((prettyMembers (level + 1) ms).toList ++
      ((newline level).toList ++ '\x7d' :: rest)).length < fuel) :
    readMembers (fuel + 1) read
        ((prettyMembers (level + 1) ms).toList ++ ((newline level).toList ++ '\x7d' :: rest)) =
      some (read.reverse ++ (rereadMembers ms).map (fun m => (some m.1, m.2)), rest) := by
  induction ms generalizing fuel read with
  | nil => exact absurd rfl hne
  | cons m ms ih =>
    obtain ⟨k, v⟩ := m
    have hv : Reads v := hms (k, v) List.mem_cons_self
    have hrest : ∀ m ∈ ms, Reads m.2 := fun m hm => hms m (List.mem_cons_of_mem _ hm)
    obtain ⟨fuel, rfl⟩ : ∃ n, fuel = n + 1 := ⟨fuel - 1, by omega⟩
    rw [toList_prettyMembers_cons] at hfuel ⊢
    simp only [List.append_assoc, List.cons_append] at hfuel ⊢
    rw [length_newline_append, List.length_append] at hfuel
    simp only [List.length_cons] at hfuel
    cases ms with
    | nil =>
      rw [if_pos rfl, List.nil_append] at hfuel ⊢
      have hclose : skipSpace ((newline level).toList ++ '\x7d' :: rest) = '\x7d' :: rest :=
        (skipSpace_newline level _).trans (skipSpace_of_not_isSpace rfl rest)
      rw [readMembers_member k hv (level + 1) fuel read (ends_newline level _) hclose (by omega)]
      simp [rereadMembers]
    | cons w ms =>
      rw [if_neg (List.cons_ne_nil w ms), List.cons_append] at hfuel ⊢
      set tail := (prettyMembers (level + 1) (w :: ms)).toList ++
        ((newline level).toList ++ '\x7d' :: rest)
      have hcomma : skipSpace (',' :: tail) = ',' :: tail := skipSpace_of_not_isSpace rfl tail
      rw [readMembers_member k hv (level + 1) fuel read (ends_comma tail) hcomma (by omega), if_pos rfl]
      rw [List.length_append, List.length_cons] at hfuel
      rw [ih hrest (List.cons_ne_nil w ms) fuel _ (by omega)]
      simp [rereadMembers]

/-- A value that starts like an object with members is read as one. -/
theorem readValue_object {fuel : Nat} {cs tail after : List Char}
    (hskip : skipSpace cs = '\x7b' :: tail) (htail : skipSpace tail = '\x22' :: after) :
    readValue (fuel + 1) cs = (readMembers fuel [] tail).map fun r => (objectOf r.1, r.2) := by
  rw [← readMembers_skipSpace, htail]
  unfold readValue
  rw [hskip]
  dsimp only
  rw [htail]
  cases hread : readMembers fuel [] ('\x22' :: after) <;> simp [hread]

theorem objectOf_map (ms : List (String × Json)) :
    objectOf (ms.map fun m => (some m.1, m.2)) = .obj ms := by
  have hmapM : (ms.map fun m => (some m.1, m.2)).mapM
      (fun m : Option String × Json => m.1.map (·, m.2)) = some ms := by
    induction ms with
    | nil => rfl
    | cons m ms ih => simp [List.mapM_cons, ih]
  unfold objectOf
  rw [hmapM]

theorem reads_obj {ms : List (String × Json)} (hms : ∀ m ∈ ms, Reads m.2) : Reads (.obj ms) := by
  cases ms with
  | nil =>
    have htext : ∀ level, (prettyAt level (.obj [])).toList = ['\x7b', '\x7d'] := by simp [prettyAt]
    refine ⟨fun level => ⟨_, _, htext level, rfl, by decide⟩, fun level fuel cs rest hskip _ _ => ?_⟩
    unfold readValue
    rw [hskip, htext]
    rfl
  | cons m ms =>
    have htext : ∀ level, (prettyAt level (.obj (m :: ms))).toList = '\x7b' ::
        ((prettyMembers (level + 1) (m :: ms)).toList ++ ((newline level).toList ++ ['\x7d'])) := by
      simp [prettyAt]
    refine ⟨fun level => ⟨_, _, htext level, rfl, by decide⟩,
      fun level fuel cs rest hskip _ hfuel => ?_⟩
    obtain ⟨fuel, rfl⟩ : ∃ n, fuel = n + 1 := ⟨fuel - 1, by omega⟩
    rw [htext, List.cons_append, List.append_assoc, List.append_assoc, List.singleton_append] at hskip
    rw [hskip, List.length_cons] at hfuel
    have hmembers := readMembers_pretty hms (List.cons_ne_nil m ms) level fuel [] rest (by omega)
    obtain ⟨k, v⟩ := m
    obtain ⟨body, hbody, -⟩ := readString_stringText k []
    obtain ⟨more, htail⟩ : ∃ more, skipSpace ((prettyMembers (level + 1) ((k, v) :: ms)).toList ++
        ((newline level).toList ++ '\x7d' :: rest)) = '\x22' :: more := by
      rw [toList_prettyMembers_cons, List.append_assoc, skipSpace_newline, hbody]
      exact ⟨_, skipSpace_of_not_isSpace rfl _⟩
    rw [readValue_object hskip htail, hmembers]
    rw [Option.map_some, List.reverse_nil, List.nil_append, objectOf_map, reread]

/-! ## Documents -/

theorem reads_of_proper {v : Json} (h : Proper v) : Reads v := by
  induction v using Json.induction with
  | null => exact reads_null
  | bool b => exact reads_bool b
  | num n => exact reads_num (proper_num.1 h)
  | str s => exact reads_str s
  | arr vs ih => exact reads_arr fun v hv => ih v hv (proper_arr.1 h v hv)
  | obj ms ih => exact reads_obj fun m hm => ih m hm ((proper_obj.1 h).2 m hm)
  | unreadable => exact absurd h not_proper_unreadable

/-- A document that was printed is read up to its doubles, also with a line break behind it. -/
theorem ofText?_pretty_reread {v : Json} (h : Proper v) : ofText? (v.pretty ++ "\n") = some v.reread := by
  have hread := reads_of_proper h
  obtain ⟨c, cs, hstart, hc, -⟩ := hread.starts 0
  have htext : (v.pretty ++ "\n").toList = (prettyAt 0 v).toList ++ ['\n'] := by
    simp [pretty]
  have hskip : skipSpace ((prettyAt 0 v).toList ++ ['\n']) = (prettyAt 0 v).toList ++ ['\n'] := by
    rw [hstart, List.cons_append, skipSpace_of_not_isSpace hc]
  have hends : Ends ['\n'] := by
    intro d hd
    cases hd
    decide
  have hvalue : readValue (2 * ((prettyAt 0 v).toList ++ ['\n']).length + 2)
      ((prettyAt 0 v).toList ++ ['\n']) = some (v.reread, ['\n']) :=
    hread.read 0 _ _ _ hskip hends (by rw [hskip]; omega)
  unfold ofText?
  rw [htext]
  dsimp only
  rw [hvalue]
  rfl

/-- A document that nests too deeply is no document any more once it was printed. -/
theorem document?_pretty_eq_none {v : Json} (h : Proper v) (hdeep : nestingLimit < v.nesting) :
    (ofText? (v.pretty ++ "\n")).bind document? = none := by
  rw [ofText?_pretty_reread h, Option.bind_some, document?, nesting_reread h,
    decide_eq_false (Nat.not_le.2 hdeep), Bool.and_false, if_neg Bool.false_ne_true]

/-- A printed document is read back exactly if it nests no deeper than the reader allows and the doubles in
it are read back. -/
theorem document?_pretty_iff {v : Json} (h : Proper v) :
    (ofText? (v.pretty ++ "\n")).bind document? = some v ↔ v.nesting ≤ nestingLimit ∧ v.Stable := by
  rw [← reread_eq_self_iff]
  constructor
  · intro hread
    have hdeep : v.nesting ≤ nestingLimit := by
      by_contra hdeep
      rw [document?_pretty_eq_none h (Nat.not_le.1 hdeep)] at hread
      cases hread
    rw [ofText?_pretty_reread h, Option.bind_some, document?] at hread
    split_ifs at hread
    rw [merged_reread h] at hread
    exact ⟨hdeep, Option.some.inj hread⟩
  · rintro ⟨hdeep, hsame⟩
    rw [ofText?_pretty_reread h, Option.bind_some, hsame, document?, h.isReadable, h.merged,
      decide_eq_true hdeep]
    rfl

/-- A document without doubles that nests no deeper than a reader allows is read back as itself. -/
theorem document?_pretty {v : Json} (h : Proper v) (hint : v.Integral) (hdeep : v.nesting ≤ nestingLimit) :
    (ofText? (v.pretty ++ "\n")).bind document? = some v :=
  (document?_pretty_iff h).2 ⟨hdeep, stable_of_integral h hint⟩

end ReferenceSite.Json
