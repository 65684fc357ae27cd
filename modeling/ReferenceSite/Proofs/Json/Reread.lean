import ReferenceSite.Proofs.Json.Numbers

/-!
# What printed values are read as

Strings and integers are read back, doubles are read as `Number.reread` says, so a printed value is read as
`Json.reread`: the same value with other doubles. It is the value itself exactly if all doubles in it are
read back (`reread_eq_self_iff`).
-/

namespace ReferenceSite.Json

mutual

/-- The value that the text of a value is read as. -/
def reread : Json → Json
  | num n => n.reread
  | arr elements => arr (rereadElements elements)
  | obj members => obj (rereadMembers members)
  | v => v

/-- The values that the texts of the elements of an array are read as. -/
def rereadElements : List Json → List Json
  | [] => []
  | v :: vs => reread v :: rereadElements vs

/-- The values that the texts of the members of an object are read as. -/
def rereadMembers : List (String × Json) → List (String × Json)
  | [] => []
  | (k, v) :: ms => (k, reread v) :: rereadMembers ms

end

/-- Every number in the value is read back as itself. -/
def Stable : Json → Prop := Every fun p => ∀ n, p = .num n → n.reread = .num n

variable {v : Json} {vs : List Json} {ms : List (String × Json)}

theorem rereadElements_eq_map : rereadElements vs = vs.map reread := by
  induction vs with
  | nil => rfl
  | cons v vs ih => rw [rereadElements, ih, List.map_cons]

theorem rereadMembers_eq_map : rereadMembers ms = ms.map fun m => (m.1, m.2.reread) := by
  induction ms with
  | nil => rfl
  | cons m ms ih => rw [rereadMembers, ih, List.map_cons]

theorem stable_num {n : Number} : Stable (.num n) ↔ n.reread = .num n := by
  simp [Stable]

theorem stable_arr : Stable (.arr vs) ↔ ∀ v ∈ vs, Stable v := by
  simp [Stable]

theorem stable_obj : Stable (.obj ms) ↔ ∀ m ∈ ms, Stable m.2 := by
  simp [Stable]

/-- A value is read back exactly if all numbers in it are. -/
theorem reread_eq_self_iff : v.reread = v ↔ v.Stable := by
  induction v using Json.induction with
  | num n => rw [reread, stable_num]
  | arr vs ih =>
    have hmap : vs.map reread = vs ↔ ∀ v ∈ vs, v.reread = v := by
      simpa using List.map_inj_left (l := vs) (f := reread) (g := id)
    rw [reread, arr.injEq, rereadElements_eq_map, hmap, stable_arr]
    exact forall₂_congr ih
  | obj ms ih =>
    have hmap : (ms.map fun m => (m.1, m.2.reread)) = ms ↔ ∀ m ∈ ms, m.2.reread = m.2 := by
      simpa [Prod.ext_iff] using
        List.map_inj_left (l := ms) (f := fun m => (m.1, m.2.reread)) (g := id)
    rw [reread, obj.injEq, rereadMembers_eq_map, hmap, stable_obj]
    exact forall₂_congr ih
  | null | bool b | str s | unreadable => simp [reread, Stable]

/-- In a document without doubles all numbers are read back. -/
theorem stable_of_integral (h : v.Proper) (hint : v.Integral) : v.Stable := by
  rintro p hp n rfl
  have hrange : n.InRange := (h _ hp).2.1 n rfl
  exact n.reread_of_integer hrange fun x hx => hint x (hx ▸ hp)

/-! ## What stays the same -/

/-- What a number is read as has no parts. -/
theorem Number.reread_cases {n : Number} (h : n.InRange) :
    (∃ m, n.reread = .num m) ∨ n.reread = .unreadable := by
  obtain ⟨s, hs, htext⟩ := n.exists_spelling h
  rw [n.reread_of_text hs htext, Spelling.value]
  split
  · next m _ => exact Or.inl ⟨m, rfl⟩
  · exact Or.inr rfl

theorem nestingElements_reread (h : ∀ v ∈ vs, v.reread.nesting = v.nesting) :
    nestingElements (rereadElements vs) = nestingElements vs := by
  induction vs with
  | nil => rfl
  | cons v vs ih =>
    obtain ⟨hv, hvs⟩ := List.forall_mem_cons.1 h
    rw [rereadElements, nestingElements, nestingElements, hv, ih hvs]

theorem nestingMembers_reread (h : ∀ m ∈ ms, m.2.reread.nesting = m.2.nesting) :
    nestingMembers (rereadMembers ms) = nestingMembers ms := by
  induction ms with
  | nil => rfl
  | cons m ms ih =>
    obtain ⟨hm, hms⟩ := List.forall_mem_cons.1 h
    rw [rereadMembers, nestingMembers, nestingMembers, hm, ih hms]

theorem nesting_reread (h : v.Proper) : v.reread.nesting = v.nesting := by
  induction v using Json.induction with
  | num n =>
    rw [reread]
    rcases n.reread_cases (proper_num.1 h) with ⟨m, hm⟩ | hm <;> rw [hm] <;> rfl
  | arr vs ih =>
    have hvs := proper_arr.1 h
    rw [reread, nesting, nesting, nestingElements_reread fun v hv => ih v hv (hvs v hv)]
  | obj ms ih =>
    have hms := (proper_obj.1 h).2
    rw [reread, nesting, nesting, nestingMembers_reread fun m hm => ih m hm (hms m hm)]
  | _ => rfl

/-- Reading changes no keys, so none is repeated afterwards. -/
theorem merged_reread (h : v.Proper) : v.reread.merged = v.reread := by
  induction v using Json.induction with
  | num n =>
    rw [reread]
    rcases n.reread_cases (proper_num.1 h) with ⟨m, hm⟩ | hm <;> rw [hm] <;> rfl
  | arr vs ih =>
    have hvs := proper_arr.1 h
    rw [reread, merged, mergedElements_eq_map, rereadElements_eq_map, List.map_map]
    exact congrArg _ (List.map_congr_left fun v hv => ih v hv (hvs v hv))
  | obj ms ih =>
    obtain ⟨hkeys, hms⟩ := proper_obj.1 h
    have hmap : mergedMembers (rereadMembers ms) = rereadMembers ms := by
      rw [mergedMembers_eq_map, rereadMembers_eq_map, List.map_map]
      refine List.map_congr_left fun m hm => ?_
      rw [Function.comp_apply, ih m hm (hms m hm)]
    have hnodup : ((rereadMembers ms).map Prod.fst).Nodup := by
      rw [rereadMembers_eq_map, List.map_map]
      exact hkeys
    rw [reread, merged, hmap, putAll_of_nodup hnodup]
  | _ => rfl

end ReferenceSite.Json
