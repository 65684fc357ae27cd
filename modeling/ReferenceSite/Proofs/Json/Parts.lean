import ReferenceSite.Proofs.Json.Members

/-!
# Parts of JSON values

What holds of a document usually holds of every value in it. `Part` is the relation between a value and
the values in it, itself included, and `Every` says that all of them have a property.
-/

namespace ReferenceSite.Json

/-- An induction over the values in arrays and objects. -/
theorem induction {P : Json → Prop} (null : P .null) (bool : ∀ b, P (.bool b)) (num : ∀ n, P (.num n))
    (str : ∀ s, P (.str s)) (arr : ∀ vs, (∀ v ∈ vs, P v) → P (.arr vs))
    (obj : ∀ ms : List (String × Json), (∀ m ∈ ms, P m.2) → P (.obj ms)) (unreadable : P .unreadable)
    (v : Json) : P v :=
  match v with
  | .null => null
  | .bool b => bool b
  | .num n => num n
  | .str s => str s
  | .arr vs => arr vs fun v _ => induction null bool num str arr obj unreadable v
  | .obj ms => obj ms fun m _ => induction null bool num str arr obj unreadable m.2
  | .unreadable => unreadable
termination_by sizeOf v
decreasing_by
  · next hv => have := List.sizeOf_lt_of_mem hv; simp only [Json.arr.sizeOf_spec]; omega
  · next hm =>
    have := List.sizeOf_lt_of_mem hm
    obtain ⟨k, v⟩ := m
    simp only [Json.obj.sizeOf_spec, Prod.mk.sizeOf_spec] at *
    omega

/-- The first value is the second one or stands in it. -/
inductive Part : Json → Json → Prop
  | self (v : Json) : Part v v
  | element {p v : Json} {vs : List Json} : v ∈ vs → Part p v → Part p (.arr vs)
  | value {p : Json} {m : String × Json} {ms : List (String × Json)} : m ∈ ms → Part p m.2 →
      Part p (.obj ms)

/-- All parts of a value have a property. -/
def Every (P : Json → Prop) (v : Json) : Prop := ∀ p, Part p v → P p

variable {P : Json → Prop} {v : Json} {vs : List Json} {ms : List (String × Json)}

theorem Every.self (h : Every P v) : P v := h v (.self v)

@[simp]
theorem every_arr : Every P (.arr vs) ↔ P (.arr vs) ∧ ∀ v ∈ vs, Every P v := by
  constructor
  · intro h
    exact ⟨h.self, fun v hv p hp => h p (.element hv hp)⟩
  · rintro ⟨hself, h⟩ p hp
    cases hp with
    | self => exact hself
    | element hv hp => exact h _ hv p hp

@[simp]
theorem every_obj : Every P (.obj ms) ↔ P (.obj ms) ∧ ∀ m ∈ ms, Every P m.2 := by
  constructor
  · intro h
    exact ⟨h.self, fun m hm p hp => h p (.value hm hp)⟩
  · rintro ⟨hself, h⟩ p hp
    cases hp with
    | self => exact hself
    | value hm hp => exact h _ hm p hp

/-- A value without parts of its own. -/
theorem every_scalar (harr : ∀ vs, v ≠ .arr vs) (hobj : ∀ ms, v ≠ .obj ms) : Every P v ↔ P v := by
  constructor
  · exact Every.self
  · intro h p hp
    cases hp with
    | self => exact h
    | element => exact absurd rfl (harr _)
    | value => exact absurd rfl (hobj _)

@[simp]
theorem every_null : Every P .null ↔ P .null := every_scalar (by simp) (by simp)

@[simp]
theorem every_bool {b : Bool} : Every P (.bool b) ↔ P (.bool b) := every_scalar (by simp) (by simp)

@[simp]
theorem every_num {n : Number} : Every P (.num n) ↔ P (.num n) := every_scalar (by simp) (by simp)

@[simp]
theorem every_str {s : String} : Every P (.str s) ↔ P (.str s) := every_scalar (by simp) (by simp)

@[simp]
theorem every_unreadable : Every P .unreadable ↔ P .unreadable := every_scalar (by simp) (by simp)

/-! ## Documents -/

/-- A number that fits its form. -/
def Number.InRange : Number → Prop
  | natural n => n < UInt64.size
  | negative n => 0 < n ∧ n ≤ Nat.pow 2 63
  | double _ => True

/-- Every number in the value fits its form, as it does in a value that was read. -/
def Ranged : Json → Prop := Every fun p => ∀ n, p = .num n → n.InRange

/-- A value can be read, its numbers fit their form, and no object has a key twice. -/
def Proper : Json → Prop :=
  Every fun p => p ≠ .unreadable ∧ (∀ n, p = .num n → n.InRange) ∧
    ∀ ms, p = .obj ms → (ms.map Prod.fst).Nodup

/-- The value holds no double. -/
def Integral (v : Json) : Prop := ∀ x, ¬ Part (.num (.double x)) v

mutual

/-- No double is found in the value. -/
def isIntegral : Json → Bool
  | num (.double _) => false
  | arr elements => elementsIntegral elements
  | obj members => membersIntegral members
  | _ => true

/-- No double is found in the elements of an array. -/
def elementsIntegral : List Json → Bool
  | [] => true
  | v :: vs => isIntegral v && elementsIntegral vs

/-- No double is found in the members of an object. -/
def membersIntegral : List (String × Json) → Bool
  | [] => true
  | (_, v) :: ms => isIntegral v && membersIntegral ms

end

theorem elementsIntegral_iff : elementsIntegral vs = true ↔ ∀ v ∈ vs, v.isIntegral = true := by
  induction vs with
  | nil => simp [elementsIntegral]
  | cons v vs ih => simp [elementsIntegral, ih]

theorem membersIntegral_iff : membersIntegral ms = true ↔ ∀ m ∈ ms, m.2.isIntegral = true := by
  induction ms with
  | nil => simp [membersIntegral]
  | cons m ms ih => simp [membersIntegral, ih]

theorem isIntegral_iff : v.isIntegral = true ↔ v.Integral := by
  have hevery : ∀ v, Integral v ↔ Every (fun p => ∀ x, p ≠ .num (.double x)) v := by
    intro v
    constructor
    · rintro h p hp x rfl
      exact h x hp
    · exact fun h x hx => h _ hx x rfl
  induction v using Json.induction with
  | num n => cases n <;> simp [isIntegral, hevery]
  | arr vs ih =>
    rw [isIntegral, elementsIntegral_iff, hevery, every_arr]
    simp only [← hevery]
    simpa using forall₂_congr ih
  | obj ms ih =>
    rw [isIntegral, membersIntegral_iff, hevery, every_obj]
    simp only [← hevery]
    simpa using forall₂_congr ih
  | null | bool b | str s | unreadable => simp [isIntegral, hevery]

instance : DecidablePred Integral := fun _ => decidable_of_iff _ isIntegral_iff

theorem proper_arr : Proper (.arr vs) ↔ ∀ v ∈ vs, Proper v := by
  simp [Proper]

theorem proper_obj : Proper (.obj ms) ↔ (ms.map Prod.fst).Nodup ∧ ∀ m ∈ ms, Proper m.2 := by
  simp [Proper]

theorem proper_str (s : String) : Proper (.str s) := by
  simp [Proper]

theorem proper_num {n : Number} : Proper (.num n) ↔ n.InRange := by
  simp [Proper]

theorem not_proper_unreadable : ¬ Proper .unreadable := by
  simp [Proper]

theorem elementsReadable_iff : elementsReadable vs = true ↔ ∀ v ∈ vs, v.isReadable = true := by
  induction vs with
  | nil => simp [elementsReadable]
  | cons v vs ih => simp [elementsReadable, ih]

theorem membersReadable_iff : membersReadable ms = true ↔ ∀ m ∈ ms, m.2.isReadable = true := by
  induction ms with
  | nil => simp [membersReadable]
  | cons m ms ih => simp [membersReadable, ih]

theorem Proper.isReadable (h : Proper v) : v.isReadable = true := by
  induction v using Json.induction with
  | arr vs ih => exact elementsReadable_iff.2 fun v hv => ih v hv (proper_arr.1 h v hv)
  | obj ms ih => exact membersReadable_iff.2 fun m hm => ih m hm ((proper_obj.1 h).2 m hm)
  | unreadable => exact absurd h not_proper_unreadable
  | _ => rfl

/-! ## Nesting -/

theorem nesting_lt_arr (h : v ∈ vs) : v.nesting < (Json.arr vs).nesting := by
  rw [nesting, Nat.lt_succ_iff]
  induction vs with
  | nil => cases h
  | cons w vs ih =>
    rw [nestingElements]
    rcases List.mem_cons.1 h with rfl | h
    · exact Nat.le_max_left _ _
    · exact Nat.le_trans (ih h) (Nat.le_max_right _ _)

theorem nesting_lt_obj {key : String} (h : (key, v) ∈ ms) : v.nesting < (Json.obj ms).nesting := by
  rw [nesting, Nat.lt_succ_iff]
  induction ms with
  | nil => cases h
  | cons m ms ih =>
    rcases List.mem_cons.1 h with rfl | h
    · rw [nestingMembers]
      exact Nat.le_max_left _ _
    · rw [nestingMembers]
      exact Nat.le_trans (ih h) (Nat.le_max_right _ _)

theorem nesting_lt_put (key : String) (value : Json) (ms : List (String × Json)) :
    value.nesting < (Json.obj (put key value ms)).nesting := by
  obtain ⟨⟨k, v⟩, hfind, rfl⟩ := Option.map_eq_some_iff.1 (find?_put_self key value ms)
  exact nesting_lt_obj (List.mem_of_find?_eq_some hfind)

/-! ## Merging repeated keys -/

theorem mergedElements_eq_map : mergedElements vs = vs.map merged := by
  induction vs with
  | nil => rfl
  | cons v vs ih => rw [mergedElements, ih, List.map_cons]

theorem mergedMembers_eq_map : mergedMembers ms = ms.map fun m => (m.1, m.2.merged) := by
  induction ms with
  | nil => rfl
  | cons m ms ih => rw [mergedMembers, ih, List.map_cons]

theorem mergedMembers_eq_self (h : ∀ m ∈ ms, m.2.merged = m.2) : mergedMembers ms = ms := by
  rw [mergedMembers_eq_map]
  refine (List.map_congr_left fun m hm => ?_).trans (List.map_id ms)
  rw [h m hm]
  rfl

theorem put_of_notMem {key : String} {value : Json} (h : key ∉ ms.map Prod.fst) :
    put key value ms = ms ++ [(key, value)] := by
  rcases sets_put key value ms with ⟨front, old, back, hms, -, -⟩ | ⟨-, hput⟩
  · rw [hms] at h
    simp at h
  · exact hput

theorem foldl_put_of_nodup (front : List (String × Json)) (h : ((front ++ ms).map Prod.fst).Nodup) :
    ms.foldl (fun ms m => put m.1 m.2 ms) front = front ++ ms := by
  induction ms generalizing front with
  | nil => rw [List.foldl_nil, List.append_nil]
  | cons m ms ih =>
    rw [List.append_cons] at h ⊢
    have hnew : m.1 ∉ front.map Prod.fst := by
      rw [List.append_assoc, List.map_append, List.nodup_append] at h
      exact fun hmem => h.2.2 m.1 hmem m.1 (by simp) rfl
    rw [List.foldl_cons, put_of_notMem hnew]
    exact ih _ h

/-- Members without repetitions are merged already. -/
theorem putAll_of_nodup (h : (ms.map Prod.fst).Nodup) : putAll ms = ms :=
  foldl_put_of_nodup [] h

theorem foldl_put_invariant {R : List (String × Json) → Prop}
    (hput : ∀ m ∈ ms, ∀ front, R front → R (put m.1 m.2 front)) {front : List (String × Json)}
    (h : R front) : R (ms.foldl (fun ms m => put m.1 m.2 ms) front) := by
  induction ms generalizing front with
  | nil => exact h
  | cons m ms ih =>
    rw [List.forall_mem_cons] at hput
    exact ih hput.2 (hput.1 front h)

theorem nodup_keys_putAll (ms : List (String × Json)) : ((putAll ms).map Prod.fst).Nodup :=
  foldl_put_invariant (R := fun front => (front.map Prod.fst).Nodup)
    (fun _ _ _ h => nodup_keys_put h) List.nodup_nil

theorem forall_mem_putAll (h : ∀ m ∈ ms, P m.2) : ∀ m ∈ putAll ms, P m.2 :=
  foldl_put_invariant (R := fun front => ∀ m ∈ front, P m.2)
    (fun m hm _ hfront => forall_mem_put (h m hm) hfront) (by simp)

/-- A document is merged already. -/
theorem Proper.merged (h : Proper v) : v.merged = v := by
  induction v using Json.induction with
  | arr vs ih =>
    rw [Json.merged, mergedElements_eq_map]
    refine congrArg _ ((List.map_congr_left fun v hv => ?_).trans (List.map_id vs))
    exact ih v hv (proper_arr.1 h v hv)
  | obj ms ih =>
    obtain ⟨hkeys, hms⟩ := proper_obj.1 h
    have hmap : mergedMembers ms = ms := mergedMembers_eq_self fun m hm => ih m hm (hms m hm)
    rw [Json.merged, hmap, putAll_of_nodup hkeys]
  | _ => rfl

/-- Merging makes a document of a value that can be read. -/
theorem Ranged.proper_merged (h : Ranged v) (hread : v.isReadable = true) : Proper v.merged := by
  induction v using Json.induction with
  | arr vs ih =>
    rw [Json.merged, mergedElements_eq_map, proper_arr, List.forall_mem_map]
    exact fun v hv => ih v hv ((every_arr.1 h).2 v hv) (elementsReadable_iff.1 hread v hv)
  | obj ms ih =>
    rw [Json.merged, proper_obj]
    refine ⟨nodup_keys_putAll _, forall_mem_putAll ?_⟩
    rw [mergedMembers_eq_map, List.forall_mem_map]
    exact fun m hm => ih m hm ((every_obj.1 h).2 m hm) (membersReadable_iff.1 hread m hm)
  | num n => exact proper_num.2 (h.self n rfl)
  | unreadable => cases hread
  | null | bool b | str s => simp [Json.merged, Proper]

end ReferenceSite.Json
