import Mathlib.Data.List.Nodup
import Mathlib.Tactic.SplitIfs
import ReferenceSite.Json.Value

/-!
# Members of objects

Setting a key changes the value of the first member with that key and nothing else: all members keep
their places, and a key that is missing is appended (`sets_put`). Setting a key again wins over setting
it before (`put_put`).
-/

namespace ReferenceSite.Json

/-- `after` is `before` with a key set to a value: the first member with the key has the new value, and
    without one a member is appended. -/
def Sets (key : String) (value : Json) (before after : List (String × Json)) : Prop :=
  (∃ front old back, before = front ++ (key, old) :: back ∧ key ∉ front.map Prod.fst ∧
    after = front ++ (key, value) :: back) ∨
  (key ∉ before.map Prod.fst ∧ after = before ++ [(key, value)])

theorem sets_put (key : String) (value : Json) (members : List (String × Json)) :
    Sets key value members (put key value members) := by
  induction members with
  | nil => exact Or.inr ⟨by simp, rfl⟩
  | cons p ms ih =>
    obtain ⟨k, v⟩ := p
    by_cases hk : k = key
    · subst hk
      exact Or.inl ⟨[], v, ms, rfl, by simp, by simp [put]⟩
    · have hput : put key value ((k, v) :: ms) = (k, v) :: put key value ms := by simp [put, hk]
      have hne : key ≠ k := fun h => hk h.symm
      rw [hput]
      rcases ih with ⟨front, old, back, hms, hfront, hafter⟩ | ⟨hms, hafter⟩
      · exact Or.inl ⟨(k, v) :: front, old, back, by rw [hms]; rfl, by simp_all, by rw [hafter]; rfl⟩
      · exact Or.inr ⟨by simp_all, by rw [hafter]; rfl⟩

theorem find?_cons (key k : String) (v : Json) (ms : List (String × Json)) :
    find? key ((k, v) :: ms) = if k = key then some v else find? key ms := by
  by_cases hk : k = key <;> simp [find?, hk]

theorem put_cons (key k : String) (value v : Json) (ms : List (String × Json)) :
    put key value ((k, v) :: ms) =
      if k = key then (k, value) :: ms else (k, v) :: put key value ms := by
  by_cases hk : k = key <;> simp [put, hk]

@[simp]
theorem find?_put_self (key : String) (value : Json) (members : List (String × Json)) :
    find? key (put key value members) = some value := by
  induction members with
  | nil => simp [put, find?]
  | cons p ms ih =>
    rw [put_cons]
    split_ifs with hk
    · rw [find?_cons, if_pos hk]
    · rw [find?_cons, if_neg hk, ih]

theorem find?_put_of_ne {key other : String} (hne : other ≠ key) (value : Json)
    (members : List (String × Json)) : find? other (put key value members) = find? other members := by
  induction members with
  | nil => rw [put, find?_cons, if_neg (Ne.symm hne)]
  | cons p ms ih =>
    rw [put_cons, find?_cons]
    split_ifs with hk ho ho
    · exact absurd (ho.symm.trans hk) hne
    · rw [find?_cons, if_neg ho]
    · rw [find?_cons, if_pos ho]
    · rw [find?_cons, if_neg ho, ih]

/-- A first member whose key does not come again keeps its value when repetitions of keys are merged. -/
theorem find?_putAll_cons {key : String} {members : List (String × Json)}
    (h : key ∉ members.map Prod.fst) (value : Json) :
    find? key (putAll ((key, value) :: members)) = some value := by
  have hrest : ∀ ms, find? key (members.foldl (fun ms m => put m.1 m.2 ms) ms) = find? key ms := by
    induction members with
    | nil => exact fun _ => rfl
    | cons m members ih =>
      rw [List.map_cons, List.mem_cons, not_or] at h
      intro ms
      rw [List.foldl_cons, ih h.2, find?_put_of_ne h.1]
  exact (hrest _).trans (find?_put_self key value [])

/-- The second of two settings of a key wins, at the place of the first. -/
@[simp]
theorem put_put (key : String) (value value' : Json) (members : List (String × Json)) :
    put key value' (put key value members) = put key value' members := by
  induction members with
  | nil => simp [put]
  | cons p ms ih =>
    rw [put_cons, put_cons]
    split_ifs with hk
    · rw [put_cons, if_pos hk]
    · rw [put_cons, if_neg hk, ih]

/-- The members keep the property of all values that a setting of a key respects. -/
theorem forall_mem_put {P : Json → Prop} {key : String} {value : Json}
    {members : List (String × Json)} (hv : P value) (hms : ∀ m ∈ members, P m.2) :
    ∀ m ∈ put key value members, P m.2 := by
  induction members with
  | nil => simpa [put] using hv
  | cons p ms ih =>
    rw [List.forall_mem_cons] at hms
    rw [put_cons]
    split_ifs with hk
    · exact List.forall_mem_cons.2 ⟨hv, hms.2⟩
    · exact List.forall_mem_cons.2 ⟨hms.1, ih hms.2⟩

/-- Setting a key repeats no key. -/
theorem nodup_keys_put {key : String} {value : Json} {members : List (String × Json)}
    (h : (members.map Prod.fst).Nodup) : ((put key value members).map Prod.fst).Nodup := by
  rcases sets_put key value members with ⟨front, old, back, hms, -, hput⟩ | ⟨hnew, hput⟩
  · rw [hput]
    rw [hms] at h
    simpa using h
  · rw [hput, List.map_append, List.nodup_append]
    refine ⟨h, List.nodup_singleton _, ?_⟩
    intro a ha b hb hab
    have hb' : b = key := by simpa using hb
    exact hnew (hb' ▸ hab ▸ ha)

end ReferenceSite.Json
