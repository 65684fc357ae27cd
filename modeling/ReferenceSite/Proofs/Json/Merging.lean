import ReferenceSite.Proofs.Json.Parts

/-!
# Merged values

Merging the repetitions of keys in a value makes a document, and a document is merged already
(`merged_merged`, `merged_obj_eq_self_iff`). Merging keeps the order of the keys, so the members with some of
the keys can be taken out before or after it (`filter_putAll`).
-/

namespace ReferenceSite.Json

variable {ms : List (String × Json)} {keep : String → Bool} {key : String}

theorem merged_arr (vs : List Json) : (Json.arr vs).merged = .arr (vs.map merged) := by
  rw [merged, mergedElements_eq_map]

theorem merged_merged (v : Json) : v.merged.merged = v.merged := by
  induction v using Json.induction with
  | arr vs ih =>
    rw [merged_arr, merged_arr, List.map_map]
    exact congrArg Json.arr (List.map_congr_left ih)
  | obj ms ih =>
    have hvalues : ∀ m ∈ putAll (mergedMembers ms), m.2.merged = m.2 := by
      refine forall_mem_putAll (P := fun v => v.merged = v) ?_
      rw [mergedMembers_eq_map, List.forall_mem_map]
      exact ih
    rw [merged, merged, mergedMembers_eq_self hvalues, putAll_of_nodup (nodup_keys_putAll _)]
  | _ => rfl

/-- An object is merged already exactly if it has each key once and its values are merged. -/
theorem merged_obj_eq_self_iff :
    (Json.obj ms).merged = .obj ms ↔ (ms.map Prod.fst).Nodup ∧ ∀ m ∈ ms, m.2.merged = m.2 := by
  rw [merged, Json.obj.injEq]
  constructor
  · intro h
    rw [← h]
    refine ⟨nodup_keys_putAll _, forall_mem_putAll (P := fun v => v.merged = v) ?_⟩
    rw [mergedMembers_eq_map, List.forall_mem_map]
    exact fun m _ => merged_merged m.2
  · rintro ⟨hkeys, hvalues⟩
    rw [mergedMembers_eq_self hvalues, putAll_of_nodup hkeys]

/-! ## Members with some of the keys -/

theorem filter_put (keep : String → Bool) (key : String) (value : Json) (ms : List (String × Json)) :
    (put key value ms).filter (fun m => keep m.1) =
      if keep key then put key value (ms.filter fun m => keep m.1) else ms.filter fun m => keep m.1 := by
  induction ms with
  | nil => by_cases hkey : keep key = true <;> simp [put, hkey]
  | cons m ms ih =>
    obtain ⟨k, v⟩ := m
    rw [put_cons]
    by_cases hk : k = key
    · subst hk
      by_cases hkey : keep k = true
      · simp [hkey, put_cons]
      · simp [hkey]
    · rw [if_neg hk]
      by_cases hkey : keep key = true
      · rw [if_pos hkey] at ih
        by_cases hkeep : keep k = true
        · simp [hkey, hkeep, ih, put_cons, hk]
        · simp [hkey, hkeep, ih]
      · rw [if_neg hkey] at ih
        by_cases hkeep : keep k = true
        · simp [hkey, hkeep, ih]
        · simp [hkey, hkeep, ih]

/-- Taking members out by their keys and merging can be done in either order. -/
theorem filter_putAll (keep : String → Bool) (ms : List (String × Json)) :
    (putAll ms).filter (fun m => keep m.1) = putAll (ms.filter fun m => keep m.1) := by
  have hfold : ∀ front : List (String × Json),
      (ms.foldl (fun ms m => put m.1 m.2 ms) front).filter (fun m => keep m.1) =
        (ms.filter fun m => keep m.1).foldl (fun ms m => put m.1 m.2 ms)
          (front.filter fun m => keep m.1) := by
    induction ms with
    | nil => exact fun _ => rfl
    | cons m ms ih =>
      intro front
      rw [List.foldl_cons, ih, filter_put]
      by_cases hkey : keep m.1 = true
      · simp [hkey]
      · simp [hkey]
  exact hfold []

theorem find?_filter (h : keep key = true) : find? key (ms.filter fun m => keep m.1) = find? key ms := by
  induction ms with
  | nil => rfl
  | cons m ms ih =>
    obtain ⟨k, v⟩ := m
    by_cases hk : k = key
    · subst hk
      simp [h, find?_cons]
    · by_cases hkeep : keep k = true
      · simp [hkeep, find?_cons, hk, ih]
      · simp [hkeep, find?_cons, hk, ih]

theorem find?_mergedMembers : find? key (mergedMembers ms) = (find? key ms).map merged := by
  induction ms with
  | nil => rfl
  | cons m ms ih =>
    obtain ⟨k, v⟩ := m
    rw [mergedMembers, find?_cons, find?_cons, ih]
    by_cases hk : k = key
    · simp [hk]
    · simp [hk]

theorem filter_mergedMembers (keep : String → Bool) (ms : List (String × Json)) :
    (mergedMembers ms).filter (fun m => keep m.1) = mergedMembers (ms.filter fun m => keep m.1) := by
  rw [mergedMembers_eq_map, mergedMembers_eq_map, List.filter_map]
  rfl

/-- Merging does not change the value of a key of which there are no repetitions. -/
theorem find?_putAll (hkey : keep key = true) (h : ((ms.filter fun m => keep m.1).map Prod.fst).Nodup) :
    find? key (putAll ms) = find? key ms := by
  rw [← find?_filter hkey, filter_putAll, putAll_of_nodup h, find?_filter hkey]

end ReferenceSite.Json
