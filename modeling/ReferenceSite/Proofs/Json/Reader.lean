import ReferenceSite.Json.Reader
import ReferenceSite.Proofs.Json.Parts

/-!
# What the reader yields

The numbers in a value that was read fit their form (`ranged_of_ofText?`), so a document that was read and
merged is proper (`proper_of_document?`).
-/

namespace ReferenceSite.Json

theorem absorb_le {n : Nat} {digits : List Char} (h : n ≤ maxNatural) :
    (absorb n digits).1 ≤ maxNatural := by
  induction digits generalizing n with
  | nil => exact h
  | cons d digits ih =>
    unfold absorb
    dsimp only
    split_ifs with hlt
    · exact h
    · exact ih (Nat.le_of_not_lt hlt)

theorem inRange_of_numberOf? {negative : Bool} {digits fraction : List Char} {exponent : Option Int}
    {n : Number} (h : numberOf? negative digits fraction exponent = some n) : n.InRange := by
  have hle : (absorb 0 digits).1 ≤ maxNatural := absorb_le (Nat.zero_le maxNatural)
  have hdouble : ∀ (x? : Option Binary64) (f : Binary64 → Binary64),
      (do let x ← x?; return Number.double (f x)) = some n → n.InRange := by
    intro x? f hx
    cases x? with
    | none => cases hx
    | some x => cases hx; trivial
  unfold numberOf? at h
  dsimp only at h
  split_ifs at h with _ _ hrange
  · cases h
    exact Nat.lt_of_le_pred (by decide) hle
  · cases h
    simpa [Number.InRange] using hrange
  · exact hdouble _ _ h
  · exact hdouble _ id h
  · exact hdouble _ _ h
  · exact hdouble _ id h

theorem ranged_num {n : Number} (h : n.InRange) : Ranged (.num n) := by
  simpa [Ranged] using h

theorem ranged_of_readNumber {cs rest : List Char} {v : Json} (h : readNumber cs = some (v, rest)) :
    Ranged v := by
  unfold readNumber at h
  simp only [Option.bind_eq_bind, Option.bind_eq_some_iff] at h
  obtain ⟨digits, -, fraction, -, exponent, -, h⟩ := h
  split at h
  · next n hn =>
    cases h
    exact ranged_num (inRange_of_numberOf? hn)
  · cases h
    simp [Ranged]

/-- A result that a list of partial results has comes from one of them. -/
theorem exists_of_mapM {α β : Type} {f : α → Option β} {l : List α} {l' : List β}
    (h : l.mapM f = some l') {b : β} (hb : b ∈ l') : ∃ a ∈ l, f a = some b := by
  induction l generalizing l' with
  | nil =>
    cases h
    cases hb
  | cons a l ih =>
    rw [List.mapM_cons] at h
    simp only [Option.bind_eq_bind, Option.bind_eq_some_iff] at h
    obtain ⟨b', hb', rest, hrest, h⟩ := h
    cases h
    rcases List.mem_cons.1 hb with rfl | hb
    · exact ⟨a, List.mem_cons_self, hb'⟩
    · obtain ⟨a', ha', hfa⟩ := ih hrest hb
      exact ⟨a', List.mem_cons_of_mem _ ha', hfa⟩

theorem ranged_objectOf {members : List (Option String × Json)} (h : ∀ m ∈ members, Ranged m.2) :
    Ranged (objectOf members) := by
  unfold objectOf
  split
  · next ms hms =>
    rw [Ranged, every_obj]
    refine ⟨by simp, fun m hm => ?_⟩
    obtain ⟨⟨k, v⟩, hmem, hkey⟩ := exists_of_mapM hms hm
    obtain ⟨k', -, rfl⟩ := Option.map_eq_some_iff.1 hkey
    exact h _ hmem
  · simp [Ranged]

/-- Whatever is read within an amount of fuel has numbers that fit their form. -/
structure RangedWithin (fuel : Nat) : Prop where
  value : ∀ cs v rest, readValue fuel cs = some (v, rest) → Ranged v
  elements : ∀ read cs vs rest, (∀ v ∈ read, Ranged v) → readElements fuel read cs = some (vs, rest) →
    ∀ v ∈ vs, Ranged v
  members : ∀ read cs ms rest, (∀ m ∈ read, Ranged m.2) → readMembers fuel read cs = some (ms, rest) →
    ∀ m ∈ ms, Ranged m.2

theorem RangedWithin.readValue_succ {fuel : Nat} (ih : RangedWithin fuel) {cs rest : List Char}
    {v : Json} (h : readValue (fuel + 1) cs = some (v, rest)) : Ranged v := by
  unfold readValue at h
  split at h
  · cases h
  -- the first character tells strings, arrays, objects, the three words and numbers apart
  · split at h
    · simp only [Option.bind_eq_bind, Option.bind_eq_some_iff] at h
      obtain ⟨⟨s, after⟩, -, h⟩ := h
      cases h
      cases s <;> simp [Ranged]
    · split at h
      · cases h
        simp [Ranged]
      · simp only [Option.bind_eq_bind, Option.bind_eq_some_iff] at h
        obtain ⟨⟨vs, after⟩, hvs, h⟩ := h
        cases h
        rw [Ranged, every_arr]
        exact ⟨by simp, ih.elements _ _ _ _ (by simp) hvs⟩
    · split at h
      · cases h
      · split_ifs at h
        · cases h
          simp [Ranged]
        · simp only [Option.bind_eq_bind, Option.bind_eq_some_iff] at h
          obtain ⟨⟨ms, after⟩, hms, h⟩ := h
          cases h
          exact ranged_objectOf (ih.members _ _ _ _ (by simp) hms)
    · obtain ⟨after, -, h⟩ := Option.map_eq_some_iff.1 h
      cases h
      simp [Ranged]
    · obtain ⟨after, -, h⟩ := Option.map_eq_some_iff.1 h
      cases h
      simp [Ranged]
    · obtain ⟨after, -, h⟩ := Option.map_eq_some_iff.1 h
      cases h
      simp [Ranged]
    · exact ranged_of_readNumber h

theorem RangedWithin.readElements_succ {fuel : Nat} (ih : RangedWithin fuel) {read vs : List Json}
    {cs rest : List Char} (hread : ∀ v ∈ read, Ranged v)
    (h : readElements (fuel + 1) read cs = some (vs, rest)) : ∀ v ∈ vs, Ranged v := by
  unfold readElements at h
  simp only [Option.bind_eq_bind, Option.bind_eq_some_iff] at h
  obtain ⟨⟨v, after⟩, hv, h⟩ := h
  have hread' : ∀ u ∈ v :: read, Ranged u := List.forall_mem_cons.2 ⟨ih.value _ _ _ hv, hread⟩
  split at h
  · exact ih.elements _ _ _ _ hread' h
  · cases h
    intro u hu
    exact hread' u (List.mem_reverse.1 hu)
  · cases h

theorem RangedWithin.readMembers_succ {fuel : Nat} (ih : RangedWithin fuel)
    {read ms : List (Option String × Json)} {cs rest : List Char} (hread : ∀ m ∈ read, Ranged m.2)
    (h : readMembers (fuel + 1) read cs = some (ms, rest)) : ∀ m ∈ ms, Ranged m.2 := by
  unfold readMembers at h
  split at h
  · cases h
  · split_ifs at h
    simp only [Option.bind_eq_bind, Option.bind_eq_some_iff] at h
    obtain ⟨⟨k, afterKey⟩, -, h⟩ := h
    split at h
    · simp only [Option.bind_eq_some_iff] at h
      obtain ⟨⟨v, after⟩, hv, h⟩ := h
      have hread' : ∀ m ∈ (k, v) :: read, Ranged m.2 :=
        List.forall_mem_cons.2 ⟨ih.value _ _ _ hv, hread⟩
      split at h
      · cases h
      · split_ifs at h
        · exact ih.members _ _ _ _ hread' h
        · cases h
          intro m hm
          exact hread' m (List.mem_reverse.1 hm)
    · cases h

/-- Whatever is read has numbers that fit their form. -/
theorem rangedWithin (fuel : Nat) : RangedWithin fuel := by
  induction fuel with
  | zero => exact ⟨by simp [readValue], by simp [readElements], by simp [readMembers]⟩
  | succ fuel ih =>
    exact ⟨fun _ _ _ => ih.readValue_succ, fun _ _ _ _ => ih.readElements_succ,
      fun _ _ _ _ => ih.readMembers_succ⟩

theorem ranged_of_ofText? {text : String} {v : Json} (h : ofText? text = some v) : Ranged v := by
  unfold ofText? at h
  simp only [Option.bind_eq_bind, Option.bind_eq_some_iff] at h
  obtain ⟨⟨u, rest⟩, hread, h⟩ := h
  split_ifs at h
  cases h
  exact (rangedWithin _).value _ _ _ hread

/-- A document that was read is proper. -/
theorem proper_of_document? {text : String} {v : Json}
    (h : (ofText? text).bind document? = some v) : Proper v := by
  obtain ⟨u, hread, hdoc⟩ := Option.bind_eq_some_iff.1 h
  unfold document? at hdoc
  split_ifs at hdoc with hok
  cases hdoc
  exact (ranged_of_ofText? hread).proper_merged (Bool.and_eq_true_iff.1 hok).1

end ReferenceSite.Json
