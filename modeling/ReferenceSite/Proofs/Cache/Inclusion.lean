import ReferenceSite.Proofs.Cache.Recency

/-!
# A larger cache holds what a smaller one holds

Two caches of different capacity are given the same operations. A look-up may refresh a key that only the
larger cache still holds, so the pairs of the smaller one are no prefix of those of the larger one, but
they stand among them in the same order (`Included`): what the larger list drops, the smaller one has
dropped already or drops too. Hence the larger cache finds whatever the smaller one finds
(`ResolutionCache.larger_includes`).
-/

namespace ReferenceSite

open Cache

namespace Recent

variable {κ ν : Type} {l l' : List (κ × ν)} {key : κ} {v : ν} {r small large : Recent κ ν}

/-- The pairs of the smaller list stand among those of the larger one in the same order, and they are all
    of them as long as the smaller list is not full. It has counted no more hits and no fewer misses. -/
structure Included (small large : Recent κ ν) : Prop where
  enabled : small.settings.enabled = true ∧ large.settings.enabled = true
  capacity : small.settings.capacity ≤ large.settings.capacity
  keys : (large.pairs.map Prod.fst).Nodup
  pairs : small.pairs.Sublist large.pairs
  unfilled : small.pairs.length < small.settings.capacity → small.pairs = large.pairs
  no_room : small.settings.capacity = 0 → small.pairs = []
  hits : small.hits ≤ large.hits
  misses : large.misses ≤ small.misses

theorem included_empty {settings settings' : Cache.Settings}
    (hon : settings.enabled = true ∧ settings'.enabled = true)
    (hcapacity : settings.capacity ≤ settings'.capacity) :
    Included ({ settings } : Recent κ ν) { settings := settings' } :=
  ⟨hon, hcapacity, List.nodup_nil, List.Sublist.refl _, fun _ => rfl, fun _ => rfl, Nat.le_refl _,
    Nat.le_refl _⟩

theorem Included.keys_small (h : Included small large) : (small.pairs.map Prod.fst).Nodup :=
  h.keys.sublist (h.pairs.map _)

theorem sublist_dropLast (h : l.Sublist l') : l.dropLast.Sublist l'.dropLast := by
  have htail := h.reverse.tail.reverse
  rwa [List.tail_reverse, List.tail_reverse, List.reverse_reverse, List.reverse_reverse] at htail

variable [BEq κ]

theorem lookup_eq_none_of_sublist (h : l.Sublist l') (hnone : l'.lookup key = none) :
    l.lookup key = none := by
  rw [List.lookup_eq_none_iff] at hnone ⊢
  exact fun p hp => hnone p (h.subset hp)

/-! ## What stays when a value is stored -/

theorem set_of_no_room (h : r.settings.capacity = 0) (key : κ) (v : ν) : r.set key v = r := by
  simp [set, h]

/-- Storing a value changes neither the settings nor what was counted of look-ups. -/
theorem set_frame (r : Recent κ ν) (key : κ) (v : ν) : (r.set key v).settings = r.settings ∧
    (r.set key v).hits = r.hits ∧ (r.set key v).misses = r.misses := by
  unfold set
  split_ifs <;> exact ⟨rfl, rfl, rfl⟩

/-- The pairs that stay when a value is stored: all but the last one if the key is new and the list is
    full. -/
def staying (r : Recent κ ν) (key : κ) : List (κ × ν) :=
  if (r.pairs.lookup key).isNone ∧ r.settings.capacity ≤ r.pairs.length then r.pairs.dropLast
  else r.pairs

theorem staying_sublist (r : Recent κ ν) (key : κ) : (r.staying key).Sublist r.pairs := by
  unfold staying
  split
  · exact List.dropLast_sublist _
  · exact List.Sublist.refl _

theorem staying_of_held (h : r.pairs.lookup key = some v) : r.staying key = r.pairs := by
  simp [staying, h]

theorem staying_of_unfilled (h : r.pairs.length < r.settings.capacity) (key : κ) :
    r.staying key = r.pairs := by
  simp [staying, Nat.not_le.2 h]

theorem staying_of_full (h : r.settings.capacity ≤ r.pairs.length)
    (hnew : r.pairs.lookup key = none) : r.staying key = r.pairs.dropLast := by
  simp [staying, h, hnew]

/-- What stays in the smaller list stays in the larger one. -/
theorem Included.staying (h : Included small large) (key : κ) :
    (small.staying key).Sublist (large.staying key) := by
  cases hlarge : large.pairs.lookup key with
  | some w =>
    rw [staying_of_held hlarge]
    exact (small.staying_sublist key).trans h.pairs
  | none =>
    have hsmall := lookup_eq_none_of_sublist h.pairs hlarge
    by_cases hfull : large.settings.capacity ≤ large.pairs.length
    · -- a smaller list with room left would be the larger one, which has none
      have hsmallFull : small.settings.capacity ≤ small.pairs.length := by
        by_contra hless
        have hsame := h.unfilled (Nat.lt_of_not_le hless)
        have hcapacity := h.capacity
        rw [hsame] at hless
        omega
      rw [staying_of_full hfull hlarge, staying_of_full hsmallFull hsmall]
      exact sublist_dropLast h.pairs
    · rw [staying_of_unfilled (Nat.lt_of_not_le hfull)]
      exact (small.staying_sublist key).trans h.pairs

/-! ## Pairs by key -/

theorem toFront_sublist (h : l.Sublist l') (key : κ) (v : ν) :
    (toFront key v l).Sublist (toFront key v l') :=
  (h.filter _).cons_cons _

variable [LawfulBEq κ]

theorem mem_of_lookup (h : l.lookup key = some v) : (key, v) ∈ l := by
  obtain ⟨front, back, rfl, -⟩ := List.lookup_eq_some_iff.1 h
  exact List.mem_append_right _ List.mem_cons_self

/-- Where no two pairs share a key, every pair is what is found for its key. -/
theorem lookup_of_mem (h : (l.map Prod.fst).Nodup) (hmem : (key, v) ∈ l) : l.lookup key = some v := by
  obtain ⟨front, back, rfl⟩ := List.append_of_mem hmem
  refine List.lookup_eq_some_iff.2 ⟨front, back, rfl, fun p hp => ?_⟩
  rw [List.map_append, List.nodup_append] at h
  rw [bne_iff_ne]
  exact (h.2.2 p.1 (List.mem_map_of_mem hp) key (by simp)).symm

theorem toFront_of_absent (h : l.lookup key = none) (v : ν) : toFront key v l = (key, v) :: l := by
  rw [List.lookup_eq_none_iff] at h
  have hall : l.filter (fun p => p.1 != key) = l :=
    List.filter_eq_self.2 fun p hp => bne_iff_ne.2 (bne_iff_ne.1 (h p hp)).symm
  rw [toFront, hall]

theorem nodup_keys_toFront (h : (l.map Prod.fst).Nodup) (key : κ) (v : ν) :
    ((toFront key v l).map Prod.fst).Nodup := by
  rw [toFront, List.map_cons, List.nodup_cons]
  exact ⟨by simp, h.sublist (List.filter_sublist.map _)⟩

/-- At most one pair gives way to the one in front. -/
theorem length_le_toFront (h : (l.map Prod.fst).Nodup) (key : κ) (v : ν) :
    l.length ≤ (toFront key v l).length := by
  induction l with
  | nil => exact Nat.zero_le _
  | cons p l ih =>
    obtain ⟨hp, hl⟩ := List.nodup_cons.1 h
    by_cases hkey : p.1 = key
    · have hrest : l.filter (fun q => q.1 != key) = l := by
        refine List.filter_eq_self.2 fun q hq => ?_
        rw [bne_iff_ne, ← hkey]
        exact fun hsame => hp (hsame ▸ List.mem_map_of_mem hq)
      simp [toFront, hkey, hrest]
    · have := ih hl
      simpa [toFront, hkey] using this

/-! ## Storing a value -/

/-- A list that stores values has the new pair in front of those that stay. -/
theorem pairs_set (hon : r.settings.enabled = true) (hroom : r.settings.capacity ≠ 0) (key : κ)
    (v : ν) : (r.set key v).pairs = toFront key v (r.staying key) := by
  unfold set staying
  cases hlookup : r.pairs.lookup key with
  | some w => simp [hon, hroom]
  | none =>
    have hdrop : r.pairs.dropLast.lookup key = none :=
      lookup_eq_none_of_sublist (List.dropLast_sublist _) hlookup
    by_cases hfull : r.settings.capacity ≤ r.pairs.length
    · simp [hon, hroom, hfull, toFront_of_absent hdrop]
    · simp [hon, hroom, hfull, toFront_of_absent hlookup]

theorem nodup_keys_set (hon : r.settings.enabled = true) (h : (r.pairs.map Prod.fst).Nodup) (key : κ)
    (v : ν) : ((r.set key v).pairs.map Prod.fst).Nodup := by
  by_cases hroom : r.settings.capacity = 0
  · rwa [set_of_no_room hroom]
  · rw [pairs_set hon hroom]
    exact nodup_keys_toFront (h.sublist ((r.staying_sublist key).map _)) key v

/-- A full list stays full. -/
theorem le_length_toFront_staying (hkeys : (r.pairs.map Prod.fst).Nodup)
    (hfull : r.settings.capacity ≤ r.pairs.length) (key : κ) (v : ν) :
    r.settings.capacity ≤ (toFront key v (r.staying key)).length := by
  refine Nat.le_trans hfull ?_
  cases hlookup : r.pairs.lookup key with
  | some w =>
    rw [staying_of_held hlookup]
    exact length_le_toFront hkeys key v
  | none =>
    have hdrop : r.pairs.dropLast.lookup key = none :=
      lookup_eq_none_of_sublist (List.dropLast_sublist _) hlookup
    rw [staying_of_full hfull hlookup, toFront_of_absent hdrop, List.length_cons,
      List.length_dropLast]
    omega

/-! ## Operations keep the inclusion -/

/-- What the smaller list finds, the larger one finds. -/
theorem Included.lookup (h : Included small large) (hv : small.pairs.lookup key = some v) :
    large.pairs.lookup key = some v :=
  lookup_of_mem h.keys (h.pairs.subset (mem_of_lookup hv))

theorem Included.get (h : Included small large) (key : κ) :
    Included (small.get key).2 (large.get key).2 := by
  unfold Recent.get
  cases hsmall : small.pairs.lookup key with
  | some v =>
    rw [h.lookup hsmall]
    refine ⟨h.enabled, h.capacity, nodup_keys_toFront h.keys key v, toFront_sublist h.pairs key v,
      fun hless => ?_, fun hzero => ?_, Nat.succ_le_succ h.hits, h.misses⟩
    · have hlength := length_le_toFront h.keys_small key v
      exact congrArg (toFront key v) (h.unfilled (Nat.lt_of_le_of_lt hlength hless))
    · rw [h.no_room hzero] at hsmall
      cases hsmall
  | none =>
    cases hlarge : large.pairs.lookup key with
    | none => exact ⟨h.enabled, h.capacity, h.keys, h.pairs, h.unfilled, h.no_room, h.hits,
        Nat.succ_le_succ h.misses⟩
    | some v =>
      -- the larger list refreshes a key that the smaller one has given up
      have hpairs : small.pairs.Sublist (toFront key v large.pairs) := by
        have hmoved := toFront_sublist h.pairs key v
        rw [toFront_of_absent hsmall] at hmoved
        exact (List.sublist_cons_self _ _).trans hmoved
      refine ⟨h.enabled, h.capacity, nodup_keys_toFront h.keys key v, hpairs, fun hless => ?_, h.no_room,
        Nat.le_succ_of_le h.hits, Nat.le_succ_of_le h.misses⟩
      rw [h.unfilled hless, hlarge] at hsmall
      cases hsmall

theorem Included.set (h : Included small large) (key : κ) (v : ν) :
    Included (small.set key v) (large.set key v) := by
  obtain ⟨hsettings, hhits, hmisses⟩ := small.set_frame key v
  obtain ⟨hsettings', hhits', hmisses'⟩ := large.set_frame key v
  have hcapacity := h.capacity
  refine ⟨?_, ?_, nodup_keys_set h.enabled.2 h.keys key v, ?_, fun hless => ?_, fun hzero => ?_, ?_, ?_⟩
  · rw [hsettings, hsettings']
    exact h.enabled
  · rw [hsettings, hsettings']
    exact hcapacity
  · by_cases hroom : small.settings.capacity = 0
    · rw [set_of_no_room hroom, h.no_room hroom]
      exact List.nil_sublist _
    · rw [pairs_set h.enabled.1 hroom, pairs_set h.enabled.2 (by omega)]
      exact toFront_sublist (h.staying key) key v
  · rw [hsettings] at hless
    have hroom : small.settings.capacity ≠ 0 := by omega
    rw [pairs_set h.enabled.1 hroom] at hless ⊢
    rw [pairs_set h.enabled.2 (by omega)]
    have hunfilled : small.pairs.length < small.settings.capacity := by
      by_contra hfull
      have := le_length_toFront_staying h.keys_small (Nat.le_of_not_lt hfull) key v
      omega
    have hsame := h.unfilled hunfilled
    have hunfilled' : large.pairs.length < large.settings.capacity := by
      rw [← hsame]
      omega
    rw [staying_of_unfilled hunfilled, staying_of_unfilled hunfilled', hsame]
  · rw [hsettings] at hzero
    rw [set_of_no_room hzero]
    exact h.no_room hzero
  · rw [hhits, hhits']
    exact h.hits
  · rw [hmisses, hmisses']
    exact h.misses

/-- An operation on both lists keeps the inclusion. -/
theorem Included.perform (h : Included small large) (o : Operation κ ν) :
    Included (small.perform o).2 (large.perform o).2 := by
  cases o with
  | get key => exact h.get key
  | set key value => exact h.set key value
  | size => exact h
  | stats => exact h
  | clear => exact included_empty h.enabled h.capacity

end Recent

/-! ## Runs -/

/-- The state after operations that are performed one after the other. -/
def after {κ ν σ : Type} (step : σ → Operation κ ν → Answer ν × σ) (s : σ)
    (os : List (Operation κ ν)) : σ :=
  os.foldl (fun s o => (step s o).2) s

theorem Recent.Included.after {κ ν : Type} [BEq κ] [LawfulBEq κ] {small large : Recent κ ν}
    (h : Included small large) (os : List (Operation κ ν)) :
    Included (ReferenceSite.after Recent.perform small os)
      (ReferenceSite.after Recent.perform large os) := by
  induction os generalizing small large with
  | nil => exact h
  | cons o os ih => exact ih (h.perform o)

namespace Cache

variable {κ ν : Type} [BEq κ] [Hashable κ]

/-- The value that is held for a key. -/
def held? (c : Cache κ ν) (key : κ) : Option ν := c.entries[key]?.map Entry.value

/-- A cache holds all that another one holds and finds all that the other one finds, with the same values;
    it has counted no fewer hits and no more misses. -/
structure Includes (large small : Cache κ ν) : Prop where
  held : ∀ k v, small.held? k = some v → large.held? k = some v
  found : ∀ k v, (small.get k).1 = some v → (large.get k).1 = some v
  hits : small.hits ≤ large.hits
  misses : large.misses ≤ small.misses

variable [LawfulBEq κ] {c small large : Cache κ ν} {r r' : Recent κ ν}

theorem Refines.after (h : c.Refines r) (os : List (Operation κ ν)) :
    (ReferenceSite.after Cache.perform c os).Refines (ReferenceSite.after Recent.perform r os) := by
  induction os generalizing c r with
  | nil => exact h
  | cons o os ih => exact ih (h.perform o).2

theorem Refines.held? (h : c.Refines r) (key : κ) : c.held? key = r.pairs.lookup key :=
  (h.lookup key).symm

/-- A look-up finds what is held. -/
theorem Refines.get_eq_held? (h : c.Refines r) (key : κ) : (c.get key).1 = c.held? key := by
  rw [(h.get key).1, h.held?, Recent.get]
  cases r.pairs.lookup key <;> rfl

/-- A cache includes another one if its list includes the list of the other one. -/
theorem Refines.includes (h : small.Refines r) (h' : large.Refines r')
    (hincluded : Recent.Included r r') : large.Includes small := by
  have hheld : ∀ k v, small.held? k = some v → large.held? k = some v := by
    intro k v hv
    rw [h.held?] at hv
    rw [h'.held?]
    exact hincluded.lookup hv
  refine ⟨hheld, fun k v hv => ?_, ?_, ?_⟩
  · rw [h.get_eq_held?] at hv
    rw [h'.get_eq_held?]
    exact hheld k v hv
  · rw [← h.hits, ← h'.hits]
    exact hincluded.hits
  · rw [← h.misses, ← h'.misses]
    exact hincluded.misses

end Cache

namespace ResolutionCache

/-- Whatever operations are performed on two caches of resolutions, from their beginning on, the one with
    the larger capacity includes the other one. -/
theorem larger_includes {capacity capacity' : Nat} (h : capacity ≤ capacity')
    (os : List (Operation LookUp Resolution)) :
    Cache.Includes
      (after Cache.perform (ofSettings { enabled := true, capacity := capacity' } : ResolutionCache) os)
      (after Cache.perform (ofSettings { enabled := true, capacity }) os) :=
  ((refines_ofSettings _).after os).includes ((refines_ofSettings _).after os)
    ((Recent.included_empty ⟨rfl, rfl⟩ h).after os)

/-- Operations by which a key is given up in a cache of one entry and refreshed in one of two entries, before
    another key is stored in both. -/
def refreshing : List (Operation LookUp Resolution) :=
  [.set ⟨{ members := ["a"] }, none⟩ (.ok 1), .set ⟨{ members := ["b"] }, none⟩ (.ok 2),
    .get ⟨{ members := ["a"] }, none⟩, .set ⟨{ members := ["c"] }, none⟩ (.ok 3)]

theorem larger_includes_refreshing :
    let small : ResolutionCache :=
      after Cache.perform (ofSettings { enabled := true, capacity := 1 }) refreshing
    let large : ResolutionCache :=
      after Cache.perform (ofSettings { enabled := true, capacity := 2 }) refreshing
    small.held? ⟨{ members := ["c"] }, none⟩ = some (.ok 3) ∧
      small.held? ⟨{ members := ["a"] }, none⟩ = none ∧
      large.held? ⟨{ members := ["a"] }, none⟩ = some (.ok 1) ∧ large.Includes small := by
  intro small large
  have hsmall : small.Refines _ := (refines_ofSettings _).after refreshing
  have hlarge : large.Refines _ := (refines_ofSettings _).after refreshing
  refine ⟨?_, ?_, ?_, larger_includes (by decide) refreshing⟩
  · rw [hsmall.held?]
    decide
  · rw [hsmall.held?]
    decide
  · rw [hlarge.held?]
    decide

end ResolutionCache

end ReferenceSite
