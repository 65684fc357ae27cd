import Mathlib.Data.List.DropRight
import ReferenceSite.Proofs.Cache.Inclusion

/-!
# The two maps of a cache and its counters

A cache finds its entries by key and the keys by the stamps of their entries. Every operation changes both maps
together, so they stay inverse to each other, and the entry with the oldest stamp is always there to make room
for a new one (`Coherent`). Nothing is lost from the counters either: what was stored under a new key is held
or was given up, and every look-up was a hit or a miss (`ResolutionCache.coherent_after`).
-/

namespace ReferenceSite

open Cache

namespace Cache

variable {κ ν : Type}

/-- The operation drops everything. -/
def Operation.isClear : Operation κ ν → Bool
  | .clear => true
  | _ => false

/-- The operation looks a key up. -/
def Operation.isGet : Operation κ ν → Bool
  | .get _ => true
  | _ => false

variable [BEq κ] [Hashable κ]

/-- The two maps of a cache are inverse to each other, all stamps were given by the clock, and no more entries
    are held than there may be. -/
structure Coherent (c : Cache κ ν) : Prop where
  size_eq : c.recency.size = c.entries.size
  inverse : ∀ s k, c.recency[s]? = some k ↔ ∃ e : Entry ν, c.entries[k]? = some e ∧ e.stamp = s
  stamped : ∀ (k : κ) (e : Entry ν), c.entries[k]? = some e → 1 ≤ e.stamp ∧ e.stamp ≤ c.clock
  bounded : c.size ≤ c.settings.capacity
  disabled : c.settings.enabled = false → c.size = 0

/-- After the operation a key is held that was not held before. -/
def inserts (c : Cache κ ν) : Operation κ ν → Bool
  | .set key value => c.entries[key]?.isNone && (c.set key value).entries[key]?.isSome
  | _ => false

/-- The operations of a run, each with the cache that it is performed on. -/
def trace (c : Cache κ ν) : List (Operation κ ν) → List (Cache κ ν × Operation κ ν)
  | [] => []
  | o :: os => (c, o) :: trace (c.perform o).2 os

/-- The end of a run, behind the last operation that drops everything. -/
def sinceClear (run : List (Cache κ ν × Operation κ ν)) : List (Cache κ ν × Operation κ ν) :=
  run.rtakeWhile fun p => !p.2.isClear

/-- The counters agree with a run: every insertion added an entry that is held or was given up, and every
    look-up was a hit or a miss. -/
structure Counted (c : Cache κ ν) (run : List (Cache κ ν × Operation κ ν)) : Prop where
  stored : c.evictions + c.size = run.countP fun p => p.1.inserts p.2
  asked : c.hits + c.misses = run.countP fun p => p.2.isGet

/-- What storing a value does: nothing, or it changes the entry of the key, or it makes a new one, for which an
    old one may have to go. -/
theorem set_eq_cases (c : Cache κ ν) (key : κ) (value : ν) :
    c.set key value = c ∨
      (∃ e, c.entries[key]? = some e ∧ c.set key value = c.restamp key value e.stamp) ∨
      (c.entries[key]? = none ∧ c.size < c.settings.capacity ∧ c.set key value = c.restamp key value 0) ∨
      (c.entries[key]? = none ∧ c.settings.capacity ≤ c.size ∧ c.settings.capacity ≠ 0 ∧
        c.set key value = c.evict.restamp key value 0) := by
  by_cases hoff : (!c.settings.enabled || c.settings.capacity == 0) = true
  · left
    rw [Cache.set, if_pos hoff]
  · right
    cases hentry : c.entries[key]? with
    | some e =>
      left
      refine ⟨e, rfl, ?_⟩
      rw [Cache.set, if_neg hoff, hentry]
    | none =>
      right
      by_cases hfull : c.settings.capacity ≤ c.size
      · right
        have hcapacity : c.settings.capacity ≠ 0 := by
          intro hzero
          simp [hzero] at hoff
        refine ⟨rfl, hfull, hcapacity, ?_⟩
        rw [Cache.set, if_neg hoff, hentry]
        simp only [if_pos hfull]
      · left
        refine ⟨rfl, Nat.lt_of_not_le hfull, ?_⟩
        rw [Cache.set, if_neg hoff, hentry]
        simp only [if_neg hfull]

/-! ## The maps -/

variable {c : Cache κ ν} {l : List (κ × Entry ν)} {r : Recent κ ν} {run : List (Cache κ ν × Operation κ ν)}

theorem Ordered.recency_size (h : c.Ordered l) : c.recency.size = l.length := by
  -- both lists hold the stamps with their keys, each stamp once
  have hstamps : (l.map fun p => (p.2.stamp, p.1)).Nodup := by
    rw [List.Nodup, List.pairwise_map]
    refine h.order.imp fun {p q} hlt heq => ?_
    have hsame : p.2.stamp = q.2.stamp := congrArg Prod.fst heq
    omega
  have hkeys : c.recency.toList.Nodup := by
    refine Std.TreeMap.distinct_keys_toList.imp fun {p q} hne heq => hne ?_
    rw [heq, Nat.compare_eq_eq]
  have hperm : c.recency.toList.Perm (l.map fun p => (p.2.stamp, p.1)) := by
    rw [List.perm_ext_iff_of_nodup hkeys hstamps]
    rintro ⟨s, k⟩
    rw [Std.TreeMap.mem_toList_iff_getElem?_eq_some, h.recency, List.mem_map]
    constructor
    · rintro ⟨e, he, rfl⟩
      exact ⟨(k, e), he, rfl⟩
    · rintro ⟨⟨k', e⟩, he, heq⟩
      obtain ⟨rfl, rfl⟩ := Prod.mk.inj heq
      exact ⟨e, he, rfl⟩
  rw [← Std.TreeMap.length_toList, hperm.length_eq, List.length_map]

variable [LawfulBEq κ]

/-- The maps of a cache with the entries of a list are inverse to each other. -/
theorem Refines.coherent (h : c.Refines r) (hbounded : c.size ≤ c.settings.capacity) : c.Coherent := by
  obtain ⟨l, hl, hpairs⟩ := h.pairs
  refine ⟨?_, fun s k => ?_, fun k e he => ?_, hbounded, fun hoff => ?_⟩
  · have hsize : c.entries.size = l.length := hl.size
    rw [hl.recency_size, hsize]
  · rw [hl.recency]
    simp only [hl.entry]
  · exact hl.clock (k, e) ((hl.entry k e).1 he)
  · rw [h.size, h.disabled hoff, List.length_nil]

/-! ## Sizes and counters -/

theorem size_restamp (c : Cache κ ν) (key : κ) (value : ν) (old : Nat) :
    (c.restamp key value old).size = if c.entries[key]?.isSome then c.size else c.size + 1 := by
  show (c.entries.insert key ⟨value, c.clock + 1⟩).size = _
  rw [Std.HashMap.size_insert]
  simp only [Std.HashMap.mem_iff_isSome_getElem?]
  rfl

theorem isSome_restamp_self (c : Cache κ ν) (key : κ) (value : ν) (old : Nat) :
    (c.restamp key value old).entries[key]?.isSome = true := by
  show ((c.entries.insert key ⟨value, c.clock + 1⟩)[key]?).isSome = true
  rw [Std.HashMap.getElem?_insert_self]
  rfl

/-- A look-up counts as a hit or as a miss, and changes neither the size nor the evictions. -/
theorem get_counters (c : Cache κ ν) (key : κ) : (c.get key).2.settings = c.settings ∧
    (c.get key).2.size = c.size ∧ (c.get key).2.evictions = c.evictions ∧
    (c.get key).2.hits + (c.get key).2.misses = c.hits + c.misses + 1 := by
  unfold Cache.get
  split
  · exact ⟨rfl, rfl, rfl, rfl⟩
  · next e he =>
    have hentry : c.entries[key]? = some e := by
      split_ifs at he
      exact he
    have hsize := c.size_restamp key e.value e.stamp
    rw [hentry, Option.isSome_some, if_pos rfl] at hsize
    refine ⟨rfl, hsize, rfl, ?_⟩
    show c.hits + 1 + c.misses = c.hits + c.misses + 1
    omega

/-- A value is stored under a new key if there was none before. -/
theorem inserts_of_restamp {c c' : Cache κ ν} {key : κ} {value : ν} {old : Nat}
    (hnew : c.entries[key]? = none) (hset : c.set key value = c'.restamp key value old) :
    c.inserts (.set key value) = true := by
  rw [inserts, hnew, hset, isSome_restamp_self]
  rfl

/-- A value is stored in the place of another one, or it takes a free place, or the place of an entry that is
    given up. -/
theorem Refines.set_cases (h : c.Refines r) (key : κ) (value : ν) :
    c.inserts (.set key value) = false ∧ (c.set key value).size = c.size ∧
        (c.set key value).evictions = c.evictions ∨
      c.inserts (.set key value) = true ∧ c.size < c.settings.capacity ∧
        (c.set key value).size = c.size + 1 ∧ (c.set key value).evictions = c.evictions ∨
      c.inserts (.set key value) = true ∧ c.settings.capacity ≤ c.size ∧
        (c.set key value).size = c.size ∧ (c.set key value).evictions = c.evictions + 1 := by
  rcases c.set_eq_cases key value with hset | ⟨e, hentry, hset⟩ | ⟨hentry, hroom, hset⟩ |
    ⟨hentry, hfull, hcapacity, hset⟩
  · left
    rw [inserts, hset]
    exact ⟨by cases c.entries[key]? <;> rfl, rfl, rfl⟩
  · have hsize := c.size_restamp key value e.stamp
    rw [hentry, Option.isSome_some, if_pos rfl] at hsize
    left
    rw [inserts, hentry, hset]
    exact ⟨rfl, hsize, rfl⟩
  · have hsize := c.size_restamp key value 0
    rw [hentry, Option.isSome_none, if_neg Bool.false_ne_true] at hsize
    right; left
    refine ⟨inserts_of_restamp hentry hset, hroom, ?_, ?_⟩
    · rw [hset, hsize]
    · rw [hset]
      rfl
  · have hne : c.size ≠ 0 := by omega
    obtain ⟨hevict, hnew⟩ := h.evict hne
    have hless : c.evict.size = c.size - 1 := by
      rw [hevict.size, h.size, List.length_dropLast]
    have hsize := c.evict.size_restamp key value 0
    rw [hnew key hentry, Option.isSome_none, if_neg Bool.false_ne_true, hless] at hsize
    right; right
    refine ⟨inserts_of_restamp hentry hset, hfull, ?_, ?_⟩
    · rw [hset, hsize]
      omega
    · have hcount : c.evict.evictions = c.evictions + 1 := by rw [← hevict.evictions, h.evictions]
      rw [hset]
      exact hcount

/-- Storing a value changes neither the settings nor what was counted of look-ups. -/
theorem Refines.set_counters (h : c.Refines r) (key : κ) (value : ν) :
    (c.set key value).settings = c.settings ∧ (c.set key value).hits = c.hits ∧
      (c.set key value).misses = c.misses := by
  have hset := h.set key value
  obtain ⟨hsettings, hhits, hmisses⟩ := r.set_frame key value
  rw [← hset.settings, ← hset.hits, ← hset.misses, hsettings, hhits, hmisses]
  exact ⟨h.settings, h.hits, h.misses⟩

/-! ## Operations -/

theorem Refines.settings_perform (h : c.Refines r) (o : Operation κ ν) :
    (c.perform o).2.settings = c.settings := by
  cases o with
  | get key => exact (c.get_counters key).1
  | set key value => exact (h.set_counters key value).1
  | size => rfl
  | stats => rfl
  | clear => rfl

theorem Refines.bounded_perform (h : c.Refines r) (hbounded : c.size ≤ c.settings.capacity)
    (o : Operation κ ν) : (c.perform o).2.size ≤ c.settings.capacity := by
  cases o with
  | get key =>
    obtain ⟨-, hsize, -, -⟩ := c.get_counters key
    exact Nat.le_trans (Nat.le_of_eq hsize) hbounded
  | set key value =>
    show (c.set key value).size ≤ c.settings.capacity
    rcases h.set_cases key value with ⟨-, hsize, -⟩ | ⟨-, hroom, hsize, -⟩ | ⟨-, -, hsize, -⟩ <;> omega
  | size => exact hbounded
  | stats => exact hbounded
  | clear => exact Nat.zero_le _

/-- What an operation adds to the counters, unless it drops everything. -/
theorem Refines.perform_counters (h : c.Refines r) {o : Operation κ ν} (ho : o.isClear = false) :
    (c.perform o).2.evictions + (c.perform o).2.size =
        c.evictions + c.size + (if c.inserts o then 1 else 0) ∧
      (c.perform o).2.hits + (c.perform o).2.misses =
        c.hits + c.misses + if o.isGet then 1 else 0 := by
  cases o with
  | get key =>
    obtain ⟨-, hsize, hevictions, hlooked⟩ := c.get_counters key
    refine ⟨?_, hlooked⟩
    show (c.get key).2.evictions + (c.get key).2.size = c.evictions + c.size
    rw [hevictions, hsize]
  | set key value =>
    obtain ⟨-, hhits, hmisses⟩ := h.set_counters key value
    constructor
    · show (c.set key value).evictions + (c.set key value).size = _
      rcases h.set_cases key value with
        ⟨hinserts, hsize, hevictions⟩ | ⟨hinserts, -, hsize, hevictions⟩ | ⟨hinserts, -, hsize, hevictions⟩
      · rw [hinserts, hsize, hevictions, if_neg Bool.false_ne_true, Nat.add_zero]
      · rw [hinserts, hsize, hevictions, if_pos rfl]
        omega
      · rw [hinserts, hsize, hevictions, if_pos rfl]
        omega
    · show (c.set key value).hits + (c.set key value).misses = c.hits + c.misses
      rw [hhits, hmisses]
  | size => exact ⟨rfl, rfl⟩
  | stats => exact ⟨rfl, rfl⟩
  | clear => cases ho

/-- An operation keeps the counters in agreement with the run, which starts anew when everything is dropped. -/
theorem Refines.counted_perform (h : c.Refines r) (hcounted : c.Counted run) (o : Operation κ ν) :
    (c.perform o).2.Counted (if o.isClear then [] else run ++ [(c, o)]) := by
  by_cases ho : o.isClear = true
  · rw [if_pos ho]
    cases o with
    | clear => exact ⟨rfl, rfl⟩
    | _ => cases ho
  · rw [Bool.not_eq_true] at ho
    obtain ⟨hstored, hasked⟩ := h.perform_counters ho
    rw [ho, if_neg Bool.false_ne_true]
    constructor
    · rw [hstored, hcounted.stored, List.countP_append, List.countP_singleton]
    · rw [hasked, hcounted.asked, List.countP_append, List.countP_singleton]

/-! ## Runs -/

end Cache

theorem after_concat {κ ν σ : Type} (step : σ → Operation κ ν → Answer ν × σ) (s : σ)
    (os : List (Operation κ ν)) (o : Operation κ ν) :
    after step s (os ++ [o]) = (step (after step s os) o).2 := by
  rw [after, List.foldl_append]
  rfl

namespace Cache

variable {κ ν : Type} [BEq κ] [Hashable κ]

theorem trace_concat (c : Cache κ ν) (os : List (Operation κ ν)) (o : Operation κ ν) :
    c.trace (os ++ [o]) = c.trace os ++ [(after Cache.perform c os, o)] := by
  induction os generalizing c with
  | nil => rfl
  | cons o' os ih => exact congrArg ((c, o') :: ·) (ih (c.perform o').2)

theorem sinceClear_concat (run : List (Cache κ ν × Operation κ ν)) (c : Cache κ ν) (o : Operation κ ν) :
    sinceClear (run ++ [(c, o)]) = if o.isClear then [] else sinceClear run ++ [(c, o)] := by
  rw [sinceClear, List.rtakeWhile_concat]
  cases o <;> rfl

variable [LawfulBEq κ]

/-- A cache keeps its settings and holds no more than it may, and its counters agree with what was done since
    everything was dropped for the last time. -/
theorem counted_after (settings : Settings) (os : List (Operation κ ν)) :
    let c : Cache κ ν := after Cache.perform (ofSettings settings) os
    c.settings = settings ∧ c.size ≤ c.settings.capacity ∧
      c.Counted (sinceClear (trace (ofSettings settings) os)) := by
  induction os using List.reverseRecOn with
  | nil => exact ⟨rfl, Nat.zero_le _, rfl, rfl⟩
  | append_singleton os o ih =>
    obtain ⟨hsettings, hbounded, hcounted⟩ := ih
    have hrefines := (refines_ofSettings settings).after os
    have hkept := hrefines.settings_perform o
    rw [after_concat, trace_concat, sinceClear_concat]
    refine ⟨hkept.trans hsettings, ?_, hrefines.counted_perform hcounted o⟩
    rw [hkept]
    exact hrefines.bounded_perform hbounded o

end Cache

/-- Whatever operations are performed on a cache of resolutions, from its beginning on, its two maps are inverse
    to each other, and its counters agree with what was done since everything was dropped for the last time. -/
theorem ResolutionCache.coherent_after (settings : Cache.Settings) (os : List (Operation LookUp Resolution)) :
    let c : ResolutionCache := after Cache.perform (ofSettings settings) os
    c.settings = settings ∧ c.Coherent ∧ c.Counted (sinceClear (trace (ofSettings settings) os)) := by
  obtain ⟨hsettings, hbounded, hcounted⟩ := Cache.counted_after settings os
  exact ⟨hsettings, ((refines_ofSettings settings).after os).coherent hbounded, hcounted⟩

end ReferenceSite
