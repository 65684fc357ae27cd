import Mathlib.Data.List.Nodup
import Mathlib.Tactic.SplitIfs
import ReferenceSite.Cache.Key

/-!
# A cache is a list with the most recent use in front

The entries of a cache, put in the order of their stamps, are a list in which every use moves a pair to the
front and every new pair in a full list drops the last one (`Recent`). `Ordered` relates the two maps of a
cache to this list; each operation keeps the relation, so a cache and its list give the same answers to any
sequence of operations (`answers_eq_recent`).
-/

namespace ReferenceSite

/-! ## The list -/

/-- A bounded list of pairs, the one used last in front. -/
structure Recent (κ ν : Type) where
  /-- How the list behaves. -/
  settings : Cache.Settings
  /-- The pairs, no two of one key. -/
  pairs : List (κ × ν) := []
  /-- How many look-ups found a value. -/
  hits : Nat := 0
  /-- How many look-ups found none. -/
  misses : Nat := 0
  /-- How many pairs were given up for new ones. -/
  evictions : Nat := 0

namespace Recent

variable {κ ν : Type} [BEq κ]

/-- The pairs with the one of a key in front. -/
def toFront (key : κ) (value : ν) (pairs : List (κ × ν)) : List (κ × ν) :=
  (key, value) :: pairs.filter fun p => p.1 != key

/-- Look a key up; a pair that is found moves to the front. -/
def get (r : Recent κ ν) (key : κ) : Option ν × Recent κ ν :=
  match r.pairs.lookup key with
  | some v => (some v, { r with pairs := toFront key v r.pairs, hits := r.hits + 1 })
  | none => (none, { r with misses := r.misses + 1 })

/-- Store a value in front. If the key is new and the list is full, the last pair is given up. -/
def set (r : Recent κ ν) (key : κ) (value : ν) : Recent κ ν :=
  if !r.settings.enabled || r.settings.capacity == 0 then r
  else if (r.pairs.lookup key).isSome then { r with pairs := toFront key value r.pairs }
  else if r.settings.capacity ≤ r.pairs.length then
    { r with pairs := (key, value) :: r.pairs.dropLast, evictions := r.evictions + 1 }
  else { r with pairs := (key, value) :: r.pairs }

/-- The counters of a list. -/
def stats (r : Recent κ ν) : Cache.Stats where
  hits := r.hits
  misses := r.misses
  evictions := r.evictions
  size := r.pairs.length
  capacity := r.settings.capacity
  enabled := r.settings.enabled

end Recent

namespace Cache

variable {κ ν : Type}

/-! ## Operations -/

/-- An operation on a store of values by key. -/
inductive Operation (κ ν : Type) where
  /-- Look a key up. -/
  | get (key : κ)
  /-- Store a value. -/
  | set (key : κ) (value : ν)
  /-- Ask for the number of pairs. -/
  | size
  /-- Ask for the counters. -/
  | stats
  /-- Drop everything. -/
  | clear

/-- The answer to an operation. -/
inductive Answer (ν : Type) where
  /-- The value that was found, if any. -/
  | value (v : Option ν)
  /-- The number of pairs. -/
  | number (n : Nat)
  /-- The counters. -/
  | stats (s : Stats)
  /-- Nothing to tell. -/
  | done

/-- Perform an operation on a cache. -/
def perform [BEq κ] [Hashable κ] (c : Cache κ ν) : Operation κ ν → Answer ν × Cache κ ν
  | .get key => (.value (c.get key).1, (c.get key).2)
  | .set key value => (.done, c.set key value)
  | .size => (.number c.size, c)
  | .stats => (.stats c.stats, c)
  | .clear => (.done, c.clear)

end Cache

open Cache

/-- Perform an operation on a list. -/
def Recent.perform {κ ν : Type} [BEq κ] (r : Recent κ ν) : Operation κ ν → Answer ν × Recent κ ν
  | .get key => (.value (r.get key).1, (r.get key).2)
  | .set key value => (.done, r.set key value)
  | .size => (.number r.pairs.length, r)
  | .stats => (.stats r.stats, r)
  | .clear => (.done, { settings := r.settings })

/-- The answers to operations that are performed one after the other. -/
def answers {κ ν σ : Type} (step : σ → Operation κ ν → Answer ν × σ) : σ → List (Operation κ ν) →
    List (Answer ν)
  | _, [] => []
  | s, o :: os => (step s o).1 :: answers step (step s o).2 os

namespace Cache

/-! ## Entries in the order of their stamps -/

open Std.DTreeMap.Internal in
theorem minEntry?_eq_head? {α : Type} (t : Std.TreeMap Nat α) : t.minEntry? = t.toList.head? := by
  -- the library relates the least entry to keys only, so the induction is on the tree itself
  have himpl : ∀ i : Impl Nat fun _ => α, Impl.Const.minEntry? i = (Impl.Const.toList i).head? := by
    intro i
    rw [Impl.Const.toList_eq_toListModel_map]
    induction i using Impl.Const.minEntry?.induct with
    | case1 => simp [Impl.Const.minEntry?]
    | case2 => simp [Impl.Const.minEntry?]
    | case3 _ _ _ _ _ _ _ _ _ ih =>
      rw [Impl.Const.minEntry?, ih]
      simp
  exact himpl t.inner.inner

/-- The first entry of a map is the one with the least key. -/
theorem minEntry?_eq_some {α : Type} {t : Std.TreeMap Nat α} {s : Nat} {a : α} (h : t[s]? = some a)
    (hleast : ∀ s' a', t[s']? = some a' → s ≤ s') : t.minEntry? = some (s, a) := by
  rw [minEntry?_eq_head?]
  have hmem : (s, a) ∈ t.toList := Std.TreeMap.mem_toList_iff_getElem?_eq_some.2 h
  have horder := Std.TreeMap.ordered_keys_toList (t := t)
  cases hlist : t.toList with
  | nil => rw [hlist] at hmem; cases hmem
  | cons p ps =>
    obtain ⟨s', a'⟩ := p
    rw [hlist] at hmem horder
    rcases List.mem_cons.1 hmem with heq | hmem
    · rw [heq]; rfl
    · have hlt : s' < s := Nat.compare_eq_lt.1 ((List.pairwise_cons.1 horder).1 _ hmem)
      have hfound : t[s']? = some a' := by
        rw [← Std.TreeMap.mem_toList_iff_getElem?_eq_some, hlist]
        exact List.mem_cons_self
      exact absurd (hleast s' a' hfound) (Nat.not_le.2 hlt)

/-- The pair of a key with an entry. -/
def unstamped {κ ν : Type} (p : κ × Entry ν) : κ × ν := (p.1, p.2.value)

theorem lookup_map_unstamped {κ ν : Type} [BEq κ] (l : List (κ × Entry ν)) (key : κ) :
    (l.map unstamped).lookup key = (l.lookup key).map Entry.value := by
  induction l with
  | nil => rfl
  | cons p l ih =>
    rw [List.map_cons, unstamped, List.lookup_cons, List.lookup_cons, ih]
    cases key == p.1 <;> rfl

theorem toFront_map_unstamped {κ ν : Type} [BEq κ] (l : List (κ × Entry ν)) (key : κ) (value : ν)
    (stamp : Nat) : Recent.toFront key value (l.map unstamped) =
      ((key, ⟨value, stamp⟩) :: l.filter fun p => p.1 != key).map unstamped := by
  rw [Recent.toFront, List.filter_map, List.map_cons]
  rfl

variable {κ ν : Type} [BEq κ] [Hashable κ]

/-- The list holds the entries of the cache in the order of their stamps, the latest first, and finds the
    same keys by stamp as the cache. All stamps were given by the clock. -/
structure Ordered (c : Cache κ ν) (l : List (κ × Entry ν)) : Prop where
  entry : ∀ k e, c.entries[k]? = some e ↔ (k, e) ∈ l
  recency : ∀ s k, c.recency[s]? = some k ↔ ∃ e, (k, e) ∈ l ∧ e.stamp = s
  order : l.Pairwise fun p q => q.2.stamp < p.2.stamp
  clock : ∀ p ∈ l, 0 < p.2.stamp ∧ p.2.stamp ≤ c.clock

theorem ordered_ofSettings [LawfulBEq κ] (settings : Settings) :
    (ofSettings settings : Cache κ ν).Ordered [] :=
  ⟨by simp [ofSettings], by simp [ofSettings], List.Pairwise.nil, by simp⟩

variable {c : Cache κ ν} {l : List (κ × Entry ν)} {key : κ} {e : Entry ν}

/-- Only one entry has a key. -/
theorem Ordered.unique (h : c.Ordered l) {e' : Entry ν} (he : (key, e) ∈ l) (he' : (key, e') ∈ l) :
    e = e' := by
  rw [← h.entry] at he he'
  exact Option.some.inj (he.symm.trans he')

theorem Ordered.nodup_keys (h : c.Ordered l) : (l.map Prod.fst).Nodup := by
  rw [List.Nodup, List.pairwise_map]
  refine h.order.imp_of_mem fun {p q} hp hq hlt hsame => ?_
  obtain ⟨k, e⟩ := p
  obtain ⟨k', e'⟩ := q
  obtain rfl : k = k' := hsame
  obtain rfl := h.unique hp hq
  exact Nat.lt_irrefl _ hlt

/-- An entry is found by its stamp. -/
theorem Ordered.stamp_iff (h : c.Ordered l) (he : (key, e) ∈ l) {p : κ × Entry ν} (hp : p ∈ l) :
    p.2.stamp = e.stamp ↔ p.1 = key := by
  obtain ⟨k, e'⟩ := p
  constructor
  · intro hstamp
    have hk := (h.recency e.stamp k).2 ⟨e', hp, hstamp⟩
    have hkey := (h.recency e.stamp key).2 ⟨e, he, rfl⟩
    exact Option.some.inj (hk.symm.trans hkey)
  · rintro rfl
    rw [h.unique hp he]

variable [LawfulBEq κ]

theorem Ordered.size (h : c.Ordered l) : c.size = l.length := by
  -- both lists hold the entries of the map, each once
  have hkeys : c.entries.toList.Nodup := by
    refine Std.HashMap.distinct_keys_toList.imp fun {p q} hne heq => ?_
    rw [heq, beq_self_eq_true] at hne
    cases hne
  have hperm : c.entries.toList.Perm l := by
    rw [List.perm_ext_iff_of_nodup hkeys h.nodup_keys.of_map]
    rintro ⟨k, e⟩
    rw [Std.HashMap.mem_toList_iff_getElem?_eq_some, h.entry]
  rw [Cache.size, ← Std.HashMap.length_toList, hperm.length_eq]

theorem Ordered.lookup (h : c.Ordered l) (key : κ) : l.lookup key = c.entries[key]? := by
  cases hlookup : l.lookup key with
  | some e =>
    obtain ⟨front, back, hl, -⟩ := List.lookup_eq_some_iff.1 hlookup
    rw [eq_comm, h.entry, hl]
    exact List.mem_append_right _ List.mem_cons_self
  | none =>
    rw [List.lookup_eq_none_iff] at hlookup
    cases hentry : c.entries[key]? with
    | none => rfl
    | some e =>
      have := hlookup _ ((h.entry key e).1 hentry)
      simp at this

/-- A use moves an entry to the front, with a new stamp. The old stamp belongs to this entry only, or to
    none if the key is new. -/
theorem Ordered.restamp (h : c.Ordered l) {old : Nat} (value : ν)
    (hold : ∀ p ∈ l, p.2.stamp = old ↔ p.1 = key) :
    (c.restamp key value old).Ordered
      ((key, ⟨value, c.clock + 1⟩) :: l.filter fun p => p.1 != key) := by
  have hother : ∀ {p}, p ∈ l.filter (fun p => p.1 != key) ↔ p ∈ l ∧ p.1 ≠ key := by
    simp
  have hnew : ∀ p ∈ l, p.2.stamp < c.clock + 1 := fun p hp => Nat.lt_succ_of_le (h.clock p hp).2
  refine ⟨fun k e => ?_, fun s k => ?_, ?_, ?_⟩
  · simp only [Cache.restamp, Std.HashMap.getElem?_insert, List.mem_cons, hother, Prod.mk.injEq]
    by_cases hk : key = k
    · subst hk
      simp [eq_comm]
    · simp [hk, Ne.symm hk, h.entry]
  · simp only [Cache.restamp, Std.TreeMap.getElem?_insert, Std.TreeMap.getElem?_erase,
      Nat.compare_eq_eq, List.mem_cons, hother, Prod.mk.injEq]
    constructor
    · intro hfound
      split_ifs at hfound with hs ho
      · exact ⟨_, Or.inl ⟨(Option.some.inj hfound).symm, rfl⟩, hs⟩
      · obtain ⟨e, he, rfl⟩ := (h.recency s k).1 hfound
        exact ⟨e, Or.inr ⟨he, fun hk => ho ((hold _ he).2 hk).symm⟩, rfl⟩
    · rintro ⟨e, ⟨rfl, rfl⟩ | ⟨he, hk⟩, rfl⟩
      · simp
      · have hs : c.clock + 1 ≠ e.stamp := Nat.ne_of_gt (hnew _ he)
        have ho : old ≠ e.stamp := fun ho => hk ((hold _ he).1 ho.symm)
        rw [if_neg hs, if_neg ho, h.recency]
        exact ⟨e, he, rfl⟩
  · refine List.pairwise_cons.2 ⟨fun p hp => hnew p (hother.1 hp).1, h.order.filter _⟩
  · refine List.forall_mem_cons.2 ⟨⟨Nat.succ_pos _, Nat.le_refl _⟩, fun p hp => ?_⟩
    exact ⟨(h.clock p (hother.1 hp).1).1, Nat.le_of_lt (hnew p (hother.1 hp).1)⟩

/-- The entry with the oldest stamp is given up. -/
theorem Ordered.evict {p : κ × Entry ν} (h : c.Ordered (l ++ [p])) :
    c.evict.Ordered l ∧ c.evict.evictions = c.evictions + 1 := by
  obtain ⟨key, e⟩ := p
  have hlast : (key, e) ∈ l ++ [(key, e)] := List.mem_append_right _ (List.mem_singleton_self _)
  have hnewer : ∀ p ∈ l, e.stamp < p.2.stamp := fun p hp =>
    (List.pairwise_append.1 h.order).2.2 p hp _ (List.mem_singleton_self _)
  have hfirst : c.recency.minEntry? = some (e.stamp, key) := by
    refine minEntry?_eq_some ((h.recency _ _).2 ⟨e, hlast, rfl⟩) fun s k hs => ?_
    obtain ⟨e', he', rfl⟩ := (h.recency s k).1 hs
    rcases List.mem_append.1 he' with hmem | hmem
    · exact Nat.le_of_lt (hnewer _ hmem)
    · cases List.mem_singleton.1 hmem
      exact Nat.le_refl _
  -- the entries that stay have neither the key nor the stamp
  have hstay : ∀ k e', (k, e') ∈ l ↔ (k, e') ∈ l ++ [(key, e)] ∧ k ≠ key := by
    intro k e'
    refine ⟨fun hmem => ⟨List.mem_append_left _ hmem, ?_⟩, fun ⟨hmem, hk⟩ => ?_⟩
    · rintro rfl
      have := hnewer _ hmem
      rw [h.unique (List.mem_append_left _ hmem) hlast] at this
      exact Nat.lt_irrefl _ this
    · refine (List.mem_append.1 hmem).resolve_right fun hmem => hk ?_
      cases List.mem_singleton.1 hmem
      rfl
  unfold Cache.evict
  rw [hfirst]
  refine ⟨⟨fun k e' => ?_, fun s k => ?_, ?_, ?_⟩, rfl⟩
  · simp only [Std.HashMap.getElem?_erase, hstay, ← h.entry]
    by_cases hk : key = k
    · simp [hk]
    · simp [hk, Ne.symm hk]
  · simp only [Std.TreeMap.getElem?_erase, Nat.compare_eq_eq]
    constructor
    · intro hfound
      split_ifs at hfound with hs
      obtain ⟨e', he', rfl⟩ := (h.recency s k).1 hfound
      refine ⟨e', (hstay k e').2 ⟨he', fun hk => hs ?_⟩, rfl⟩
      exact ((h.stamp_iff hlast he').2 hk).symm
    · rintro ⟨e', he', rfl⟩
      rw [if_neg (Nat.ne_of_lt (hnewer _ he')), h.recency]
      exact ⟨e', List.mem_append_left _ he', rfl⟩
  · exact (List.pairwise_append.1 h.order).1
  · exact fun p hp => h.clock p (List.mem_append_left _ hp)

/-! ## Operations on a cache and on its list -/

/-- The list has the pairs of the cache in the order of their last use, and the same counters. A disabled
    cache has no pairs. -/
structure Refines (c : Cache κ ν) (r : Recent κ ν) : Prop where
  pairs : ∃ l, c.Ordered l ∧ r.pairs = l.map unstamped
  settings : r.settings = c.settings
  hits : r.hits = c.hits
  misses : r.misses = c.misses
  evictions : r.evictions = c.evictions
  disabled : c.settings.enabled = false → r.pairs = []

theorem refines_ofSettings (settings : Settings) :
    (ofSettings settings : Cache κ ν).Refines { settings } :=
  ⟨⟨[], ordered_ofSettings settings, rfl⟩, rfl, rfl, rfl, rfl, fun _ => rfl⟩

variable {r : Recent κ ν}

/-- The same values are found. -/
theorem Refines.lookup (h : c.Refines r) (key : κ) :
    r.pairs.lookup key = (c.entries[key]?).map Entry.value := by
  obtain ⟨l, hl, hpairs⟩ := h.pairs
  rw [hpairs, lookup_map_unstamped, hl.lookup]

theorem Refines.size (h : c.Refines r) : c.size = r.pairs.length := by
  obtain ⟨l, hl, hpairs⟩ := h.pairs
  rw [hpairs, List.length_map, hl.size]

theorem Refines.stats (h : c.Refines r) : c.stats = r.stats := by
  simp [Cache.stats, Recent.stats, h.size, h.settings, h.hits, h.misses, h.evictions]

/-- A key is held only if the cache is enabled. -/
theorem Refines.enabled (h : c.Refines r) (he : c.entries[key]? = some e) :
    c.settings.enabled = true := by
  rw [← Bool.not_eq_false]
  intro hoff
  have hlookup := h.lookup key
  rw [h.disabled hoff, he] at hlookup
  cases hlookup

/-- A use moves the pair of its key to the front. -/
theorem Refines.restamp (h : c.Refines r) (hon : c.settings.enabled = true) {old : Nat} (value : ν)
    (hold : ∀ l, c.Ordered l → ∀ p ∈ l, p.2.stamp = old ↔ p.1 = key) :
    (c.restamp key value old).Refines { r with pairs := Recent.toFront key value r.pairs } := by
  obtain ⟨l, hl, hpairs⟩ := h.pairs
  refine ⟨⟨_, hl.restamp value (hold l hl), ?_⟩, h.settings, h.hits, h.misses, h.evictions,
    fun hoff => ?_⟩
  · rw [hpairs]
    exact toFront_map_unstamped l key value _
  · have hoff : c.settings.enabled = false := hoff
    rw [hon] at hoff
    cases hoff

theorem Refines.restamp_held (h : c.Refines r) (he : c.entries[key]? = some e) (value : ν) :
    (c.restamp key value e.stamp).Refines { r with pairs := Recent.toFront key value r.pairs } :=
  h.restamp (h.enabled he) value fun _ hl _ hp => hl.stamp_iff ((hl.entry key e).1 he) hp

/-- A new key gets its pair in front. -/
theorem Refines.restamp_new (h : c.Refines r) (hon : c.settings.enabled = true)
    (hnew : c.entries[key]? = none) (value : ν) :
    (c.restamp key value 0).Refines { r with pairs := (key, value) :: r.pairs } := by
  have hother : ∀ l, c.Ordered l → ∀ p ∈ l, p.1 ≠ key := by
    rintro l hl ⟨k, e⟩ hp rfl
    rw [← hl.entry, hnew] at hp
    cases hp
  have hfront : Recent.toFront key value r.pairs = (key, value) :: r.pairs := by
    obtain ⟨l, hl, hpairs⟩ := h.pairs
    rw [Recent.toFront, hpairs, List.filter_eq_self.2 fun p hp => ?_]
    obtain ⟨q, hq, rfl⟩ := List.mem_map.1 hp
    simpa [unstamped] using hother l hl q hq
  rw [← hfront]
  refine h.restamp hon value fun l hl p hp => ?_
  have hpos := (hl.clock p hp).1
  exact ⟨fun hzero => absurd hzero (Nat.ne_of_gt hpos), fun hk => absurd hk (hother l hl p hp)⟩

omit [LawfulBEq κ] in
theorem evict_frame (c : Cache κ ν) : c.evict.settings = c.settings ∧ c.evict.hits = c.hits ∧
    c.evict.misses = c.misses := by
  unfold Cache.evict
  split <;> exact ⟨rfl, rfl, rfl⟩

/-- A cache that is not empty gives up the last pair, and no key is new in it. -/
theorem Refines.evict (h : c.Refines r) (hne : c.size ≠ 0) :
    c.evict.Refines { r with pairs := r.pairs.dropLast, evictions := r.evictions + 1 } ∧
      ∀ k : κ, c.entries[k]? = none → c.evict.entries[k]? = none := by
  obtain ⟨l, hl, hpairs⟩ := h.pairs
  rcases List.eq_nil_or_concat l with rfl | ⟨l, p, rfl⟩
  · exact absurd hl.size hne
  · rw [List.concat_eq_append] at hl hpairs
    obtain ⟨hordered, hcount⟩ := hl.evict
    obtain ⟨hsettings, hhits, hmisses⟩ := c.evict_frame
    have hdrop : r.pairs.dropLast = l.map unstamped := by
      rw [hpairs, List.map_append, List.map_singleton, List.dropLast_concat]
    refine ⟨⟨⟨l, hordered, hdrop⟩, h.settings.trans hsettings.symm, h.hits.trans hhits.symm,
      h.misses.trans hmisses.symm, ?_, fun hoff => ?_⟩, fun k hnew => ?_⟩
    · rw [hcount, h.evictions]
    · rw [hsettings] at hoff
      exact congrArg List.dropLast (h.disabled hoff)
    · rw [Option.eq_none_iff_forall_not_mem] at hnew ⊢
      exact fun e he => hnew e ((hl.entry k e).2 (List.mem_append_left _ ((hordered.entry k e).1 he)))

omit [LawfulBEq κ] in
/-- Counting changes no pairs. -/
theorem Refines.count (h : c.Refines r) (found lost : Nat) :
    ({ c with hits := c.hits + found, misses := c.misses + lost } : Cache κ ν).Refines
      { r with hits := r.hits + found, misses := r.misses + lost } := by
  obtain ⟨l, hl, hpairs⟩ := h.pairs
  exact ⟨⟨l, ⟨hl.entry, hl.recency, hl.order, hl.clock⟩, hpairs⟩, h.settings,
    congrArg (· + found) h.hits, congrArg (· + lost) h.misses, h.evictions, h.disabled⟩

/-- A look-up finds the same value and leaves the same pairs. -/
theorem Refines.get (h : c.Refines r) (key : κ) :
    (c.get key).1 = (r.get key).1 ∧ (c.get key).2.Refines (r.get key).2 := by
  unfold Cache.get Recent.get
  rw [h.lookup]
  cases hentry : c.entries[key]? with
  | none =>
    rw [ite_self]
    exact ⟨rfl, h.count 0 1⟩
  | some e =>
    rw [if_pos (h.enabled hentry)]
    exact ⟨rfl, (h.restamp_held hentry e.value).count 1 0⟩

/-- Storing a value leaves the same pairs. -/
theorem Refines.set (h : c.Refines r) (key : κ) (value : ν) :
    (c.set key value).Refines (r.set key value) := by
  unfold Cache.set Recent.set
  rw [← h.settings, h.lookup, ← h.size]
  by_cases hoff : (!r.settings.enabled || r.settings.capacity == 0) = true
  · rw [if_pos hoff, if_pos hoff]
    exact h
  · rw [if_neg hoff, if_neg hoff]
    obtain ⟨hon, hcapacity⟩ : c.settings.enabled = true ∧ r.settings.capacity ≠ 0 := by
      simpa [h.settings] using hoff
    cases hentry : c.entries[key]? with
    | some e => simpa using h.restamp_held hentry value
    | none =>
      by_cases hfull : r.settings.capacity ≤ c.size
      · obtain ⟨hevict, hnew⟩ := h.evict (by omega)
        have hon' : c.evict.settings.enabled = true := by rw [c.evict_frame.1, hon]
        simpa [hfull] using hevict.restamp_new hon' (hnew key hentry) value
      · simpa [hfull] using h.restamp_new hon hentry value

/-- An operation has the same answer, and its effects correspond. -/
theorem Refines.perform (h : c.Refines r) (o : Operation κ ν) :
    (c.perform o).1 = (r.perform o).1 ∧ (c.perform o).2.Refines (r.perform o).2 := by
  cases o with
  | get key =>
    obtain ⟨hvalue, hnext⟩ := h.get key
    exact ⟨congrArg Answer.value hvalue, hnext⟩
  | set key value => exact ⟨rfl, h.set key value⟩
  | size => exact ⟨congrArg Answer.number h.size, h⟩
  | stats => exact ⟨congrArg Answer.stats h.stats, h⟩
  | clear =>
    refine ⟨rfl, ?_⟩
    rw [Cache.perform, Recent.perform, h.settings]
    exact refines_ofSettings c.settings

theorem Refines.answers (h : c.Refines r) (os : List (Operation κ ν)) :
    answers Cache.perform c os = answers Recent.perform r os := by
  induction os generalizing c r with
  | nil => rfl
  | cons o os ih =>
    obtain ⟨hanswer, hnext⟩ := h.perform o
    rw [ReferenceSite.answers, ReferenceSite.answers, hanswer, ih hnext]

end Cache

/-- Whatever operations are performed on a cache of resolutions, from its beginning on, it answers like a
    list with the most recent use in front. -/
theorem ResolutionCache.answers_eq_recent (settings : Cache.Settings)
    (os : List (Operation LookUp Resolution)) :
    answers Cache.perform (Cache.ofSettings settings : ResolutionCache) os =
      answers Recent.perform { settings } os :=
  (Cache.refines_ofSettings settings).answers os

end ReferenceSite
