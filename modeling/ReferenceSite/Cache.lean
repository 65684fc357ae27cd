import Std.Data.HashMap
import Std.Data.TreeMap
import ReferenceSite.Decimal.Binary64

/-!
# A cache that forgets what was used least recently

The cache holds at most `capacity` values. Every use of an entry stamps it with a fresh reading of a clock;
`recency` finds the entry with the oldest stamp, which is the one to give up when a new key needs room.
A disabled cache stores nothing and counts every look-up as a miss.
-/

namespace ReferenceSite

/-- How a cache behaves. -/
structure Cache.Settings where
  /-- Whether anything is stored. -/
  enabled : Bool := true
  /-- The most entries held at a time. -/
  capacity : Nat := 1024
deriving DecidableEq, Repr, Inhabited

/-- A stored value. -/
structure Cache.Entry (ν : Type) where
  /-- The value. -/
  value : ν
  /-- The reading of the clock at the last use. -/
  stamp : Nat
deriving Repr, Inhabited

/-- A bounded store of values by key. -/
structure Cache (κ ν : Type) [BEq κ] [Hashable κ] where
  /-- How the cache behaves. -/
  settings : Cache.Settings
  /-- The values by key. -/
  entries : Std.HashMap κ (Cache.Entry ν) := ∅
  /-- The keys by the stamp of their entry. -/
  recency : Std.TreeMap Nat κ := ∅
  /-- The last stamp given. -/
  clock : Nat := 0
  /-- How many look-ups found a value. -/
  hits : Nat := 0
  /-- How many look-ups found none. -/
  misses : Nat := 0
  /-- How many entries were given up for new ones. -/
  evictions : Nat := 0

namespace Cache

variable {κ ν : Type} [BEq κ] [Hashable κ]

/-- An empty cache. -/
def ofSettings (settings : Settings) : Cache κ ν := { settings }

/-- A cache that never stores anything. -/
def disabled : Cache κ ν := ofSettings { enabled := false, capacity := 0 }

/-- The number of entries. -/
def size (c : Cache κ ν) : Nat := c.entries.size

/-- The cache without entries and with all counters at zero. -/
def clear (c : Cache κ ν) : Cache κ ν := ofSettings c.settings

/-- Store a value under a key with a fresh stamp, the entry with stamp `old` being replaced. -/
def restamp (c : Cache κ ν) (key : κ) (value : ν) (old : Nat) : Cache κ ν :=
  let stamp := c.clock + 1
  { c with
    clock := stamp
    entries := c.entries.insert key ⟨value, stamp⟩
    recency := (c.recency.erase old).insert stamp key }

/-- Give up the entry with the oldest stamp. -/
def evict (c : Cache κ ν) : Cache κ ν :=
  match c.recency.minEntry? with
  | none => c
  | some (stamp, key) =>
    { c with
      entries := c.entries.erase key
      recency := c.recency.erase stamp
      evictions := c.evictions + 1 }

/-- Look a key up; a value that is found counts as used. -/
def get (c : Cache κ ν) (key : κ) : Option ν × Cache κ ν :=
  match if c.settings.enabled then c.entries[key]? else none with
  | none => (none, { c with misses := c.misses + 1 })
  | some e => (some e.value, { c.restamp key e.value e.stamp with hits := c.hits + 1 })

/-- Store a value. A new key in a full cache takes the place of the entry used least recently; a new value
for a key that is held takes nobody's place. -/
def set (c : Cache κ ν) (key : κ) (value : ν) : Cache κ ν :=
  if !c.settings.enabled || c.settings.capacity == 0 then c
  else
    match c.entries[key]? with
    | some e => c.restamp key value e.stamp
    | none => (if c.settings.capacity ≤ c.size then c.evict else c).restamp key value 0

/-- The value of a function at a key, from the cache if it is held there and kept in it otherwise. The
function may have effects; they happen only if its value is not held. -/
def memoM {m : Type → Type} [Monad m] (c : Cache κ ν) (key : κ) (f : κ → m ν) : m (ν × Cache κ ν) :=
  match c.get key with
  | (some v, c) => pure (v, c)
  | (none, c) => do
    let v ← f key
    return (v, c.set key v)

/-- The value of a function without effects through the cache. -/
def memo (c : Cache κ ν) (key : κ) (f : κ → ν) : ν × Cache κ ν :=
  Id.run (c.memoM key fun k => pure (f k))

/-! ## Counters -/

/-- The counters of a cache at some moment. -/
structure Stats where
  /-- How many look-ups found a value. -/
  hits : Nat
  /-- How many look-ups found none. -/
  misses : Nat
  /-- How many entries were given up. -/
  evictions : Nat
  /-- The number of entries. -/
  size : Nat
  /-- The most entries held at a time. -/
  capacity : Nat
  /-- Whether anything is stored. -/
  enabled : Bool
deriving DecidableEq, Repr, Inhabited

/-- The counters of a cache. -/
def stats (c : Cache κ ν) : Stats where
  hits := c.hits
  misses := c.misses
  evictions := c.evictions
  size := c.size
  capacity := c.settings.capacity
  enabled := c.settings.enabled

/-- The share of look-ups that found a value, zero before the first. -/
def Stats.hitRate (s : Stats) : Binary64 :=
  let total := s.hits + s.misses
  if total == 0 then .zero false else (Binary64.ofRatio? false s.hits total).getD (.zero false)

/-- The share of look-ups that found a value, in percent with one digit after the point. -/
def Stats.hitPercentage (s : Stats) : String :=
  let hundred := (Binary64.ofNat? 100).getD default
  ((s.hitRate.mul? hundred).getD default).toTenths

end Cache

end ReferenceSite
