import ReferenceSite.Proofs.Cache.Answers
import ReferenceSite.Proofs.Cache.Recency

/-!
# Requests to a cache before a resolver

A cache that is filled only through a resolver answers every request as the resolver would, and asks the
resolver once for each request whose answer it does not hold (`exchanges_faithful`). How often the
resolver is asked shows when it writes down what it is asked (`recording`).
-/

namespace ReferenceSite.ResolutionCache

/-- A request to a cache that stands before a resolver. -/
inductive Request where
  /-- Resolve a reference through the cache. -/
  | resolve (k : LookUp)
  /-- Look an answer up in the cache. -/
  | get (k : LookUp)
  /-- Ask for the number of answers held. -/
  | size
  /-- Ask for the counters. -/
  | stats
  /-- Drop everything. -/
  | clear

/-- Serve a request, by a resolver that may have effects. -/
def serve {m : Type → Type} [Monad m] (inner : Reference → (context : Option Nat) → m Resolution)
    (c : ResolutionCache) : Request → m (Cache.Answer Resolution × ResolutionCache)
  | .resolve k => do
    let (answer, c) ← c.resolveM inner k.reference k.context
    return (.value (some answer), c)
  | .get k => return c.perform (.get k)
  | .size => return c.perform .size
  | .stats => return c.perform .stats
  | .clear => return c.perform .clear

/-- A resolver that writes down what it is asked. -/
def recording (inner : Resolver) (r : Reference) (context : Option Nat) :
    StateM (List LookUp) Resolution := do
  modify (· ++ [⟨r, context⟩])
  return inner r context

/-- What a request does. -/
structure Exchange where
  /-- The request. -/
  request : Request
  /-- The answer to it. -/
  answer : Cache.Answer Resolution
  /-- The counters of the cache before. -/
  before : Cache.Stats
  /-- The counters of the cache afterwards. -/
  after : Cache.Stats
  /-- What the resolver was asked for the answer. -/
  asked : List LookUp

/-- What a request does, and the cache afterwards. -/
def exchange (inner : Resolver) (c : ResolutionCache) (q : Request) : Exchange × ResolutionCache :=
  let ((answer, c'), asked) := (c.serve (recording inner) q).run []
  ({ request := q, answer, before := c.stats, after := c'.stats, asked }, c')

/-- What requests do that are served one after the other. -/
def exchanges (inner : Resolver) : ResolutionCache → List Request → List Exchange
  | _, [] => []
  | c, q :: qs => (exchange inner c q).1 :: exchanges inner (exchange inner c q).2 qs

/-- A request to resolve is answered by the resolver's answer; it either counts as a hit, or the resolver
    is asked, once and for nothing else. No other request is passed on to the resolver. -/
def Exchange.Faithful (inner : Resolver) (x : Exchange) : Prop :=
  match x.request with
  | .resolve k => x.answer = .value (some (inner k.reference k.context)) ∧
      (x.after.hits = x.before.hits + 1 ∧ x.asked = [] ∨ x.after.hits = x.before.hits ∧ x.asked = [k])
  | _ => x.asked = []

end ResolutionCache

namespace Cache

variable {κ ν : Type} [BEq κ] [Hashable κ] (c : Cache κ ν) (key : κ)

theorem hits_get : (c.get key).2.hits = c.hits + if (c.get key).1.isSome then 1 else 0 := by
  unfold get
  split <;> rfl

theorem settings_get : (c.get key).2.settings = c.settings := by
  unfold get
  split <;> rfl

/-- Storing a value changes neither the settings nor the number of hits. -/
theorem set_frame (value : ν) :
    (c.set key value).settings = c.settings ∧ (c.set key value).hits = c.hits := by
  obtain ⟨hsettings, hhits, -⟩ := c.evict_frame
  unfold set
  split
  · exact ⟨rfl, rfl⟩
  · split
    · exact ⟨rfl, rfl⟩
    · dsimp only [restamp]
      split
      · exact ⟨hsettings, hhits⟩
      · exact ⟨rfl, rfl⟩

end Cache

namespace ResolutionCache

variable {inner : Resolver} {c : ResolutionCache}

/-- Without effects it is the resolution through a cache that a run makes. -/
theorem run_resolveM_pure (inner : Resolver) (c : ResolutionCache) (r : Reference)
    (context : Option Nat) :
    Id.run (c.resolveM (fun r context => pure (inner r context)) r context) =
      c.resolve inner r context := rfl

/-- A request to resolve is a look-up, and where this finds nothing the resolver is asked and its answer
    is kept. -/
theorem serve_resolve (inner : Resolver) (c : ResolutionCache) (k : LookUp) :
    (c.serve (recording inner) (.resolve k)).run [] =
      match c.get k with
      | (some answer, c') => ((.value (some answer), c'), [])
      | (none, c') =>
        ((.value (some (inner k.reference k.context)), c'.set k (inner k.reference k.context)), [k]) := by
  have hkey : (⟨k.reference, k.context⟩ : LookUp) = k := rfl
  unfold serve resolveM Cache.memoM
  dsimp only
  rw [hkey]
  rcases c.get k with ⟨found, c'⟩
  cases found <;> rfl

/-- A request keeps the cache filled with answers of the resolver, and is answered as the resolver would. -/
theorem faithful_exchange (h : Cache.Answers (fun k => inner k.reference k.context) c) (q : Request) :
    (exchange inner c q).1.Faithful inner ∧
      Cache.Answers (fun k => inner k.reference k.context) (exchange inner c q).2 := by
  cases q with
  | resolve k =>
    obtain ⟨hvalue, hnext⟩ := h.get k
    have hhits := c.hits_get k
    unfold exchange Exchange.Faithful
    rw [serve_resolve]
    rcases hget : c.get k with ⟨found, c'⟩
    rw [hget] at hvalue hnext hhits
    cases found with
    | some answer =>
      rw [hvalue answer rfl]
      exact ⟨⟨rfl, Or.inl ⟨hhits, rfl⟩⟩, hnext⟩
    | none => exact ⟨⟨rfl, Or.inr ⟨(c'.set_frame k _).2.trans hhits, rfl⟩⟩, hnext.set k⟩
  | get k => exact ⟨rfl, (h.get k).2⟩
  | size => exact ⟨rfl, h⟩
  | stats => exact ⟨rfl, h⟩
  | clear => exact ⟨rfl, Cache.answers_clear _ c⟩

/-- Whatever requests are served, from an empty cache on, every request to resolve is answered as the
    resolver answers it, and the resolver is asked exactly once for each of them that is no hit. -/
theorem exchanges_faithful (inner : Resolver) (settings : Cache.Settings) (qs : List Request) :
    (exchanges inner (Cache.ofSettings settings) qs).map Exchange.request = qs ∧
      ∀ x ∈ exchanges inner (Cache.ofSettings settings) qs, x.Faithful inner := by
  suffices hall : ∀ c, Cache.Answers (fun k => inner k.reference k.context) c →
      (exchanges inner c qs).map Exchange.request = qs ∧ ∀ x ∈ exchanges inner c qs, x.Faithful inner from
    hall _ (Cache.answers_clear _ (Cache.ofSettings settings))
  induction qs with
  | nil => exact fun c _ => ⟨rfl, by simp [exchanges]⟩
  | cons q qs ih =>
    intro c h
    obtain ⟨hfaithful, hnext⟩ := faithful_exchange h q
    obtain ⟨hrequests, hrest⟩ := ih _ hnext
    refine ⟨congrArg (q :: ·) hrequests, List.forall_mem_cons.2 ⟨hfaithful, hrest⟩⟩

end ResolutionCache

end ReferenceSite
