import Mathlib.Tactic.SplitIfs
import ReferenceSite.Generation.Walk

/-!
# The cache answers like the resolver behind it

As long as a cache is only filled through a function, every value in it is a value of that function, so a
look-up through the cache answers what the function answers (`memo_eq`). The links of a page are
therefore those of the model, whatever the cache holds and whether it is enabled (`linksOf_resolveAll`).
-/

namespace ReferenceSite

namespace Cache

variable {κ ν : Type} [BEq κ] [Hashable κ] [LawfulBEq κ] {f : κ → ν} {c : Cache κ ν}

/-- Every value that is held is a value of the function. -/
def Answers (f : κ → ν) (c : Cache κ ν) : Prop :=
  ∀ (k : κ) (e : Entry ν), c.entries[k]? = some e → e.value = f k

theorem answers_clear (f : κ → ν) (c : Cache κ ν) : Answers f c.clear := by
  intro k e he
  simp [clear, ofSettings] at he

theorem Answers.restamp (h : Answers f c) (key : κ) (old : Nat) :
    Answers f (c.restamp key (f key) old) := by
  intro k e he
  simp only [Cache.restamp, Std.HashMap.getElem?_insert] at he
  split_ifs at he with hk
  · rw [← eq_of_beq hk, ← Option.some.inj he]
  · exact h k e he

theorem Answers.evict (h : Answers f c) : Answers f c.evict := by
  unfold Cache.evict
  split
  · exact h
  · intro k e he
    simp only [Std.HashMap.getElem?_erase] at he
    split_ifs at he with hk
    exact h k e he

theorem Answers.set (h : Answers f c) (key : κ) : Answers f (c.set key (f key)) := by
  unfold Cache.set
  split
  · exact h
  · split
    · exact h.restamp key _
    · refine Answers.restamp ?_ key 0
      split
      · exact h.evict
      · exact h

/-- A look-up answers the value of the function, if it answers at all. -/
theorem Answers.get (h : Answers f c) (key : κ) :
    (∀ v, (c.get key).1 = some v → v = f key) ∧ Answers f (c.get key).2 := by
  unfold Cache.get
  split
  · next hnone => exact ⟨by simp, h⟩
  · next e he =>
    split_ifs at he with hon
    have hvalue := h key e he
    refine ⟨fun v hv => ?_, ?_⟩
    · rw [← Option.some.inj hv, hvalue]
    · rw [hvalue]
      exact h.restamp key e.stamp

/-- Through the cache a function has the values that it has without it. -/
theorem memo_eq (h : Answers f c) (key : κ) :
    (c.memo key f).1 = f key ∧ Answers f (c.memo key f).2 := by
  obtain ⟨hvalue, hnext⟩ := h.get key
  unfold memo memoM
  split
  · next v c' hget =>
    rw [hget] at hvalue hnext
    exact ⟨hvalue v rfl, hnext⟩
  · next c' hget =>
    rw [hget] at hnext
    exact ⟨rfl, hnext.set key⟩

end Cache

/-- The address in the site that a reference leads to, seen from an item. -/
def Model.links (m : Model) (base : String) : Links := fun r context =>
  match m.resolve r (some context) with
  | .ok id => m.documentedAt? base id
  | .error _ => none

namespace Generation

/-- The cache holds nothing but resolutions of the model. -/
def Resolves (m : Model) (cache : ResolutionCache) : Prop :=
  Cache.Answers (fun k => m.resolve k.reference k.context) cache

theorem resolves_clear (m : Model) (cache : ResolutionCache) : Resolves m cache.clear :=
  Cache.answers_clear _ cache

theorem resolveAll_eq {m : Model} {cache : ResolutionCache} (h : Resolves m cache)
    (questions : List (Reference × Nat)) :
    (resolveAll m cache questions).1 = questions.map (fun q => (q, m.resolve q.1 (some q.2))) ∧
      Resolves m (resolveAll m cache questions).2 := by
  induction questions generalizing cache with
  | nil => exact ⟨rfl, h⟩
  | cons q questions ih =>
    obtain ⟨r, context⟩ := q
    obtain ⟨hanswer, hnext⟩ := Cache.memo_eq h ⟨r, some context⟩
    obtain ⟨hrest, hlast⟩ := ih hnext
    refine ⟨?_, hlast⟩
    rw [List.map_cons, ← hrest, ← hanswer]
    rfl

theorem lookup_map_pair {α β : Type} [BEq α] [LawfulBEq α] (g : α → β) (l : List α) (a : α) {b : β}
    (h : (l.map fun x => (x, g x)).lookup a = some b) : b = g a := by
  induction l with
  | nil => cases h
  | cons x l ih =>
    rw [List.map_cons, List.lookup_cons] at h
    split at h
    · next hx => rw [eq_of_beq hx, Option.some.inj h]
    · exact ih h

theorem linksOf_resolveAll {m : Model} {cache : ResolutionCache} (h : Resolves m cache)
    (base : String) (questions : List (Reference × Nat)) :
    linksOf m base (resolveAll m cache questions).1 = m.links base := by
  funext r context
  rw [(resolveAll_eq h questions).1, linksOf, Model.links]
  have hlookup : ((questions.map fun q => (q, m.resolve q.1 (some q.2))).lookup (r, context)).getD
      (m.resolve r (some context)) = m.resolve r (some context) := by
    cases hl : (questions.map fun q => (q, m.resolve q.1 (some q.2))).lookup (r, context) with
    | none => rfl
    | some answer => exact lookup_map_pair (fun q => m.resolve q.1 (some q.2)) questions _ hl
  exact congrArg (fun answer : Resolution =>
    match answer with
    | .ok id => m.documentedAt? base id
    | .error _ => none) hlookup

end Generation

end ReferenceSite
