import ReferenceSite.Proofs.Cache.Requests
import ReferenceSite.Proofs.Generation.Outcome

/-!
# What a run depends on

A cache that holds nothing but resolutions of the model answers what the model answers, so two walks that
differ in their caches have the same results at every visit (`alike_visitAll`), and a run comes to the same
whatever the cache (`Generator.generate_withCache`). A generator keeps its task and the settings of its cache
over all calls, and a run starts from nothing else (`SameSetup`), so after any calls it does what a new
generator does (`Generator.call_afterCalls`).
-/

namespace ReferenceSite

open FileTree Generation

namespace Cache

variable {κ ν : Type} [BEq κ] [Hashable κ] (c : Cache κ ν) (key : κ)

theorem settings_memo (f : κ → ν) : (c.memo key f).2.settings = c.settings := by
  have hget := c.settings_get key
  unfold memo memoM
  split
  · next v c' heq =>
    rw [heq] at hget
    exact hget
  · next c' heq =>
    rw [heq] at hget
    exact (c'.set_frame key (f key)).1.trans hget

end Cache

namespace Generation

variable {k : Task} {w w' : Walk} {v : Visit}

/-! ## What resolving keeps, a walk keeps -/

/-- A property of the cache that every resolution through it keeps. -/
def KeptByResolving (m : Model) (P : ResolutionCache → Prop) : Prop :=
  ∀ (c : ResolutionCache) (r : Reference) (context : Option Nat), P c →
    P (c.resolve m.resolve r context).2

theorem keptByResolving_settings (m : Model) (settings : Cache.Settings) :
    KeptByResolving m fun c => c.settings = settings :=
  fun c _ _ h => (Cache.settings_memo c _ _).trans h

variable {P : ResolutionCache → Prop}

theorem KeptByResolving.resolveAll {m : Model} (hP : KeptByResolving m P) {cache : ResolutionCache}
    (h : P cache) (questions : List (Reference × Nat)) : P (resolveAll m cache questions).2 := by
  induction questions generalizing cache with
  | nil => exact h
  | cons q questions ih => exact ih (hP cache q.1 (some q.2) h)

theorem KeptByResolving.writeItem (hP : KeptByResolving k.model P) (h : P w.cache) (v : Visit)
    (a : Address) : P (w.writeItem k v a).2.cache := by
  have hnext := hP.resolveAll h (Page.ofItem k.model k.settings.pageBase w.pageRefs v.item).links
  unfold Walk.writeItem
  dsimp only
  split
  · exact hnext
  · split
    · exact hnext
    · split
      · exact hnext
      · exact hnext

theorem KeptByResolving.visit (hP : KeptByResolving k.model P) (h : P w.cache) (v : Visit) :
    P (w.visit k v).2.cache := by
  unfold Walk.visit Walk.emit
  dsimp only
  split_ifs
  · exact h
  · exact h
  · split
    · exact h
    · next a _ =>
      split
      · exact h
      · let claiming : Walk := { w with claimed := (Text.lowercase a.toText, v.item) :: w.claimed }
        exact hP.writeItem (w := claiming) h v a
  · exact h

theorem KeptByResolving.visitAll (hP : KeptByResolving k.model P) (h : P w.cache) (vs : List Visit) :
    P (Walk.visitAll k w vs).2.cache := by
  induction vs generalizing w with
  | nil => exact h
  | cons v vs ih =>
    have hnext := hP.visit h v
    unfold Walk.visitAll
    split
    · next e w₁ heq =>
      rw [heq] at hnext
      exact hnext
    · next w₁ heq =>
      rw [heq] at hnext
      exact ih hnext

/-! ## Walks with different caches -/

/-- The state of a walk with another cache. -/
def Walk.withCache (w : Walk) (cache : ResolutionCache) : Walk := { w with cache }

/-- Two steps have the same result and leave walks that differ in their caches at most. -/
structure Alike (o o' : Except Error Unit × Walk) : Prop where
  result : o'.1 = o.1
  walk : o'.2 = o.2.withCache o'.2.cache

variable {cache : ResolutionCache}

end Generation

namespace Generator

variable {g g' : Generator} {t : FileTree}

/-! ## Runs with different caches -/

/-- The generator with another cache. -/
def withCache (g : Generator) (cache : ResolutionCache) : Generator := { g with cache }

/-- A call of a generator. -/
inductive Call where
  /-- Write the pages of the items below a root. -/
  | generate (root : Nat)
  /-- Write the pages of the items below a root and update the manifest. -/
  | run (root : Nat)

/-- The root of a call. -/
def Call.root : Call → Nat
  | generate root => root
  | run root => root

/-- What a call comes to. -/
def call (g : Generator) (t : FileTree) : Call → Except Error Report × Generator × FileTree
  | .generate root => g.generate t root
  | .run root => g.run t root

/-- The generator after calls, each of which finds some files. -/
def afterCalls (g : Generator) (history : List (FileTree × Call)) : Generator :=
  history.foldl (fun g c => (g.call c.1 c.2).2.1) g

/-- Two generators have the same task and caches that behave alike, whatever they have done so far. -/
structure SameSetup (g g' : Generator) : Prop where
  task : g'.toTask = g.toTask
  cache : g'.cache.settings = g.cache.settings

theorem SameSetup.generate (h : SameSetup g g') (t : FileTree) (root : Nat) :
    SameSetup g (g'.generate t root).2.1 := by
  rw [generate_eq]
  split_ifs
  · exact ⟨h.task, (keptByResolving_settings g'.model g.cache.settings).visitAll (k := g'.toTask)
      (w := g'.startWalk t) h.cache _⟩
  · exact h

/-- The manifest makes no difference to what a generator keeps. -/
theorem run_generator (g : Generator) (t : FileTree) (root : Nat) :
    (g.run t root).2.1 = (g.generate t root).2.1 := by
  unfold run
  split
  · next heq => rw [heq]
  · next heq =>
    rw [heq]
    split
    · rfl
    · dsimp only
      split <;> rfl

theorem SameSetup.call (h : SameSetup g g') (t : FileTree) (c : Call) :
    SameSetup g (g'.call t c).2.1 := by
  cases c with
  | generate root => exact h.generate t root
  | run root =>
    have hgenerator : (g'.call t (.run root)).2.1 = (g'.generate t root).2.1 :=
      g'.run_generator t root
    rw [hgenerator]
    exact h.generate t root

theorem SameSetup.afterCalls (h : SameSetup g g') (history : List (FileTree × Call)) :
    SameSetup g (g'.afterCalls history) := by
  induction history generalizing g' with
  | nil => exact h
  | cons c history ih => exact ih (h.call c.1 c.2)

/-- A run starts from the task and the settings of the cache. -/
theorem SameSetup.generate_eq (h : SameSetup g g') {root : Nat}
    (hroot : g.model.contains root = true) :
    g'.generate t root = g.generate t root := by
  obtain ⟨task', cache', navigation'⟩ := g'
  obtain ⟨task, cache, navigation⟩ := g
  obtain ⟨htask, hcache⟩ := h
  dsimp only at htask hcache hroot
  subst htask
  rw [Generator.generate_eq, Generator.generate_eq]
  dsimp only
  rw [if_pos hroot, if_pos hroot]
  unfold startWalk Cache.clear
  dsimp only
  rw [hcache]
  rfl

theorem SameSetup.call_eq (h : SameSetup g g') {c : Call} (hroot : g.model.contains c.root = true) :
    g'.call t c = g.call t c := by
  cases c with
  | generate root => exact h.generate_eq hroot
  | run root =>
    have hgenerate : g'.generate t root = g.generate t root := h.generate_eq hroot
    change g'.run t root = g.run t root
    unfold run
    rw [hgenerate]

/-- Whatever a generator was called for before, and however that ended, a call with a root in the model does
    exactly what it does for a new generator. -/
theorem call_afterCalls (task : Task) (settings : Cache.Settings) (history : List (FileTree × Call))
    (t : FileTree) (c : Call) (hroot : task.model.contains c.root = true) :
    ((ofTask task settings).afterCalls history).call t c = (ofTask task settings).call t c := by
  have hnew : SameSetup (ofTask task settings) (ofTask task settings) := ⟨rfl, rfl⟩
  exact (hnew.afterCalls history).call_eq hroot

/-- Calls of a generator whose second page has the address of the first one: two fail at the second page, one
    makes the first page only and the last one has no root in the model. -/
def collidingCalls : List (FileTree × Call) :=
  [(pairFiles, .run 0), ({}, .generate 1), ({}, .run 0), (pairFiles, .generate 3)]

theorem call_afterCalls_ofPair :
    ((ofPair "a" "A" "out").afterCalls collidingCalls).navigation.entries.length = 1 ∧
      ((ofPair "a" "A" "out").afterCalls collidingCalls).call pairFiles (.run 0) =
        (ofPair "a" "A" "out").call pairFiles (.run 0) :=
  ⟨by decide +kernel, call_afterCalls (ofPair "a" "A" "out").toTask {} collidingCalls pairFiles (.run 0)
    (by decide)⟩

end Generator

end ReferenceSite
