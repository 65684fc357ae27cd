import ReferenceSite.Proofs.Model.Visible
import ReferenceSite.Resolution

/-!
# What a reference is resolved to

Following a reference takes one step for each of its names, and always to a visible member of that name. The
step by the last name heeds the overload; a step by another name goes to the first container of the name, and
if there is none, to the first member of the name (`follow_eq_ok_iff`). A reference with a package is followed
from the first visible package of that name, whatever the context; one without a package is followed from the
nearest container around the context from which that is possible (`resolved_along_names`).
-/

namespace ReferenceSite

/-! ## The first of the least -/

theorem firstMinBy?_eq_none_iff {f : Nat → Nat} {l : List Nat} : firstMinBy? f l = none ↔ l = [] := by
  cases l with
  | nil => simp [firstMinBy?]
  | cons a l =>
    simp only [firstMinBy?]
    split
    · simp
    · split <;> simp

theorem firstMinBy?_cases {f : Nat → Nat} {l : List Nat} {a : Nat} (h : firstMinBy? f l = some a) :
    l.find? (fun b => f b == f a) = some a ∧ ∀ b ∈ l, f a ≤ f b := by
  induction l generalizing a with
  | nil => cases h
  | cons x l ih =>
    rw [firstMinBy?] at h
    split at h
    · next hnone =>
      rw [firstMinBy?_eq_none_iff] at hnone
      obtain rfl := Option.some.inj h
      simp [hnone]
    · next b hb =>
      obtain ⟨hfirst, hleast⟩ := ih hb
      split at h
      · next hlt =>
        obtain rfl := Option.some.inj h
        have hne : (f x == f b) = false := beq_false_of_ne (by omega)
        rw [List.find?_cons, hne]
        exact ⟨hfirst, List.forall_mem_cons.2 ⟨by omega, hleast⟩⟩
      · next hle =>
        obtain rfl := Option.some.inj h
        refine ⟨by simp, List.forall_mem_cons.2 ⟨Nat.le_refl _, fun c hc => ?_⟩⟩
        have := hleast c hc
        omega

/-- The chosen element has the least value, and no element before it has the same. -/
theorem firstMinBy?_eq_some_iff {f : Nat → Nat} {l : List Nat} {a : Nat} : firstMinBy? f l = some a ↔
    l.find? (fun b => f b == f a) = some a ∧ ∀ b ∈ l, f a ≤ f b := by
  refine ⟨firstMinBy?_cases, ?_⟩
  rintro ⟨hfirst, hleast⟩
  have ha : a ∈ l := List.mem_of_find?_eq_some hfirst
  cases hmin : firstMinBy? f l with
  | none =>
    rw [firstMinBy?_eq_none_iff.1 hmin] at ha
    cases ha
  | some b =>
    obtain ⟨hfirst', hleast'⟩ := firstMinBy?_cases hmin
    have hle := hleast b (List.mem_of_find?_eq_some hfirst')
    have hle' := hleast' a ha
    have hsame : f a = f b := by omega
    rw [hsame, hfirst'] at hfirst
    exact hfirst

namespace Model

variable {m : Model} {a c d s id : Nat} {name : String} {names : List String} {overload : Option UInt32}
  {r : Reference} {context : Option Nat}

/-! ## Single steps -/

/-- An item is the first among the visible members of another one that have a property. -/
def FirstVisible (m : Model) (a : Nat) (p : Nat → Prop) (c : Nat) : Prop :=
  p c ∧ ∃ front back, m.visibleMembers a = front ++ c :: back ∧ ∀ d ∈ front, ¬ p d

theorem FirstVisible.visible {p : Nat → Prop} (hm : m.Linked) (h : m.FirstVisible a p c) :
    m.Visible a c := by
  obtain ⟨-, front, back, heq, -⟩ := h
  rw [← mem_visibleMembers hm, heq]
  simp

theorem firstVisible_of_unique {p : Nat → Prop} (hm : m.Linked) (hc : m.Visible a c) (hp : p c)
    (hunique : ∀ d, m.Visible a d → p d → d = c) : m.FirstVisible a p c := by
  have hmem := (mem_visibleMembers hm).2 hc
  obtain ⟨front, back, heq, hfront⟩ := List.eq_append_cons_of_mem hmem
  refine ⟨hp, front, back, heq, fun d hd hpd => ?_⟩
  have hdmem : d ∈ m.visibleMembers a := by simp [heq, hd]
  rw [hunique d ((mem_visibleMembers hm).1 hdmem) hpd] at hd
  exact hfront hd

theorem find?_visibleMembers {p : Nat → Bool} {q : Nat → Prop} (hpq : ∀ d, p d = true ↔ q d) :
    (m.visibleMembers a).find? p = some c ↔ m.FirstVisible a q c := by
  rw [List.find?_eq_some_iff_append, FirstVisible, hpq]
  have hnot : ∀ d, (!p d) = true ↔ ¬ q d := fun d => by simp [← hpq]
  simp only [hnot]

/-- A visible member with a name. -/
def NamedStep (m : Model) (a : Nat) (name : String) (c : Nat) : Prop :=
  m.Visible a c ∧ (m.item c).name = name

/-- A visible member with a name and with the number that an overload asks for, if there is one. -/
def NumberedStep (m : Model) (overload : Option UInt32) (a : Nat) (name : String) (c : Nat) : Prop :=
  m.NamedStep a name c ∧ ∀ k, overload = some k → (m.item c).overloadOrdinal = max k.toNat 1

/-- The first visible container with a name. -/
def ContainerStep (m : Model) (a : Nat) (name : String) (c : Nat) : Prop :=
  m.FirstVisible a (fun d => (m.item d).name = name ∧ (m.item d).kind.isContainer = true) c

/-- The first visible container with a name; if no member of the name is a container, the first of them. -/
def InnerStep (m : Model) (a : Nat) (name : String) (c : Nat) : Prop :=
  m.ContainerStep a name c ∨
    (∀ d, m.NamedStep a name d → (m.item d).kind.isContainer = false) ∧
      m.FirstVisible a (fun d => (m.item d).name = name) c

/-- A visible member with a name: the first one with the number that an overload asks for; without an
    overload, the first one with the least number. -/
structure LastStep (m : Model) (overload : Option UInt32) (a : Nat) (name : String) (c : Nat) : Prop where
  number : ∀ k, overload = some k → (m.item c).overloadOrdinal = max k.toNat 1
  least : overload = none → ∀ d, m.NamedStep a name d →
    (m.item c).overloadOrdinal ≤ (m.item d).overloadOrdinal
  first : m.FirstVisible a (fun d => (m.item d).name = name ∧
    (m.item d).overloadOrdinal = (m.item c).overloadOrdinal) c

theorem ContainerStep.named (hm : m.Linked) (h : m.ContainerStep a name c) : m.NamedStep a name c :=
  ⟨h.visible hm, h.1.1⟩

theorem InnerStep.named (hm : m.Linked) (h : m.InnerStep a name c) : m.NamedStep a name c := by
  rcases h with h | ⟨-, h⟩
  · exact h.named hm
  · exact ⟨h.visible hm, h.1⟩

theorem LastStep.numbered (hm : m.Linked) (h : m.LastStep overload a name c) :
    m.NumberedStep overload a name c :=
  ⟨⟨h.first.visible hm, h.first.1.1⟩, h.number⟩

theorem mem_membersNamed (hm : m.Linked) : c ∈ m.membersNamed a name ↔ m.NamedStep a name c := by
  simp [membersNamed, NamedStep, mem_visibleMembers hm]

theorem find?_membersNamed {p : Nat → Bool} {q : Nat → Prop} (hpq : ∀ d, p d = true ↔ q d) :
    (m.membersNamed a name).find? p = some c ↔
      m.FirstVisible a (fun d => (m.item d).name = name ∧ q d) c := by
  rw [membersNamed, List.find?_filter]
  exact find?_visibleMembers fun d => by simp [hpq]

theorem innerStep?_eq_some_iff (hm : m.Linked) : m.innerStep? a name = some c ↔ m.InnerStep a name c := by
  have hcontainer : (m.membersNamed a name).find? (fun d => (m.item d).kind.isContainer) = some c ↔
      m.ContainerStep a name c := find?_membersNamed fun _ => Iff.rfl
  have hnone : (m.membersNamed a name).find? (fun d => (m.item d).kind.isContainer) = none ↔
      ∀ d, m.NamedStep a name d → (m.item d).kind.isContainer = false := by
    simp [List.find?_eq_none, mem_membersNamed hm]
  have hfirst : (m.membersNamed a name).head? = some c ↔
      m.FirstVisible a (fun d => (m.item d).name = name) c := by
    rw [membersNamed, List.head?_filter]
    exact find?_visibleMembers fun d => by simp
  rw [innerStep?, Option.or_eq_some_iff, hcontainer, hnone, hfirst]
  rfl

theorem lastStep?_some_iff {k : UInt32} :
    m.lastStep? a name (some k) = some c ↔ m.LastStep (some k) a name c := by
  have hfind : m.lastStep? a name (some k) = some c ↔ m.FirstVisible a (fun d =>
      (m.item d).name = name ∧ (m.item d).overloadOrdinal = max k.toNat 1) c :=
    find?_membersNamed fun d => beq_iff_eq
  rw [hfind]
  constructor
  · intro h
    have hnumber := h.1.2
    refine ⟨fun k' hk => ?_, by simp, ?_⟩
    · rwa [← Option.some.inj hk]
    · rwa [hnumber]
  · intro h
    rw [← h.number k rfl]
    exact h.first

theorem lastStep?_none_iff (hm : m.Linked) :
    m.lastStep? a name none = some c ↔ m.LastStep none a name c := by
  have hmin : m.lastStep? a name none = some c ↔
      (m.membersNamed a name).find?
          (fun d => (m.item d).overloadOrdinal == (m.item c).overloadOrdinal) = some c ∧
        ∀ d ∈ m.membersNamed a name, (m.item c).overloadOrdinal ≤ (m.item d).overloadOrdinal :=
    firstMinBy?_eq_some_iff
  rw [hmin, find?_membersNamed fun d => beq_iff_eq]
  simp only [mem_membersNamed hm]
  constructor
  · rintro ⟨hfirst, hleast⟩
    exact ⟨by simp, fun _ => hleast, hfirst⟩
  · intro h
    exact ⟨h.first, h.least rfl⟩

theorem lastStep?_eq_some_iff (hm : m.Linked) :
    m.lastStep? a name overload = some c ↔ m.LastStep overload a name c := by
  cases overload with
  | none => exact lastStep?_none_iff hm
  | some k => exact lastStep?_some_iff

/-! ## One step for each name -/

/-- One step for each of some names: by one rule for the last name and by another for the names before. -/
inductive Way (inner final : Nat → String → Nat → Prop) : (a : Nat) → (names : List String) →
    (id : Nat) → Prop
  | here (a : Nat) : Way inner final a [] a
  | last {a c : Nat} {name : String} : final a name c → Way inner final a [name] c
  | next {a c id : Nat} {name name' : String} {names : List String} : inner a name c →
      Way inner final c (name' :: names) id → Way inner final a (name :: name' :: names) id

theorem Way.mono {inner inner' final final' : Nat → String → Nat → Prop}
    (hinner : ∀ a name c, inner a name c → inner' a name c)
    (hfinal : ∀ a name c, final a name c → final' a name c) (h : Way inner final a names id) :
    Way inner' final' a names id := by
  induction h with
  | here a => exact .here a
  | last hstep => exact .last (hfinal _ _ _ hstep)
  | next hstep _ ih => exact .next (hinner _ _ _ hstep) ih

/-- Following names takes the steps that the rules for the last name and for the others tell. -/
theorem follow_eq_ok_iff (hm : m.Linked) : m.follow overload a names = .ok id ↔
    Way m.InnerStep (m.LastStep overload) a names id := by
  induction names generalizing a with
  | nil =>
    simp only [follow, Except.ok.injEq]
    constructor
    · rintro rfl
      exact .here a
    · rintro ⟨⟩
      rfl
  | cons name names ih =>
    cases names with
    | nil =>
      simp only [follow]
      constructor
      · intro h
        split at h
        · next c hc =>
          cases h
          exact .last ((lastStep?_eq_some_iff hm).1 hc)
        · cases h
      · intro h
        cases h with
        | last hstep => rw [(lastStep?_eq_some_iff hm).2 hstep]
    | cons name' names =>
      simp only [follow]
      constructor
      · intro h
        split at h
        · next c hc => exact .next ((innerStep?_eq_some_iff hm).1 hc) (ih.1 h)
        · cases h
      · intro h
        cases h with
        | next hstep hrest =>
          rw [(innerStep?_eq_some_iff hm).2 hstep]
          exact ih.2 hrest

/-! ## Scopes -/

/-- A package with a name. -/
def PackageNamed (m : Model) (name : String) (s : Nat) : Prop :=
  (m.item s).kind = .package ∧ (m.item s).name = name

/-- A container that is no wrapper. -/
def IsScope (m : Model) (s : Nat) : Prop :=
  (m.item s).kind.isWrapper = false ∧ (m.item s).kind.isContainer = true

theorem findPackage?_eq_some_iff :
    m.findPackage? name = some s ↔ m.FirstVisible root (m.PackageNamed name) s :=
  find?_visibleMembers fun d => by simp [PackageNamed]

/-- The first visible package of the name is the scope of a reference in every context. -/
theorem resolve_of_package (hr : r.package = some name)
    (hs : m.FirstVisible root (m.PackageNamed name) s) :
    m.resolve r context = m.follow r.overload s r.members := by
  simp only [resolve, hr, findPackage?_eq_some_iff.2 hs]

/-- The nearest scope of some items, up to the first package among them, from which a reference can be
    followed. -/
structure NearestScope (m : Model) (r : Reference) (items : List Nat) (s : Nat) : Prop where
  scope : m.IsScope s
  nearest : ∃ nearer outer, items = nearer ++ s :: outer ∧ ∀ a ∈ nearer, (m.item a).kind ≠ .package ∧
    (m.IsScope a → ∀ i, m.follow r.overload a r.members ≠ .ok i)

/-- Where a reference is followed from: with a package, from the first visible package of its name; without
    one, from the nearest scope among the context item and its ancestors. -/
inductive ScopeOf (m : Model) (r : Reference) : (context : Option Nat) → (s : Nat) → Prop
  | package {context : Option Nat} {name : String} {s : Nat} : r.package = some name →
      m.FirstVisible root (m.PackageNamed name) s → ScopeOf m r context s
  | enclosing {x s : Nat} : r.package = none → x < m.size →
      m.NearestScope r (x :: m.ancestors x) s → ScopeOf m r (some x) s

theorem nearestScope_self {as : List Nat} (ha : m.IsScope a) : m.NearestScope r (a :: as) a :=
  ⟨ha, [], as, rfl, by simp⟩

theorem NearestScope.cons {as : List Nat} (h : m.NearestScope r as s)
    (hkind : (m.item a).kind ≠ .package)
    (hfails : m.IsScope a → ∀ i, m.follow r.overload a r.members ≠ .ok i) :
    m.NearestScope r (a :: as) s := by
  obtain ⟨hs, nearer, outer, heq, hnearer⟩ := h
  refine ⟨hs, a :: nearer, outer, by rw [heq, List.cons_append], ?_⟩
  exact List.forall_mem_cons.2 ⟨⟨hkind, hfails⟩, hnearer⟩

theorem upToPackage_cons (m : Model) (a : Nat) (as : List Nat) : scopes.upToPackage m (a :: as) =
    a :: if (m.item a).kind = .package then [] else scopes.upToPackage m as := by
  simp only [scopes.upToPackage, beq_iff_eq]
  split_ifs <;> rfl

/-- The first scope up to the nearest package from which a reference can be followed decides. -/
theorem exists_of_followFrom {failure : Unresolved} {as : List Nat}
    (h : m.followFrom r failure ((scopes.upToPackage m as).filter fun i =>
      !(m.item i).kind.isWrapper && (m.item i).kind.isContainer) = .ok id) :
    ∃ s, m.NearestScope r as s ∧ m.follow r.overload s r.members = .ok id := by
  induction as generalizing failure with
  | nil => cases h
  | cons a as ih =>
    rw [upToPackage_cons, List.filter_cons] at h
    by_cases hscope : m.IsScope a
    · have hkeep : (!(m.item a).kind.isWrapper && (m.item a).kind.isContainer) = true := by
        simpa [IsScope] using hscope
      rw [if_pos hkeep, followFrom] at h
      split at h
      · next i hi =>
        cases h
        exact ⟨a, nearestScope_self hscope, hi⟩
      · next e he =>
        -- the search goes on unless `a` is a package
        split_ifs at h with hpackage
        · cases h
        · obtain ⟨s, hs, hfollow⟩ := ih h
          exact ⟨s, hs.cons hpackage fun _ i hi => by simp [he] at hi, hfollow⟩
    · have hdrop : ¬ (!(m.item a).kind.isWrapper && (m.item a).kind.isContainer) = true := by
        simpa [IsScope] using hscope
      rw [if_neg hdrop] at h
      split_ifs at h with hpackage
      · cases h
      · obtain ⟨s, hs, hfollow⟩ := ih h
        exact ⟨s, hs.cons hpackage fun ha => absurd ha hscope, hfollow⟩

/-- A reference that is resolved to an item leads there from its scope, by one visible member for each of its
    names, the last of which heeds the overload; with a package, it is resolved to the same item in every
    context. -/
theorem resolved_along_names (hm : m.Built) (h : m.resolve r context = .ok id) :
    (∃ s, m.ScopeOf r context s ∧ Way m.NamedStep (m.LastStep r.overload) s r.members id) ∧
      (r.package ≠ none → ∀ context', m.resolve r context' = .ok id) := by
  have hway : ∀ s, m.follow r.overload s r.members = .ok id →
      Way m.NamedStep (m.LastStep r.overload) s r.members id := fun s hs =>
    ((follow_eq_ok_iff hm.linked).1 hs).mono (fun _ _ _ hstep => hstep.named hm.linked)
      fun _ _ _ hstep => hstep
  cases hpackage : r.package with
  | some name =>
    cases hs : m.findPackage? name with
    | none => simp [resolve, hpackage, hs] at h
    | some s =>
      have hfirst := findPackage?_eq_some_iff.1 hs
      rw [resolve_of_package hpackage hfirst] at h
      refine ⟨⟨s, .package hpackage hfirst, hway s h⟩, fun _ context' => ?_⟩
      rw [resolve_of_package hpackage hfirst, h]
  | none =>
    refine ⟨?_, fun hne => absurd rfl hne⟩
    simp only [resolve, hpackage] at h
    cases hx : context.filter m.contains with
    | none => simp [hx] at h
    | some x =>
      obtain ⟨rfl, hcontains⟩ := Option.filter_eq_some_iff.1 hx
      simp only [hx] at h
      obtain ⟨s, hs, hfollow⟩ := exists_of_followFrom h
      have hsize : x < m.size := by simpa [contains] using hcontains
      exact ⟨s, .enclosing hpackage hsize hs, hway s hfollow⟩

/-- A package with an entry point, behind which are a class with two overloads of a method, the second one
    first, and an empty namespace. -/
def overloads : Model :=
  (((((empty.add 0 { kind := .package, name := "p" }).add 1 { kind := .entryPoint }).add 2
    { kind := .class, name := "C" }).add 3 { kind := .method, name := "f", overloadIndex := 2 }).add 3
      { kind := .method, name := "f" }).add 2 { kind := .namespace, name := "N" }

theorem built_overloads : overloads.Built := by
  repeat' first | exact .root none [] | refine .add ?_ (by decide) _

/-- Seen from the namespace, which has no member of that name, the class is found in the package, and without
    an overload the last name leads to the first overload of the method. -/
theorem resolved_along_names_overloads : overloads.Built ∧
    overloads.resolve { members := ["C", "f"] } (some 6) = .ok 5 ∧
      ∃ s, overloads.ScopeOf { members := ["C", "f"] } (some 6) s ∧
        Way overloads.NamedStep (overloads.LastStep none) s ["C", "f"] 5 := by
  have hresolve : overloads.resolve { members := ["C", "f"] } (some 6) = .ok 5 := by decide +kernel
  exact ⟨built_overloads, hresolve, (resolved_along_names built_overloads hresolve).1⟩

end Model

end ReferenceSite
