import ReferenceSite.Proofs.Address.Safety

/-!
# Paths resolved as texts

A path is resolved without looking at any files: a dot stays where it is, and two dots leave the directory
entered last (`Path.resolved`). Two paths with the same result name the same place wherever all
directories on the way exist. Components that are entered below a directory come to nothing but their names
only if they do not start at the root again and climb nowhere but at the root (`Path.foldl_enter_iff`).
-/

namespace ReferenceSite.Path

/-- Where a resolved path starts. -/
inductive Origin where
  /-- At the root. -/
  | root
  /-- In a directory some levels above the one from which the path is read. -/
  | above (levels : Nat)
deriving DecidableEq, Repr

/-- A resolved path. -/
structure Resolved where
  /-- Where it starts. -/
  origin : Origin
  /-- The names of the directories that are entered from there, the last one first. -/
  names : List String
deriving DecidableEq, Repr

namespace Resolved

/-- The root. -/
def root : Resolved := ⟨.root, []⟩

/-- The directory from which a path is read. -/
def here : Resolved := ⟨.above 0, []⟩

/-- Enter some directories one after the other. -/
def into (r : Resolved) (ns : List String) : Resolved := { r with names := ns.reverse ++ r.names }

/-- Leave the directory entered last. Nothing is above the root. -/
def leave : Resolved → Resolved
  | ⟨origin, _ :: names⟩ => ⟨origin, names⟩
  | ⟨.root, []⟩ => root
  | ⟨.above levels, []⟩ => ⟨.above (levels + 1), []⟩

/-- Go on by a component. -/
def enter (r : Resolved) : Component → Resolved
  | .root => root
  | .current => r
  | .parent => r.leave
  | .normal name => r.into [name]

end Resolved

/-- The path, resolved. -/
def resolved (p : Path) : Resolved := p.components.foldl Resolved.enter .here

/-- The name of a component that is one. -/
def Component.name? : Component → Option String
  | .normal name => some name
  | _ => none

/-- The names among some components. -/
def namesOf (cs : List Component) : List String := cs.filterMap Component.name?

variable {p : Path} {r : Resolved} {cs front back : List Component} {ns : List String} {s : String}

namespace Resolved

theorem into_into (r : Resolved) (ns ns' : List String) : (r.into ns).into ns' = r.into (ns ++ ns') := by
  unfold into
  simp

theorem into_injective {r' : Resolved} (h : r.into ns = r'.into ns) : r = r' := by
  obtain ⟨origin, names⟩ := r
  obtain ⟨origin', names'⟩ := r'
  obtain ⟨rfl, hnames⟩ := Resolved.mk.inj h
  dsimp only at hnames
  rw [List.append_cancel_left hnames]

theorem length_names_leave (r : Resolved) : r.leave.names.length ≤ r.names.length := by
  obtain ⟨origin, names⟩ := r
  cases names with
  | nil => cases origin <;> exact Nat.le_refl _
  | cons name names => exact Nat.le_succ _

theorem foldl_enter_normal (r : Resolved) (ns : List String) :
    (ns.map Component.normal).foldl enter r = r.into ns := by
  induction ns generalizing r with
  | nil => rfl
  | cons n ns ih =>
    rw [List.map_cons, List.foldl_cons, ih]
    show (r.into [n]).into ns = _
    rw [into_into, List.singleton_append]

/-- Directories are entered by names only. -/
theorem length_names_foldl_enter (r : Resolved) (cs : List Component) :
    (cs.foldl enter r).names.length ≤ (namesOf cs).length + r.names.length := by
  induction cs generalizing r with
  | nil => exact Nat.le_of_eq (Nat.zero_add _).symm
  | cons c cs ih =>
    have hrest := ih (r.enter c)
    rw [List.foldl_cons]
    cases c with
    | root =>
      have hnone : (r.enter .root).names.length = 0 := rfl
      have hnames : namesOf (.root :: cs) = namesOf cs := rfl
      rw [hnames]
      omega
    | current => exact hrest
    | parent =>
      have hleave : (r.enter .parent).names.length ≤ r.names.length := r.length_names_leave
      have hnames : namesOf (.parent :: cs) = namesOf cs := rfl
      rw [hnames]
      omega
    | normal n =>
      have hone : (r.enter (.normal n)).names.length = r.names.length + 1 := rfl
      have hnames : (namesOf (.normal n :: cs)).length = (namesOf cs).length + 1 := rfl
      omega

/-- A path that has climbed above its start stays there, unless it starts at the root again. -/
theorem origin_foldl_enter {levels : Nat} (hroot : .root ∉ cs) (h : r.origin = .above levels) :
    ∃ more, (cs.foldl enter r).origin = .above (levels + more) := by
  induction cs generalizing r levels with
  | nil => exact ⟨0, h⟩
  | cons c cs ih =>
    rw [List.mem_cons, not_or] at hroot
    rw [List.foldl_cons]
    cases c with
    | root => exact absurd rfl hroot.1
    | current => exact ih hroot.2 h
    | normal n => exact ih hroot.2 (r := r.into [n]) h
    | parent =>
      obtain ⟨origin, names⟩ := r
      obtain rfl : origin = .above levels := h
      cases names with
      | cons name names => exact ih hroot.2 (r := ⟨.above levels, names⟩) rfl
      | nil =>
        obtain ⟨more, hmore⟩ := ih hroot.2 (r := ⟨.above (levels + 1), []⟩) rfl
        refine ⟨1 + more, ?_⟩
        rw [← Nat.add_assoc]
        exact hmore

/-- A path that starts at the root stays there. -/
theorem origin_foldl_enter_root (h : r.origin = .root) : (cs.foldl enter r).origin = .root := by
  induction cs generalizing r with
  | nil => exact h
  | cons c cs ih =>
    apply ih
    cases c with
    | root => rfl
    | current => exact h
    | normal n => exact h
    | parent =>
      obtain ⟨origin, names⟩ := r
      obtain rfl : origin = .root := h
      cases names <;> rfl

end Resolved

open Resolved

theorem forall_split_cons {α : Type} {a d : α} {l : List α} {Q : List α → Prop} :
    (∀ front back, a :: l = front ++ d :: back → Q front) ↔
      (a = d → Q []) ∧ ∀ front back, l = front ++ d :: back → Q (a :: front) := by
  constructor
  · intro h
    refine ⟨fun heq => h [] l (by rw [heq]; rfl), fun front back heq => ?_⟩
    exact h (a :: front) back (by rw [heq]; rfl)
  · rintro ⟨hhead, htail⟩ front back heq
    cases front with
    | nil => exact hhead (List.cons.inj heq).1
    | cons a' front =>
      obtain ⟨rfl, hrest⟩ := List.cons.inj heq
      exact htail front back hrest

/-- Components come to nothing but their names exactly if they climb at the root only. -/
theorem foldl_enter_iff (hroot : .root ∉ cs) : cs.foldl enter r = r.into (namesOf cs) ↔
    ∀ front back, cs = front ++ .parent :: back → namesOf front = [] ∧ r = .root := by
  induction cs generalizing r with
  | nil =>
    refine iff_of_true rfl fun front back h => ?_
    simp at h
  | cons c cs ih =>
    rw [List.mem_cons, not_or] at hroot
    rw [List.foldl_cons, forall_split_cons]
    cases c with
    | root => exact absurd rfl hroot.1
    | current =>
      have hclimb : Component.current = .parent → namesOf [] = [] ∧ r = .root := fun h => by cases h
      rw [and_iff_right hclimb]
      exact ih hroot.2
    | normal n =>
      have hinto : r.into (namesOf (.normal n :: cs)) = (r.into [n]).into (namesOf cs) := by
        rw [into_into]
        rfl
      have hclimb : Component.normal n = .parent → namesOf [] = [] ∧ r = .root := fun h => by cases h
      rw [and_iff_right hclimb, hinto]
      -- behind a name nothing may climb
      have hinside : r.into [n] ≠ .root := fun h => by cases congrArg Resolved.names h
      have hnone : ∀ front, namesOf (.normal n :: front) ≠ [] := fun front h => by cases h
      refine (ih hroot.2).trans ⟨fun h front back heq => ?_, fun h front back heq => ?_⟩
      · exact absurd (h front back heq).2 hinside
      · exact absurd (h front back heq).1 (hnone front)
    | parent =>
      show cs.foldl enter r.leave = r.into (namesOf cs) ↔ _
      obtain ⟨origin, above⟩ := r
      cases above with
      | cons name above =>
        -- one directory less, and only names make up for it
        refine iff_of_false (fun h => ?_) fun h => by cases (h.1 rfl).2
        have hlength := length_names_foldl_enter ⟨origin, above⟩ cs
        have hinto : (into ⟨origin, name :: above⟩ (namesOf cs)).names.length =
            (namesOf cs).length + (above.length + 1) := by
          simp [into]
        have hleave : leave ⟨origin, name :: above⟩ = ⟨origin, above⟩ := rfl
        rw [← hleave, h, hinto] at hlength
        have habove : (leave ⟨origin, name :: above⟩).names.length = above.length := rfl
        omega
      | nil =>
        cases origin with
        | root =>
          have hhere : namesOf [] = [] ∧ (⟨.root, []⟩ : Resolved) = .root := ⟨rfl, rfl⟩
          rw [and_iff_right fun _ => hhere]
          exact ih hroot.2
        | above levels =>
          refine iff_of_false (fun h => ?_) fun h => by cases (h.1 rfl).2
          obtain ⟨more, hmore⟩ := origin_foldl_enter (r := ⟨.above (levels + 1), []⟩) hroot.2 rfl
          have hleave : leave ⟨.above levels, []⟩ = ⟨.above (levels + 1), []⟩ := rfl
          rw [← hleave, h] at hmore
          have hlevels : levels = levels + 1 + more := Origin.above.inj hmore
          omega

/-! ## Components of paths -/

theorem not_root_of_mem_filterMap {pieces : List String} : .root ∉ pieces.filterMap componentOf? := by
  intro h
  obtain ⟨piece, -, hpiece⟩ := List.mem_filterMap.1 h
  unfold componentOf? at hpiece
  split_ifs at hpiece <;> cases hpiece

/-- Only the first component may be the root. -/
theorem eq_nil_of_root_mem (h : p.components = front ++ back) (hroot : .root ∈ back) : front = [] := by
  have htail : .root ∉ p.components.tail := by
    rw [components_eq]
    split_ifs
    · exact not_root_of_mem_filterMap
    · exact not_root_of_mem_filterMap
    · exact fun h => not_root_of_mem_filterMap (List.mem_of_mem_tail h)
  cases front with
  | nil => rfl
  | cons c front =>
    rw [h, List.cons_append, List.tail_cons] at htail
    exact absurd (List.mem_append_right _ hroot) htail

theorem isName_of_mem_components (h : .normal s ∈ p.components) : IsName s := by
  have hmem : .normal s ∈ p.pieces.filterMap componentOf? := by
    rw [components_eq] at h
    split_ifs at h
    · exact (List.mem_cons.1 h).resolve_left fun h => by cases h
    · exact (List.mem_cons.1 h).resolve_left fun h => by cases h
    · exact h
  obtain ⟨piece, hpiece, hcomponent⟩ := List.mem_filterMap.1 hmem
  unfold componentOf? at hcomponent
  split_ifs at hcomponent with hcurrent hparent
  · cases hcomponent
  · obtain rfl := Component.normal.inj (Option.some.inj hcomponent)
    obtain ⟨hsegment, hempty⟩ := List.mem_filter.1 hpiece
    exact ⟨by simpa using hempty, not_mem_of_mem_segments hsegment, by simpa using hcurrent,
      by simpa using hparent⟩

theorem isName_of_mem_names (h : p.components = front ++ cs) : ∀ s ∈ namesOf cs, IsName s := by
  intro s hs
  obtain ⟨c, hc, hname⟩ := List.mem_filterMap.1 hs
  cases c with
  | normal name =>
    obtain rfl : name = s := Option.some.inj hname
    apply isName_of_mem_components (p := p)
    rw [h]
    exact List.mem_append_right _ hc
  | root => cases hname
  | current => cases hname
  | parent => cases hname

theorem componentsBelow?_eq_some_iff {directory : Path} :
    p.componentsBelow? directory = some cs ↔ p.components = directory.components ++ cs := by
  unfold componentsBelow?
  dsimp only
  constructor
  · intro h
    split_ifs at h with hprefix
    obtain ⟨rest, hrest⟩ := List.isPrefixOf_iff_prefix.1 hprefix
    rw [← hrest, List.drop_left] at h
    rw [← hrest, Option.some.inj h]
  · intro h
    have hprefix : directory.components.isPrefixOf p.components = true :=
      List.isPrefixOf_iff_prefix.2 ⟨cs, h.symm⟩
    rw [if_pos hprefix, h, List.drop_left]

/-- Names that are read from inside a directory are entered from it. -/
theorem resolved_join_names {directory : Path} (h : ∀ s ∈ ns, IsName s) :
    (join directory (String.intercalate "/" ns)).resolved = directory.resolved.into ns := by
  have hdot : (segments (String.intercalate "/" ns)).head? ≠ some "." := by
    by_cases hns : ns = []
    · subst hns
      decide
    · rw [segments_intercalate hns h]
      intro hhead
      exact (h "." (List.mem_of_mem_head? hhead)).ne_current rfl
  rw [resolved, components_join (isAbsolute_intercalate h) hdot, components_intercalate h,
    List.foldl_append, foldl_enter_normal]
  rfl

/-- Some components lead from a directory to the place that their names alone lead to: they do not start
    at the root again, and they climb nowhere but at the root. -/
structure LeadsDown (directory : Path) (cs : List Component) : Prop where
  root : .root ∉ cs
  parent : ∀ front back, cs = front ++ .parent :: back → namesOf front = [] ∧ directory.resolved = .root

theorem LeadsDown.of_not_mem {directory : Path} (hroot : .root ∉ cs) (hparent : .parent ∉ cs) :
    LeadsDown directory cs := by
  refine ⟨hroot, fun front back h => ?_⟩
  rw [h] at hparent
  exact absurd (List.mem_append_right _ List.mem_cons_self) hparent

/-- A path below a directory names the place that the names behind the directory lead to exactly if the
    components behind it lead down. -/
theorem into_eq_resolved_iff {directory : Path} (h : p.components = directory.components ++ cs) :
    directory.resolved.into (namesOf cs) = p.resolved ↔ LeadsDown directory cs := by
  have hp : p.resolved = cs.foldl enter directory.resolved := by
    rw [resolved, h, List.foldl_append]
    rfl
  rw [hp]
  by_cases hroot : .root ∈ cs
  · -- the directory has no components, so the path starts at the root and the directory does not
    refine iff_of_false (fun heq => ?_) fun hdown => hdown.root hroot
    obtain ⟨front, back, rfl⟩ := List.append_of_mem hroot
    have hfront : directory.components ++ front = [] :=
      eq_nil_of_root_mem (by rw [h, List.append_assoc]) List.mem_cons_self
    obtain ⟨hdirectory, rfl⟩ := List.append_eq_nil_iff.1 hfront
    have hhere : directory.resolved = .here := by
      rw [resolved, hdirectory]
      rfl
    have horigin : ((.root :: back).foldl enter directory.resolved).origin = .root :=
      origin_foldl_enter_root (r := .root) rfl
    rw [List.nil_append] at heq
    rw [← heq, hhere] at horigin
    cases horigin
  · rw [eq_comm, foldl_enter_iff hroot]
    exact ⟨fun hparent => ⟨hroot, hparent⟩, LeadsDown.parent⟩

end ReferenceSite.Path
