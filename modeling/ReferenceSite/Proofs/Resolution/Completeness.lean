import ReferenceSite.Proofs.Resolution

/-!
# Which members are found

Following names commits to one member at each step. In a model that was read from a text only containers have
members, so a way to a member leads through containers; it is found exactly if each of them is the first
container of its name (`resolves_iff_first_containers`). Where a class and a namespace share a name, the
members of the second of them are not found, though the names lead there (`member_not_found`).
-/

namespace ReferenceSite.Model

variable {m : Model} {a s id : Nat} {name : String} {names : List String} {overload : Option UInt32}
  {r : Reference}

theorem Way.exists_visible {inner final : Nat → String → Nat → Prop}
    (hinner : ∀ a name c, inner a name c → m.Visible a c)
    (hfinal : ∀ a name c, final a name c → m.Visible a c) (h : Way inner final a (name :: names) id) :
    ∃ c, m.Visible a c := by
  cases h with
  | last hstep => exact ⟨_, hfinal _ _ _ hstep⟩
  | next hstep _ => exact ⟨_, hinner _ _ _ hstep⟩

/-- In a model in which only containers have members, names are followed from container to container. -/
theorem Shaped.containers (hm : m.Linked) (hshaped : m.Shaped)
    (h : Way m.InnerStep (m.LastStep overload) s names id) :
    Way m.ContainerStep (m.NumberedStep overload) s names id := by
  induction h with
  | here a => exact .here a
  | last hstep => exact .last (hstep.numbered hm)
  | @next a c id name name' names hstep hrest ih =>
    refine .next ?_ ih
    rcases hstep with hcontainer | ⟨hnone, hfirst⟩
    · exact hcontainer
    · -- the way goes on from `c`, which therefore is a container
      obtain ⟨d, hd⟩ := hrest.exists_visible (fun _ _ _ hstep => (hstep.named hm).1)
        fun _ _ _ hstep => (hstep.numbered hm).1.1
      obtain ⟨b, hb⟩ := hd.exists_member
      have hkind := hshaped c (List.ne_nil_of_mem hb)
      have hnot := hnone c ⟨hfirst.visible hm, hfirst.1⟩
      rw [hnot] at hkind
      cases hkind

/-- A last name that leads to some member with the right number is followed to one. -/
theorem NumberedStep.exists_lastStep {c : Nat} (hm : m.Linked) (h : m.NumberedStep overload a name c) :
    ∃ d, m.LastStep overload a name d := by
  have hmem : c ∈ m.membersNamed a name := (mem_membersNamed hm).2 h.1
  have hfound : ∃ d, m.lastStep? a name overload = some d := by
    rw [← Option.ne_none_iff_exists']
    intro hnone
    cases overload with
    | none =>
      have hnil : m.membersNamed a name = [] := firstMinBy?_eq_none_iff.1 hnone
      simp [hnil] at hmem
    | some k =>
      have hnumber := List.find?_eq_none.1 hnone c hmem
      simp [h.2 k rfl] at hnumber
  obtain ⟨d, hd⟩ := hfound
  exact ⟨d, (lastStep?_eq_some_iff hm).1 hd⟩

theorem exists_way_of_containers (hm : m.Linked)
    (h : Way m.ContainerStep (m.NumberedStep overload) s names id) :
    ∃ id', Way m.InnerStep (m.LastStep overload) s names id' := by
  induction h with
  | here a => exact ⟨a, .here a⟩
  | last hstep =>
    obtain ⟨d, hd⟩ := hstep.exists_lastStep hm
    exact ⟨d, .last hd⟩
  | next hstep _ ih =>
    obtain ⟨id', hway⟩ := ih
    exact ⟨id', .next (Or.inl hstep) hway⟩

/-- In a model that was read from a text, a reference with a package is resolved to an item, in every context
    alike, if and only if its names lead from the package to a member with the right number in such a way that
    each of them but the last leads to the first container of the name. -/
theorem resolves_iff_first_containers {text : String} (h : ofJsonText text = .ok m)
    (hr : r.package = some name) (hs : m.FirstVisible root (m.PackageNamed name) s) :
    (∀ context, ∃ id, m.resolve r context = .ok id) ↔
      ∃ id, Way m.ContainerStep (m.NumberedStep r.overload) s r.members id := by
  have hm := (built_ofJsonText h).linked
  have hshaped := shaped_ofJsonText h
  constructor
  · intro hresolves
    obtain ⟨id, hid⟩ := hresolves none
    rw [resolve_of_package hr hs, follow_eq_ok_iff hm] at hid
    exact ⟨id, hshaped.containers hm hid⟩
  · rintro ⟨id, hway⟩ context
    obtain ⟨id', hway'⟩ := exists_way_of_containers hm hway
    refine ⟨id', ?_⟩
    rw [resolve_of_package hr hs, follow_eq_ok_iff hm]
    exact hway'

/-- A class and a namespace of one name, each with a member of its own. The fields of an item stand in order:
    its kind, its name and its members. -/
def namesakesText : String :=
  "[\"Model\",\"\",[[\"Package\",\"p\",[[\"Class\",\"A\",[[\"Method\",\"x\"]]]," ++
    "[\"Namespace\",\"A\",[[\"Variable\",\"y\"]]]]]]]"

/-- The model in that text. -/
def namesakes : Model :=
  ((((empty.add 0 { kind := .package, name := "p" }).add 1 { kind := .class, name := "A" }).add 2
    { kind := .method, name := "x" }).add 1 { kind := .namespace, name := "A" }).add 4
      { kind := .variable, name := "y" }

theorem ofJsonText_namesakesText : ofJsonText namesakesText = .ok namesakes := by
  have hitems : (ofJsonText namesakesText).toOption.map Model.items = some namesakes.items := by
    decide +kernel
  cases hm : ofJsonText namesakesText with
  | error e =>
    rw [hm] at hitems
    cases hitems
  | ok m =>
    rw [hm] at hitems
    have hsame : m.items = namesakes.items := Option.some.inj hitems
    rw [show m = namesakes from congrArg Model.mk hsame]

theorem firstVisible_namesakes : namesakes.FirstVisible root (namesakes.PackageNamed "p") 1 :=
  findPackage?_eq_some_iff.1 (by decide +kernel)

/-- The member of the first container of the name is found. -/
theorem resolves_iff_first_containers_namesakes :
    ofJsonText namesakesText = .ok namesakes ∧
      namesakes.FirstVisible root (namesakes.PackageNamed "p") 1 ∧
      namesakes.resolve { package := some "p", members := ["A", "x"] } none = .ok 3 ∧
      ∃ id, Way namesakes.ContainerStep (namesakes.NumberedStep none) 1 ["A", "x"] id := by
  let r : Reference := { package := some "p", members := ["A", "x"] }
  have hfollow : namesakes.follow none 1 ["A", "x"] = .ok 3 := by decide +kernel
  have hresolve : ∀ context, namesakes.resolve r context = .ok 3 := fun context =>
    (resolve_of_package (r := r) rfl firstVisible_namesakes).trans hfollow
  have hway := (resolves_iff_first_containers (r := r) ofJsonText_namesakesText rfl
    firstVisible_namesakes).1 fun context => ⟨3, hresolve context⟩
  exact ⟨ofJsonText_namesakesText, firstVisible_namesakes, hresolve none, hway⟩

/-- The names `A` and `y` lead to the variable of the namespace, but `A` is followed to the class. -/
theorem member_not_found : ¬ ∀ (text : String) (m : Model) (r : Reference) (name : String) (s id : Nat),
    ofJsonText text = .ok m → r.package = some name → m.FirstVisible root (m.PackageNamed name) s →
      Way m.NamedStep (m.NumberedStep r.overload) s r.members id →
      ∀ context, ∃ id', m.resolve r context = .ok id' := by
  intro hall
  let r : Reference := { package := some "p", members := ["A", "y"] }
  have hlinked := (built_ofJsonText ofJsonText_namesakesText).linked
  have hstep : ∀ a name c, c ∈ namesakes.membersNamed a name → namesakes.NamedStep a name c :=
    fun _ _ _ => (mem_membersNamed hlinked).1
  have hfirst : namesakes.NamedStep 1 "A" 4 := hstep 1 "A" 4 (by decide +kernel)
  have hlast : namesakes.NumberedStep none 4 "y" 5 := ⟨hstep 4 "y" 5 (by decide +kernel), by simp⟩
  obtain ⟨id, hid⟩ := hall namesakesText namesakes r "p" 1 5 ofJsonText_namesakesText rfl
    firstVisible_namesakes (.next hfirst (.last hlast)) none
  have hnone : (namesakes.follow none 1 ["A", "y"]).toOption = none := by decide +kernel
  have hfollow : namesakes.follow none 1 ["A", "y"] = .ok id :=
    (resolve_of_package (r := r) rfl firstVisible_namesakes).symm.trans hid
  rw [hfollow] at hnone
  cases hnone

end ReferenceSite.Model
