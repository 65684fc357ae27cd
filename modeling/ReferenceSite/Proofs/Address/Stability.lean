import ReferenceSite.Proofs.Address.Fallback

/-!
# Addresses of items with names

Of an item whose name shows something in its address, the segment is made of its kind, its name and its number
among overloads (`Model.segment_eq_label`); positions are for items without a name. So the address of an item
is fixed by what its lineage declares (`Model.address_eq_labels`), and it is the same in all models in which
the lineage declares the same (`Model.address_stable`).
-/

namespace ReferenceSite

/-- What an item declares about its segment. -/
structure Address.Label where
  /-- The kind. -/
  kind : Kind
  /-- The name to show. -/
  name : String
  /-- The number among overloads. -/
  ordinal : Nat
deriving DecidableEq, Repr

namespace Address.Label

/-- What is left of the name in a segment: that of a package has no scope, any other is made of words with
    hyphens between them. -/
def base (l : Label) : String :=
  .ofList (if l.kind == .package then withoutScope l.name.toList else hyphenated l.name.toList)

/-- The segment of a name of which something is left. -/
def segment (l : Label) : String :=
  l.base ++ if 1 < l.ordinal then "_" ++ toString l.ordinal else ""

end Address.Label

/-- The label of an item. -/
def Declaration.label (d : Declaration) : Address.Label where
  kind := d.kind
  name := d.shownName
  ordinal := d.overloadOrdinal

/-- The name to show is all of the name that counts. -/
theorem Declaration.base_label (d : Declaration) : d.label.base = Address.baseOf d := by
  have hname : d.label.name.toList = d.shownChars := by
    unfold label shownName
    rw [String.toList_ofList]
  unfold Address.Label.base Address.baseOf
  rw [hname]
  show String.ofList (if d.kind == .package then _ else _) = _
  by_cases hpackage : d.kind = .package
  · -- only the name of a constructor is shown without its parentheses
    have hshown : d.shownChars = Text.trim d.name.toList := by
      unfold shownChars
      rw [hpackage]
      rfl
    rw [hpackage, hshown]
  · rw [if_neg (by simpa using hpackage), if_neg (by simpa using hpackage)]

theorem Declaration.one_lt_overloadOrdinal_iff (d : Declaration) :
    1 < d.overloadOrdinal ↔ 1 < d.overloadIndex := by
  rw [overloadOrdinal, UInt32.lt_iff_toNat_lt, UInt32.toNat_one]
  omega

namespace Model

variable {m m' : Model} {f : Nat → Nat} {x y id : Nat}

/-- The labels along the address of an item. -/
def labels (m : Model) (id : Nat) : List Address.Label :=
  (m.addressItems id).map fun i => (m.item i).label

/-- Something is left of every name along the address of an item. -/
def NamedAlong (m : Model) (id : Nat) : Prop := ∀ l ∈ m.labels id, l.base ≠ ""

instance (m : Model) (id : Nat) : Decidable (m.NamedAlong id) :=
  inferInstanceAs (Decidable (∀ l ∈ _, _))

/-- The position of an item does not count where something is left of its name. -/
theorem segment_eq_label (h : (m.item id).label.base ≠ "") : m.segment id = (m.item id).label.segment := by
  have hbase := (m.item id).base_label
  rw [hbase] at h
  have hshows : ¬ (Address.baseOf (m.item id).toDeclaration).isEmpty = true := by simpa using h
  rw [segment, if_neg hshows, Address.Label.segment, hbase]
  show _ = _ ++ if 1 < (m.item id).overloadOrdinal then "_" ++ toString (m.item id).overloadOrdinal else ""
  by_cases hindex : 1 < (m.item id).overloadIndex
  · have hordinal : (m.item id).overloadOrdinal = (m.item id).overloadIndex.toNat :=
      Nat.max_eq_left (Nat.le_of_lt (UInt32.lt_iff_toNat_lt.1 hindex))
    rw [if_pos hindex, if_pos ((m.item id).one_lt_overloadOrdinal_iff.2 hindex), hordinal]
  · rw [if_neg hindex, if_neg fun h => hindex ((m.item id).one_lt_overloadOrdinal_iff.1 h)]

/-- The address is made of the labels alone. -/
theorem address_eq_labels (h : m.NamedAlong id) :
    m.address id = Address.ofSegments ((m.labels id).map Address.Label.segment) := by
  rw [address, labels, List.map_map]
  congr 1
  apply List.map_congr_left
  intro i hi
  exact segment_eq_label (h _ (List.mem_map_of_mem hi))

/-! ## Renumbered items -/

/-- Another model has the lineage of an item, with other numbers. Nothing is said about other items. -/
structure Carries (m m' : Model) (f : Nat → Nat) (id : Nat) : Prop where
  label : ∀ i ∈ m.lineage id, (m'.item (f i)).label = (m.item i).label
  parent : ∀ i ∈ m.lineage id, (m'.item (f i)).parent = (m.item i).parent.map f

theorem mem_lineage {i : Nat} : i ∈ m.lineage id ↔ i = id ∨ i ∈ m.ancestors id := by
  rw [lineage, List.mem_reverse, List.mem_cons]

theorem Carries.ancestors_eq (h : m.Carries m' f id) (hm : m.Built) (hm' : m'.Built) :
    m'.ancestors (f id) = (m.ancestors id).map f := by
  induction id using Nat.strongRecOn with
  | _ id ih =>
    have hparent := h.parent id (mem_lineage.2 (Or.inl rfl))
    cases hp : (m.item id).parent with
    | none =>
      rw [hp, Option.map_none] at hparent
      rw [ancestors_of_no_parent hp, ancestors_of_no_parent hparent, List.map_nil]
    | some p =>
      rw [hp, Option.map_some] at hparent
      have habove : ∀ i ∈ m.lineage p, i ∈ m.lineage id := by
        intro i hi
        rw [mem_lineage, hm.ancestors_eq hp, List.mem_cons]
        exact Or.inr (mem_lineage.1 hi)
      have hcarries : m.Carries m' f p :=
        ⟨fun i hi => h.label i (habove i hi), fun i hi => h.parent i (habove i hi)⟩
      rw [hm.ancestors_eq hp, hm'.ancestors_eq hparent, ih p (hm.parent_lt hp) hcarries, List.map_cons]

theorem Carries.labels_eq (h : m.Carries m' f id) (hm : m.Built) (hm' : m'.Built) :
    m'.labels (f id) = m.labels id := by
  have hlineage : m'.lineage (f id) = (m.lineage id).map f := by
    rw [lineage, lineage, h.ancestors_eq hm hm', List.map_reverse, List.map_cons]
  have hitems : m'.addressItems (f id) = (m.addressItems id).map f := by
    rw [addressItems, addressItems, hlineage, List.filter_map]
    congr 1
    apply List.filter_congr
    intro i hi
    have hkind : (m'.item (f i)).kind = (m.item i).kind := congrArg Address.Label.kind (h.label i hi)
    rw [Function.comp_apply, hkind]
  rw [labels, labels, hitems, List.map_map]
  apply List.map_congr_left
  intro i hi
  exact h.label i (List.mem_filter.1 hi).1

/-- Items with the same labels along their addresses have the same address, or none for the same reason, in any
    two models, unless nothing is left of a name. So nothing that happens to the items outside the lineage
    of an item changes its address. -/
theorem address_stable :
    (∀ (m m' : Model) (x y : Nat), m.labels x = m'.labels y → m.NamedAlong x → m.address x = m'.address y) ∧
      ∀ (m m' : Model) (f : Nat → Nat) (x : Nat), m.Built → m'.Built → m.Carries m' f x → m.NamedAlong x →
        m'.address (f x) = m.address x := by
  have hstable : ∀ (m m' : Model) (x y : Nat), m.labels x = m'.labels y → m.NamedAlong x →
      m.address x = m'.address y := by
    intro m m' x y hlabels hnamed
    have hnamed' : m'.NamedAlong y := by
      intro l hl
      exact hnamed l (by rwa [hlabels])
    rw [address_eq_labels hnamed, address_eq_labels hnamed', hlabels]
  refine ⟨hstable, ?_⟩
  intro m m' f x hm hm' hcarries hnamed
  exact (hstable m m' x (f x) (hcarries.labels_eq hm hm').symm hnamed).symm

/-- A model with a package more: it has an entry point with a class and a method, the second of its name. -/
def withWidgets (m : Model) : Model :=
  (((m.add root { kind := .package, name := "@acme/widgets" }).add m.size { kind := .entryPoint }).add
    (m.size + 1) { kind := .class, name := "Widget" }).add
    (m.size + 2) { kind := .method, name := "render()", overloadIndex := 2 }

/-- The same package without the entry point, beside others. -/
def besideOthers : Model :=
  ((((empty.add root { kind := .package, name := "other" }).add
    root { kind := .package, name := "@acme/widgets" }).add 2 { kind := .class, name := "Gadget" }).add
    2 { kind := .class, name := "Widget" }).add 4 { kind := .method, name := " render()", overloadIndex := 2 }

/-- A variable in front of the package. -/
def behindVariable : Model := withWidgets (empty.add root { kind := .variable, name := "x" })

theorem Built.withWidgets (h : m.Built) (hsize : 0 < m.size) : m.withWidgets.Built := by
  refine .add (.add (.add (.add h hsize _) ?_ _) ?_ _) ?_ _
  all_goals
    simp only [size_add]
    omega

theorem address_stable_widgets :
    empty.withWidgets.address 4 = .ok ⟨["widgets", "Widget", "render_2"]⟩ ∧
      empty.withWidgets.address 4 = besideOthers.address 5 ∧
      behindVariable.address 5 = empty.withWidgets.address 4 := by
  obtain ⟨hlabels, hrenumbered⟩ := address_stable
  have hempty : empty.Built := .root none []
  have hbuilt : empty.withWidgets.Built := hempty.withWidgets (by decide)
  have hbuilt' : behindVariable.Built :=
    (Built.add hempty (by decide) _).withWidgets (by decide)
  have hnamed : empty.withWidgets.NamedAlong 4 := by decide +kernel
  have hcarries : empty.withWidgets.Carries behindVariable (fun i => if i = 0 then 0 else i + 1) 4 :=
    ⟨by decide +kernel, by decide +kernel⟩
  have hsame : empty.withWidgets.labels 4 = besideOthers.labels 5 := by decide +kernel
  exact ⟨by decide +kernel, hlabels _ _ 4 5 hsame hnamed, hrenumbered _ _ _ 4 hbuilt hbuilt' hcarries hnamed⟩

end Model

end ReferenceSite
