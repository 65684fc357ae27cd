import Mathlib.Tactic.SplitIfs
import ReferenceSite.Proofs.Model.Source

/-!
# The layout of a model file

A tree of items is laid out in depth-first order: an item takes the next free position and its members follow,
each with everything below it (`Source.layout`). The first node in that order that breaks a rule stops the
reading of a model file; without one, the model is the layout of the tree (`readFrom_source`).
-/

namespace ReferenceSite

open Model

namespace Source

/-- The tree of items in a JSON text. -/
def ofText? (text : String) : Option Source := (Json.ofText? text).bind (ofJson? Json.nestingLimit)

mutual

/-- The number of nodes of a tree. -/
def size : Source → Nat
  | .node _ members => sizes members + 1

/-- The number of nodes of several trees. -/
def sizes : List Source → Nat
  | [] => 0
  | s :: ss => s.size + sizes ss

end

/-- Where trees begin that are laid out one behind the other. -/
def places (start : Nat) : List Source → List Nat
  | [] => []
  | s :: ss => start :: places (start + s.size) ss

mutual

/-- The items of a tree that is laid out from a position on, in depth-first order: each one with its parent
    and with the positions of its members. -/
def layout (parent : Option Nat) (start : Nat) : Source → List Item
  | .node d members =>
    { d with parent, members := places (start + 1) members } :: layouts start (start + 1) members

/-- The items of trees below a parent that are laid out one behind the other. -/
def layouts (parent start : Nat) : List Source → List Item
  | [] => []
  | s :: ss => layout (some parent) start s ++ layouts parent (start + s.size) ss

end

mutual

/-- The nodes of a tree in depth-first order, each with the kind of the item above it. -/
def nodes (under : Kind) : Source → List (Kind × Source)
  | .node d members => (under, .node d members) :: nodesBelow d.kind members

/-- The nodes of several trees below an item of some kind, in depth-first order. -/
def nodesBelow (under : Kind) : List Source → List (Kind × Source)
  | [] => []
  | s :: ss => nodes under s ++ nodesBelow under ss

end

/-- The nodes below the top of a tree, in depth-first order, each with the kind of the item above it. -/
def descendants (s : Source) : List (Kind × Source) := nodesBelow s.declaration.kind s.members

/-- What is kept of the declaration of the top. -/
def top (s : Source) : Declaration :=
  { kind := .model, docs := s.declaration.docs, excerpt := s.declaration.excerpt }

/-- A node that is not the top breaks a rule. -/
inductive Violates : Kind × Source → Violation → Prop
  | nestedModel {under : Kind} {s : Source} : s.declaration.kind = .model →
      Violates (under, s) (.nestedModel s.declaration.name under)
  | misplacedMembers {under : Kind} {s : Source} : s.members ≠ [] →
      s.declaration.kind.isContainer = false →
      Violates (under, s) (.misplacedMembers s.declaration.kind s.declaration.name)

/-- No node breaks a rule. -/
def Clean (ns : List (Kind × Source)) : Prop := ∀ n ∈ ns, ∀ v, ¬ Violates n v

/-- The rule that the first of the nodes that break one breaks. -/
def FirstViolation (ns : List (Kind × Source)) (v : Violation) : Prop :=
  ∃ front n back, ns = front ++ n :: back ∧ Clean front ∧ Violates n v

variable {ns ns' : List (Kind × Source)} {v : Violation}

theorem Clean.append (h : Clean ns) (h' : Clean ns') : Clean (ns ++ ns') := by
  intro n hn
  rcases List.mem_append.1 hn with hn | hn
  · exact h n hn
  · exact h' n hn

theorem FirstViolation.append_right (h : FirstViolation ns v) (ns' : List (Kind × Source)) :
    FirstViolation (ns ++ ns') v := by
  obtain ⟨front, n, back, rfl, hfront, hn⟩ := h
  exact ⟨front, n, back ++ ns', by simp, hfront, hn⟩

theorem Clean.firstViolation (h : Clean ns) (h' : FirstViolation ns' v) : FirstViolation (ns ++ ns') v := by
  obtain ⟨front, n, back, rfl, hfront, hn⟩ := h'
  exact ⟨ns ++ front, n, back, by simp, h.append hfront, hn⟩

theorem FirstViolation.not_clean (h : FirstViolation ns v) : ¬ Clean ns := by
  obtain ⟨front, n, back, rfl, -, hn⟩ := h
  exact fun hclean => hclean n (by simp) v hn

mutual

theorem length_layout (parent : Option Nat) (start : Nat) :
    ∀ s : Source, (s.layout parent start).length = s.size
  | .node d members => by
    rw [layout, size, List.length_cons, length_layouts]

theorem length_layouts (parent start : Nat) : ∀ ss, (layouts parent start ss).length = sizes ss
  | [] => rfl
  | s :: ss => by
    rw [layouts, sizes, List.length_append, length_layout, length_layouts]

end

mutual

/-- The items of a tree have the declarations of its nodes. -/
theorem map_layout (parent : Option Nat) (start : Nat) (under : Kind) : ∀ s : Source,
    (s.layout parent start).map Item.toDeclaration = (s.nodes under).map fun n => n.2.declaration
  | .node d members => by
    rw [layout, nodes, List.map_cons, List.map_cons, map_layouts start (start + 1) d.kind]
    rfl

theorem map_layouts (parent start : Nat) (under : Kind) : ∀ ss,
    (layouts parent start ss).map Item.toDeclaration = (nodesBelow under ss).map fun n => n.2.declaration
  | [] => rfl
  | s :: ss => by
    rw [layouts, nodesBelow, List.map_append, List.map_append, map_layout _ _ under s, map_layouts]

end

end Source

namespace Model

open Source

variable {m : Model} {parent : Nat}

/-! ## Growth -/

/-- The model with more members of an item, and with more items behind those that it has. -/
def attach (m : Model) (parent : Nat) (ids : List Nat) (items : List Item) : Model :=
  ⟨(m.items.modify parent fun p => { p with members := p.members ++ ids }) ++ items.toArray⟩

theorem size_attach (m : Model) (parent : Nat) (ids : List Nat) (items : List Item) :
    (m.attach parent ids items).size = m.size + items.length := by
  simp [attach, Model.size]

theorem attach_nil (m : Model) (parent : Nat) : m.attach parent [] [] = m := by
  obtain ⟨⟨items⟩⟩ := m
  have hsame : (items.modify parent fun p => { p with members := p.members ++ [] }) = items := by
    simp only [List.append_nil]
    exact List.modify_id parent items
  simpa [attach] using hsame

theorem modify_append {α : Type} {l : List α} {i : Nat} (h : i < l.length) (f : α → α) (l' : List α) :
    (l ++ l').modify i f = l.modify i f ++ l' := by
  induction l generalizing i with
  | nil => exact absurd h (Nat.not_lt_zero i)
  | cons a l ih =>
    cases i with
    | zero => rfl
    | succ i => simp [ih (Nat.lt_of_succ_lt_succ h)]

theorem modify_concat {α : Type} (l : List α) (f : α → α) (a : α) :
    (l ++ [a]).modify l.length f = l ++ [f a] := by
  induction l with
  | nil => rfl
  | cons b l ih => simp [ih]

/-- Attaching twice to an item is attaching once. -/
theorem attach_attach (hparent : parent < m.size) (ids ids' : List Nat) (items items' : List Item) :
    (m.attach parent ids items).attach parent ids' items' =
      m.attach parent (ids ++ ids') (items ++ items') := by
  obtain ⟨⟨old⟩⟩ := m
  have hlength : parent < (old.modify parent fun p => { p with members := p.members ++ ids }).length := by
    rw [List.length_modify]
    exact hparent
  simp [attach, modify_append hlength, List.modify_modify_eq, Function.comp_def]

/-- Attaching to the item that was added last is attaching that item with its members. -/
theorem add_attach (m : Model) (parent : Nat) (d : Declaration) (ids : List Nat) (items : List Item) :
    (m.add parent d).attach m.size ids items =
      m.attach parent [m.size] ({ d with parent := some parent, members := ids } :: items) := by
  obtain ⟨⟨old⟩⟩ := m
  set old' := old.modify parent fun p => { p with members := p.members ++ [old.length] } with hold
  have hsize : old'.length = old.length := List.length_modify ..
  have hlast := modify_concat old' (fun p => { p with members := p.members ++ ids })
    { d with parent := some parent }
  rw [hsize] at hlast
  simp [attach, add, Model.size, ← hold, hlast]

/-! ## Reading -/

mutual

/-- A tree is laid out behind the items of a model, unless a node breaks a rule. -/
theorem addSource_cases {m : Model} {parent : Nat} (under : Kind) : ∀ s : Source,
    (Clean (s.nodes under) ∧
      addSource m parent under s = .ok (m.attach parent [m.size] (s.layout (some parent) m.size))) ∨
    ∃ v, FirstViolation (s.nodes under) v ∧ addSource m parent under s = .error v
  | .node d members => by
    rw [addSource, nodes]
    split_ifs with hmodel hmisplaced
    · have hviolates : Violates (under, .node d members) (.nestedModel d.name under) :=
        .nestedModel (beq_iff_eq.1 hmodel)
      exact Or.inr ⟨_, ⟨[], _, _, rfl, by simp [Clean], hviolates⟩, rfl⟩
    · have hviolates : Violates (under, .node d members) (.misplacedMembers d.kind d.name) := by
        simp only [Bool.and_eq_true, Bool.not_eq_true', List.isEmpty_eq_false_iff] at hmisplaced
        exact .misplacedMembers hmisplaced.1 hmisplaced.2
      exact Or.inr ⟨_, ⟨[], _, _, rfl, by simp [Clean], hviolates⟩, rfl⟩
    · have hnode : Clean [(under, .node d members)] := by
        intro n hn v hv
        obtain rfl := List.mem_singleton.1 hn
        cases hv with
        | nestedModel hkind => exact hmodel (beq_iff_eq.2 hkind)
        | misplacedMembers hmembers hkind =>
          have hsome : members.isEmpty = false := List.isEmpty_eq_false_iff.2 hmembers
          have hcontainer : d.kind.isContainer = false := hkind
          exact hmisplaced (by simp [hsome, hcontainer])
      have hsize := m.size_add parent d
      have hnew : m.size < (m.add parent d).size := by omega
      rcases addSources_cases hnew d.kind members with ⟨hclean, hok⟩ | ⟨v, hfirst, herror⟩
      · refine Or.inl ⟨hnode.append hclean, ?_⟩
        rw [hok, add_attach, hsize, layout]
      · exact Or.inr ⟨v, hnode.firstViolation hfirst, herror⟩

/-- Trees are laid out one behind the other, up to the first node that breaks a rule. -/
theorem addSources_cases {m : Model} {parent : Nat} (hparent : parent < m.size) (under : Kind) :
    ∀ ss : List Source,
    (Clean (nodesBelow under ss) ∧
      addSources m parent under ss = .ok (m.attach parent (places m.size ss) (layouts parent m.size ss))) ∨
    ∃ v, FirstViolation (nodesBelow under ss) v ∧ addSources m parent under ss = .error v
  | [] => by
    refine Or.inl ⟨by simp [Clean, nodesBelow], ?_⟩
    rw [addSources, places, layouts, attach_nil]
  | s :: ss => by
    rw [addSources, nodesBelow]
    rcases addSource_cases under s with ⟨hclean, hok⟩ | ⟨v, hfirst, herror⟩
    · rw [hok]
      have hsize := m.size_attach parent [m.size] (s.layout (some parent) m.size)
      rw [length_layout] at hsize
      have hparent' : parent < (m.attach parent [m.size] (s.layout (some parent) m.size)).size := by
        omega
      rcases addSources_cases hparent' under ss with ⟨hclean', hok'⟩ | ⟨v, hfirst, herror⟩
      · refine Or.inl ⟨hclean.append hclean', ?_⟩
        rw [hsize, attach_attach hparent] at hok'
        exact hok'
      · exact Or.inr ⟨v, hclean.firstViolation hfirst, herror⟩
    · rw [herror]
      exact Or.inr ⟨v, hfirst.append_right _, rfl⟩

end

/-- A tree with a model at its top and no model below it, where all items with members are containers. -/
structure WellFormed (s : Source) : Prop where
  top : s.declaration.kind = .model
  below : ∀ n ∈ s.descendants, n.2.declaration.kind ≠ .model
  containers : ∀ n ∈ s.descendants, n.2.members ≠ [] → n.2.declaration.kind.isContainer = true

/-- What is told about a tree that is not well formed: the kind of its top, or else the first of the nodes
    below that break a rule. -/
inductive Reported (s : Source) : Violation → Prop
  | topLevel : s.declaration.kind ≠ .model → Reported s (.topLevel s.declaration.kind)
  | below {v : Violation} : s.declaration.kind = .model → FirstViolation s.descendants v → Reported s v

/-- A model has one item for each node of a tree, in depth-first order and with the declaration of the node,
    of which only some is kept at the top; its items are linked as the nodes are. -/
structure LaidOut (s : Source) (m : Model) : Prop where
  declared : m.items.toList.map Item.toDeclaration =
    s.top :: s.descendants.map fun n => n.2.declaration
  items : m.items.toList = (Source.node s.top s.members).layout none root

/-- What is made of the tree in a model file. -/
structure ReadFrom (s : Source) (result : Except LoadError Model) : Prop where
  accepted : (∃ m, result = .ok m) ↔ WellFormed s
  laidOut : ∀ m, result = .ok m → LaidOut s m
  refused : ∀ e, result = .error e → ∃ v, e = .invalid v ∧ Reported s v

theorem wellFormed_iff {s : Source} :
    WellFormed s ↔ s.declaration.kind = .model ∧ Clean s.descendants := by
  constructor
  · intro h
    refine ⟨h.top, fun n hn v hv => ?_⟩
    cases hv with
    | nestedModel hkind => exact h.below _ hn hkind
    | misplacedMembers hmembers hkind =>
      have hcontainer := h.containers _ hn hmembers
      rw [hkind] at hcontainer
      cases hcontainer
  · rintro ⟨htop, hclean⟩
    refine ⟨htop, fun n hn hkind => hclean n hn _ (.nestedModel hkind), fun n hn hmembers => ?_⟩
    by_contra hkind
    exact hclean n hn _ (.misplacedMembers hmembers (Bool.eq_false_iff.2 hkind))

theorem laidOut_of_items {s : Source} {m : Model} (htop : s.declaration.kind = .model)
    (hitems : m.items.toList = (Source.node s.top s.members).layout none root) : LaidOut s m := by
  refine ⟨?_, hitems⟩
  rw [hitems, map_layout none root .model, nodes, List.map_cons, descendants, htop]
  rfl

/-- A tree is laid out as a model, or what is wrong with it is told. -/
theorem ofSource_cases (s : Source) :
    (WellFormed s ∧ ∃ m, ofSource s = .ok m ∧ LaidOut s m) ∨
      ¬ WellFormed s ∧ ∃ v, ofSource s = .error v ∧ Reported s v := by
  rw [wellFormed_iff]
  by_cases htop : s.declaration.kind = .model
  · let bare : Model := ofRoot s.declaration.docs s.declaration.excerpt
    have hread : ofSource s = addSources bare root .model s.members := by
      simp [ofSource, htop, bare]
    have hdescendants : s.descendants = nodesBelow .model s.members := by
      rw [descendants, htop]
    rw [hread, hdescendants]
    have hroot : root < bare.size := Nat.zero_lt_one
    rcases addSources_cases hroot .model s.members with ⟨hclean, hok⟩ | ⟨v, hfirst, herror⟩
    · refine Or.inl ⟨⟨htop, hclean⟩, _, hok, laidOut_of_items htop ?_⟩
      simp [attach, bare, ofRoot, root, layout, top, Model.size]
    · refine Or.inr ⟨fun h => hfirst.not_clean h.2, v, herror, .below htop ?_⟩
      rwa [hdescendants]
  · refine Or.inr ⟨fun h => htop h.1, _, ?_, .topLevel htop⟩
    simp [ofSource, htop]

theorem ofJsonText_eq (text : String) : ofJsonText text =
    match Source.ofText? text with
    | none => .error .malformed
    | some s => (ofSource s).mapError .invalid := rfl

/-- The tree in a model file is accepted exactly if it is well formed; it is laid out as a model then, and
    otherwise the first thing that is wrong with it is told. -/
theorem readFrom_source {text : String} {s : Source} (h : Source.ofText? text = some s) :
    ReadFrom s (ofJsonText text) := by
  rw [ofJsonText_eq, h]
  dsimp only
  rcases ofSource_cases s with ⟨hwell, m, hok, hlaid⟩ | ⟨hnot, v, herror, hreported⟩
  · rw [hok]
    refine ⟨⟨fun _ => hwell, fun _ => ⟨m, rfl⟩⟩, fun m' hm' => ?_, fun e he => ?_⟩
    · cases hm'
      exact hlaid
    · cases he
  · rw [herror]
    refine ⟨⟨fun ⟨m, hm⟩ => ?_, fun hwell => absurd hwell hnot⟩, fun m hm => ?_, fun e he => ?_⟩
    · cases hm
    · cases hm
    · cases he
      exact ⟨v, rfl, hreported⟩

theorem exists_tree (text : String) (h : ofJsonText text ≠ .error .malformed) :
    ∃ s, Source.ofText? text = some s := by
  rw [ofJsonText_eq] at h
  cases hs : Source.ofText? text with
  | none => simp [hs] at h
  | some s => exact ⟨s, rfl⟩

/-- A class with a method and an enumeration. -/
def siblingsText : String :=
  "\x7b\"kind\":\"Model\",\"members\":[\x7b\"kind\":\"Class\",\"members\":[\x7b\"kind\":\"Method\"\x7d]\x7d," ++
    "\x7b\"kind\":\"Enum\"\x7d]\x7d"

/-- A function with a model as its member. -/
def misplacedText : String :=
  "\x7b\"kind\":\"Model\",\"members\":[\x7b\"kind\":\"Function\",\"name\":\"f\",\"members\":[" ++
    "\x7b\"kind\":\"Model\"\x7d]\x7d]\x7d"

/-- The enumeration is laid out behind the method. The function comes before its member, so it is what is told
    to be wrong. -/
theorem readFrom_source_siblings :
    (∃ s m, Source.ofText? siblingsText = some s ∧ ofJsonText siblingsText = .ok m ∧
      ReadFrom s (ofJsonText siblingsText) ∧
      m.items.toList.map (fun i => (i.kind, i.parent, i.members)) =
        [(.model, none, [1, 3]), (.class, some 0, [2]), (.method, some 1, []), (.enum, some 0, [])]) ∧
    ∃ s, Source.ofText? misplacedText = some s ∧ ReadFrom s (ofJsonText misplacedText) ∧
      ofJsonText misplacedText = .error (.invalid (.misplacedMembers .function "f")) := by
  have hitems : (ofJsonText siblingsText).toOption.map
      (fun m => m.items.toList.map fun i => (i.kind, i.parent, i.members)) =
        some [(.model, none, [1, 3]), (.class, some 0, [2]), (.method, some 1, []), (.enum, some 0, [])] := by
    decide +kernel
  have hreason : (match ofJsonText misplacedText with
      | .ok _ => none
      | .error e => some e) = some (.invalid (.misplacedMembers .function "f")) := by decide +kernel
  constructor
  · cases hread : ofJsonText siblingsText with
    | error e => simp [hread, Except.toOption] at hitems
    | ok m =>
      obtain ⟨s, hs⟩ := exists_tree siblingsText (by simp [hread])
      rw [hread] at hitems
      exact ⟨s, m, hs, rfl, hread ▸ readFrom_source hs, Option.some.inj hitems⟩
  · cases hread : ofJsonText misplacedText with
    | ok m => simp [hread] at hreason
    | error e =>
      rw [hread] at hreason
      obtain rfl := Option.some.inj hreason
      obtain ⟨s, hs⟩ := exists_tree misplacedText (by simp [hread])
      exact ⟨s, hs, hread ▸ readFrom_source hs, rfl⟩

end Model

end ReferenceSite
