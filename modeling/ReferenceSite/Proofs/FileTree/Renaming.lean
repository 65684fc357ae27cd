import ReferenceSite.Proofs.FileTree.Growth

/-!
# Temporary files

A temporary file is created where nothing stands and later moves to another path, where it takes the place of
the file there. Removing it gives back the tree before (`unlink_put`), and moving it comes to the same as
writing its content at the path (`rename_put`).
-/

namespace ReferenceSite.FileTree

variable {t u : FileTree} {p : Path} {loc : Location} {n : Node} {c : Content}

/-- Create an empty file where nothing stands, if that is possible. -/
def createNew? (t : FileTree) (p : Path) : Option FileTree :=
  if t.node? (t.place p) = none then (t.write p (.text "")).toOption else none

/-- Remove the file at a location. -/
def unlink (t : FileTree) (loc : Location) : FileTree :=
  { t with nodes := t.nodes.filter (·.1 != loc) }

/-- Move the file at a location to a path, where it takes the place of the file there. -/
def rename (t : FileTree) (source : Location) (p : Path) : Except Failure FileTree :=
  match t.file? source with
  | none => .error .notFound
  | some content =>
    (t.write p content).map fun _ => (t.unlink source).put (t.place p) (.file content)

/-! ## Removing -/

theorem putNode_putNode (loc : Location) (n m : Node) (nodes : List (Location × Node)) :
    putNode loc m (putNode loc n nodes) = putNode loc m nodes := by
  induction nodes with
  | nil => simp [putNode]
  | cons k nodes ih =>
    by_cases hk : k.1 = loc
    · simp [putNode, hk]
    · simp [putNode, hk, ih]

theorem put_put (t : FileTree) (loc : Location) (n m : Node) :
    (t.put loc n).put loc m = t.put loc m := by
  unfold put
  rw [putNode_putNode]

theorem filter_putNode (loc : Location) (n : Node) (nodes : List (Location × Node)) :
    (putNode loc n nodes).filter (·.1 != loc) = nodes.filter (·.1 != loc) := by
  induction nodes with
  | nil => simp [putNode]
  | cons k nodes ih =>
    by_cases hk : k.1 = loc
    · simp [putNode, hk]
    · simp [putNode, hk, ih]

theorem ne_directory_of_none (h : t.node? loc = none) : t.node? loc ≠ some .directory := by
  simp [h]

theorem ne_of_mem_nodes (h : t.node? loc = none) {k : Location × Node} (hk : k ∈ t.nodes) :
    k.1 ≠ loc := by
  have hne : loc ≠ [] := ne_nil_of_node? (ne_directory_of_none h)
  unfold node? at h
  rw [if_neg (by simpa using hne), Option.map_eq_none_iff, List.find?_eq_none] at h
  simpa using h k hk

theorem unlink_put (h : t.node? loc = none) : (t.put loc n).unlink loc = t := by
  have hnodes : t.nodes.filter (·.1 != loc) = t.nodes :=
    List.filter_eq_self.2 fun k hk => bne_iff_ne.2 (ne_of_mem_nodes h hk)
  unfold unlink put
  rw [filter_putNode, hnodes]

/-! ## Creating and moving -/

theorem createNew?_eq_some (h : t.createNew? p = some u) :
    t.node? (t.place p) = none ∧ u = t.put (t.place p) (.file (.text "")) := by
  unfold createNew? at h
  split_ifs at h with hnone
  cases hwrite : t.write p (.text "") with
  | error e =>
    rw [hwrite] at h
    cases h
  | ok v =>
    rw [hwrite] at h
    cases h
    exact ⟨hnone, (write_eq_ok hwrite).2.2.2⟩

/-- A new file opens no way. -/
theorem keeps_of_put_file (h : t.node? loc = none) : Keeps (t.put loc (.file c)) t := by
  refine ⟨rfl, fun l hl => ?_⟩
  rw [node?_put t (ne_nil_of_node? (ne_directory_of_none h))] at hl
  split_ifs at hl
  · cases hl
  · exact hl

/-- A content can be written at the same paths with and without a new file somewhere. -/
theorem write_put_iff (h : t.node? loc = none) {d : Content} :
    (∃ v, (t.put loc (.file d)).write p c = .ok v) ↔ ∃ v, t.write p c = .ok v := by
  have hdir := ne_directory_of_none h
  have hkeeps := keeps_put hdir (.file d)
  have hnode := node?_put t (ne_nil_of_node? hdir) (.file d)
  constructor
  · rintro ⟨v, hv⟩
    obtain ⟨hloc, hsep, hplace, -⟩ := write_eq_ok hv
    refine ⟨_, write_of_locate (locate_mono (keeps_of_put_file h) hloc) hsep ?_⟩
    exact fun hplace' => hplace (hkeeps.directory _ hplace')
  · rintro ⟨v, hv⟩
    obtain ⟨hloc, hsep, hplace, -⟩ := write_eq_ok hv
    refine ⟨_, write_of_locate (locate_mono hkeeps hloc) hsep fun hplace' => hplace ?_⟩
    exact (keeps_of_put_file h).directory _ hplace'

/-- Moving a new file to a path comes to the same as writing its content there. -/
theorem rename_put (h : t.node? loc = none) :
    (t.put loc (.file c)).rename loc p = .ok u ↔ t.write p c = .ok u := by
  have hdir := ne_directory_of_none h
  have hfile : (t.put loc (.file c)).file? loc = some c := by
    rw [file?, node?_put t (ne_nil_of_node? hdir), if_pos rfl]
  have hplace : (t.put loc (.file c)).place p = t.place p := (keeps_put hdir _).place p
  unfold rename
  rw [hfile]
  dsimp only
  rw [unlink_put h, hplace]
  constructor
  · intro hmoved
    cases hwrite : (t.put loc (.file c)).write p c with
    | error e =>
      rw [hwrite] at hmoved
      cases hmoved
    | ok v =>
      rw [hwrite] at hmoved
      cases hmoved
      obtain ⟨v', hv'⟩ := (write_put_iff h).1 ⟨v, hwrite⟩
      rw [hv', (write_eq_ok hv').2.2.2]
  · intro hwrite
    obtain ⟨v, hv⟩ := (write_put_iff (d := c) h).2 ⟨u, hwrite⟩
    rw [hv, (write_eq_ok hwrite).2.2.2]
    rfl

end ReferenceSite.FileTree
