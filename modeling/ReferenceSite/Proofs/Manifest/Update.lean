import ReferenceSite.Manifest.Update
import ReferenceSite.Proofs.FileTree

/-!
# How an update goes

An update checks the group, reads the file, checks the sizes and compares the texts before it replaces the
file. `Runs` lists the ways in which it can end, each with all that is known then, for any way of replacing a
file; what an update does is proved from these cases (`runs_updateBy`).
-/

namespace ReferenceSite.Manifest

open FileTree

variable {tree u : FileTree} {path : Path} {target : Target} {g : NavGroup} {maxBytes : Nat}
  {outcome : Outcome} {text : String}

/-! ## Reading the file -/

theorem readText_eq_ok (h : tree.readText path = .ok text) :
    tree.stat path = .ok (.file (.text text)) := by
  unfold readText at h
  cases hstat : tree.stat path with
  | error e => rw [hstat] at h; cases h
  | ok node =>
    rw [hstat] at h
    dsimp only [bind, Except.bind] at h
    split at h
    · cases h
    · cases h
    · cases h
      rfl

theorem readText_of_stat (h : tree.stat path = .ok (.file (.text text))) :
    tree.readText path = .ok text := by
  unfold readText
  rw [h]
  rfl

theorem readExisting_eq_ok {existing : Option String}
    (h : readExisting tree path maxBytes = .ok existing) :
    existing = (tree.readText path).toOption := by
  unfold readExisting at h
  split at h
  · next hsize =>
    cases h
    cases hread : tree.readText path with
    | error e => rfl
    | ok text =>
      rw [FileTree.size, readText_eq_ok hread] at hsize
      cases hsize
  · cases h
  · split_ifs at h
    cases h
    rfl

/-- The manifest that an update makes of the file at a path. -/
def mergedAt (tree : FileTree) (path : Path) (target : Target) (g : NavGroup) : Manifest :=
  (((tree.readText path).toOption.map ofText).getD {}).merge target g

/-! ## Replacing the file -/

/-- A file is replaced by creating its directory and writing it. -/
theorem replaceFile_eq_ok_iff : replaceFile tree path text = (.ok (), u) ↔
    ∃ v, tree.createDirectories (directoryOf path) = (.ok (), v) ∧ v.write path (.text text) = .ok u := by
  unfold replaceFile
  dsimp only
  rcases tree.createDirectories (directoryOf path) with ⟨result, v⟩
  cases result with
  | error e => simp
  | ok _ => cases hwrite : v.write path (.text text) <;> simp [hwrite]

/-- A file that cannot be replaced leaves at most the directories behind that were created for it. -/
theorem replaceFile_eq_error {e : UpdateError} (h : replaceFile tree path text = (.error e, u)) :
    (∃ p, e = .io p) ∧ u = (tree.createDirectories (directoryOf path)).2 := by
  unfold replaceFile at h
  dsimp only at h
  split at h
  · next hdirs =>
    cases h
    exact ⟨⟨_, rfl⟩, by rw [hdirs]⟩
  · next hdirs =>
    split at h
    · cases h
      exact ⟨⟨_, rfl⟩, by rw [hdirs]⟩
    · cases h

/-! ## The cases of an update -/

/-- A way of replacing a file: from a tree, a path and the new text to a result and the tree behind it. -/
abbrev Replacing := FileTree → Path → String → Except UpdateError Unit × FileTree

/-- Merge the group into the manifest file, with some way of replacing it. -/
def updateBy (replace : Replacing) (t : FileTree) (path : Path) (target : Target) (group : NavGroup)
    (maxBytes : Nat) : Except UpdateError Outcome × FileTree :=
  match group.invalidRef? with
  | some error => (.error (.invalidRef error), t)
  | none =>
    match readExisting t path maxBytes with
    | .error error => (.error error, t)
    | .ok existing =>
      let text := mergedText existing target group
      if maxBytes < text.utf8ByteSize then
        (.error (.tooLarge text.utf8ByteSize maxBytes), t)
      else if existing == some text then (.ok .unchanged, t)
      else
        let (result, t) := replace t path text
        (result.map fun () => .written, t)

theorem updateBy_replaceFile : updateBy replaceFile = update := rfl

/-- How an update can go: it ends before the file is replaced, the file has its text already, or the file is
replaced. -/
inductive Runs (replace : Replacing) (tree : FileTree) (path : Path) (target : Target) (g : NavGroup)
    (maxBytes : Nat) : Except UpdateError Outcome × FileTree → Prop
  | refused {i : NavGroup.InvalidRef} (h : g.invalidRef? = some i) :
      Runs replace tree path target g maxBytes (.error (.invalidRef i), tree)
  | unread {e : UpdateError} (hvalid : g.invalidRef? = none)
      (h : readExisting tree path maxBytes = .error e) :
      Runs replace tree path target g maxBytes (.error e, tree)
  | large {size : Nat} (hvalid : g.invalidRef? = none) (h : maxBytes < size) :
      Runs replace tree path target g maxBytes (.error (.tooLarge size maxBytes), tree)
  | unchanged (hvalid : g.invalidRef? = none)
      (hsize : (mergedAt tree path target g).toText.utf8ByteSize ≤ maxBytes)
      (h : tree.readText path = .ok (mergedAt tree path target g).toText) :
      Runs replace tree path target g maxBytes (.ok .unchanged, tree)
  | failed {e : UpdateError} {u : FileTree} (hvalid : g.invalidRef? = none)
      (h : replace tree path (mergedAt tree path target g).toText = (.error e, u)) :
      Runs replace tree path target g maxBytes (.error e, u)
  | written {u : FileTree} (hvalid : g.invalidRef? = none)
      (hsize : (mergedAt tree path target g).toText.utf8ByteSize ≤ maxBytes)
      (hchanged : tree.readText path ≠ .ok (mergedAt tree path target g).toText)
      (h : replace tree path (mergedAt tree path target g).toText = (.ok (), u)) :
      Runs replace tree path target g maxBytes (.ok .written, u)

theorem runs_updateBy (replace : Replacing) (tree : FileTree) (path : Path) (target : Target)
    (g : NavGroup) (maxBytes : Nat) : Runs replace tree path target g maxBytes
      (updateBy replace tree path target g maxBytes) := by
  unfold updateBy
  cases hvalid : g.invalidRef? with
  | some i => exact .refused hvalid
  | none =>
    cases hexisting : readExisting tree path maxBytes with
    | error e => exact .unread hvalid hexisting
    | ok existing =>
      have htext : mergedText existing target g = (mergedAt tree path target g).toText := by
        rw [readExisting_eq_ok hexisting]
        rfl
      dsimp only
      rw [htext]
      split_ifs with hsize hsame
      · exact .large hvalid hsize
      · have hread := eq_of_beq hsame
        rw [readExisting_eq_ok hexisting] at hread
        cases htree : tree.readText path with
        | error e => rw [htree] at hread; cases hread
        | ok text =>
          rw [htree] at hread
          exact .unchanged hvalid (Nat.le_of_not_lt hsize) (htree.trans (congrArg _ (Option.some.inj hread)))
      · have hchanged : tree.readText path ≠ .ok (mergedAt tree path target g).toText := by
          intro hread
          rw [readExisting_eq_ok hexisting, hread] at hsame
          exact hsame (beq_self_eq_true _)
        rcases hreplace : replace tree path (mergedAt tree path target g).toText with ⟨result, u⟩
        cases result with
        | error e => exact .failed hvalid hreplace
        | ok _ => exact .written hvalid (Nat.le_of_not_lt hsize) hchanged hreplace

/-- The cases of an update that replaces the file in one step. -/
theorem runs_update (tree : FileTree) (path : Path) (target : Target) (g : NavGroup) (maxBytes : Nat) :
    Runs replaceFile tree path target g maxBytes (update tree path target g maxBytes) := by
  rw [← updateBy_replaceFile]
  exact runs_updateBy replaceFile tree path target g maxBytes

/-- What an update that succeeds has done. -/
theorem update_eq_ok (h : update tree path target g maxBytes = (.ok outcome, u)) :
    g.invalidRef? = none ∧ (mergedAt tree path target g).toText.utf8ByteSize ≤ maxBytes ∧
      ((u = tree ∧ tree.readText path = .ok (mergedAt tree path target g).toText) ∨
        replaceFile tree path (mergedAt tree path target g).toText = (.ok (), u)) := by
  have hruns := runs_update tree path target g maxBytes
  rw [h] at hruns
  cases hruns with
  | unchanged hvalid hsize hread => exact ⟨hvalid, hsize, Or.inl ⟨rfl, hread⟩⟩
  | written hvalid hsize _ hreplace => exact ⟨hvalid, hsize, Or.inr hreplace⟩

end ReferenceSite.Manifest
