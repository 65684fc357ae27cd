import ReferenceSite.Address
import ReferenceSite.Proofs.FileTree

/-!
# Addresses and the files of pages

The segments of an address are plain names, so the file of a page lies below the output directory, at a
location made of the segments with the extension behind the last one (`place_join_file`). Different
addresses therefore have their files in different places.
-/

namespace ReferenceSite

/-- The text is the name of a directory or a file in whatever directory it is read from. -/
structure Path.IsName (s : String) : Prop where
  ne_empty : s ≠ ""
  no_slash : '/' ∉ s.toList
  ne_current : s ≠ "."
  ne_parent : s ≠ ".."

namespace Address

/-- An address as it is given to an item: at least one segment, and every segment is a name. -/
structure IsSafe (a : Address) : Prop where
  ne_nil : a.segments ≠ []
  name : ∀ s ∈ a.segments, Path.IsName s

/-- A check that finds no fault was passed, and so was the rest. -/
theorem check_eq_none {α : Type} {c : Prop} [Decidable c] {fault : α} {rest : Option α}
    (h : (if c then some fault else rest) = none) : ¬ c ∧ rest = none := by
  split_ifs at h with hc
  exact ⟨hc, h⟩

theorem isName_of_segmentFault?_eq_none {s : String} (h : segmentFault? s = none) :
    Path.IsName s := by
  unfold segmentFault? at h
  obtain ⟨hempty, h⟩ := check_eq_none h
  obtain ⟨hcurrent, h⟩ := check_eq_none h
  obtain ⟨hparent, h⟩ := check_eq_none h
  obtain ⟨-, h⟩ := check_eq_none h
  obtain ⟨-, h⟩ := check_eq_none h
  obtain ⟨-, h⟩ := check_eq_none h
  obtain ⟨hseparator, -⟩ := check_eq_none h
  refine ⟨?_, ?_, ?_, ?_⟩
  · rintro rfl
    exact hempty rfl
  · intro hmem
    exact hseparator (List.any_eq_true.2 ⟨'/', hmem, by decide⟩)
  · rintro rfl
    exact hcurrent (by decide)
  · rintro rfl
    exact hparent (by decide)

theorem ofSegments_eq_ok {segments : List String} {a : Address} (h : ofSegments segments = .ok a) :
    a.segments = segments ∧ a.IsSafe := by
  unfold ofSegments at h
  split_ifs at h with hne
  split at h
  · cases h
  · next hfault =>
    rw [List.findSome?_eq_none_iff] at hfault
    dsimp only at h
    split at h
    · cases h
    · cases h
      refine ⟨rfl, by simpa using hne, fun s hs => ?_⟩
      have := hfault s hs
      exact isName_of_segmentFault?_eq_none (by simpa using this)

/-- The name of the file of a page. -/
def fileName (a : Address) (extension : String) : String :=
  a.segments.getLast?.getD "" ++ "." ++ extension

theorem segments_eq {a : Address} (h : a.segments ≠ []) :
    a.segments = a.segments.dropLast ++ [a.segments.getLast?.getD ""] := by
  rw [List.getLast?_eq_some_getLast h, Option.getD_some, List.dropLast_append_getLast]

theorem isName_fileName {a : Address} (h : a.IsSafe) {extension : String}
    (hext : '/' ∉ extension.toList) : Path.IsName (a.fileName extension) := by
  have hlast : Path.IsName (a.segments.getLast?.getD "") := by
    refine h.name _ ?_
    rw [List.getLast?_eq_some_getLast h.ne_nil]
    exact List.getLast_mem h.ne_nil
  have htext : (a.fileName extension).toList =
      (a.segments.getLast?.getD "").toList ++ '.' :: extension.toList := by
    simp [fileName, String.toList_append]
  have hne : (a.segments.getLast?.getD "").toList ≠ [] := by
    rw [ne_eq, String.toList_eq_nil_iff]
    exact hlast.ne_empty
  refine ⟨?_, ?_, ?_, ?_⟩
  · intro hempty
    rw [hempty] at htext
    simp at htext
  · rw [htext]
    simpa using ⟨hlast.no_slash, hext⟩
  · intro hdot
    rw [hdot] at htext
    cases hl : (a.segments.getLast?.getD "").toList with
    | nil => exact hne hl
    | cons c cs => simp [hl] at htext
  · intro hdots
    rw [hdots] at htext
    cases hl : (a.segments.getLast?.getD "").toList with
    | nil => exact hne hl
    | cons c cs =>
      rw [hl] at htext
      obtain ⟨rfl, hrest⟩ := List.cons.inj (htext : ['.', '.'] = c :: (cs ++ '.' :: extension.toList))
      cases cs with
      | nil => exact hlast.ne_current (String.toList_injective hl)
      | cons d ds => simp at hrest

/-- The pieces of the file of a page: the segments, the last one with the extension. -/
def filePieces (a : Address) (extension : String) : List String :=
  a.segments.dropLast ++ [a.fileName extension]

theorem isName_filePieces {a : Address} (h : a.IsSafe) {extension : String}
    (hext : '/' ∉ extension.toList) : ∀ s ∈ a.filePieces extension, Path.IsName s := by
  intro s hs
  rcases List.mem_append.1 hs with hs | hs
  · exact h.name s (List.mem_of_mem_dropLast hs)
  · rw [List.mem_singleton.1 hs]
    exact isName_fileName h hext

theorem file_eq_intercalate {a : Address} (h : a.IsSafe) (extension : String) :
    a.file extension = String.intercalate "/" (a.filePieces extension) := by
  rw [file, toText, segments_eq h.ne_nil, filePieces, fileName]
  by_cases hfront : a.segments.dropLast = []
  · rw [hfront, List.nil_append, List.nil_append, String.intercalate_singleton,
      String.intercalate_singleton]
  · rw [String.intercalate_append_of_ne_nil hfront (List.cons_ne_nil _ _),
      String.intercalate_append_of_ne_nil hfront (List.cons_ne_nil _ _),
      String.intercalate_singleton, String.intercalate_singleton]
    simp only [String.append_assoc]

theorem pieces_file {a : Address} (h : a.IsSafe) {extension : String}
    (hext : '/' ∉ extension.toList) : (a.file extension).pieces = a.filePieces extension := by
  have hname := isName_filePieces h hext
  rw [file_eq_intercalate h, Path.pieces_intercalate fun s hs => (hname s hs).no_slash,
    List.filter_eq_self]
  intro s hs
  simpa using (hname s hs).ne_empty

theorem isAbsolute_file {a : Address} (h : a.IsSafe) {extension : String}
    (hext : '/' ∉ extension.toList) : (a.file extension).isAbsolute = false := by
  have hname := isName_filePieces h hext
  rw [file_eq_intercalate h]
  cases hpieces : a.filePieces extension with
  | nil => exact absurd hpieces (by simp [filePieces])
  | cons s ss =>
    have hs := hname s (by rw [hpieces]; exact List.mem_cons_self)
    rw [Path.isAbsolute_intercalate_cons hs.no_slash]
    simp [hs.ne_empty]

/-- Page references below one path differ where the addresses do. -/
theorem pageRef_injective {a b : Address} {base : String} (h : a.pageRef base = b.pageRef base) :
    a.toText = b.toText := by
  unfold pageRef at h
  dsimp only at h
  split_ifs at h with hbase
  · exact h
  · have htext := congrArg String.toList h
    simp only [String.toList_append] at htext
    exact String.toList_injective (List.append_cancel_left htext)

theorem filePieces_injective {a b : Address} (ha : a.IsSafe) (hb : b.IsSafe) {extension : String}
    (h : a.filePieces extension = b.filePieces extension) : a = b := by
  obtain ⟨hfront, hlast⟩ := List.append_inj' h rfl
  have hname : a.segments.getLast?.getD "" = b.segments.getLast?.getD "" := by
    have htext := congrArg String.toList (List.cons.inj hlast).1
    simp only [fileName, String.toList_append] at htext
    exact String.toList_injective (List.append_cancel_right (List.append_cancel_right htext))
  have hsegments : a.segments = b.segments := by
    rw [segments_eq ha.ne_nil, segments_eq hb.ne_nil, hfront, hname]
  cases a
  cases b
  exact congrArg _ hsegments

end Address

namespace FileTree

/-- Names lead from a directory to what is in it. -/
theorem foldl_beyond_names {pieces : List String} (h : ∀ s ∈ pieces, Path.IsName s)
    (loc : Location) : pieces.foldl beyond loc = loc ++ pieces := by
  induction pieces generalizing loc with
  | nil => simp
  | cons s pieces ih =>
    rw [List.forall_mem_cons] at h
    rw [List.foldl_cons, beyond, if_neg h.1.ne_current, if_neg h.1.ne_parent, ih h.2,
      List.append_assoc, List.singleton_append]

/-- A relative path leads on from the place of the directory from which it is read. -/
theorem place_join (t : FileTree) {directory p : Path} (hp : p.isAbsolute = false) :
    t.place (Path.join directory p) = p.pieces.foldl beyond (t.place directory) := by
  rw [place, place, Path.pieces_join hp, List.foldl_append, start, start, Path.isAbsolute_join hp]

/-- The file of a page lies below the output directory. -/
theorem place_join_file (t : FileTree) (directory : Path) {a : Address} (h : a.IsSafe)
    {extension : String} (hext : '/' ∉ extension.toList) :
    t.place (Path.join directory (a.file extension)) =
      t.place directory ++ a.filePieces extension := by
  rw [place_join t (Address.isAbsolute_file h hext), Address.pieces_file h hext,
    foldl_beyond_names (Address.isName_filePieces h hext)]

theorem place_join_file_injective {t : FileTree} {directory : Path} {a b : Address} (ha : a.IsSafe)
    (hb : b.IsSafe) {extension : String} (hext : '/' ∉ extension.toList)
    (h : t.place (Path.join directory (a.file extension)) =
      t.place (Path.join directory (b.file extension))) : a = b := by
  rw [place_join_file t directory ha hext, place_join_file t directory hb hext] at h
  exact Address.filePieces_injective ha hb (List.append_cancel_left h)

/-- The names behind the output directory leave no directory. -/
theorem Grounded.join_file {t : FileTree} {directory : Path} (hdir : t.Grounded directory) {a : Address}
    (h : a.IsSafe) {extension : String} (hext : '/' ∉ extension.toList) :
    t.Grounded (Path.join directory (a.file extension)) := by
  have hno : ".." ∉ a.filePieces extension := fun hmem =>
    (Address.isName_filePieces h hext _ hmem).ne_parent rfl
  intro front back heq
  rw [Path.pieces_join (Address.isAbsolute_file h hext), Address.pieces_file h hext,
    List.append_eq_append_iff] at heq
  rw [start, Path.isAbsolute_join (Address.isAbsolute_file h hext)]
  rcases heq with ⟨middle, -, hfile⟩ | ⟨middle, hpieces, hfile⟩
  · refine absurd ?_ hno
    rw [hfile]
    exact List.mem_append_right _ List.mem_cons_self
  · cases middle with
    | nil =>
      refine absurd ?_ hno
      rw [← List.nil_append (a.filePieces extension), ← hfile]
      exact List.mem_cons_self
    | cons piece middle =>
      obtain ⟨rfl, -⟩ := List.cons.inj hfile
      exact hdir front middle hpieces

end FileTree

end ReferenceSite
