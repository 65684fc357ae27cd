import Mathlib.Data.List.DropRight
import Mathlib.Data.List.Infix
import ReferenceSite.Path
import ReferenceSite.Proofs.Text.Split

/-!
# Pieces of joined paths and of directories

A path that is read from inside a directory passes through the pieces of the directory and then through its
own, and the directory of a path has the first pieces of the path.
-/

namespace ReferenceSite.Path

theorem pieces_append_slash (p q : Path) : pieces (p ++ "/" ++ q) = p.pieces ++ q.pieces := by
  have h : Text.splitAt '/' (p ++ "/" ++ q) = Text.splitAt '/' p ++ Text.splitAt '/' q :=
    Text.splitAt_append_sep '/' p q
  rw [pieces, segments, h, List.filter_append]
  rfl

@[simp]
theorem pieces_empty : pieces "" = [] := by decide

/-- A path that ends with a separator is a path followed by the separator. -/
theorem eq_append_slash {p : Path} (h : p.endsWithSeparator = true) : ∃ q : Path, p = q ++ "/" := by
  rw [endsWithSeparator, beq_iff_eq, List.getLast?_eq_some_iff] at h
  obtain ⟨front, hfront⟩ := h
  refine ⟨.ofList front, String.toList_injective ?_⟩
  rw [hfront, String.toList_append, String.toList_ofList]
  rfl

theorem pieces_join {directory p : Path} (hp : p.isAbsolute = false) :
    (join directory p).pieces = directory.pieces ++ p.pieces := by
  rw [join, hp, Bool.false_or]
  split_ifs with hd hs
  · rw [String.isEmpty_iff.1 hd, pieces_empty, List.nil_append]
  · obtain ⟨q, rfl⟩ := eq_append_slash hs
    have hq : pieces (q ++ "/") = q.pieces := by
      have := pieces_append_slash q ""
      rwa [String.append_empty, pieces_empty, List.append_nil] at this
    rw [pieces_append_slash, hq]
  · rw [pieces_append_slash]

theorem isAbsolute_append {p : Path} (hp : p.isEmpty = false) (q : Path) :
    isAbsolute (p ++ q) = p.isAbsolute := by
  have hne : p.toList ≠ [] := by
    intro h
    rw [String.toList_eq_nil_iff] at h
    simp [h] at hp
  rw [isAbsolute, isAbsolute, String.toList_append, List.head?_append_of_ne_nil _ hne]

/-- A relative path starts where its directory starts. -/
theorem isAbsolute_join {directory p : Path} (hp : p.isAbsolute = false) :
    (join directory p).isAbsolute = directory.isAbsolute := by
  rw [join, hp, Bool.false_or]
  split_ifs with hd hs
  · rw [hp, String.isEmpty_iff.1 hd]
    rfl
  · exact isAbsolute_append (by simpa using hd) p
  · rw [String.append_assoc]
    exact isAbsolute_append (by simpa using hd) _

/-! ## The directory of a path -/

theorem intercalate_segments (p : Path) : String.intercalate "/" p.segments = p :=
  Text.intercalate_splitAt '/' p

theorem not_mem_of_mem_segments {p : Path} {s : String} (h : s ∈ p.segments) : '/' ∉ s.toList :=
  Text.not_mem_of_mem_splitAt h

theorem pieces_intercalate {ss : List String} (h : ∀ s ∈ ss, '/' ∉ s.toList) :
    pieces (String.intercalate "/" ss) = ss.filter (!·.isEmpty) := by
  cases ss with
  | nil => exact pieces_empty
  | cons s ss =>
    have := Text.splitAt_intercalate (List.cons_ne_nil s ss) h
    rw [pieces, segments]
    exact congrArg _ this

/-- A path is absolute if its first segment is empty and not its only one. -/
theorem isAbsolute_intercalate_cons {s : String} (hs : '/' ∉ s.toList) (ss : List String) :
    isAbsolute (String.intercalate "/" (s :: ss)) = (s.isEmpty && !ss.isEmpty) := by
  have hhead : s ≠ "" → ∀ q : Path, isAbsolute (s ++ q) = false := by
    intro hne q
    rw [isAbsolute_append (by simpa using hne)]
    simp only [isAbsolute, beq_eq_false_iff_ne]
    exact fun h => hs (List.mem_of_head? h)
  by_cases hne : s = ""
  · subst hne
    cases ss with
    | nil => decide
    | cons u us =>
      rw [String.intercalate_cons_cons]
      simp [isAbsolute, String.toList_append]
  · cases ss with
    | nil =>
      have := hhead hne ""
      simpa [hne] using this
    | cons u us =>
      rw [String.intercalate_cons_cons, String.append_assoc, hhead hne]
      simp [hne]

theorem isPrefix_dropEndWhile {α : Type} (q : α → Bool) (l : List α) : Text.dropEndWhile q l <+: l :=
  List.rdropWhile_prefix q l

theorem isPrefix_dropIdle (ss : List String) : dropIdle ss <+: ss := by
  cases ss with
  | nil => exact List.prefix_refl _
  | cons s ss =>
    have hkept := isPrefix_dropEndWhile (fun t => t.isEmpty || t == ".") ss
    rw [dropIdle]
    split
    · split_ifs
      · exact List.nil_prefix
      · exact List.prefix_cons_inj s |>.2 List.nil_prefix
    · exact List.prefix_cons_inj s |>.2 hkept

theorem dropIdle_ne_blank (ss : List String) : dropIdle ss ≠ [""] := by
  cases ss with
  | nil => simp [dropIdle]
  | cons s ss =>
    rw [dropIdle]
    split
    · split_ifs with hs
      · simp
      · simpa using hs
    · next hkept => simpa using fun _ => hkept

/-- The directory of a path is read from the same place, and a walk along the path passes through it. -/
theorem parent?_eq_some {p q : Path} (h : p.parent? = some q) :
    q.pieces <+: p.pieces ∧ q.isAbsolute = p.isAbsolute := by
  rw [parent?] at h
  split at h
  · exact absurd h (by simp)
  · dsimp only at h
    set rest := dropIdle (dropIdle p.segments).dropLast with hrest
    have hkeep : rest <+: p.segments :=
      ((isPrefix_dropIdle _).trans (List.dropLast_prefix _)).trans (isPrefix_dropIdle _)
    have hslash : ∀ s ∈ rest, '/' ∉ s.toList := fun s hs =>
      not_mem_of_mem_segments (hkeep.subset hs)
    have hpieces : pieces (String.intercalate "/" rest) <+: p.pieces := by
      rw [pieces_intercalate hslash]
      exact hkeep.filter _
    -- nothing is left of a path with one segment: its directory is the root or the current directory
    cases hr : rest with
    | nil =>
      rw [hr, List.isEmpty_nil, Bool.true_and] at h
      split_ifs at h with ha
      · obtain rfl := Option.some.inj h
        rw [ha]
        exact ⟨by rw [show pieces "/" = [] by decide]; exact List.nil_prefix, by decide⟩
      · obtain rfl := Option.some.inj h
        rw [hr] at hpieces
        exact ⟨hpieces, by rw [Bool.eq_false_iff.2 ha]; decide⟩
    | cons s ss =>
      rw [hr, List.isEmpty_cons, Bool.false_and, if_neg Bool.false_ne_true] at h
      obtain rfl := Option.some.inj h
      rw [hr] at hpieces hkeep hslash
      refine ⟨hpieces, ?_⟩
      obtain ⟨back, hback⟩ := hkeep
      rw [← intercalate_segments p, ← hback, List.cons_append,
        isAbsolute_intercalate_cons (hslash s List.mem_cons_self),
        isAbsolute_intercalate_cons (hslash s List.mem_cons_self)]
      cases ss with
      | nil =>
        have hs : s ≠ "" := by
          intro hs
          exact dropIdle_ne_blank (dropIdle p.segments).dropLast (by rw [← hrest, hr, hs])
        simp [hs]
      | cons u us => simp

/-! ## Components -/

/-- What a piece of a path is among the components; a dot is none. -/
def componentOf? (piece : String) : Option Component :=
  if piece == "." then none else if piece == ".." then some .parent else some (.normal piece)

theorem components_eq (p : Path) :
    p.components = if p.isAbsolute then .root :: p.pieces.filterMap componentOf?
      else if p.segments.head? = some "." then .current :: p.pieces.filterMap componentOf?
      else p.pieces.filterMap componentOf? := by
  unfold components componentOf?
  simp only [beq_iff_eq]

@[simp]
theorem components_empty : components "" = [] := by decide

theorem segments_ne_nil (p : Path) : p.segments ≠ [] := by
  rw [segments, Text.splitAt, Text.splitWhere_eq_splitOnP]
  simp [List.splitOnP_ne_nil]

/-- A path that is read from inside a directory starts with the first segment of the directory. -/
theorem head?_segments_join {directory p : Path} (hp : p.isAbsolute = false) (hd : directory ≠ "") :
    (join directory p).segments.head? = directory.segments.head? := by
  have hslash : ∀ q : Path, (q ++ "/" ++ p : Path).segments.head? = q.segments.head? := by
    intro q
    have h : (q ++ "/" ++ p : Path).segments = q.segments ++ p.segments :=
      Text.splitAt_append_sep '/' q p
    rw [h, List.head?_append_of_ne_nil _ q.segments_ne_nil]
  have hempty : directory.isEmpty = false := by simpa using hd
  rw [join, hp, hempty, Bool.false_or, if_neg Bool.false_ne_true]
  split_ifs with hs
  · obtain ⟨q, rfl⟩ := eq_append_slash hs
    have hq : (q ++ "/" : Path).segments.head? = q.segments.head? := by
      have h : (q ++ "/" ++ "" : Path).segments = q.segments ++ segments "" :=
        Text.splitAt_append_sep '/' q ""
      rw [String.append_empty] at h
      rw [h, List.head?_append_of_ne_nil _ q.segments_ne_nil]
    rw [hslash, hq]
  · exact hslash directory

/-- The components of a path that is read from inside a directory are those of the directory and its own,
    unless it starts with a dot. -/
theorem components_join {directory p : Path} (hp : p.isAbsolute = false)
    (hdot : p.segments.head? ≠ some ".") :
    (join directory p).components = directory.components ++ p.components := by
  have hown : p.components = p.pieces.filterMap componentOf? := by
    rw [components_eq, hp, if_neg Bool.false_ne_true, if_neg hdot]
  by_cases hd : directory = ""
  · subst hd
    have hjoin : join "" p = p := by simp [join]
    rw [hjoin, components_empty, List.nil_append]
  · rw [components_eq, components_eq directory, isAbsolute_join hp, head?_segments_join hp hd,
      pieces_join hp, List.filterMap_append, hown]
    split_ifs <;> simp

end ReferenceSite.Path
