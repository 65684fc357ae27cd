import ReferenceSite.Proofs.Address

/-!
# Addresses stay below the output directory

The checks on segments are enough for the joined text: of what can be wrong with it, only a drive at its
start remains to be found (`joinedFault?_toText`). An address that is given splits back into its segments,
and its file is a relative path of plain names, so wherever the output directory lies, the file lies strictly
below it (`ofSegments_confined`).
-/

namespace ReferenceSite

namespace Path

theorem toList_intercalate_cons_cons (s u : String) (us : List String) :
    (String.intercalate "/" (s :: u :: us)).toList =
      s.toList ++ '/' :: (String.intercalate "/" (u :: us)).toList := by
  rw [String.intercalate_cons_cons, String.append_assoc, String.toList_append, String.toList_append]
  rfl

theorem segments_intercalate {ss : List String} (hne : ss ≠ []) (h : ∀ s ∈ ss, IsName s) :
    segments (String.intercalate "/" ss) = ss :=
  Text.splitAt_intercalate hne fun s hs => (h s hs).no_slash

theorem isAbsolute_intercalate {ss : List String} (h : ∀ s ∈ ss, IsName s) :
    isAbsolute (String.intercalate "/" ss) = false := by
  cases ss with
  | nil => decide
  | cons s ss =>
    have hs := h s List.mem_cons_self
    rw [isAbsolute_intercalate_cons hs.no_slash]
    simp [hs.ne_empty]

/-- Names joined with slashes are the components of a relative path. -/
theorem components_intercalate {ss : List String} (h : ∀ s ∈ ss, IsName s) :
    components (String.intercalate "/" ss) = ss.map .normal := by
  have hpieces : pieces (String.intercalate "/" ss) = ss := by
    rw [pieces_intercalate fun s hs => (h s hs).no_slash, List.filter_eq_self]
    intro s hs
    simpa using (h s hs).ne_empty
  have hnormal : ss.filterMap componentOf? = ss.map .normal := by
    rw [← List.filterMap_eq_map']
    refine List.filterMap_congr fun s hs => ?_
    have hname := h s hs
    simp [componentOf?, hname.ne_current, hname.ne_parent]
  cases ss with
  | nil => exact components_empty
  | cons s ss =>
    have hdot : ¬ (some s = some ".") := fun heq =>
      (h s List.mem_cons_self).ne_current (Option.some.inj heq)
    rw [components_eq, isAbsolute_intercalate h, if_neg Bool.false_ne_true,
      segments_intercalate (List.cons_ne_nil s ss) h, List.head?_cons, if_neg hdot, hpieces, hnormal]

theorem intercalate_ne_empty {ss : List String} (hne : ss ≠ []) (h : ∀ s ∈ ss, IsName s) :
    String.intercalate "/" ss ≠ "" := by
  intro hempty
  have hsegments := segments_intercalate hne h
  rw [hempty] at hsegments
  exact (h "" (by rw [← hsegments]; decide)).ne_empty rfl

/-- A path made of names ends with one. -/
theorem endsWithSeparator_intercalate {ss : List String} (h : ∀ s ∈ ss, IsName s) :
    endsWithSeparator (String.intercalate "/" ss) = false := by
  by_cases hss : ss = []
  · subst hss
    decide
  · by_contra hends
    rw [Bool.not_eq_false] at hends
    obtain ⟨q, hq⟩ := eq_append_slash hends
    have hlast : (q ++ "/" ++ "" : Path).segments = q.segments ++ segments "" :=
      Text.splitAt_append_sep '/' q ""
    rw [String.append_empty, ← hq, segments_intercalate hss h] at hlast
    have hempty : "" ∈ ss := by
      rw [hlast]
      exact List.mem_append_right _ (by decide)
    exact (h "" hempty).ne_empty rfl

/-- Names read one from inside the other are the names joined with slashes. -/
theorem foldl_join_names {ss : List String} (h : ∀ s ∈ ss, IsName s) :
    ss.foldl join "" = String.intercalate "/" ss := by
  induction ss using List.reverseRecOn with
  | nil => rfl
  | append_singleton ss s ih =>
    have hfront : ∀ u ∈ ss, IsName u := fun u hu => h u (List.mem_append_left _ hu)
    have hrelative : isAbsolute s = false := by
      have hs := isAbsolute_intercalate fun u hu => h u (List.mem_append_right ss hu)
      rwa [String.intercalate_singleton] at hs
    rw [List.foldl_append, ih hfront, List.foldl_cons, List.foldl_nil]
    by_cases hss : ss = []
    · subst hss
      simp [join]
    · have hempty : (String.intercalate "/" ss).isEmpty = false := by
        simpa using intercalate_ne_empty hss hfront
      rw [join, hrelative, hempty, Bool.false_or, if_neg Bool.false_ne_true,
        endsWithSeparator_intercalate hfront, if_neg Bool.false_ne_true,
        String.intercalate_append_of_ne_nil hss (List.cons_ne_nil _ _), String.intercalate_singleton]

end Path

namespace Address

/-! ## Checks -/

/-- What the checks leave of a segment: some characters, no separator among them and no two dots in a
    row. -/
structure IsClean (s : String) : Prop where
  ne_empty : s ≠ ""
  separator : ∀ c ∈ s.toList, Text.isSeparator c = false
  dots : Text.occursIn ['.', '.'] s.toList = false

theorem isClean_of_segmentFault?_eq_none {s : String} (h : segmentFault? s = none) : IsClean s := by
  unfold segmentFault? at h
  obtain ⟨hempty, h⟩ := check_eq_none h
  obtain ⟨-, h⟩ := check_eq_none h
  obtain ⟨hdots, h⟩ := check_eq_none h
  obtain ⟨-, h⟩ := check_eq_none h
  obtain ⟨-, h⟩ := check_eq_none h
  obtain ⟨-, h⟩ := check_eq_none h
  obtain ⟨hseparator, -⟩ := check_eq_none h
  refine ⟨?_, ?_, by simpa using hdots⟩
  · rintro rfl
    exact hempty rfl
  · intro c hc
    by_contra hsep
    exact hseparator (List.any_eq_true.2 ⟨c, hc, by simpa using hsep⟩)

/-- A text starts with a letter and a colon, as a drive does. -/
def StartsWithDrive (s : String) : Prop :=
  ∃ letter rest, s.toList = letter :: ':' :: rest ∧ Text.isAsciiLetter letter = true

theorem drive_check_iff (s : String) :
    ((s.toList.head?.map Text.isAsciiLetter).getD false && s.toList[1]? == some ':') = true ↔
      StartsWithDrive s := by
  unfold StartsWithDrive
  rcases s.toList with _ | ⟨c, _ | ⟨d, cs⟩⟩
  · simp
  · simp
  · constructor
    · intro h
      simp only [List.head?_cons, Option.map_some, Option.getD_some, List.getElem?_cons_succ,
        List.getElem?_cons_zero, Bool.and_eq_true, beq_iff_eq, Option.some.injEq] at h
      exact ⟨c, cs, by rw [h.2], h.1⟩
    · rintro ⟨letter, rest, heq, hletter⟩
      rw [heq]
      simp [hletter]

/-- The joined text starts like its first segment. -/
theorem head?_toText {a : Address} (hne : a.segments ≠ []) (h : ∀ s ∈ a.segments, IsClean s) :
    ∃ c, a.toText.toList.head? = some c ∧ Text.isSeparator c = false := by
  obtain ⟨s, ss, hss⟩ := List.exists_cons_of_ne_nil hne
  have hs := h s (by rw [hss]; exact List.mem_cons_self)
  have htext : s.toList ≠ [] := by
    rw [ne_eq, String.toList_eq_nil_iff]
    exact hs.ne_empty
  obtain ⟨c, cs, hc⟩ := List.exists_cons_of_ne_nil htext
  refine ⟨c, ?_, hs.separator c (by rw [hc]; exact List.mem_cons_self)⟩
  rw [toText, hss]
  cases ss with
  | nil => rw [String.intercalate_singleton, hc, List.head?_cons]
  | cons u us =>
    rw [Path.toList_intercalate_cons_cons, hc, List.cons_append, List.head?_cons]

/-- Of what can be wrong with joined segments, only a drive is not excluded by the checks on segments. -/
theorem joinedFault?_toText {a : Address} (hne : a.segments ≠ [])
    (h : ∀ s ∈ a.segments, segmentFault? s = none) :
    (StartsWithDrive a.toText ∧ joinedFault? a.toText = some .drive) ∨
      (¬ StartsWithDrive a.toText ∧ joinedFault? a.toText = none) := by
  have hclean := fun s hs => isClean_of_segmentFault?_eq_none (h s hs)
  have hname := fun s hs => isName_of_segmentFault?_eq_none (h s hs)
  have hcomponents : Path.components a.toText = a.segments.map .normal :=
    Path.components_intercalate hname
  obtain ⟨c, hhead, hsep⟩ := head?_toText hne hclean
  unfold joinedFault?
  dsimp only
  by_cases hdrive : StartsWithDrive a.toText
  · exact Or.inl ⟨hdrive, by rw [if_pos ((drive_check_iff _).2 hdrive)]⟩
  · refine Or.inr ⟨hdrive, ?_⟩
    rw [if_neg (fun hcheck => hdrive ((drive_check_iff _).1 hcheck)), hhead, hcomponents]
    simp [hsep]

/-- The addresses that are given, and why all others are refused. -/
theorem ofSegments_cases (segments : List String) :
    (segments = [] ∧ ofSegments segments = .error .empty) ∨
    (segments ≠ [] ∧ ∃ s fault, s ∈ segments ∧ segmentFault? s = some fault ∧
      ofSegments segments = .error (.invalidSegment s fault)) ∨
    (segments ≠ [] ∧ (∀ s ∈ segments, segmentFault? s = none) ∧
      ((StartsWithDrive (String.intercalate "/" segments) ∧ ofSegments segments =
          .error (.invalidPath (String.intercalate "/" segments) .drive)) ∨
        (¬ StartsWithDrive (String.intercalate "/" segments) ∧
          ofSegments segments = .ok ⟨segments⟩))) := by
  by_cases hne : segments = []
  · subst hne
    exact Or.inl ⟨rfl, rfl⟩
  · refine Or.inr ?_
    have hempty : segments.isEmpty = false := by simpa using hne
    unfold ofSegments
    rw [hempty, if_neg Bool.false_ne_true]
    cases hfault : segments.findSome? fun s => (segmentFault? s).map (s, ·) with
    | some found =>
      obtain ⟨s, fault⟩ := found
      obtain ⟨u, hu, hmap⟩ := List.exists_of_findSome?_eq_some hfault
      obtain ⟨fault', hs, heq⟩ := Option.map_eq_some_iff.1 hmap
      obtain ⟨rfl, rfl⟩ := Prod.mk.inj heq
      exact Or.inl ⟨hne, u, fault', hu, hs, rfl⟩
    | none =>
      rw [List.findSome?_eq_none_iff] at hfault
      have hsegments : ∀ s ∈ segments, segmentFault? s = none := fun s hs => by
        simpa using hfault s hs
      refine Or.inr ⟨hne, hsegments, ?_⟩
      dsimp only
      rcases joinedFault?_toText (a := ⟨segments⟩) hne hsegments with ⟨hdrive, hjoined⟩ | ⟨hdrive, hjoined⟩
      · rw [hjoined]
        exact Or.inl ⟨hdrive, rfl⟩
      · rw [hjoined]
        exact Or.inr ⟨hdrive, rfl⟩

theorem ofSegments_eq_ok_iff {segments : List String} {a : Address} :
    ofSegments segments = .ok a ↔ a = ⟨segments⟩ ∧ segments ≠ [] ∧
      (∀ s ∈ segments, segmentFault? s = none) ∧
      ¬ StartsWithDrive (String.intercalate "/" segments) := by
  have hcases := ofSegments_cases segments
  constructor
  · intro ha
    rw [ha] at hcases
    rcases hcases with ⟨-, h⟩ | ⟨-, s, fault, -, -, h⟩ | ⟨hne, hsegments, ⟨-, h⟩ | ⟨hdrive, h⟩⟩
    · cases h
    · cases h
    · cases h
    · exact ⟨Except.ok.inj h, hne, hsegments, hdrive⟩
  · rintro ⟨rfl, hne, hsegments, hdrive⟩
    rcases hcases with ⟨hnil, -⟩ | ⟨-, s, fault, hs, hfault, -⟩ | ⟨-, -, ⟨h, -⟩ | ⟨-, h⟩⟩
    · exact absurd hnil hne
    · rw [hsegments s hs] at hfault
      cases hfault
    · exact absurd h hdrive
    · exact h

/-- The segments of an address that was given are clean. -/
theorem isClean_of_ofSegments {segments : List String} {a : Address} (h : ofSegments segments = .ok a) :
    a.segments ≠ [] ∧ ∀ s ∈ a.segments, IsClean s := by
  obtain ⟨rfl, hne, hsegments, -⟩ := ofSegments_eq_ok_iff.1 h
  exact ⟨hne, fun s hs => isClean_of_segmentFault?_eq_none (hsegments s hs)⟩

/-! ## Files -/

/-- The address splits back into its segments, and its file is a relative path of plain names: read from
    inside any directory, it leads from there to a place strictly below. -/
structure Confined (a : Address) (extension : String) : Prop where
  split : Text.splitAt '/' a.toText = a.segments
  ne_nil : a.filePieces extension ≠ []
  name : ∀ s ∈ a.filePieces extension, Path.IsName s
  joined : (a.filePieces extension).foldl Path.join "" = a.file extension
  relative : (a.file extension).isAbsolute = false
  components : (a.file extension).components = (a.filePieces extension).map .normal
  beneath : ∀ directory : Path, (Path.join directory (a.file extension)).components =
    directory.components ++ (a.filePieces extension).map .normal
  place : ∀ (t : FileTree) (directory : Path), t.place (Path.join directory (a.file extension)) =
    t.place directory ++ a.filePieces extension

theorem IsSafe.confined {a : Address} (h : a.IsSafe) {extension : String}
    (hext : '/' ∉ extension.toList) : a.Confined extension := by
  have hne : a.filePieces extension ≠ [] := by simp [filePieces]
  have hname := isName_filePieces h hext
  have hrelative := isAbsolute_file h hext
  have hfile := file_eq_intercalate h extension
  have hcomponents : (a.file extension).components = (a.filePieces extension).map .normal := by
    rw [hfile]
    exact Path.components_intercalate hname
  have hdot : (a.file extension).segments.head? ≠ some "." := by
    have hsegments : (a.file extension).segments = a.filePieces extension := by
      rw [hfile]
      exact Path.segments_intercalate hne hname
    rw [hsegments]
    intro hhead
    exact (hname "." (List.mem_of_head? hhead)).ne_current rfl
  refine ⟨?_, hne, hname, ?_, hrelative, hcomponents, ?_, ?_⟩
  · exact Path.segments_intercalate h.ne_nil h.name
  · rw [hfile]
    exact Path.foldl_join_names hname
  · intro directory
    rw [Path.components_join hrelative hdot, hcomponents]
  · intro t directory
    exact FileTree.place_join_file t directory h hext

/-- Segments make an address exactly if there are some, each passes its checks and the joined text does not
    start with a drive. The address then has these segments and is confined to the directory in which it is
    used. Of the faults of joined texts, the drive is the only one that is ever found. -/
theorem ofSegments_confined (segments : List String) :
    ((∃ a, ofSegments segments = .ok a) ↔ segments ≠ [] ∧ (∀ s ∈ segments, segmentFault? s = none) ∧
      ¬ StartsWithDrive (String.intercalate "/" segments)) ∧
    (∀ a, ofSegments segments = .ok a → a.segments = segments ∧ a.Confined "mdx") ∧
    ∀ path fault, ofSegments segments = .error (.invalidPath path fault) →
      path = String.intercalate "/" segments ∧ fault = .drive := by
  refine ⟨⟨?_, ?_⟩, ?_, ?_⟩
  · rintro ⟨a, ha⟩
    exact (ofSegments_eq_ok_iff.1 ha).2
  · intro h
    exact ⟨⟨segments⟩, ofSegments_eq_ok_iff.2 ⟨rfl, h⟩⟩
  · intro a ha
    obtain ⟨hsegments, hsafe⟩ := ofSegments_eq_ok ha
    exact ⟨hsegments, hsafe.confined (by decide)⟩
  · intro path fault herror
    have hcases := ofSegments_cases segments
    rw [herror] at hcases
    rcases hcases with ⟨-, h⟩ | ⟨-, s, fault', -, -, h⟩ | ⟨-, -, ⟨-, h⟩ | ⟨-, h⟩⟩
    · cases h
    · cases h
    · cases h
      exact ⟨rfl, rfl⟩
    · cases h

end Address

end ReferenceSite
