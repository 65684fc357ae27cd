import ReferenceSite.Proofs.Address
import ReferenceSite.Text.Lowercase

/-!
# Files in the way of other files

Addresses that differ have files that differ, but the file of one can still have the path of a directory that
the file of another goes through, since files have an extension and directories have none
(`blocks_file_iff`). That takes a segment which itself looks like the file of a page
(`exists_isFileName_of_blocks`).
-/

namespace ReferenceSite

namespace Text

theorem lowerAfter_append (before cs ds : List Char) :
    ∃ front, lowerAfter before (cs ++ ds) = front ++ lowerAfter (cs.reverse ++ before) ds := by
  induction cs generalizing before with
  | nil => exact ⟨[], rfl⟩
  | cons c cs ih =>
    obtain ⟨front, hfront⟩ := ih (c :: before)
    rw [List.cons_append, lowerAfter, hfront, ← List.append_assoc, List.reverse_cons,
      List.append_assoc cs.reverse, List.singleton_append]
    exact ⟨_, rfl⟩

theorem bounds_lowerRuns :
    ∀ run ∈ CaseTable.lowerRuns, 0x41 ≤ run.1 ∧ run.2.1 ≤ 0x5A ∨ 0xC0 ≤ run.1 := by
  decide +kernel

/-- Before the capital letters of Latin-1, only those of ASCII have another lowercase form. -/
theorem lowerChar_of_not_capital {c : Char} (hascii : c.toNat < 0x41 ∨ 0x5A < c.toNat)
    (hlatin : c.toNat < 0xC0) : lowerChar c = [c] := by
  have hdotted : (c.toNat == 0x130) = false := by
    rw [beq_eq_false_iff_ne]
    omega
  rw [lowerChar, hdotted, if_neg Bool.false_ne_true, List.find?_eq_none.2]
  rintro ⟨lo, hi, step, shift⟩ hrun hfound
  have hbounds := bounds_lowerRuns _ hrun
  simp only [Bool.and_eq_true, decide_eq_true_eq] at hfound hbounds
  omega

theorem lowerAfter_of_forall {cs : List Char}
    (h : ∀ c ∈ cs, (c.toNat == 0x3A3) = false ∧ lowerChar c = [c]) (before : List Char) :
    lowerAfter before cs = cs := by
  induction cs generalizing before with
  | nil => rfl
  | cons c cs ih =>
    obtain ⟨⟨hsigma, hc⟩, hrest⟩ := List.forall_mem_cons.1 h
    rw [lowerAfter, hsigma, if_neg Bool.false_ne_true, hc, ih hrest, List.singleton_append]

/-- The extension of pages stays as it is, whatever stands before it. -/
theorem suffix_lowercase_append (s : String) :
    ['.', 'm', 'd', 'x'] <:+ (lowercase (s ++ "." ++ "mdx")).toList := by
  have hchars : ∀ c ∈ ['.', 'm', 'd', 'x'], (c.toNat == 0x3A3) = false ∧ lowerChar c = [c] := by
    have hcodes : ∀ c ∈ ['.', 'm', 'd', 'x'], (c.toNat == 0x3A3) = false ∧
        (c.toNat < 0x41 ∨ 0x5A < c.toNat) ∧ c.toNat < 0xC0 := by
      simp only [List.forall_mem_cons, List.not_mem_nil, false_imp_iff, implies_true, and_true]
      decide
    intro c hc
    obtain ⟨hsigma, hascii, hlatin⟩ := hcodes c hc
    exact ⟨hsigma, lowerChar_of_not_capital hascii hlatin⟩
  have htext : (s ++ "." ++ "mdx").toList = s.toList ++ ['.', 'm', 'd', 'x'] := by
    simp [String.toList_append]
  obtain ⟨front, hfront⟩ := lowerAfter_append [] s.toList ['.', 'm', 'd', 'x']
  rw [lowerAfter_of_forall hchars] at hfront
  rw [lowercase, String.toList_ofList, htext, lower, hfront]
  exact List.suffix_append _ _

end Text

namespace Path

/-- A path is, but for case, a directory that another path goes through. -/
def Blocks (p q : Path) : Prop :=
  ∃ front, front <+: q.pieces ∧ front ≠ q.pieces ∧
    front.map Text.lowercase = p.pieces.map Text.lowercase

end Path

namespace Address

variable {a b : Address} {extension : String}

/-- Different addresses have different files. -/
theorem file_ne_of_toText_ne (h : a.toText ≠ b.toText) (extension : String) :
    a.file extension ≠ b.file extension := by
  intro hfile
  have htext := congrArg String.toList hfile
  simp only [file, String.toList_append] at htext
  exact h (String.toList_injective (List.append_cancel_right (List.append_cancel_right htext)))

/-- A proper prefix of the pieces of a file is made of segments before the last one. -/
theorem prefix_dropLast_of_prefix_filePieces {front : List String}
    (h : front <+: a.filePieces extension) (hne : front ≠ a.filePieces extension) :
    front <+: a.segments.dropLast := by
  rcases List.prefix_concat_iff.1 h with heq | hprefix
  · exact absurd heq hne
  · exact hprefix

/-- A file is in the way of another one exactly if its pieces are the first segments of the other's address,
    without the last one. -/
theorem blocks_file_iff (ha : a.IsSafe) (hb : b.IsSafe) (hext : '/' ∉ extension.toList) :
    Path.Blocks (a.file extension) (b.file extension) ↔
      (a.filePieces extension).map Text.lowercase <+: b.segments.dropLast.map Text.lowercase := by
  unfold Path.Blocks
  rw [pieces_file ha hext, pieces_file hb hext, List.prefix_map_iff]
  constructor
  · rintro ⟨front, hfront, hne, hsame⟩
    exact ⟨front, prefix_dropLast_of_prefix_filePieces hfront hne, hsame.symm⟩
  · rintro ⟨front, hfront, hsame⟩
    refine ⟨front, hfront.trans (List.prefix_append _ _), ?_, hsame.symm⟩
    rintro rfl
    have hlength := hfront.length_le
    simp only [filePieces, List.length_append, List.length_dropLast, List.length_singleton] at hlength
    omega

/-- The file of the first address stands where the page of the second one needs a directory. -/
def Obstructs (a b : Address) : Prop := a.filePieces "mdx" <+: b.segments.dropLast

/-- A segment that could be the name of the file of a page. -/
def IsFileName (s : String) : Prop := ['.', 'm', 'd', 'x'] <:+ (Text.lowercase s).toList

/-- A file that is in the way of another one has the name of one of its directories. -/
theorem exists_isFileName_of_blocks (ha : a.IsSafe) (hb : b.IsSafe)
    (h : Path.Blocks (a.file "mdx") (b.file "mdx")) : ∃ s ∈ b.segments.dropLast, IsFileName s := by
  rw [blocks_file_iff ha hb (by decide)] at h
  have hmem : Text.lowercase (a.fileName "mdx") ∈ b.segments.dropLast.map Text.lowercase := by
    refine h.subset (List.mem_map_of_mem ?_)
    exact List.mem_append_right _ (List.mem_singleton_self _)
  obtain ⟨s, hs, hname⟩ := List.mem_map.1 hmem
  refine ⟨s, hs, ?_⟩
  rw [IsFileName, hname, fileName]
  exact Text.suffix_lowercase_append _

end Address

end ReferenceSite
