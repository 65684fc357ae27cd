import ReferenceSite.Proofs.FileTree

/-!
# Operations in larger trees

What can be done in a tree can also be done in a tree that has more directories, as long as no file stands on
the way: a path is found or something on its way is missing (`locate_cases`), and missing directories can
be created (`createDirectories_mono`).
-/

namespace ReferenceSite.FileTree

variable {t u t' : FileTree} {p : Path} {loc last : Location} {pieces front : List String}

/-- No file stands on the way of the path. -/
def Clear (t : FileTree) (p : Path) : Prop :=
  ∀ l, OnTheWay t p l → ∀ c, t.node? l ≠ some (.file c)

/-! ## Finding a path -/

/-- Everything before the end of a way that was walked is a directory. -/
theorem directory_of_foldlM (h : pieces.foldlM t.step loc = .ok last) (hfront : front <+: pieces)
    (hproper : front ≠ pieces) : t.node? (front.foldl beyond loc) = some .directory := by
  induction pieces generalizing loc front with
  | nil => exact absurd (List.prefix_nil.1 hfront) hproper
  | cons piece pieces ih =>
    rw [List.foldlM_cons] at h
    cases hstep : t.step loc piece with
    | error e =>
      rw [hstep] at h
      cases h
    | ok next =>
      rw [hstep] at h
      obtain ⟨hdir, rfl⟩ := step_eq_ok hstep
      cases front with
      | nil => exact hdir
      | cons piece' front =>
        obtain ⟨rfl, hrest⟩ := List.cons_prefix_cons.1 hfront
        rw [List.foldl_cons]
        exact ih h hrest fun heq => hproper (congrArg _ heq)

theorem directory_of_locate (h : t.locate p = .ok loc) (hfront : front <+: p.pieces)
    (hproper : front ≠ p.pieces) : t.node? (front.foldl beyond (t.start p)) = some .directory :=
  directory_of_foldlM (locate_eq_foldlM h).2.2 hfront hproper

/-- Everything before a file that is found is a directory. -/
theorem directory_of_stat {c : Content} (h : t.stat p = .ok (.file c)) (hfront : front <+: p.pieces)
    (hproper : front ≠ p.pieces) : t.node? (front.foldl beyond (t.start p)) = some .directory :=
  directory_of_locate (stat_eq_file_iff.1 h).1 hfront hproper

/-- A path that leads to a file leaves only directories that are there. -/
theorem grounded_of_stat {c : Content} (h : t.stat p = .ok (.file c)) : t.Grounded p := by
  intro front back hpieces
  refine directory_of_stat h ⟨".." :: back, hpieces.symm⟩ ?_
  intro hall
  rw [← hall] at hpieces
  exact List.cons_ne_nil ".." back (List.self_eq_append_right.1 hpieces)

/-- A way that can be walked in one tree leads to the same place in another one, or something on it is
    missing there, unless a file stands on it. -/
theorem foldlM_step_cases (h : pieces.foldlM t.step loc = .ok last)
    (hclear : ∀ front, front <+: pieces → ∀ c, u.node? (front.foldl beyond loc) ≠ some (.file c)) :
    pieces.foldlM u.step loc = .ok last ∨ pieces.foldlM u.step loc = .error .notFound := by
  induction pieces generalizing loc with
  | nil => exact Or.inl h
  | cons piece pieces ih =>
    rw [List.foldlM_cons] at h ⊢
    cases hstep : t.step loc piece with
    | error e =>
      rw [hstep] at h
      cases h
    | ok next =>
      rw [hstep] at h
      obtain ⟨-, rfl⟩ := step_eq_ok hstep
      cases hnode : u.node? loc with
      | none =>
        have hmissing : u.step loc piece = .error .notFound := by simp [step, hnode]
        rw [hmissing]
        exact Or.inr rfl
      | some node =>
        cases node with
        | file c => exact absurd hnode (hclear [] List.nil_prefix c)
        | directory =>
          rw [step_mono hnode hstep]
          refine ih h fun front hfront => ?_
          exact hclear (piece :: front) ((List.prefix_cons_inj piece).2 hfront)

theorem locate_cases (hcurrent : u.current = t.current) (h : t.locate p = .ok loc)
    (hclear : u.Clear p) : u.locate p = .ok loc ∨ u.locate p = .error .notFound := by
  obtain ⟨hp, hempty, hwalk⟩ := locate_eq_foldlM h
  have hstart : u.start p = t.start p := by rw [start, start, hcurrent]
  have hwalk' := foldlM_step_cases (u := u) hwalk fun front hfront =>
    hclear _ ⟨front, hfront, by rw [hstart]⟩
  unfold locate
  rw [hp, hempty, hstart]
  exact hwalk'

theorem directory_of_stat_directory (h : t.stat p = .ok .directory) :
    t.node? (t.place p) = some .directory := by
  unfold stat at h
  cases hloc : t.locate p with
  | error e =>
    rw [hloc] at h
    cases h
  | ok loc =>
    obtain rfl := locate_eq_place hloc
    rw [hloc] at h
    dsimp only [bind, Except.bind] at h
    split at h
    · cases h
    · next hdir => exact hdir
    · split_ifs at h
      cases h

/-- A path that leads somewhere in another tree leads to an empty place or nowhere, if nothing is at its place
    and no file on its way. -/
theorem stat_eq_notFound (hcurrent : u.current = t.current) (h : t.locate p = .ok loc)
    (hclear : u.Clear p) (hnone : u.node? loc = none) : u.stat p = .error .notFound := by
  unfold stat
  rcases locate_cases hcurrent h hclear with hloc | hloc
  · rw [hloc]
    dsimp only [bind, Except.bind]
    rw [hnone]
  · rw [hloc]
    rfl

/-! ## Creating directories -/

/-- The tree with a directory at a location where nothing else stands. -/
def withDirectory (t : FileTree) (loc : Location) : FileTree :=
  if t.node? loc = none then t.put loc .directory else t

theorem node?_withDirectory (h : ∀ c, t.node? loc ≠ some (.file c)) (l : Location) :
    (t.withDirectory loc).node? l = if l = loc then some .directory else t.node? l := by
  unfold withDirectory
  cases hnode : t.node? loc with
  | none =>
    have hdir : t.node? loc ≠ some .directory := by simp [hnode]
    rw [if_pos rfl, node?_put t (ne_nil_of_node? hdir)]
  | some node =>
    cases node with
    | file c => exact absurd hnode (h c)
    | directory =>
      rw [if_neg (by simp)]
      split_ifs with hl
      · rw [hl, hnode]
      · rfl

theorem current_withDirectory (t : FileTree) (loc : Location) :
    (t.withDirectory loc).current = t.current := by
  unfold withDirectory
  split_ifs <;> rfl

/-- Each piece adds the directory behind it, if no file is there. -/
theorem createAlong_cons {piece : String} (hstep : t.step loc piece = .ok (beyond loc piece))
    (h : ∀ c, t.node? (beyond loc piece) ≠ some (.file c)) :
    t.createAlong loc (piece :: pieces) =
      (t.withDirectory (beyond loc piece)).createAlong (beyond loc piece) pieces := by
  unfold withDirectory
  rw [createAlong, hstep]
  dsimp only
  cases hnode : t.node? (beyond loc piece) with
  | none => rw [if_pos rfl]
  | some node =>
    cases node with
    | file c => exact absurd hnode (h c)
    | directory => rw [if_neg (by simp)]

theorem createAlong_cons_eq_ok {piece : String}
    (h : t.createAlong loc (piece :: pieces) = (.ok (), t')) :
    t.step loc piece = .ok (beyond loc piece) ∧ ∀ c, t.node? (beyond loc piece) ≠ some (.file c) := by
  rw [createAlong] at h
  cases hstep : t.step loc piece with
  | error e =>
    rw [hstep] at h
    cases h
  | ok next =>
    rw [hstep] at h
    obtain ⟨-, rfl⟩ := step_eq_ok hstep
    refine ⟨rfl, fun c hc => ?_⟩
    dsimp only at h
    rw [hc] at h
    cases h

/-- Directories that can be created in a tree can be created in a larger one, too, and what is new there is a
    directory in both. -/
theorem createAlong_mono (hkeeps : Keeps t u)
    (hclear : ∀ front, front <+: pieces → ∀ c, u.node? (front.foldl beyond loc) ≠ some (.file c))
    (h : t.createAlong loc pieces = (.ok (), t')) :
    ∃ u', u.createAlong loc pieces = (.ok (), u') ∧ Keeps t' u' ∧
      ∀ l, u'.node? l = u.node? l ∨ t'.node? l = some .directory := by
  induction pieces generalizing t u loc with
  | nil =>
    cases h
    exact ⟨u, rfl, hkeeps, fun l => Or.inl rfl⟩
  | cons piece pieces ih =>
    obtain ⟨hstep, hfree⟩ := createAlong_cons_eq_ok h
    rw [createAlong_cons hstep hfree] at h
    have hclear' : ∀ front, front <+: pieces → ∀ c,
        u.node? (front.foldl beyond (beyond loc piece)) ≠ some (.file c) := fun front hfront =>
      hclear (piece :: front) ((List.prefix_cons_inj piece).2 hfront)
    have hfree' : ∀ c, u.node? (beyond loc piece) ≠ some (.file c) := hclear' [] List.nil_prefix
    have hnew := node?_withDirectory hfree
    have hnew' := node?_withDirectory hfree'
    rw [createAlong_cons (step_mono (hkeeps.directory loc (step_eq_ok hstep).1) hstep) hfree']
    have hgrown : Keeps (t.withDirectory (beyond loc piece)) (u.withDirectory (beyond loc piece)) := by
      refine ⟨?_, fun l hl => ?_⟩
      · rw [current_withDirectory, current_withDirectory, hkeeps.current]
      · rw [hnew] at hl
        rw [hnew']
        split_ifs at hl ⊢
        · rfl
        · exact hkeeps.directory l hl
    obtain ⟨u', hu', hkeeps', hnode⟩ := ih hgrown (fun front hfront c => by
      rw [hnew']
      split_ifs
      · simp
      · exact hclear' front hfront c) h
    refine ⟨u', hu', hkeeps', fun l => ?_⟩
    rcases hnode l with hsame | hdir
    · rw [hnew'] at hsame
      split_ifs at hsame with hl
      -- the first of the new directories stays in the smaller tree
      · have hlater := creates_createAlong (t.withDirectory (beyond loc piece)) (beyond loc piece) pieces
        rw [h] at hlater
        refine Or.inr (hlater.keeps.directory l ?_)
        rw [hnew, if_pos hl]
      · exact Or.inl hsame
    · exact Or.inr hdir

/-- The same for the directory of a path that is clear. -/
theorem createDirectories_mono (hkeeps : Keeps t u) (hclear : u.Clear p)
    (h : t.createDirectories p.directory = (.ok (), t')) :
    ∃ u', u.createDirectories p.directory = (.ok (), u') ∧ Keeps t' u' ∧
      ∀ l, u'.node? l = u.node? l ∨ t'.node? l = some .directory := by
  unfold createDirectories at h ⊢
  split at h
  · cases h
  · next hrefusal =>
    rw [hkeeps.start]
    cases hp : p.parent? with
    | none =>
      rw [Path.directory, hp, Option.getD_none, Path.pieces_empty] at h ⊢
      cases h
      exact ⟨u, rfl, hkeeps, fun l => Or.inl rfl⟩
    | some q =>
      obtain ⟨hpieces, habs⟩ := Path.parent?_eq_some hp
      rw [Path.directory, hp, Option.getD_some] at h ⊢
      refine createAlong_mono hkeeps (fun front hfront => hclear _ ⟨front, hfront.trans hpieces, ?_⟩) h
      have hstart : t.start q = t.start p := by rw [start, start, habs]
      rw [hstart, hkeeps.start]

/-! ## Writing files -/

/-- A file can be written where its path leads, if no directory is there. -/
theorem write_of_locate {c : Content} (hloc : t.locate p = .ok loc) (hsep : p.endsWithSeparator = false)
    (hdir : t.node? loc ≠ some .directory) : t.write p c = .ok (t.put loc (.file c)) := by
  unfold write
  rw [hloc]
  dsimp only [bind, Except.bind]
  rw [hsep, if_neg Bool.false_ne_true]
  split
  · next h => exact absurd h hdir
  · rfl

end ReferenceSite.FileTree
