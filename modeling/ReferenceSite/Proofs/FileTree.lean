import ReferenceSite.FileTree
import ReferenceSite.Proofs.Path

/-!
# What file operations change

A path names one place of a tree, which depends on the working directory only (`FileTree.place`). Creating
directories fills empty places on the way of a path (`created_createDirectories`), and writing a file
changes what stands at the place of its path (`write_eq_ok`). Directories never disappear, so a path that
leads to its place still does so later (`locate_mono`).
-/

namespace ReferenceSite.FileTree

/-! ## Places -/

/-- The location behind one piece of a path, if everything on the way is a directory. -/
def beyond (loc : Location) (piece : String) : Location :=
  if piece = "." then loc else if piece = ".." then loc.dropLast else loc ++ [piece]

/-- The location that a path names, if everything on the way is a directory. -/
def place (t : FileTree) (p : Path) : Location := p.pieces.foldl beyond (t.start p)

/-- The location is passed on the way of a path. -/
def OnTheWay (t : FileTree) (p : Path) (loc : Location) : Prop :=
  ∃ pieces, pieces <+: p.pieces ∧ loc = pieces.foldl beyond (t.start p)

theorem step_eq_ok {t : FileTree} {loc next : Location} {piece : String}
    (h : t.step loc piece = .ok next) :
    t.node? loc = some .directory ∧ next = beyond loc piece := by
  unfold step at h
  unfold beyond
  split at h
  · cases h
  · cases h
  · next hdir =>
    simp only [beq_iff_eq] at h
    split_ifs at h ⊢ <;> cases h <;> exact ⟨hdir, rfl⟩

/-- A step can also be taken in any tree that has a directory there. -/
theorem step_mono {t u : FileTree} {loc next : Location} {piece : String}
    (hdir : u.node? loc = some .directory) (h : t.step loc piece = .ok next) :
    u.step loc piece = .ok next := by
  have hdir' := (step_eq_ok h).1
  unfold step at h ⊢
  rw [hdir'] at h
  rw [hdir]
  exact h

theorem foldlM_step_eq_ok {t : FileTree} {pieces : List String} {loc last : Location}
    (h : pieces.foldlM t.step loc = .ok last) : last = pieces.foldl beyond loc := by
  induction pieces generalizing loc with
  | nil => cases h; rfl
  | cons piece pieces ih =>
    rw [List.foldlM_cons] at h
    cases hstep : t.step loc piece with
    | error e => rw [hstep] at h; cases h
    | ok next =>
      rw [hstep] at h
      rw [List.foldl_cons, ← (step_eq_ok hstep).2]
      exact ih h

theorem locate_eq_foldlM {t : FileTree} {p : Path} {loc : Location} (h : t.locate p = .ok loc) :
    refusal? p = none ∧ p.isEmpty = false ∧ p.pieces.foldlM t.step (t.start p) = .ok loc := by
  unfold locate at h
  split at h
  · cases h
  · next hp =>
    split_ifs at h with he
    · exact ⟨hp, by simpa using he, h⟩

theorem locate_of_foldlM {t : FileTree} {p : Path} {loc : Location} (hp : refusal? p = none)
    (he : p.isEmpty = false) (h : p.pieces.foldlM t.step (t.start p) = .ok loc) :
    t.locate p = .ok loc := by
  simp [locate, hp, he, h]

/-- A path leads nowhere but to its place. -/
theorem locate_eq_place {t : FileTree} {p : Path} {loc : Location} (h : t.locate p = .ok loc) :
    loc = t.place p :=
  foldlM_step_eq_ok (locate_eq_foldlM h).2.2

theorem stat_eq_file_iff {t : FileTree} {p : Path} {c : Content} :
    t.stat p = .ok (.file c) ↔ t.locate p = .ok (t.place p) ∧ p.endsWithSeparator = false ∧
      t.node? (t.place p) = some (.file c) := by
  unfold stat
  constructor
  · intro h
    cases hloc : t.locate p with
    | error e => rw [hloc] at h; cases h
    | ok loc =>
      obtain rfl := locate_eq_place hloc
      rw [hloc] at h
      dsimp only [bind, Except.bind] at h
      split at h
      · cases h
      · cases h
      · next c' hc =>
        split_ifs at h with hs
        · cases h
          exact ⟨rfl, by simpa using hs, hc⟩
  · rintro ⟨hloc, hs, hc⟩
    rw [hloc]
    simp [bind, Except.bind, hc, hs]

theorem file?_eq_some_iff {t : FileTree} {loc : Location} {c : Content} :
    t.file? loc = some c ↔ t.node? loc = some (.file c) := by
  unfold file?
  split
  · next hnode => simp [hnode]
  · next hnone => exact ⟨nofun, fun hnode => (hnone c hnode).elim⟩

/-! ## Directories stay -/

/-- The working directory is the same, and every directory is still one. -/
structure Keeps (t u : FileTree) : Prop where
  current : u.current = t.current
  directory : ∀ loc, t.node? loc = some .directory → u.node? loc = some .directory

theorem Keeps.refl (t : FileTree) : Keeps t t := ⟨rfl, fun _ h => h⟩

theorem Keeps.trans {t u v : FileTree} (h : Keeps t u) (h' : Keeps u v) : Keeps t v :=
  ⟨h'.current.trans h.current, fun loc hl => h'.directory loc (h.directory loc hl)⟩

theorem Keeps.start {t u : FileTree} (h : Keeps t u) (p : Path) : u.start p = t.start p := by
  rw [FileTree.start, FileTree.start, h.current]

theorem Keeps.place {t u : FileTree} (h : Keeps t u) (p : Path) : u.place p = t.place p := by
  rw [FileTree.place, FileTree.place, h.start]

theorem Keeps.onTheWay {t u : FileTree} (h : Keeps t u) {p : Path} {loc : Location}
    (hl : OnTheWay u p loc) : OnTheWay t p loc := by
  obtain ⟨pieces, hpieces, rfl⟩ := hl
  exact ⟨pieces, hpieces, by rw [h.start]⟩

theorem foldlM_step_mono {t u : FileTree} (h : Keeps t u) {pieces : List String}
    {loc last : Location} (hl : pieces.foldlM t.step loc = .ok last) :
    pieces.foldlM u.step loc = .ok last := by
  induction pieces generalizing loc with
  | nil => exact hl
  | cons piece pieces ih =>
    rw [List.foldlM_cons] at hl ⊢
    cases hstep : t.step loc piece with
    | error e => rw [hstep] at hl; cases hl
    | ok next =>
      rw [hstep] at hl
      rw [step_mono (h.directory loc (step_eq_ok hstep).1) hstep]
      exact ih hl

theorem locate_mono {t u : FileTree} (h : Keeps t u) {p : Path} {loc : Location}
    (hl : t.locate p = .ok loc) : u.locate p = .ok loc := by
  obtain ⟨hp, he, hfold⟩ := locate_eq_foldlM hl
  exact locate_of_foldlM hp he (by rw [h.start]; exact foldlM_step_mono h hfold)

/-- A file whose place does not change, unless nothing stood there, is still found. -/
theorem stat_mono {t u : FileTree} (h : Keeps t u) {p : Path} {c : Content}
    (hp : t.stat p = .ok (.file c))
    (hsame : u.node? (t.place p) = t.node? (t.place p) ∨ t.node? (t.place p) = none) :
    u.stat p = .ok (.file c) := by
  obtain ⟨hloc, hs, hc⟩ := stat_eq_file_iff.1 hp
  rw [stat_eq_file_iff, h.place]
  refine ⟨locate_mono h hloc, hs, ?_⟩
  rcases hsame with hsame | hnone
  · exact hsame.trans hc
  · rw [hc] at hnone
    cases hnone

/-! ## Putting a node -/

theorem node?_nil (t : FileTree) : t.node? [] = some .directory := rfl

theorem find?_putNode (loc l : Location) (n : Node) (nodes : List (Location × Node)) :
    ((putNode loc n nodes).find? (·.1 == l)).map (·.2) =
      if l = loc then some n else (nodes.find? (·.1 == l)).map (·.2) := by
  induction nodes with
  | nil =>
    by_cases h : l = loc
    · simp [putNode, h]
    · simp [putNode, h, Ne.symm h]
  | cons m nodes ih =>
    obtain ⟨k, n'⟩ := m
    by_cases hk : k = loc
    · subst hk
      by_cases h : l = k
      · simp [putNode, h]
      · simp [putNode, h, Ne.symm h]
    · have hput : putNode loc n ((k, n') :: nodes) = (k, n') :: putNode loc n nodes := by
        simp [putNode, hk]
      rw [hput, List.find?_cons, List.find?_cons]
      by_cases h : k = l
      · subst h
        simp [hk]
      · have hkl : (k == l) = false := beq_eq_false_iff_ne.2 h
        simp only [hkl]
        exact ih

theorem node?_put (t : FileTree) {loc : Location} (hne : loc ≠ []) (n : Node) (l : Location) :
    (t.put loc n).node? l = if l = loc then some n else t.node? l := by
  unfold node? put
  cases l with
  | nil => simp [Ne.symm hne]
  | cons s l => exact find?_putNode loc (s :: l) n t.nodes

theorem ne_nil_of_node? {t : FileTree} {loc : Location} (h : t.node? loc ≠ some .directory) :
    loc ≠ [] := by
  rintro rfl
  exact h (node?_nil t)

/-- Nothing that is no directory is needed to get anywhere. -/
theorem keeps_put {t : FileTree} {loc : Location} (h : t.node? loc ≠ some .directory) (n : Node) :
    Keeps t (t.put loc n) := by
  refine ⟨rfl, fun l hl => ?_⟩
  rw [node?_put t (ne_nil_of_node? h), if_neg]
  · exact hl
  · rintro rfl
    exact h hl

/-! ## Creating directories -/

/-- Directories may be created in empty places that fulfil a condition; nothing else happens. -/
structure Creates (P : Location → Prop) (t u : FileTree) : Prop where
  current : u.current = t.current
  node : ∀ loc, u.node? loc = t.node? loc ∨
    t.node? loc = none ∧ u.node? loc = some .directory ∧ P loc

theorem Creates.refl (P : Location → Prop) (t : FileTree) : Creates P t t :=
  ⟨rfl, fun _ => Or.inl rfl⟩

theorem Creates.trans {P : Location → Prop} {t u v : FileTree} (h : Creates P t u)
    (h' : Creates P u v) : Creates P t v := by
  refine ⟨h'.current.trans h.current, fun loc => ?_⟩
  rcases h.node loc with ht | ⟨ht, hu, hP⟩
  · rw [← ht]
    exact h'.node loc
  · rcases h'.node loc with hv | ⟨hv, -, -⟩
    · exact Or.inr ⟨ht, hv.trans hu, hP⟩
    · rw [hu] at hv
      cases hv

theorem Creates.mono {P Q : Location → Prop} {t u : FileTree} (h : Creates P t u)
    (hPQ : ∀ loc, P loc → Q loc) : Creates Q t u :=
  ⟨h.current, fun loc => (h.node loc).imp_right fun ⟨ht, hu, hP⟩ => ⟨ht, hu, hPQ loc hP⟩⟩

theorem Creates.keeps {P : Location → Prop} {t u : FileTree} (h : Creates P t u) : Keeps t u := by
  refine ⟨h.current, fun loc hl => ?_⟩
  rcases h.node loc with hu | ⟨hnone, -, -⟩
  · rw [hu, hl]
  · rw [hnone] at hl
    cases hl

/-- Files are found as before. -/
theorem Creates.stat {P : Location → Prop} {t u : FileTree} (h : Creates P t u) {p : Path} {c : Content}
    (hp : t.stat p = .ok (.file c)) : u.stat p = .ok (.file c) :=
  stat_mono h.keeps hp ((h.node _).imp_right And.left)

/-- Every location holds the file that it held before, or none as before. -/
theorem Creates.file? {P : Location → Prop} {t u : FileTree} (h : Creates P t u) (loc : Location) :
    u.file? loc = t.file? loc := by
  unfold FileTree.file?
  rcases h.node loc with hu | ⟨ht, hu, -⟩
  · rw [hu]
  · rw [ht, hu]

theorem creates_createAlong (t : FileTree) (loc : Location) (pieces : List String) :
    Creates (fun l => ∃ front, front <+: pieces ∧ l = front.foldl beyond loc) t
      (t.createAlong loc pieces).2 := by
  induction pieces generalizing t loc with
  | nil => exact Creates.refl _ t
  | cons piece pieces ih =>
    unfold createAlong
    cases hstep : t.step loc piece with
    | error e => exact Creates.refl _ t
    | ok next =>
      obtain ⟨-, rfl⟩ := step_eq_ok hstep
      have hrest : ∀ u, Creates (fun l => ∃ front, front <+: piece :: pieces ∧
          l = front.foldl beyond loc) u (u.createAlong (beyond loc piece) pieces).2 := by
        intro u
        refine (ih u (beyond loc piece)).mono ?_
        rintro l ⟨front, hfront, rfl⟩
        exact ⟨piece :: front, (List.prefix_cons_inj piece).2 hfront, rfl⟩
      dsimp only
      split
      · exact hrest t
      · exact Creates.refl _ t
      -- only a missing directory is put into the files; something else ends the walk
      · next hnone =>
        have hdir : t.node? (beyond loc piece) ≠ some .directory := by simp [hnone]
        have hput := node?_put t (ne_nil_of_node? hdir) .directory
        refine Creates.trans (u := t.put (beyond loc piece) .directory) ⟨rfl, fun l => ?_⟩ (hrest _)
        rw [hput]
        split_ifs with hl
        · subst hl
          exact Or.inr ⟨hnone, rfl, [piece], List.prefix_cons_inj piece |>.2 List.nil_prefix, rfl⟩
        · exact Or.inl rfl

/-- Creating directories creates nothing but directories. -/
theorem creates_createDirectories_any (t : FileTree) (p : Path) :
    Creates (fun _ => True) t (t.createDirectories p).2 := by
  unfold createDirectories
  split
  · exact Creates.refl _ t
  · exact (creates_createAlong t _ _).mono fun _ _ => trivial

/-- The directories that are created for the directory of a path are on the way of the path. -/
theorem creates_createDirectories (t : FileTree) (p : Path) :
    Creates (t.OnTheWay p) t (t.createDirectories p.directory).2 := by
  unfold createDirectories
  split
  · exact Creates.refl _ t
  · cases hp : p.parent? with
    | none =>
      rw [Path.directory, hp, Option.getD_none, Path.pieces_empty]
      exact Creates.refl _ t
    | some q =>
      obtain ⟨hpieces, habs⟩ := Path.parent?_eq_some hp
      rw [Path.directory, hp, Option.getD_some]
      refine (creates_createAlong t _ _).mono ?_
      rintro l ⟨front, hfront, rfl⟩
      exact ⟨front, hfront.trans hpieces, by rw [start, start, habs]⟩

/-! ## Writing files -/

theorem write_eq_ok {t u : FileTree} {p : Path} {c : Content} (h : t.write p c = .ok u) :
    t.locate p = .ok (t.place p) ∧ p.endsWithSeparator = false ∧
      t.node? (t.place p) ≠ some .directory ∧ u = t.put (t.place p) (.file c) := by
  unfold write at h
  cases hloc : t.locate p with
  | error e => rw [hloc] at h; cases h
  | ok loc =>
    obtain rfl := locate_eq_place hloc
    rw [hloc] at h
    dsimp only [bind, Except.bind] at h
    split_ifs at h with hs
    split at h
    · cases h
    · next hdir =>
      cases h
      exact ⟨rfl, by simpa using hs, hdir, rfl⟩

/-- `u` is `t` with a file of some content at a path: the file can be read there, and every other
    place is as before, except that directories on the way of the path may be new. -/
structure Places (t u : FileTree) (p : Path) (c : Content) : Prop where
  keeps : Keeps t u
  stat : u.stat p = .ok (.file c)
  node : ∀ loc, loc ≠ t.place p → u.node? loc = t.node? loc ∨
    t.node? loc = none ∧ u.node? loc = some .directory ∧ t.OnTheWay p loc

/-- A file elsewhere is found as before. -/
theorem Places.stat_other {t u : FileTree} {p q : Path} {c d : Content} (h : Places t u p c)
    (hq : t.stat q = .ok (.file d)) (hne : t.place q ≠ t.place p) : u.stat q = .ok (.file d) :=
  stat_mono h.keeps hq ((h.node _ hne).imp_right And.left)

theorem places_self {t : FileTree} {p : Path} {c : Content} (h : t.stat p = .ok (.file c)) :
    Places t t p c :=
  ⟨Keeps.refl t, h, fun _ _ => Or.inl rfl⟩

theorem places_write {t u : FileTree} {p : Path} {c : Content} (h : t.write p c = .ok u) :
    Places t u p c := by
  obtain ⟨hloc, hs, hdir, rfl⟩ := write_eq_ok h
  have hkeeps := keeps_put hdir (.file c)
  have hput := node?_put t (ne_nil_of_node? hdir) (.file c)
  refine ⟨hkeeps, ?_, fun loc hne => Or.inl ?_⟩
  · rw [stat_eq_file_iff, hkeeps.place]
    exact ⟨locate_mono hkeeps hloc, hs, by rw [hput, if_pos rfl]⟩
  · rw [hput, if_neg hne]

/-- Creating directories on the way of a path and then writing the file. -/
theorem Places.of_creates {t u v : FileTree} {p : Path} {c : Content}
    (h : Creates (t.OnTheWay p) t u) (h' : Places u v p c) : Places t v p c := by
  refine ⟨h.keeps.trans h'.keeps, h'.stat, fun loc hne => ?_⟩
  rw [← h.keeps.place] at hne
  rcases h.node loc with ht | ⟨ht, hu, hway⟩
  · rw [← ht]
    exact (h'.node loc hne).imp_right fun ⟨hnone, hdir, hway⟩ => ⟨hnone, hdir, h.keeps.onTheWay hway⟩
  · exact Or.inr ⟨ht, h'.keeps.directory loc hu, hway⟩

/-! ## Earlier trees

A path that leads somewhere may not have done so before, if it leaves a directory by `..` that was created
in between. Other paths to what was there already can be followed in the earlier tree, too. -/

/-- Everything in the tree is in a directory. -/
def Rooted (t : FileTree) : Prop :=
  ∀ loc name, t.node? (loc ++ [name]) ≠ none → t.node? loc = some .directory

/-- Every directory that the path leaves by `..` is in the tree. -/
def Grounded (t : FileTree) (p : Path) : Prop :=
  ∀ front back, p.pieces = front ++ ".." :: back →
    t.node? (front.foldl beyond (t.start p)) = some .directory

theorem rooted_of_nodes {t : FileTree} (h : ∀ n ∈ t.nodes, t.node? n.1.dropLast = some .directory) :
    t.Rooted := by
  intro loc name hloc
  have hfind : (t.nodes.find? (·.1 == loc ++ [name])).isSome := by
    unfold node? at hloc
    rw [if_neg (by simp)] at hloc
    cases hn : t.nodes.find? (·.1 == loc ++ [name]) with
    | none => rw [hn] at hloc; exact absurd rfl hloc
    | some n => rfl
  obtain ⟨n, hn⟩ := Option.isSome_iff_exists.1 hfind
  have hname : n.1 = loc ++ [name] := by simpa using List.find?_some hn
  have hdir := h n (List.mem_of_find?_eq_some hn)
  rwa [hname, List.dropLast_concat] at hdir

/-- What leads to something is there. -/
theorem Rooted.node?_ne_none {t : FileTree} (h : t.Rooted) {pieces : List String} {loc : Location}
    (hlast : t.node? (pieces.foldl beyond loc) ≠ none)
    (hback : ∀ front back, pieces = front ++ ".." :: back →
      t.node? (front.foldl beyond loc) = some .directory) : t.node? loc ≠ none := by
  induction pieces generalizing loc with
  | nil => exact hlast
  | cons piece pieces ih =>
    have hnext : t.node? (beyond loc piece) ≠ none := by
      refine ih hlast fun front back heq => ?_
      exact hback (piece :: front) back (by rw [heq, List.cons_append])
    unfold beyond at hnext
    split_ifs at hnext with hdot hdots
    · exact hnext
    · subst hdots
      have hdir := hback [] pieces rfl
      rw [List.foldl_nil] at hdir
      simp [hdir]
    · simp [h loc piece hnext]

theorem Rooted.foldlM_step {t u : FileTree} (h : t.Rooted)
    (hdir : ∀ loc, u.node? loc = some .directory → t.node? loc ≠ none →
      t.node? loc = some .directory)
    {pieces : List String} {loc last : Location} (hu : pieces.foldlM u.step loc = .ok last)
    (hlast : t.node? last ≠ none)
    (hback : ∀ front back, pieces = front ++ ".." :: back →
      t.node? (front.foldl beyond loc) = some .directory) :
    pieces.foldlM t.step loc = .ok last := by
  have hloc : t.node? loc ≠ none := by
    refine h.node?_ne_none ?_ hback
    rw [← foldlM_step_eq_ok hu]
    exact hlast
  induction pieces generalizing loc with
  | nil => exact hu
  | cons piece pieces ih =>
    rw [List.foldlM_cons] at hu ⊢
    cases hstep : u.step loc piece with
    | error e => rw [hstep] at hu; cases hu
    | ok next =>
      rw [hstep] at hu
      obtain ⟨hthere, rfl⟩ := step_eq_ok hstep
      rw [step_mono (hdir loc hthere hloc) hstep]
      have hback' : ∀ front back, pieces = front ++ ".." :: back →
          t.node? (front.foldl beyond (beyond loc piece)) = some .directory := by
        intro front back heq
        exact hback (piece :: front) back (by rw [heq, List.cons_append])
      -- the next place exists, since the walk still gets to a place that exists
      refine ih hu hback' (h.node?_ne_none ?_ hback')
      rw [← foldlM_step_eq_ok hu]
      exact hlast

/-- A file that was there already could be found before. -/
theorem Rooted.stat {t u : FileTree} (h : t.Rooted) (hkeeps : Keeps t u)
    (hdir : ∀ loc, u.node? loc = some .directory → t.node? loc ≠ none →
      t.node? loc = some .directory)
    {p : Path} {c : Content} (hground : t.Grounded p) (hu : u.stat p = .ok (.file c))
    (hsame : t.node? (t.place p) = some (.file c)) : t.stat p = .ok (.file c) := by
  obtain ⟨hloc, hs, -⟩ := stat_eq_file_iff.1 hu
  obtain ⟨hp, he, hfold⟩ := locate_eq_foldlM hloc
  rw [hkeeps.start, hkeeps.place] at hfold
  rw [stat_eq_file_iff]
  refine ⟨locate_of_foldlM hp he (h.foldlM_step hdir hfold ?_ hground), hs, hsame⟩
  simp [hsame]

/-- A path that leads somewhere once directories are created led to a file there before. -/
theorem Creates.stat_of_locate {t u : FileTree} (h : Creates (fun _ => True) t u) (hroot : t.Rooted)
    {p : Path} (hground : t.Grounded p) (hloc : u.locate p = .ok (u.place p))
    (hsep : p.endsWithSeparator = false) {c : Content} (hc : t.file? (t.place p) = some c) :
    t.stat p = .ok (.file c) := by
  have hdir : ∀ loc, u.node? loc = some .directory → t.node? loc ≠ none →
      t.node? loc = some .directory := by
    intro loc hloc hne
    rcases h.node loc with hsame | ⟨hnone, -, -⟩
    · rwa [hsame] at hloc
    · exact absurd hnone hne
  refine hroot.stat h.keeps hdir hground ?_ (file?_eq_some_iff.1 hc)
  rw [stat_eq_file_iff, ← file?_eq_some_iff, h.file?, h.keeps.place]
  exact ⟨h.keeps.place p ▸ hloc, hsep, hc⟩

end ReferenceSite.FileTree
