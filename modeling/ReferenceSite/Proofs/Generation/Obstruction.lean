import ReferenceSite.Proofs.Address.Obstruction
import ReferenceSite.Proofs.FileTree.Growth
import ReferenceSite.Proofs.Generation.Outcome

/-!
# Pages in the way of other pages

A page whose file can be written into an empty output directory can also be written after other pages, unless
the file of one stands where the other needs a directory (`Filed.write_or_obstructed`). The check for
collisions does not find such pages, since it compares addresses and not files, so a walk can fail over them
when it writes the second one (`Generator.obstructed_walks`).
-/

namespace ReferenceSite

open FileTree

namespace FileTree

/-- Nothing is in a directory. -/
def EmptyBelow (t : FileTree) (directory : Path) : Prop :=
  ∀ names, names ≠ [] → t.node? (t.place directory ++ names) = none

variable {t u : FileTree} {p directory : Path} {a : Address} {loc : Location}

/-- The way to a file below a directory is the way to the directory and then the names of the file. -/
theorem onTheWay_join_file (ha : a.IsSafe) {extension : String} (hext : '/' ∉ extension.toList)
    (h : t.OnTheWay (Path.join directory (a.file extension)) loc) : t.OnTheWay directory loc ∨
      ∃ names, names ≠ [] ∧ names <+: a.filePieces extension ∧ loc = t.place directory ++ names := by
  obtain ⟨front, hfront, rfl⟩ := h
  have hrelative := Address.isAbsolute_file ha hext
  have hstart : t.start (Path.join directory (a.file extension)) = t.start directory := by
    rw [start, start, Path.isAbsolute_join hrelative]
  rw [Path.pieces_join hrelative, Address.pieces_file ha hext] at hfront
  rw [hstart]
  rcases List.prefix_or_prefix_of_prefix hfront (List.prefix_append directory.pieces _) with
    hdir | ⟨names, rfl⟩
  · exact Or.inl ⟨front, hdir, rfl⟩
  · rw [List.prefix_append_right_inj] at hfront
    by_cases hnil : names = []
    · subst hnil
      exact Or.inl ⟨directory.pieces, List.prefix_refl _, by rw [List.append_nil]⟩
    · refine Or.inr ⟨names, hnil, hfront, ?_⟩
      rw [List.foldl_append, foldl_beyond_names fun s hs =>
        Address.isName_filePieces ha hext s (hfront.subset hs)]
      rfl

/-- Where the file of a page is found, everything on the way to the output directory is a directory. -/
theorem directory_of_stat_join_file (ha : a.IsSafe) {extension : String}
    (hext : '/' ∉ extension.toList) {c : Content}
    (h : t.stat (Path.join directory (a.file extension)) = .ok (.file c)) {front : List String}
    (hfront : front <+: directory.pieces ++ a.segments.dropLast) :
    t.node? (front.foldl beyond (t.start directory)) = some .directory := by
  have hrelative := Address.isAbsolute_file ha hext
  have hpieces : (Path.join directory (a.file extension)).pieces =
      directory.pieces ++ a.segments.dropLast ++ [a.fileName extension] := by
    rw [Path.pieces_join hrelative, Address.pieces_file ha hext, Address.filePieces, List.append_assoc]
  have hstart : t.start (Path.join directory (a.file extension)) = t.start directory := by
    rw [start, start, Path.isAbsolute_join hrelative]
  rw [← hstart]
  refine directory_of_stat h ?_ ?_
  · rw [hpieces]
    exact hfront.trans (List.prefix_append _ _)
  · rw [hpieces]
    rintro rfl
    have hlength := hfront.length_le
    rw [List.length_append, List.length_singleton] at hlength
    omega

theorem OnTheWay.directory_of_stat (hloc : t.OnTheWay directory loc) (ha : a.IsSafe)
    {extension : String} (hext : '/' ∉ extension.toList) {c : Content}
    (h : t.stat (Path.join directory (a.file extension)) = .ok (.file c)) :
    t.node? loc = some .directory := by
  obtain ⟨front, hfront, rfl⟩ := hloc
  exact directory_of_stat_join_file ha hext h (hfront.trans (List.prefix_append _ _))

theorem directory_of_prefix_dropLast (ha : a.IsSafe) {extension : String}
    (hext : '/' ∉ extension.toList) {c : Content}
    (h : t.stat (Path.join directory (a.file extension)) = .ok (.file c)) {names : List String}
    (hnames : names <+: a.segments.dropLast) :
    t.node? (t.place directory ++ names) = some .directory := by
  have hdir := directory_of_stat_join_file ha hext h ((List.prefix_append_right_inj directory.pieces).2
    hnames)
  rw [List.foldl_append, foldl_beyond_names fun s hs =>
    ha.name s (List.mem_of_mem_dropLast (hnames.subset hs))] at hdir
  exact hdir

end FileTree

namespace Generation

variable {t u t' : FileTree} {p : Path} {text : String} {b : Bool}

/-- What can be written where nothing is can also be written in a larger tree, if the place is still empty and
    no file stands on the way. -/
theorem writePage_mono (hkeeps : Keeps t u) (hclear : u.Clear p) (ht : t.node? (t.place p) = none)
    (hu : u.node? (t.place p) = none) (h : writePage t p text = (.ok b, t')) :
    ∃ u', writePage u p text = (.ok true, u') := by
  unfold writePage at h
  dsimp only at h
  split at h
  · next c hstat =>
    rw [(stat_eq_file_iff.1 hstat).2.2] at ht
    cases ht
  · next hstat =>
    rw [directory_of_stat_directory hstat] at ht
    cases ht
  · split at h
    · next t₂ hdirs =>
      obtain ⟨u₂, hdirs', hkeeps', hnode⟩ := createDirectories_mono hkeeps hclear hdirs
      cases hwrite : t₂.write p (.text text) with
      | error e =>
        rw [hwrite] at h
        cases h
      | ok t₃ =>
        obtain ⟨hloc, hsep, hdir, -⟩ := write_eq_ok hwrite
        have hkept : Keeps t t₂ := by
          have hcreates := creates_createDirectories t p
          rw [hdirs] at hcreates
          exact hcreates.keeps
        rw [hkept.place] at hloc hdir
        have hcurrent : u.current = t₂.current := hkeeps.current.trans hkept.current.symm
        have hstat' : u.stat p = .error .notFound := stat_eq_notFound hcurrent hloc hclear hu
        have hdir' : u₂.node? (t.place p) ≠ some .directory := by
          rcases hnode (t.place p) with hsame | hsame
          · rw [hsame, hu]
            simp
          · exact absurd hsame hdir
        have hwrite' := write_of_locate (c := .text text) (locate_mono hkeeps' hloc) hsep hdir'
        unfold writePage
        dsimp only
        rw [hstat', hdirs']
        dsimp only
        rw [hwrite']
        exact ⟨_, rfl⟩
    · cases h
  · cases h

/-! ## Pages in each other's way -/

namespace Task

variable {k : Task} {pages : List Emission} {q r : Emission}

/-- The page can be written into the files as they are. -/
def WritesAlone (k : Task) (t : FileTree) (p : Emission) : Prop :=
  ∃ b u, writePage t (k.path p) p.text = (.ok b, u)

/-- The file of one of two pages stands where the other needs a directory. -/
def Obstructed (q r : Emission) : Prop :=
  q.address.Obstructs r.address ∨ r.address.Obstructs q.address

theorem place_path (t : FileTree) (hq : q.address.IsSafe) :
    t.place (k.path q) = t.place k.settings.outputDirectory ++ q.address.filePieces "mdx" :=
  place_join_file t _ hq (by decide)

/-- Pages that are in their files are not in each other's way. -/
theorem Filed.not_obstructs (h : k.Filed t pages u) (hsafe : ∀ q ∈ pages, q.address.IsSafe)
    (hq : q ∈ pages) (hr : r ∈ pages) : ¬ q.address.Obstructs r.address := by
  intro hobstructs
  have hfile := (stat_eq_file_iff.1 (h.stat q hq)).2.2
  have hdir := directory_of_prefix_dropLast (hsafe r hr) (by decide) (h.stat r hr) hobstructs
  rw [place_path u (hsafe q hq), hdir] at hfile
  cases hfile

/-- A page with a new address has other pieces than the pages before it. -/
theorem Sound.filePieces_ne (h : k.Sound (pages ++ [r])) :
    ∀ q ∈ pages, q.address.filePieces "mdx" ≠ r.address.filePieces "mdx" := by
  intro q hq hsame
  have hplace := h.place_ne {} q hq
  rw [place_path _ (h.isSafe (List.mem_append_left _ hq)),
    place_path _ (h.isSafe (List.mem_append_right _ (List.mem_singleton_self r))), hsame] at hplace
  exact hplace rfl

/-- Where a page was written, everything on the way to the output directory is a directory. -/
theorem directory_of_places {t' : FileTree} {c : Content} {loc : Location} (hr : r.address.IsSafe)
    (hplaces : Places t t' (k.path r) c) (hloc : t.OnTheWay k.settings.outputDirectory loc) :
    t'.node? loc = some .directory ∧ loc ≠ t.place (k.path r) := by
  obtain ⟨front, hfront, rfl⟩ := hloc
  have hdir : t'.node? (front.foldl beyond (t.start k.settings.outputDirectory)) = some .directory := by
    refine OnTheWay.directory_of_stat ⟨front, hfront, ?_⟩ hr (by decide) hplaces.stat
    rw [hplaces.keeps.start]
  refine ⟨hdir, fun hsame => ?_⟩
  have hfile := (stat_eq_file_iff.1 hplaces.stat).2.2
  rw [hplaces.keeps.place, ← hsame, hdir] at hfile
  cases hfile

section

variable {t' : FileTree} {c : Content} (h : k.Filed t pages u) (hsound : k.Sound (pages ++ [r]))
  (hempty : t.EmptyBelow k.settings.outputDirectory) (hplaces : Places t t' (k.path r) c)
include h hsound hempty hplaces

/-- No file is on the way of a page that could be written alone, if that of no earlier page is. -/
theorem Filed.clear (hfree : ∀ q ∈ pages, ¬ q.address.Obstructs r.address) : u.Clear (k.path r) := by
  have hr : r.address.IsSafe := hsound.isSafe (List.mem_append_right _ (List.mem_singleton_self r))
  intro l hl d hfile
  rcases onTheWay_join_file hr (by decide) (h.keeps.onTheWay hl) with hway | ⟨names, hne, hnames, rfl⟩
  · obtain ⟨hdir, hplace⟩ := directory_of_places hr hplaces hway
    by_cases hpage : ∃ q ∈ pages, l = t.place (k.path q)
    · obtain ⟨q, hq, -⟩ := hpage
      obtain ⟨front, hfront, rfl⟩ := hway
      have hwalked : u.OnTheWay k.settings.outputDirectory
          (front.foldl beyond (u.start k.settings.outputDirectory)) := ⟨front, hfront, rfl⟩
      have hthere := hwalked.directory_of_stat (hsound.isSafe (List.mem_append_left _ hq)) (by decide)
        (h.stat q hq)
      rw [h.keeps.start, hfile] at hthere
      cases hthere
    -- a file that was there before would have stopped the page alone, too
    · rcases h.node l fun q hq heq => hpage ⟨q, hq, heq⟩ with hsame | ⟨-, hthere, -⟩
      · rw [hsame] at hfile
        rcases hplaces.node l hplace with hkept | ⟨hnone, -, -⟩
        · rw [hkept, hfile] at hdir
          cases hdir
        · rw [hnone] at hfile
          cases hfile
      · rw [hthere] at hfile
        cases hfile
  · by_cases hpage : ∃ q ∈ pages, t.place k.settings.outputDirectory ++ names = t.place (k.path q)
    · obtain ⟨q, hq, hplace⟩ := hpage
      rw [place_path t (hsound.isSafe (List.mem_append_left _ hq))] at hplace
      obtain rfl := List.append_cancel_left hplace
      exact hfree q hq (Address.prefix_dropLast_of_prefix_filePieces hnames (hsound.filePieces_ne q hq))
    · rcases h.node _ fun q hq heq => hpage ⟨q, hq, heq⟩ with hsame | ⟨-, hthere, -⟩
      · rw [hsame, hempty names hne] at hfile
        cases hfile
      · rw [hthere] at hfile
        cases hfile

/-- Nothing is at the place of a page that could be written alone, if no earlier page needs a directory
    there. -/
theorem Filed.node?_place (hfree : ∀ q ∈ pages, ¬ r.address.Obstructs q.address) :
    u.node? (t.place (k.path r)) = none := by
  have hr : r.address.IsSafe := hsound.isSafe (List.mem_append_right _ (List.mem_singleton_self r))
  rcases h.node _ fun q hq => (hsound.place_ne t q hq).symm with hsame | ⟨-, -, q, hq, hway⟩
  · rw [hsame, place_path t hr]
    exact hempty _ (by simp [Address.filePieces])
  · rcases onTheWay_join_file (hsound.isSafe (List.mem_append_left _ hq)) (by decide) hway with
      hway | ⟨names, -, hnames, hplace⟩
    · exact absurd rfl (directory_of_places hr hplaces hway).2
    · rw [place_path t hr] at hplace
      obtain rfl := List.append_cancel_left hplace
      exact absurd (Address.prefix_dropLast_of_prefix_filePieces hnames
        (hsound.filePieces_ne q hq).symm) (hfree q hq)

end

/-- After other pages, a page that could be written alone can still be written, unless it and one of them are
    in each other's way. -/
theorem Filed.write_or_obstructed (h : k.Filed t pages u) (hsound : k.Sound (pages ++ [r]))
    (hempty : t.EmptyBelow k.settings.outputDirectory) (halone : k.WritesAlone t r) :
    (∃ v, writePage u (k.path r) r.text = (.ok true, v)) ∨ ∃ q ∈ pages, Obstructed q r := by
  by_cases hobstructed : ∃ q ∈ pages, Obstructed q r
  · exact Or.inr hobstructed
  · left
    obtain ⟨b, t', halone⟩ := halone
    have hplaces := (places_writePage halone).2
    have hr : r.address.IsSafe := hsound.isSafe (List.mem_append_right _ (List.mem_singleton_self r))
    have hclear := h.clear hsound hempty hplaces fun q hq hobs =>
      hobstructed ⟨q, hq, Or.inl hobs⟩
    have hnone := h.node?_place hsound hempty hplaces fun q hq hobs =>
      hobstructed ⟨q, hq, Or.inr hobs⟩
    have hbefore : t.node? (t.place (k.path r)) = none := by
      rw [place_path t hr]
      exact hempty _ (by simp [Address.filePieces])
    exact writePage_mono h.keeps hclear hbefore hnone halone

end Task

end Generation

namespace Generator

open Generation

variable {g g' : Generator} {t t' : FileTree} {root : Nat} {e : Error}

/-- A run that was ended by the file system at a page: the visits before passed all checks, and so did the
    visit of the page, but it could not be written after the pages before it. -/
structure Unwritten (g : Generator) (t : FileTree) (root : Nat) (e : Error) (before : List Visit)
    (r : Emission) : Prop where
  walk : ∃ after, g.model.itinerary root 0 none = before ++ r.visit :: after
  passed : g.toTask.Clears (before ++ [r.visit])
  page : g.toTask.emission? (g.toTask.emissions before) r.visit = some r
  error : ∃ u, writePage (g.toTask.treeAfter t (g.toTask.emissions before)) (g.toTask.path r) r.text =
    (.error e, u)
  filed : g.toTask.Filed t (g.toTask.emissions before)
    (g.toTask.treeAfter t (g.toTask.emissions before))

theorem unwritten_of_generate (hm : g.model.Built) (h : g.generate t root = (.error e, g', t'))
    (hio : e.kind = .io) : ∃ before r, g.Unwritten t root e before r := by
  rcases generate_error h with rfl | ⟨w, hwalk, -, -⟩
  · cases hio
  · obtain ⟨before, after, v, w₁, hvs, hclears, hafter, hvisit⟩ := visitAll_stop (g.startWalk_after t)
      Task.clears_nil (g.toTask.ownersFirst_itinerary hm.linked root) hwalk
    rw [List.nil_append] at hclears hafter
    obtain ⟨r, u, hpasses, hr, hwrite⟩ := visit_io hafter hvisit hio
    obtain ⟨rfl, -⟩ := Task.emission?_eq_some hr
    rw [hafter.tree] at hwrite
    have hfiled := hafter.filed
    rw [hafter.tree] at hfiled
    exact ⟨before, r, ⟨after, hvs⟩, hclears.concat hpasses, hr, ⟨u, hwrite⟩, hfiled⟩

theorem Unwritten.mem_pages {before : List Visit} {r : Emission} (h : g.Unwritten t root e before r) :
    r ∈ g.pages root := by
  obtain ⟨after, hwalk⟩ := h.walk
  rw [pages, hwalk, List.append_cons]
  refine Task.emissions_subset (before ++ [r.visit]) after ?_
  rw [Task.emissions_concat, h.page]
  exact List.mem_append_right _ (List.mem_singleton_self r)

/-- A page that could not be written into an empty directory could not be written alone, or it and an earlier
    page are in each other's way. -/
theorem Unwritten.obstructed {before : List Visit} {r : Emission} (h : g.Unwritten t root e before r)
    (hempty : t.EmptyBelow g.settings.outputDirectory) (halone : g.toTask.WritesAlone t r) :
    ∃ q ∈ g.toTask.emissions before, Task.Obstructed q r := by
  have hsound : g.toTask.Sound (g.toTask.emissions before ++ [r]) := by
    have := h.passed.sound
    rwa [Task.emissions_concat, h.page] at this
  rcases h.filed.write_or_obstructed hsound hempty halone with ⟨v, hwrite⟩ | hobstructed
  · obtain ⟨u, herror⟩ := h.error
    rw [hwrite] at herror
    cases herror
  · exact hobstructed

/-- When pages are in each other's way. Two addresses that differ in more than case have different files, but
    one file can still be, apart from case, a directory of the other; its pieces are then the first segments
    of the other's address, one of which is itself the name of a page's file. No run that succeeds has such
    pages. A run into an empty directory that fails to write a page fails because of the page alone or because
    it and an earlier page are in each other's way. -/
theorem obstructed_walks (g : Generator) :
    (∀ x y a b, g.model.address x = .ok a → g.model.address y = .ok b →
      Text.lowercase a.toText ≠ Text.lowercase b.toText →
      a.file "mdx" ≠ b.file "mdx" ∧
      (Path.Blocks (a.file "mdx") (b.file "mdx") ↔
        (a.filePieces "mdx").map Text.lowercase <+: b.segments.dropLast.map Text.lowercase) ∧
      (Path.Blocks (a.file "mdx") (b.file "mdx") →
        ∃ s ∈ b.segments.dropLast, Address.IsFileName s)) ∧
    (∀ (g' : Generator) (t t' : FileTree) (root : Nat) (report : Report), g.model.Built →
      g.generate t root = (.ok report, g', t') →
      ∀ q ∈ g.pages root, ∀ r ∈ g.pages root, ¬ q.address.Obstructs r.address) ∧
    ∀ (g' : Generator) (t t' : FileTree) (root : Nat) (e : Error), g.model.Built →
      t.EmptyBelow g.settings.outputDirectory → g.generate t root = (.error e, g', t') →
      e.kind = .io → ∃ before r, g.Unwritten t root e before r ∧
        (g.toTask.WritesAlone t r → ∃ q ∈ g.toTask.emissions before, Task.Obstructed q r) := by
  refine ⟨?_, ?_, ?_⟩
  · intro x y a b ha hb hne
    have hsafe := (Address.ofSegments_eq_ok ha).2
    have hsafe' := (Address.ofSegments_eq_ok hb).2
    exact ⟨Address.file_ne_of_toText_ne (fun h => hne (congrArg _ h)) "mdx",
      Address.blocks_file_iff hsafe hsafe' (by decide), Address.exists_isFileName_of_blocks hsafe hsafe'⟩
  · intro g' t t' root report hm h q hq r hr
    obtain ⟨hclears, w, hafter, -⟩ := walk_of_generate hm h
    exact hafter.filed.not_obstructs (fun p hp => hclears.sound.isSafe hp) hq hr
  · intro g' t t' root e hm hempty h hio
    obtain ⟨before, r, hunwritten⟩ := unwritten_of_generate hm h hio
    exact ⟨before, r, hunwritten, hunwritten.obstructed hempty⟩

/-- A generator for a package with the name of another one's file, and a class in it. -/
def ofFileName : Generator :=
  .ofTask {
    model := ((Model.empty.add 0 { kind := .package, name := "a" }).add 0
      { kind := .package, name := "a.mdx" }).add 2 { kind := .class, name := "b" }
    renderer := fun page _ => .ok page.title
    settings := { outputDirectory := "out" } } {}

theorem built_ofFileName : ofFileName.model.Built :=
  .add (.add (.add (.root none []) (by decide) _) (by simp [Model.size_add]) _)
    (by simp [Model.size_add]; decide) _

/-- It fails to write a page, although every page could be written alone. -/
theorem generate_ofFileName : EmptyBelow {} ofFileName.settings.outputDirectory ∧
    (∀ r ∈ ofFileName.pages 0, ofFileName.toTask.WritesAlone {} r) ∧
    ∃ e g' t', ofFileName.generate {} 0 = (.error e, g', t') ∧ e.kind = .io := by
  have hkind : (match (ofFileName.generate {} 0).1 with
      | .ok _ => none
      | .error e => some e.kind) = some .io := by decide +kernel
  have halone : ∀ r ∈ ofFileName.pages 0,
      (writePage {} (ofFileName.toTask.path r) r.text).1.isOk = true := by decide +kernel
  refine ⟨fun names hnames => by simp [node?, hnames], fun r hr => ?_, ?_⟩
  · have hwrites := halone r hr
    rcases hwrite : writePage {} (ofFileName.toTask.path r) r.text with ⟨result, u⟩
    rw [hwrite] at hwrites
    cases result with
    | error e => cases hwrites
    | ok b => exact ⟨b, u, hwrite⟩
  · rcases hrun : ofFileName.generate {} 0 with ⟨result, g', t'⟩
    rw [hrun] at hkind
    cases result with
    | ok report => cases hkind
    | error e => exact ⟨e, g', t', rfl, Option.some.inj hkind⟩

theorem obstructed_walks_ofFileName : ∃ e g' t' before r,
    ofFileName.generate {} 0 = (.error e, g', t') ∧ ofFileName.Unwritten {} 0 e before r ∧
      ∃ q ∈ ofFileName.toTask.emissions before, Task.Obstructed q r := by
  obtain ⟨hempty, halone, e, g', t', hrun, hio⟩ := generate_ofFileName
  obtain ⟨before, r, hunwritten, hobstructed⟩ :=
    (obstructed_walks ofFileName).2.2 g' {} t' 0 e built_ofFileName hempty hrun hio
  exact ⟨e, g', t', before, r, hrun, hunwritten, hobstructed (halone r hunwritten.mem_pages)⟩

/-- Files of pages can be in each other's way, and a run into an empty directory can fail for no other
    reason. -/
theorem pages_obstruct_each_other :
    (¬ ∀ (m : Model) (x y : Nat) (a b : Address), m.address x = .ok a → m.address y = .ok b →
      Text.lowercase a.toText ≠ Text.lowercase b.toText →
      ¬ Path.Blocks (a.file "mdx") (b.file "mdx")) ∧
    ¬ ∀ (g g' : Generator) (t t' : FileTree) (root : Nat) (e : Error), g.model.Built →
      t.EmptyBelow g.settings.outputDirectory → g.generate t root = (.error e, g', t') →
      e.kind = .io → ∃ r ∈ g.pages root, ¬ g.toTask.WritesAlone t r := by
  constructor
  · intro hall
    have haddress : ofFileName.model.address 1 = .ok ⟨["a"]⟩ ∧
        ofFileName.model.address 3 = .ok ⟨["a.mdx", "b"]⟩ := by decide +kernel
    refine hall _ 1 3 _ _ haddress.1 haddress.2 (by decide +kernel) ⟨["a.mdx"], ?_⟩
    decide +kernel
  · intro hall
    obtain ⟨hempty, halone, e, g', t', hrun, hio⟩ := generate_ofFileName
    obtain ⟨r, hr, hfails⟩ := hall _ g' {} t' 0 e built_ofFileName hempty hrun hio
    exact hfails (halone r hr)

end Generator

end ReferenceSite
