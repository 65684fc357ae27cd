import ReferenceSite.Proofs.Generation.Emission

/-!
# The files of the pages

Writing a page puts its text at the place of its path and touches no other file (`places_writePage`). Since
different pages have their files in different places, all pages of a run can be read afterwards
(`Filed.concat`). A page is outdated if its path does not lead to its text when its turn comes; only
outdated pages are written.
-/

namespace ReferenceSite

open FileTree

/-- A file with the text can be read at the path. -/
def FileTree.hasText (t : FileTree) (p : Path) (text : String) : Bool :=
  match t.stat p with
  | .ok (.file c) => c == .text text
  | _ => false

theorem FileTree.hasText_iff {t : FileTree} {p : Path} {text : String} :
    t.hasText p text = true ↔ t.stat p = .ok (.file (.text text)) := by
  unfold hasText
  constructor
  · intro h
    split at h
    · next c hc => rw [hc, eq_of_beq h]
    · cases h
  · intro h
    simp [h]

namespace Generation

/-! ## Writing one page -/

/-- A page that has its text already is not touched. -/
theorem writePage_of_hasText {t : FileTree} {p : Path} {text : String} (h : t.hasText p text = true) :
    writePage t p text = (.ok false, t) := by
  rw [hasText_iff] at h
  simp [writePage, h]

/-- The last step of writing a page. -/
theorem write_result {t u : FileTree} {p : Path} {c : Content} {b : Bool}
    (h : (match t.write p c with
      | .ok t => (.ok true, t)
      | .error f => (.error (Error.ofFailure f p), t) : Except Error Bool × FileTree) = (.ok b, u)) :
    b = true ∧ Places t u p c := by
  split at h
  · next u' hu =>
    cases h
    exact ⟨rfl, places_write hu⟩
  · cases h

/-- A page that is written has its text at its path, and no other file changes. -/
theorem places_writePage {t u : FileTree} {p : Path} {text : String} {b : Bool}
    (h : writePage t p text = (.ok b, u)) : b = !t.hasText p text ∧ Places t u p (.text text) := by
  by_cases hold : t.hasText p text = true
  · rw [writePage_of_hasText hold] at h
    cases h
    exact ⟨by rw [hold]; rfl, places_self (hasText_iff.1 hold)⟩
  · have hnot : t.hasText p text = false := by simpa using hold
    rw [hnot, Bool.not_false]
    unfold writePage at h
    dsimp only at h
    split at h
    · next content hstat =>
      split_ifs at h with heq
      · rw [hasText, hstat] at hold
        exact absurd heq hold
      · exact write_result h
    · exact write_result h
    · have hcreates := creates_createDirectories t p
      split at h
      · next t' hdirs =>
        obtain ⟨rfl, hplaces⟩ := write_result h
        rw [hdirs] at hcreates
        exact ⟨rfl, .of_creates hcreates hplaces⟩
      · cases h
    · cases h

/-- What stops a page from being written is the file system. -/
theorem kind_of_writePage {t u : FileTree} {p : Path} {text : String} {e : Error}
    (h : writePage t p text = (.error e, u)) : e.kind = .io := by
  unfold writePage at h
  dsimp only at h
  repeat' split at h
  all_goals cases h <;> rfl

/-! ## Writing many pages -/

namespace Task

variable (k : Task)

/-- The files after some pages were written. -/
def treeAfter (t : FileTree) (pages : List Emission) : FileTree :=
  pages.foldl (fun t p => (writePage t (k.path p) p.text).2) t

/-- The pages that do not have their text when their turn comes. -/
def outdated (t : FileTree) : List Emission → List Emission
  | [] => []
  | p :: pages =>
    let rest := outdated (writePage t (k.path p) p.text).2 pages
    if t.hasText (k.path p) p.text then rest else p :: rest

variable {k} {t u v : FileTree} {pages : List Emission} {p : Emission}

theorem treeAfter_concat (t : FileTree) (pages : List Emission) (p : Emission) :
    k.treeAfter t (pages ++ [p]) = (writePage (k.treeAfter t pages) (k.path p) p.text).2 := by
  simp [treeAfter]

theorem outdated_concat (t : FileTree) (pages : List Emission) (p : Emission) :
    k.outdated t (pages ++ [p]) = k.outdated t pages ++
      if (k.treeAfter t pages).hasText (k.path p) p.text then [] else [p] := by
  induction pages generalizing t with
  | nil => rfl
  | cons q pages ih =>
    simp only [List.cons_append, outdated, ih, treeAfter, List.foldl_cons]
    split_ifs <;> rfl

/-- If all pages have their text, writing them again changes nothing. -/
theorem treeAfter_of_hasText (h : ∀ p ∈ pages, t.hasText (k.path p) p.text = true) :
    k.treeAfter t pages = t ∧ k.outdated t pages = [] := by
  induction pages with
  | nil => exact ⟨rfl, rfl⟩
  | cons p pages ih =>
    obtain ⟨hp, hrest⟩ := List.forall_mem_cons.1 h
    obtain ⟨htree, hout⟩ := ih hrest
    rw [treeAfter] at htree ⊢
    rw [List.foldl_cons, outdated, writePage_of_hasText hp, if_pos hp]
    exact ⟨htree, hout⟩

/-- `u` is `t` with some pages: every page can be read at its path, and every place other than theirs is
    as before, except that directories on the way to a page may be new. -/
structure Filed (k : Task) (t : FileTree) (pages : List Emission) (u : FileTree) : Prop where
  keeps : Keeps t u
  stat : ∀ p ∈ pages, u.stat (k.path p) = .ok (.file (.text p.text))
  node : ∀ loc, (∀ p ∈ pages, loc ≠ t.place (k.path p)) → u.node? loc = t.node? loc ∨
    t.node? loc = none ∧ u.node? loc = some .directory ∧ ∃ p ∈ pages, OnTheWay t (k.path p) loc

theorem filed_nil (k : Task) (t : FileTree) : k.Filed t [] t :=
  ⟨Keeps.refl t, by simp, fun _ _ => Or.inl rfl⟩

/-- Every file that belongs to no page is as before. -/
theorem Filed.file? (h : k.Filed t pages u) {loc : Location}
    (hloc : ∀ p ∈ pages, loc ≠ t.place (k.path p)) : u.file? loc = t.file? loc := by
  unfold FileTree.file?
  rcases h.node loc hloc with hu | ⟨ht, hu, -⟩
  · rw [hu]
  · rw [ht, hu]

/-- One more page in a place of its own. -/
theorem Filed.concat (h : k.Filed t pages u) (hp : Places u v (k.path p) (.text p.text))
    (hne : ∀ q ∈ pages, t.place (k.path q) ≠ t.place (k.path p)) : k.Filed t (pages ++ [p]) v := by
  refine ⟨h.keeps.trans hp.keeps, fun q hq => ?_, fun loc hloc => ?_⟩
  · rcases List.mem_append.1 hq with hq | hq
    · refine hp.stat_other (h.stat q hq) ?_
      rw [h.keeps.place, h.keeps.place]
      exact hne q hq
    · rw [List.mem_singleton.1 hq]
      exact hp.stat
  · have hlast : loc ≠ u.place (k.path p) := by
      rw [h.keeps.place]
      exact hloc p (List.mem_append_right _ (List.mem_singleton_self p))
    have hfront := h.node loc fun q hq => hloc q (List.mem_append_left _ hq)
    rcases hp.node loc hlast with hv | ⟨hu, hv, hway⟩
    · rw [hv]
      exact hfront.imp_right fun ⟨ht, hu, q, hq, hway⟩ =>
        ⟨ht, hu, q, List.mem_append_left _ hq, hway⟩
    · refine Or.inr ⟨?_, hv, p, List.mem_append_right _ (List.mem_singleton_self p),
        h.keeps.onTheWay hway⟩
      rcases hfront with ht | ⟨ht, -, -⟩
      · rw [← ht, hu]
      · exact ht

/-! ## Places of pages -/

/-- Pages whose addresses are not equal but for case have their files in different places. -/
theorem place_path_ne {a b : Address} (ha : a.IsSafe) (hb : b.IsSafe)
    (hne : Text.lowercase a.toText ≠ Text.lowercase b.toText) (t : FileTree) :
    t.place (k.fileOf a) ≠ t.place (k.fileOf b) := by
  intro h
  obtain rfl := place_join_file_injective ha hb (by decide) h
  exact hne rfl

/-- One more page that passes all checks is in a place of its own. -/
theorem Sound.place_ne (h : k.Sound (pages ++ [p])) (t : FileTree) :
    ∀ q ∈ pages, t.place (k.path q) ≠ t.place (k.path p) := by
  intro q hq
  refine place_path_ne (h.isSafe (List.mem_append_left _ hq))
    (h.isSafe (List.mem_append_right _ (List.mem_singleton_self p))) ?_ t
  have hdistinct := h.distinct
  rw [List.map_append, List.nodup_append] at hdistinct
  exact hdistinct.2.2 q.folded (List.mem_map_of_mem hq) p.folded (by simp)

/-- Before a page is written, its path leads to what it led to before all pages, if the output directory
    can be found without them. -/
theorem Filed.hasText_eq (h : k.Filed t pages u) (hroot : t.Rooted)
    (hground : t.Grounded k.settings.outputDirectory) (hsafe : p.address.IsSafe)
    (hne : ∀ q ∈ pages, t.place (k.path q) ≠ t.place (k.path p)) (text : String) :
    u.hasText (k.path p) text = t.hasText (k.path p) text := by
  have hnode := h.node (t.place (k.path p)) fun q hq => (hne q hq).symm
  rw [Bool.eq_iff_iff, hasText_iff, hasText_iff]
  constructor
  · intro hu
    have hfile := (stat_eq_file_iff.1 hu).2.2
    rw [h.keeps.place] at hfile
    refine hroot.stat h.keeps (fun loc hdir hloc => ?_) (hground.join_file hsafe (by decide)) hu ?_
    -- a directory that was something before is none of the new pages, so it is an old directory
    · by_cases hpage : ∃ q ∈ pages, loc = t.place (k.path q)
      · obtain ⟨q, hq, rfl⟩ := hpage
        have hq' := (stat_eq_file_iff.1 (h.stat q hq)).2.2
        rw [h.keeps.place, hdir] at hq'
        cases hq'
      · rcases h.node loc fun q hq heq => hpage ⟨q, hq, heq⟩ with hsame | ⟨hnone, -, -⟩
        · rw [← hsame, hdir]
        · exact absurd hnone hloc
    · rcases hnode with hsame | ⟨-, hdir, -⟩
      · rw [← hsame, hfile]
      · rw [hfile] at hdir
        cases hdir
  · intro ht
    exact stat_mono h.keeps ht (hnode.imp_right And.left)

end Task

end Generation

end ReferenceSite
