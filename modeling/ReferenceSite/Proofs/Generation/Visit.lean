import ReferenceSite.Proofs.Generation.Filing

/-!
# What one visit does

`Walk.After` relates the state of a walk to the pages made so far, and `visit_cases` says what a visit does
to such a state: it fails the first check that it does not pass and changes nothing that stays, or it has
no page to make, or it makes its page, which only the file system can still prevent.
-/

namespace ReferenceSite.Generation

open FileTree

/-- The state of a walk that started with the files `t` and has made some pages. -/
structure Walk.After (k : Task) (t : FileTree) (pages : List Emission) (w : Walk) : Prop where
  tree : w.tree = k.treeAfter t pages
  filed : k.Filed t pages w.tree
  cache : Resolves k.model w.cache
  claimed : w.claimed = Emission.claims pages
  pageRefs : w.pageRefs = k.refs pages
  entries : w.navigation.entries = pages.filterMap k.entry?
  written : w.written = (k.outdated t pages).length
  outdated : t.Rooted → t.Grounded k.settings.outputDirectory →
    k.outdated t pages = pages.filter fun p => !t.hasText (k.path p) p.text
  count : w.written + w.unchanged = pages.length
  total : w.totalBytes = Emission.total pages

/-- The owner of a visit has a page. -/
def Task.Owned (pages : List Emission) (v : Visit) : Prop :=
  ∀ o, v.owner = some o → o ∈ pages.map Emission.item

variable {k : Task} {t : FileTree} {pages : List Emission} {w : Walk} {v : Visit} {p : Emission}

/-! ## What is looked up -/

theorem Emission.lookup_claims_eq_none {folded : String} :
    (Emission.claims pages).lookup folded = none ↔ ∀ p ∈ pages, p.folded ≠ folded := by
  simp only [List.lookup_eq_none_iff, Emission.claims, List.mem_reverse, List.forall_mem_map, bne_iff_ne]
  exact forall₂_congr fun p _ => ne_comm

/-- The reference that is found for an item is that of its address. -/
theorem Task.Sound.lookup_refs (h : k.Sound pages) {id : Nat} (hid : id ∈ pages.map Emission.item) :
    (k.refs pages).lookup id = (k.model.address id).toOption.map (·.pageRef k.settings.pageBase) := by
  cases hlookup : (k.refs pages).lookup id with
  | none =>
    obtain ⟨p, hp, rfl⟩ := List.mem_map.1 hid
    rw [List.lookup_eq_none_iff] at hlookup
    have := hlookup (p.item, k.pageRef p) (by
      rw [Task.refs, List.mem_reverse]
      exact List.mem_map_of_mem hp)
    simp at this
  | some ref =>
    obtain ⟨front, back, heq, -⟩ := List.lookup_eq_some_iff.1 hlookup
    have hmem : (id, ref) ∈ k.refs pages := by
      rw [heq]
      exact List.mem_append_right _ List.mem_cons_self
    rw [Task.refs, List.mem_reverse] at hmem
    obtain ⟨p, hp, hpair⟩ := List.mem_map.1 hmem
    obtain ⟨rfl, rfl⟩ := Prod.mk.inj hpair
    rw [(h.address hp).2]
    rfl

theorem Task.Owned.ownerRef (hv : Task.Owned pages v) (h : k.Sound pages) :
    v.owner.bind ((k.refs pages).lookup ·) = k.ownerRef v := by
  unfold Task.ownerRef
  cases howner : v.owner with
  | none => rfl
  | some o => exact h.lookup_refs (hv o howner)

/-! ## Registering a page -/

/-- The page of an entry is that of the page that it is made for. -/
theorem Task.page_of_entry? {e : Navigation.Entry} (h : k.entry? p = some e) :
    e.page = k.pageRef p := by
  unfold Task.entry? at h
  dsimp only at h
  split_ifs at h
  rw [← Option.some.inj h]

/-- A page whose address is not that of an earlier one is not registered yet. -/
theorem not_isRegistered {nav : Navigation} (hnav : nav.entries = pages.filterMap k.entry?)
    (hnew : ∀ q ∈ pages, q.folded ≠ p.folded) (category : Category) :
    nav.isRegistered (k.pageRef p) category = false := by
  unfold Navigation.isRegistered
  rw [List.any_eq_false]
  intro e he hsame
  rw [hnav] at he
  obtain ⟨q, hq, hentry⟩ := List.mem_filterMap.1 he
  simp only [Bool.and_eq_true, beq_iff_eq] at hsame
  rw [Task.page_of_entry? hentry] at hsame
  exact hnew q hq (congrArg Text.lowercase (Address.pageRef_injective hsame.1))

/-- A new page gets its entry behind those of the pages before it. -/
theorem entries_register {nav : Navigation} (hnav : nav.entries = pages.filterMap k.entry?)
    (hnew : ∀ q ∈ pages, q.folded ≠ p.folded) :
    (register nav (k.model.item p.item).toDeclaration (k.model.pageTitle p.item) (k.pageRef p)
      (k.ownerRef p.visit)).entries = (pages ++ [p]).filterMap k.entry? := by
  rw [List.filterMap_append, ← hnav, register]
  split_ifs with hskip
  · simp [Task.entry?, hskip]
  · rw [Navigation.add, not_isRegistered hnav hnew]
    simp [Task.entry?, hskip]

/-! ## Finishing a page -/

/-- The state after a page was put in its file. -/
theorem Walk.After.finishPage (h : w.After k t pages) (hsound : k.Sound (pages ++ [p]))
    (hfront : k.Sound pages) (howned : Task.Owned pages p.visit) {b : Bool} {u : FileTree}
    (hwrite : writePage w.tree (k.path p) p.text = (.ok b, u)) :
    ({ w with tree := u, claimed := (p.folded, p.item) :: w.claimed }.finishPage k p.visit p.address
      (k.model.pageTitle p.item) p.size b).After k t (pages ++ [p]) := by
  obtain ⟨hb, hplaces⟩ := places_writePage hwrite
  have hnew : ∀ q ∈ pages, q.folded ≠ p.folded := by
    have hdistinct := hsound.distinct
    rw [List.map_append, List.nodup_append] at hdistinct
    exact fun q hq => hdistinct.2.2 q.folded (List.mem_map_of_mem hq) p.folded (by simp)
  have hold : (k.treeAfter t pages).hasText (k.path p) p.text = !b := by
    rw [← h.tree, hb, Bool.not_not]
  refine ⟨?_, h.filed.concat hplaces (hsound.place_ne t), h.cache, ?_, ?_, ?_, ?_, ?_, ?_, ?_⟩
  · rw [Task.treeAfter_concat, ← h.tree, hwrite]
    rfl
  · simp [Walk.finishPage, h.claimed, Emission.claims]
  · simp [Walk.finishPage, h.pageRefs, Task.refs, Task.pageRef, Emission.item]
  · rw [← entries_register h.entries hnew, ← howned.ownerRef hfront, ← h.pageRefs]
    rfl
  · rw [Task.outdated_concat, hold, List.length_append, ← h.written]
    cases b <;> rfl
  · intro hroot hground
    have hsafe := hsound.isSafe (List.mem_append_right _ (List.mem_singleton_self p))
    rw [Task.outdated_concat, h.outdated hroot hground, ← h.tree,
      h.filed.hasText_eq hroot hground hsafe (hsound.place_ne t), List.filter_append]
    cases hhas : t.hasText (k.path p) p.text <;> simp [hhas]
  · have := h.count
    rw [List.length_append, List.length_singleton]
    cases b <;> simp only [Walk.finishPage] <;> simp <;> omega
  · rw [Emission.total_concat, ← h.total]
    rfl

/-! ## The checks of a visit -/

/-- A visit ends the walk with an error about its item and changes neither the files nor the
    navigation. -/
structure Walk.Stops (k : Task) (w : Walk) (v : Visit) (e : Error) (w' : Walk) : Prop where
  item : e.item = some (k.model.canonicalName v.item)
  tree : w'.tree = w.tree
  navigation : w'.navigation = w.navigation

/-- The last part of a visit: a page that passed all checks is put in its file, with another cache. -/
def Walk.store (w : Walk) (k : Task) (p : Emission) (cache : ResolutionCache) :
    Except Error Unit × Walk :=
  let w := { w with claimed := (p.folded, p.item) :: w.claimed, cache }
  match writePage w.tree (k.path p) p.text with
  | (.error e, tree) => (.error e, { w with tree })
  | (.ok written, tree) =>
    (.ok (), { w with tree }.finishPage k p.visit p.address (k.model.pageTitle p.item) p.size written)

/-- A page is put in its file unless the file system prevents it. -/
theorem Walk.After.store (h : w.After k t pages) (hsound : k.Sound (pages ++ [p]))
    (hfront : k.Sound pages) (howned : Task.Owned pages p.visit) {cache : ResolutionCache}
    (hcache : Resolves k.model cache) :
    (∃ e w', w.store k p cache = (.error e, w') ∧ e.kind = .io) ∨
      ∃ w', w.store k p cache = (.ok (), w') ∧ w'.After k t (pages ++ [p]) := by
  have h' : { w with cache }.After k t pages :=
    ⟨h.tree, h.filed, hcache, h.claimed, h.pageRefs, h.entries, h.written, h.outdated, h.count, h.total⟩
  unfold Walk.store
  dsimp only
  split
  · next e tree hwrite => exact Or.inl ⟨e, _, rfl, kind_of_writePage hwrite⟩
  · next written tree hwrite => exact Or.inr ⟨_, rfl, h'.finishPage hsound hfront howned hwrite⟩

theorem Walk.store_of_hasText (h : w.tree.hasText (k.path p) p.text = true)
    (cache : ResolutionCache) : ∃ w', w.store k p cache = (.ok (), w') := by
  unfold Walk.store
  dsimp only
  rw [writePage_of_hasText h]
  exact ⟨_, rfl⟩

/-- A walk renders the page that its task describes. -/
theorem Walk.After.render (h : w.After k t pages) (id : Nat) :
    k.renderer (Page.ofItem k.model k.settings.pageBase w.pageRefs id)
        (linksOf k.model k.settings.pageBase (resolveAll k.model w.cache
          (Page.ofItem k.model k.settings.pageBase w.pageRefs id).links).1) = k.text pages id := by
  rw [linksOf_resolveAll h.cache, h.pageRefs]
  rfl

/-- A page that breaks a limit is too large, or else all pages together are. -/
theorem exceeded?_eq_some {limits : Limits} {total size : Nat} {kind : ErrorKind} {detail : String}
    (h : exceeded? limits total size = some (kind, detail)) :
    (kind = .fileTooLarge ∧ limits.maxFileBytes < size) ∨
      (kind = .totalSizeExceeded ∧ size ≤ limits.maxFileBytes ∧
        limits.maxTotalBytes < total + size) := by
  unfold exceeded? at h
  split_ifs at h with hfile htotal
  · exact Or.inl ⟨(Prod.mk.inj (Option.some.inj h)).1.symm, hfile⟩
  · exact Or.inr ⟨(Prod.mk.inj (Option.some.inj h)).1.symm, Nat.le_of_not_lt hfile, htotal⟩

theorem exceeded?_eq_none {limits : Limits} {total size : Nat}
    (h : exceeded? limits total size = none) :
    size ≤ limits.maxFileBytes ∧ total + size ≤ limits.maxTotalBytes := by
  unfold exceeded? at h
  split_ifs at h with hfile htotal
  exact ⟨Nat.le_of_not_lt hfile, Nat.le_of_not_lt htotal⟩

namespace Task

/-- A check is the first one that fails if all checks before it in the list are passed. -/
theorem failsFirst_of_passed {kind : ErrorKind} (front : List ErrorKind) {back : List ErrorKind}
    (hlist : checks = front ++ kind :: back) (h : k.Fails pages v kind)
    (hfront : ∀ earlier ∈ front, ¬ k.Fails pages v earlier) : k.FailsFirst pages v kind :=
  ⟨h, front, back, hlist, hfront⟩

theorem not_invalidPath {a : Address} (ha : k.model.address v.item = .ok a) :
    ¬ k.Fails pages v .invalidPath := by
  rintro ⟨-, e, he⟩
  rw [ha] at he
  cases he

theorem not_pathCollision {a : Address} (ha : k.model.address v.item = .ok a)
    (hnew : ∀ q ∈ pages, q.folded ≠ Text.lowercase a.toText) : ¬ k.Fails pages v .pathCollision := by
  rintro ⟨-, b, hb, q, hq, hsame⟩
  rw [ha] at hb
  cases hb
  exact hnew q hq hsame

theorem not_render {s : String} (hs : k.text pages v.item = .ok s) : ¬ k.Fails pages v .render := by
  rintro ⟨-, e, he⟩
  rw [hs] at he
  cases he

theorem not_fileTooLarge {s : String} (hs : k.text pages v.item = .ok s)
    (hfile : s.utf8ByteSize ≤ k.settings.limits.maxFileBytes) : ¬ k.Fails pages v .fileTooLarge := by
  rintro ⟨-, s', hs', hlt⟩
  rw [hs] at hs'
  cases hs'
  omega

theorem not_totalSizeExceeded {s : String} (hs : k.text pages v.item = .ok s)
    (htotal : Emission.total pages + s.utf8ByteSize ≤ k.settings.limits.maxTotalBytes) :
    ¬ k.Fails pages v .totalSizeExceeded := by
  rintro ⟨-, s', hs', hlt⟩
  rw [hs] at hs'
  cases hs'
  omega

/-- Only the checks in the list can be failed. -/
theorem passes_of_checks (h : ∀ kind ∈ checks, ¬ k.Fails pages v kind) : k.Passes pages v := by
  intro kind hfails
  cases kind with
  | timeExceeded | io | manifest => exact hfails
  | _ => exact h _ (by decide) hfails

end Task

/-! ## The cases of a visit -/

/-- What rendering and storing the page of an item with a new address comes to. -/
theorem writeItem_cases (h : w.After k t pages) {a : Address} (hpage : k.HasPage v.item)
    (ha : k.model.address v.item = .ok a) (hdepth : ¬ k.Fails pages v .depthExceeded)
    (hnew : ∀ q ∈ pages, q.folded ≠ Text.lowercase a.toText) :
    let w₁ : Walk := { w with claimed := (Text.lowercase a.toText, v.item) :: w.claimed }
    (∃ e w', w₁.writeItem k v a = (.error e, w') ∧ w.Stops k v e w' ∧ k.FailsFirst pages v e.kind) ∨
      ∃ p cache, k.Passes pages v ∧ k.emission? pages v = some p ∧ Resolves k.model cache ∧
        w₁.writeItem k v a = w.store k p cache := by
  intro w₁
  -- the address is claimed already, but an error ends the walk, so nothing sees that claim
  have haddress : ¬ k.Fails pages v .invalidPath := Task.not_invalidPath ha
  have hcollision : ¬ k.Fails pages v .pathCollision := Task.not_pathCollision ha hnew
  have hrender := h.render v.item
  unfold Walk.writeItem
  dsimp only [w₁]
  rw [hrender]
  cases hs : k.text pages v.item with
  | error e =>
    refine Or.inl ⟨_, _, rfl, ⟨rfl, rfl, rfl⟩, ?_⟩
    refine Task.failsFirst_of_passed [.depthExceeded, .invalidPath, .pathCollision] rfl ⟨hpage, e, hs⟩ ?_
    simp [hdepth, haddress, hcollision]
  | ok s =>
    have hrendered : ¬ k.Fails pages v .render := Task.not_render hs
    dsimp only
    split
    · next kind detail hexceeded =>
      refine Or.inl ⟨_, _, rfl, ⟨rfl, rfl, rfl⟩, ?_⟩
      rw [h.total] at hexceeded
      rcases exceeded?_eq_some hexceeded with ⟨rfl, hlt⟩ | ⟨rfl, hle, hlt⟩
      · refine Task.failsFirst_of_passed [.depthExceeded, .invalidPath, .pathCollision, .render] rfl
          ⟨hpage, s, hs, hlt⟩ ?_
        simp [hdepth, haddress, hcollision, hrendered]
      · have hfile : ¬ k.Fails pages v .fileTooLarge := Task.not_fileTooLarge hs hle
        refine Task.failsFirst_of_passed
          [.depthExceeded, .invalidPath, .pathCollision, .render, .fileTooLarge] rfl
          ⟨hpage, s, hs, hlt⟩ ?_
        simp [hdepth, haddress, hcollision, hrendered, hfile]
    · next hexceeded =>
      rw [h.total] at hexceeded
      obtain ⟨hfile, htotal⟩ := exceeded?_eq_none hexceeded
      have hpasses : k.Passes pages v := by
        refine Task.passes_of_checks ?_
        simp [Task.checks, hdepth, haddress, hcollision, hrendered, Task.not_fileTooLarge hs hfile,
          Task.not_totalSizeExceeded hs htotal]
      obtain ⟨a', s', ha', hs', hp⟩ := hpasses.emission? hpage
      rw [ha] at ha'
      rw [hs] at hs'
      cases ha'
      cases hs'
      exact Or.inr ⟨_, _, hpasses, hp, (resolveAll_eq h.cache _).2, rfl⟩

/-- A visit stops at the first check that it fails, or has no page to make, or puts its page in a
    file. -/
theorem visit_cases (h : w.After k t pages) (v : Visit) :
    (∃ e w', w.visit k v = (.error e, w') ∧ w.Stops k v e w' ∧
      (k.settings.limits.maxDurationSecs = 0 ∧ e.kind = .timeExceeded ∨
        k.FailsFirst pages v e.kind)) ∨
    (k.Passes pages v ∧ ¬ k.HasPage v.item ∧ w.visit k v = (.ok (), w)) ∨
    ∃ p cache, k.Passes pages v ∧ k.emission? pages v = some p ∧ Resolves k.model cache ∧
      w.visit k v = w.store k p cache := by
  unfold Walk.visit
  split_ifs with hdepth htime hpage
  · refine Or.inl ⟨_, _, rfl, ⟨rfl, rfl, rfl⟩, Or.inr ?_⟩
    exact Task.failsFirst_of_passed [] rfl hdepth (by simp)
  · exact Or.inl ⟨_, _, rfl, ⟨rfl, rfl, rfl⟩, Or.inl ⟨by simpa using htime, rfl⟩⟩
  · unfold Walk.emit
    dsimp only
    cases ha : k.model.address v.item with
    | error e =>
      refine Or.inl ⟨_, _, rfl, ⟨rfl, rfl, rfl⟩, Or.inr ?_⟩
      refine Task.failsFirst_of_passed [.depthExceeded] rfl ⟨hpage, e, ha⟩ ?_
      simpa [Task.Fails] using hdepth
    | ok a =>
      dsimp only
      split
      · next other hclaimed =>
        refine Or.inl ⟨_, _, rfl, ⟨rfl, rfl, rfl⟩, Or.inr ?_⟩
        have hused : ∃ q ∈ pages, q.folded = Text.lowercase a.toText := by
          by_contra hnone
          rw [h.claimed, Emission.lookup_claims_eq_none.2 fun q hq hsame => hnone ⟨q, hq, hsame⟩]
            at hclaimed
          cases hclaimed
        refine Task.failsFirst_of_passed [.depthExceeded, .invalidPath] rfl ⟨hpage, a, ha, hused⟩ ?_
        have hshallow : ¬ k.Fails pages v .depthExceeded := hdepth
        have hvalid : ¬ k.Fails pages v .invalidPath := Task.not_invalidPath ha
        simp [hshallow, hvalid]
      · next hfree =>
        rw [h.claimed, Emission.lookup_claims_eq_none] at hfree
        rcases writeItem_cases h hpage ha hdepth hfree with ⟨e, w', heq, hstops, hfails⟩ | hstore
        · exact Or.inl ⟨e, w', heq, hstops, Or.inr hfails⟩
        · exact Or.inr (Or.inr hstore)
  · refine Or.inr (Or.inl ⟨fun kind hfails => ?_, hpage, rfl⟩)
    cases kind with
    | depthExceeded => exact hdepth hfails
    | timeExceeded | io | manifest => exact hfails
    | _ => exact hpage hfails.1

end ReferenceSite.Generation
