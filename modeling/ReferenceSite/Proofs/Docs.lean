import ReferenceSite.Docs
import ReferenceSite.Proofs.Json.Respelled

/-!
# Documentation read back

Documentation and excerpts that were written as JSON are read back as they were. In the written value any of
the references, which are targets of links and names of declarations, may be given by a text: what is read
is the same exactly if each text is read as the reference in whose place it stands, and nothing is read
exactly if some text is no reference (`documentation_reread`).
-/

namespace ReferenceSite

open Json

namespace Doc

variable {changes : List Change} {w : Json}

theorem Node.ofJson?_link {target : Json} (hreadable : target.isReadable = true) (shown : Option String) :
    Node.ofJson? (.present [some ("kind", .str "link"), some ("target", target),
      shown.map fun t => ("text", .str t)]) = (Reference.ofEitherForm? target).map (link · shown) := by
  cases hread : Reference.ofEitherForm? target <;> cases shown <;>
    simp [Node.ofJson?, present, isReadable, membersReadable, split?, objectFields?, required, find?, string?,
      fields?, fieldsOfKind?, hreadable, hread, Json.optional, withDefault, nullable_of_ne_null, Seq.seq]

theorem Node.readAs {n : Node} (h : Respelled changes n.toJson w) : ReadAs (Node.ofJson? w) n changes := by
  cases n with
  | text _ | code _ | paragraph =>
    refine Fixed.readAs (fixed_obj ?_) ?_ h
    · simp [referenceKeys, fixed_str]
    · simp [Node.ofJson?, isReadable, membersReadable, split?, objectFields?, required, find?, string?,
        fields?, fieldsOfKind?]
  | link target shown =>
    obtain ⟨_, rfl, hmembers⟩ := respelled_obj.1 h
    obtain ⟨_, _, _, _, rfl, rfl, hkind, hrest⟩ := (respelledMembers_cons (by decide)).1 hmembers
    obtain ⟨rfl, rfl⟩ := fixed_str _ _ _ hkind
    obtain ⟨_, _, v, _, rfl, rfl, htarget, htext⟩ := (respelledMembers_reference (by decide)).1 hrest
    obtain ⟨rfl, rfl⟩ := fixed_members (by cases shown <;> simp [referenceKeys, fixed_str]) htext
    have hread := htarget.readAs.map (f := (link · shown)) fun _ _ h => (Node.link.inj h).1
    rw [← ofJson?_link htarget.isReadable] at hread
    rw [List.nil_append, List.append_nil]
    exact hread

theorem readAs_nodes {nodes : List Node} (h : Respelled changes (nodesToJson nodes) w) :
    ReadAs (nodesOfJson? w) nodes changes :=
  readAs_list (fun _ _ _ _ => Node.readAs) h

theorem Param.readAs {p : Param} (h : Respelled changes p.toJson w) :
    ReadAs (Param.ofJson? w) p changes := by
  obtain ⟨_, rfl, hmembers⟩ := respelled_obj.1 h
  obtain ⟨_, _, _, _, rfl, rfl, hname, hrest⟩ := (respelledMembers_cons (by decide)).1 hmembers
  obtain ⟨rfl, rfl⟩ := fixed_str _ _ _ hname
  obtain ⟨_, _, v, _, rfl, rfl, hdescription, hnil⟩ := (respelledMembers_cons (by decide)).1 hrest
  obtain ⟨rfl, rfl⟩ := respelledMembers_nil.1 hnil
  rw [List.nil_append, List.append_nil]
  have hread : Param.ofJson? (.obj [("name", .str p.name), ("description", v)]) =
      (nodesOfJson? v).map (Param.mk p.name) := by
    cases hnodes : nodesOfJson? v <;>
      simp [Param.ofJson?, fields?, objectFields?, required, withDefault, find?, string?, hnodes]
  rw [hread]
  exact (readAs_nodes hdescription).map fun _ _ h => (Param.mk.inj h).2

/-- A comment that is put together of parts is read as its parts are. -/
theorem readAs_comment {c : Comment} {summary remarks returns : Option (List Node)}
    {params : Option (List Param)} {examples : Option (List String)}
    {deprecated : Option (Option (List Node))} {see : Option (List (List Node))}
    {c₁ c₂ c₃ c₄ c₅ c₆ c₇ : List Change} (hsummary : ReadAs summary c.summary c₁)
    (hremarks : ReadAs remarks c.remarks c₂) (hparams : ReadAs params c.params c₃)
    (hreturns : ReadAs returns c.returns c₄) (hexamples : ReadAs examples c.examples c₅)
    (hdeprecated : ReadAs deprecated c.deprecated c₆) (hsee : ReadAs see c.see c₇) :
    ReadAs (do return ({
        summary := ← summary, remarks := ← remarks, params := ← params, returns := ← returns
        examples := ← examples, deprecated := ← deprecated, see := ← see } : Comment))
      c (c₁ ++ (c₂ ++ (c₃ ++ (c₄ ++ (c₅ ++ (c₆ ++ c₇)))))) := by
  obtain ⟨_, _, _, _, _, _, _⟩ := c
  constructor
  · simp only [List.forall_mem_append, ← hsummary.same, ← hremarks.same, ← hparams.same, ← hreturns.same,
      ← hexamples.same, ← hdeprecated.same, ← hsee.same]
    simp [Option.bind_eq_some_iff]
  · simp only [List.forall_mem_append, ← hsummary.accepted, ← hremarks.accepted, ← hparams.accepted,
      ← hreturns.accepted, ← hexamples.accepted, ← hdeprecated.accepted, ← hsee.accepted]
    simp [Option.bind_eq_some_iff]

theorem Comment.readAs {c : Comment} (h : Respelled changes c.toJson w) :
    ReadAs (Comment.ofJson? w) c changes := by
  obtain ⟨_, rfl, hmembers⟩ := respelled_obj.1 h
  obtain ⟨_, _, v₁, _, rfl, rfl, h₁, hrest⟩ := (respelledMembers_cons (by decide)).1 hmembers
  obtain ⟨_, _, v₂, _, rfl, rfl, h₂, hrest⟩ := (respelledMembers_cons (by decide)).1 hrest
  obtain ⟨_, _, v₃, _, rfl, rfl, h₃, hrest⟩ := (respelledMembers_cons (by decide)).1 hrest
  obtain ⟨_, _, v₄, _, rfl, rfl, h₄, hrest⟩ := (respelledMembers_cons (by decide)).1 hrest
  obtain ⟨_, _, v₅, _, rfl, rfl, h₅, hrest⟩ := (respelledMembers_cons (by decide)).1 hrest
  have hsummary := readAs_nodes h₁
  have hremarks := readAs_nodes h₂
  have hparams := readAs_list (fun _ _ _ _ => Param.readAs) h₃
  have hreturns := readAs_nodes h₄
  have hexamples := (fixed_texts c.examples).readAs (list?_texts _) h₅
  cases hnotice : c.deprecated with
  | none =>
    rw [hnotice] at hrest
    obtain ⟨_, _, v₇, _, rfl, rfl, h₇, hnil⟩ := (respelledMembers_cons (by decide)).1 hrest
    obtain ⟨rfl, rfl⟩ := respelledMembers_nil.1 hnil
    have hdeprecated : ReadAs (some none) c.deprecated [] := by
      rw [hnotice]
      exact readAs_some none
    have hsee := readAs_list (fun _ _ _ _ => readAs_nodes) h₇
    simpa [Comment.ofJson?, fields?, objectFields?, withDefault, find?, Json.optional] using
      readAs_comment hsummary hremarks hparams hreturns hexamples hdeprecated hsee
  | some nodes =>
    rw [hnotice] at hrest
    obtain ⟨changes, _, v₆, _, rfl, rfl, h₆, hrest⟩ := (respelledMembers_cons (by decide)).1 hrest
    obtain ⟨_, _, v₇, _, rfl, rfl, h₇, hnil⟩ := (respelledMembers_cons (by decide)).1 hrest
    obtain ⟨rfl, rfl⟩ := respelledMembers_nil.1 hnil
    have hdeprecated : ReadAs ((nodesOfJson? v₆).map some) c.deprecated changes := by
      rw [hnotice]
      exact (readAs_nodes h₆).map fun _ _ => Option.some.inj
    have hsee := readAs_list (fun _ _ _ _ => readAs_nodes) h₇
    obtain ⟨_, rfl, -⟩ := respelled_arr.1 h₆
    simpa [Comment.ofJson?, fields?, objectFields?, withDefault, find?, Json.optional, nullable] using
      readAs_comment hsummary hremarks hparams hreturns hexamples hdeprecated hsee

end Doc

namespace Excerpt

variable {changes : List Change} {w : Json}

theorem ofName?_name (kind : TokenKind) : TokenKind.ofName? kind.name = some kind := by
  cases kind <;> decide

theorem Token.readAs {t : Token} (h : Respelled changes t.toJson w) :
    ReadAs (Token.ofJson? w) t changes := by
  obtain ⟨kind, text, canonicalReference⟩ := t
  obtain ⟨_, rfl, hmembers⟩ := respelled_obj.1 h
  obtain ⟨_, _, _, _, rfl, rfl, hkind, hrest₁⟩ := (respelledMembers_cons (by decide)).1 hmembers
  obtain ⟨_, _, _, _, rfl, rfl, htext, hrest₂⟩ := (respelledMembers_cons (by decide)).1 hrest₁
  obtain ⟨rfl, rfl⟩ := fixed_str _ _ _ hkind
  obtain ⟨rfl, rfl⟩ := fixed_str _ _ _ htext
  cases canonicalReference with
  | none =>
    obtain ⟨rfl, rfl⟩ := respelledMembers_nil.1 hrest₂
    have hread : Token.ofJson? (.obj [("kind", .str kind.name), ("text", .str text)]) =
        some { kind, text } := by
      simp [Token.ofJson?, fields?, objectFields?, withDefault, find?, required, string?, word?,
        Json.optional, ofName?_name]
    rw [hread]
    exact readAs_some _
  | some target =>
    obtain ⟨_, _, v, _, rfl, rfl, htarget, hnil⟩ := (respelledMembers_reference (by decide)).1 hrest₂
    obtain ⟨rfl, rfl⟩ := respelledMembers_nil.1 hnil
    have hread : Token.ofJson?
        (.obj [("kind", .str kind.name), ("text", .str text), ("canonicalReference", v)]) =
          (Reference.ofEitherForm? v).map fun r => { kind, text, canonicalReference := some r } := by
      cases hreference : Reference.ofEitherForm? v <;>
        simp [Token.ofJson?, fields?, objectFields?, withDefault, find?, required, string?, word?,
          Json.optional, ofName?_name, nullable_of_ne_null _ htarget.ne_null, hreference]
    rw [hread, List.append_nil]
    exact htarget.readAs.map fun _ _ h => Option.some.inj (Token.mk.inj h).2.2

theorem readAs {tokens : List Token} (h : Respelled changes (toJson tokens) w) :
    ReadAs (ofJson? w) tokens changes :=
  readAs_list (fun _ _ _ _ => Token.readAs) h

end Excerpt

/-- Reading undoes writing. Where texts are put in the place of references, the same is read exactly if each
    text is read as the reference in whose place it stands, and nothing is read exactly if some text is read
    as no reference. -/
structure Rereads {α : Type} (write : α → Json) (read : Json → Option α) : Prop where
  written : ∀ a, read (write a) = some a
  same : ∀ a changes w, Respelled changes (write a) w →
    (read w = some a ↔ ∀ c ∈ changes, Reference.ofText? c.2 = .ok c.1)
  refused : ∀ a changes w, Respelled changes (write a) w →
    (read w = none ↔ ∃ c ∈ changes, ∃ e, Reference.ofText? c.2 = .error e)

theorem rereads_of_readAs {α : Type} {write : α → Json} {read : Json → Option α}
    (h : ∀ {a changes w}, Respelled changes (write a) w → ReadAs (read w) a changes) :
    Rereads write read := by
  refine ⟨fun a => ?_, fun a changes w hw => (h hw).same, fun a changes w hw => ?_⟩
  · exact (h (.same (write a))).same.2 (by simp)
  · exact (h hw).refused

/-- Lists of nodes, parameters, comments and excerpts are read back. -/
theorem documentation_reread :
    Rereads Doc.nodesToJson Doc.nodesOfJson? ∧ Rereads Doc.Param.toJson Doc.Param.ofJson? ∧
      Rereads Doc.Comment.toJson Doc.Comment.ofJson? ∧ Rereads Excerpt.toJson Excerpt.ofJson? :=
  ⟨rereads_of_readAs Doc.readAs_nodes, rereads_of_readAs Doc.Param.readAs,
    rereads_of_readAs Doc.Comment.readAs, rereads_of_readAs Excerpt.readAs⟩

/-- A notice of deprecation without text stays apart from none, and the target of a link in the notice may be
    given in the short form. -/
example :
    Doc.Comment.ofJson? { deprecated := some [] : Doc.Comment }.toJson = some { deprecated := some [] } ∧
      Doc.Comment.ofJson? (.obj [("deprecated", .arr [.obj [("kind", .str "link"),
        ("target", .str "pkg!Widget.render:2")]])]) =
          some { deprecated := some [.link ⟨some "pkg", ["Widget", "render"], some 2⟩ none] } := by
  decide +kernel

end ReferenceSite
