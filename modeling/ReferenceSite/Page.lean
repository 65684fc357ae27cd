import ReferenceSite.Kind
import ReferenceSite.Mdx

/-!
# Pages

A page is everything that a renderer needs to know about one item. `Page.lookUps` are the questions that
its documentation asks: the targets of all links on the page, each from the item whose text holds it, in
the order in which they are written.
-/

namespace ReferenceSite

/-- A step of the way from the top of the site to a page. -/
structure Crumb where
  /-- The name to show. -/
  name : String
  /-- The address, unless the step is the page itself or has no page. -/
  address : Option String := none
deriving DecidableEq, Repr, Inhabited

/-- A member that is listed on the page of its owner. -/
structure MemberEntry where
  /-- The member, from which the links of its summary are seen. -/
  item : Nat
  /-- The name to show. -/
  name : String
  /-- The address of the member's page, if it has one. -/
  address : Option String := none
  /-- The summary of its documentation. -/
  summary : List Doc.Node := []
deriving DecidableEq, Repr, Inhabited

/-- Members listed under one heading. -/
structure MemberSection where
  /-- The heading. -/
  title : String
  /-- The members are described in a table and have no pages. -/
  inline : Bool := false
  /-- The members. -/
  members : List MemberEntry := []
deriving DecidableEq, Repr, Inhabited

/-- What is shown on a page. -/
structure Page where
  /-- The documented item, from which the links of its documentation are seen. -/
  item : Nat
  /-- The kind of the item. -/
  kind : Kind
  /-- The title. -/
  title : String
  /-- A plain text of one line. -/
  description : String
  /-- The name of the icon. -/
  icon : String
  /-- The release tag of the item. -/
  releaseTag : ReleaseTag := .untagged
  /-- The way from the top of the site to the page, the page included. -/
  breadcrumb : List Crumb := []
  /-- The signature. -/
  signature : List Excerpt.Token := []
  /-- The documentation comment. -/
  docs : Option Doc.Comment := none
  /-- The members, under one or more headings. -/
  sections : List MemberSection := []
deriving DecidableEq, Repr, Inhabited

namespace Page

/-- The targets of the links among nodes. -/
def targets (nodes : List Doc.Node) : List Reference :=
  nodes.filterMap fun
    | .link target _ => some target
    | _ => none

/-- The texts of the documentation, in the order in which they are written. -/
def texts (c : Doc.Comment) : List (List Doc.Node) :=
  c.deprecated.toList ++ [c.summary, c.remarks] ++ c.params.map Doc.Param.description ++ [c.returns]

/-- The links of a page with the items from which they are seen, in the order in which they are written. -/
def links (p : Page) : List (Reference × Nat) :=
  let own := fun nodes => (targets nodes).map fun r => (r, p.item)
  let docs := p.docs.getD {}
  (texts docs).flatMap own
    ++ p.sections.flatMap (fun s => s.members.flatMap fun m =>
      (targets m.summary).map fun r => (r, m.item))
    ++ docs.see.flatMap own

end Page

end ReferenceSite
