import ReferenceSite.Page
import ReferenceSite.Page.FrontMatter
import ReferenceSite.Template

/-!
# The view of a page

Everything that a template shows is prepared before the template runs: texts are escaped, links are
resolved, code is fenced, and a missing comment counts as an empty one. A template therefore only decides
about the layout. The page itself is available as well, under the name `page`.
-/

namespace ReferenceSite

/-- A parameter, prepared for a table. -/
structure ParamView where
  /-- The name as code. -/
  name : String
  /-- The description as a cell. -/
  description : String
deriving DecidableEq, Repr, Inhabited

/-- A member, prepared for a table or for a list. -/
structure MemberView where
  /-- The name: as code in a table, as text in a list. -/
  name : String
  /-- The address of the member's page, if it has one. -/
  address : Option String
  /-- The summary: as a cell in a table, as text in a list. -/
  summary : String
deriving DecidableEq, Repr, Inhabited

/-- Members under one heading. -/
structure SectionView where
  /-- The heading. -/
  title : String
  /-- The members go into a table. -/
  inline : Bool
  /-- The members. -/
  members : List MemberView
deriving DecidableEq, Repr, Inhabited

/-- The prepared parts of a page. -/
structure PageView where
  /-- The front matter, which ends with a line break. -/
  frontMatter : String
  /-- The way to the page. -/
  breadcrumb : String
  /-- The release badge. -/
  badge : Option String
  /-- The notice of a deprecated item. -/
  deprecated : Option String
  /-- The summary. -/
  summary : String
  /-- The signature as a block of code; empty if it is blank. -/
  signature : String
  /-- The remarks. -/
  remarks : String
  /-- The parameters. -/
  params : List ParamView
  /-- What is returned. -/
  returns : String
  /-- The member sections. -/
  sections : List SectionView
  /-- The examples as blocks of code. -/
  examples : List String
  /-- What else to read. -/
  see : List String
deriving DecidableEq, Repr, Inhabited

namespace Page

/-- A step of the way to a page. -/
def crumbText (c : Crumb) : String :=
  match c.address with
  | some address => Mdx.link (Mdx.escape c.name) address
  | none => Mdx.escape c.name

/-- A member under a heading. -/
def memberView (links : Links) (inline : Bool) (m : MemberEntry) : MemberView :=
  let summary := Mdx.renderNodes links m.item m.summary
  if inline then
    { name := Mdx.codeSpan m.name, address := none, summary := Mdx.tableCell summary }
  else { name := Mdx.escape m.name, address := m.address, summary }

/-- The members under a heading. -/
def sectionView (links : Links) (s : MemberSection) : SectionView where
  title := s.title
  inline := s.inline
  members := s.members.map (memberView links s.inline)

/-- The signature of a page. -/
def signatureText (language : String) (tokens : List Excerpt.Token) : String :=
  let text := Excerpt.text tokens
  if Text.isBlankText text then "" else Mdx.codeBlock text language

/-- The view of a page, with code in a given language. -/
def view (language : String) (links : Links) (p : Page) : PageView :=
  let docs := p.docs.getD {}
  let text := Mdx.renderNodes links p.item
  { frontMatter := FrontMatter.render p.title p.description p.icon
    breadcrumb := String.intercalate " / " (p.breadcrumb.map crumbText)
    badge := p.releaseTag.badge
    deprecated := docs.deprecated.map text
    summary := text docs.summary
    signature := signatureText language p.signature
    remarks := text docs.remarks
    params := docs.params.map fun param =>
      { name := Mdx.codeSpan param.name, description := Mdx.tableCell (text param.description) }
    returns := text docs.returns
    sections := p.sections.map (sectionView links)
    examples := docs.examples.map fun code => Mdx.codeBlock code language
    see := docs.see.map text }

end Page

/-! ## Template values -/

namespace Template.Value

/-- A list of texts. -/
def texts (ss : List String) : Value := list (ss.map text)

/-- A record without the fields that are missing. -/
def present (fields : List (Option (String × Value))) : Value := record (fields.filterMap id)

/-- A reference. -/
def ofReference (r : Reference) : Value :=
  present
    [r.package.map fun p => ("package", text p), some ("members", texts r.members),
      r.overload.map fun n => ("overload", int n.toNat)]

/-- A node of a documentation text. -/
def ofNode : Doc.Node → Value
  | .text t => record [("kind", text "text"), ("text", text t)]
  | .code c => record [("kind", text "code"), ("code", text c)]
  | .link target shown =>
    present
      [some ("kind", text "link"), some ("target", ofReference target),
        shown.map fun t => ("text", text t)]
  | .paragraph => record [("kind", text "paragraph")]

/-- A documentation text. -/
def ofNodes (nodes : List Doc.Node) : Value := list (nodes.map ofNode)

/-- A documentation comment. -/
def ofComment (c : Doc.Comment) : Value :=
  present
    [some ("summary", ofNodes c.summary), some ("remarks", ofNodes c.remarks),
      some ("params", list (c.params.map fun p =>
        record [("name", text p.name), ("description", ofNodes p.description)])),
      some ("returns", ofNodes c.returns), some ("examples", texts c.examples),
      c.deprecated.map fun nodes => ("deprecated", ofNodes nodes),
      some ("see", list (c.see.map ofNodes))]

/-- A token of a signature. -/
def ofToken (t : Excerpt.Token) : Value :=
  present
    [some ("kind", text t.kind.name), some ("text", text t.text),
      t.canonicalReference.map fun r => ("canonicalReference", ofReference r)]

/-- A page. -/
def ofPage (p : Page) : Value :=
  record
    [("item", int p.item), ("kind", text p.kind.name), ("title", text p.title),
      ("description", text p.description), ("icon", text p.icon),
      ("release_tag", text p.releaseTag.name),
      ("breadcrumb", list (p.breadcrumb.map fun c =>
        record [("name", text c.name), ("href", ofOption c.address)])),
      ("signature", list (p.signature.map ofToken)),
      ("docs", (p.docs.map ofComment).getD none),
      ("sections", list (p.sections.map fun s =>
        record
          [("title", text s.title), ("inline", bool s.inline),
            ("members", list (s.members.map fun m =>
              record
                [("item", int m.item), ("name", text m.name), ("href", ofOption m.address),
                  ("summary", ofNodes m.summary)]))]))]

/-- A prepared member. -/
def ofMember (m : MemberView) : Value :=
  record [("name", text m.name), ("href", ofOption m.address), ("summary", text m.summary)]

/-- Prepared members under a heading. -/
def ofSection (s : SectionView) : Value :=
  record
    [("title", text s.title), ("inline", bool s.inline), ("members", list (s.members.map ofMember))]

/-- A prepared parameter. -/
def ofParam (p : ParamView) : Value :=
  record [("name", text p.name), ("description", text p.description)]

end Template.Value

open Template.Value in
/-- The variables of a page template. -/
def PageView.templateVariables (v : PageView) (p : Page) : List (String × Template.Value) :=
  [("page", ofPage p), ("frontmatter", text v.frontMatter), ("breadcrumb", text v.breadcrumb),
    ("badge", ofOption v.badge), ("deprecated", ofOption v.deprecated), ("summary", text v.summary),
    ("signature", text v.signature), ("remarks", text v.remarks),
    ("params", list (v.params.map ofParam)), ("returns", text v.returns),
    ("sections", list (v.sections.map ofSection)), ("examples", texts v.examples),
    ("see", texts v.see)]

end ReferenceSite
