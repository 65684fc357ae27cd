import ReferenceSite.Template

/-!
# The layout of a page

The two templates that come with the library: the page, and the macro that lists the members of a section.
Both are given as trees. Every part of a page ends with an empty line; a part without content leaves no trace.
-/

namespace ReferenceSite.Layout

open Template

/-- The name of the page template. -/
def pageName : String := "page.mdx.j2"

/-- The name of the template with the macro for members. -/
def membersName : String := "members.mdx.j2"

/-- Parts that are there only if a value counts as true. -/
def whenTrue (e : Expr) (body : List Node) : Node := .branch [(e, body)] []

/-- A text to copy, if there is any. -/
def leading (s : String) : List Node := if s.isEmpty then [] else [.text s]

/-- A variable, between two texts, if it counts as true. -/
def part (before name after : String) : Node :=
  whenTrue (.var name) (leading before ++ [.print (.var name), .text after])

/-- A row of a table with two cells, which are attributes of a variable. -/
def row (name left right : String) : List Node :=
  [.text "| ", .print (.attribute (.var name) left), .text " | ",
    .print (.attribute (.var name) right), .text " |\n"]

/-- The table of parameters. -/
def parameters : Node :=
  whenTrue (.var "params")
    [.text "## Parameters\n\n| Parameter | Description |\n| --- | --- |\n",
      .loop "param" (.var "params") (row "param" "name" "description") [], .text "\n"]

/-- The member sections, each by the macro of the other template. -/
def memberSections : Node :=
  .loop "section" (.var "sections")
    [.print (.call (.attribute (.var "members") "section") [.var "section"]), .text "\n"] []

/-- The examples. -/
def examples : Node :=
  whenTrue (.var "examples")
    [.text "## Examples\n\n",
      .loop "example" (.var "examples") [.print (.var "example"), .text "\n\n"] []]

/-- What else to read. -/
def seeAlso : Node :=
  whenTrue (.var "see")
    [.text "## See Also\n\n",
      .loop "entry" (.var "see") [.text "- ", .print (.var "entry"), .text "\n"] []]

/-- The page template. -/
def page : List Node :=
  [.importAs (.text membersName) "members", .text "---\n", .print (.var "frontmatter"),
    .text "---\n\n", part "" "breadcrumb" "\n\n", part "<Badge>" "badge" "</Badge>\n\n",
    part "<Warning>\n**Deprecated.** " "deprecated" "\n</Warning>\n\n", part "" "summary" "\n\n",
    part "" "signature" "\n\n", part "## Remarks\n\n" "remarks" "\n\n", parameters,
    part "## Returns\n\n" "returns" "\n\n", memberSections, examples, seeAlso]

/-- The summary of a listed member, behind its name. -/
def memberSummary : Node :=
  whenTrue (.attribute (.var "member") "summary")
    [.text ": ", .print (.attribute (.var "member") "summary")]

/-- A listed member, with a link to its page if it has one. -/
def memberItem : Node :=
  .branch
    [(.attribute (.var "member") "href",
      [.text "- [", .print (.attribute (.var "member") "name"), .text "](",
        .print (.attribute (.var "member") "href"), .text ")", memberSummary, .text "\n"])]
    [.text "- ", .print (.attribute (.var "member") "name"), memberSummary, .text "\n"]

/-- The members of a section, in a table or in a list. -/
def listing : Node :=
  .branch
    [(.attribute (.var "section") "inline",
      [.text "| Member | Description |\n| --- | --- |\n",
        .loop "member" (.attribute (.var "section") "members") (row "member" "name" "summary") []])]
    [.loop "member" (.attribute (.var "section") "members") [memberItem] []]

/-- What the macro for members prints. -/
def sectionBody : List Node :=
  [.text "## ", .print (.attribute (.var "section") "title"), .text "\n\n", listing]

/-- The template with the macro for members. -/
def members : List Node := [.define "section" ["section"] sectionBody]

end ReferenceSite.Layout
