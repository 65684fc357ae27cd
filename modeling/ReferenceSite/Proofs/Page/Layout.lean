import ReferenceSite.Proofs.Page.Templates
import ReferenceSite.Proofs.Template.Printing
import ReferenceSite.Proofs.Text.Trim

/-!
# The text of a page

With the templates that come with the library, the text of a page is its front matter and, below it, a list
of blocks with an empty line before each (`PageView.written`). A block is there exactly if its part of the page
has content, and it shows the prepared strings as they are, one row or bullet for each element of a list.
-/

namespace ReferenceSite

open Template Text

/-! ## Blocks -/

/-- A row of a table with two cells. -/
def tableRow (left right : String) : String := "| " ++ left ++ " | " ++ right ++ " |\n"

/-- The name of a member, as a link if the member has an address. -/
def MemberView.shown (m : MemberView) : String :=
  match m.address with
  | some address => if address.isEmpty then m.name else "[" ++ m.name ++ "](" ++ address ++ ")"
  | none => m.name

/-- The line of a list for a member: its name, and the summary if there is one. -/
def MemberView.bullet (m : MemberView) : String :=
  "- " ++ m.shown ++ (if m.summary.isEmpty then "" else ": " ++ m.summary) ++ "\n"

/-- The members under a heading, in a table or in a list. -/
def SectionView.listing (s : SectionView) : String :=
  if s.inline then
    "| Member | Description |\n| --- | --- |\n" ++
      String.join (s.members.map fun m => tableRow m.name m.summary)
  else String.join (s.members.map MemberView.bullet)

/-- A part of a page that has content. -/
inductive Block where
  | breadcrumb (s : String)
  | badge (s : String)
  | deprecated (s : String)
  | summary (s : String)
  | signature (s : String)
  | remarks (s : String)
  | parameters (params : List ParamView)
  | returns (s : String)
  | members (s : SectionView)
  | examples (codes : List String)
  | seeAlso (entries : List String)

/-- The lines of a block. -/
def Block.text : Block → String
  | breadcrumb s => s ++ "\n"
  | badge s => "<Badge>" ++ s ++ "</Badge>\n"
  | deprecated s => "<Warning>\n**Deprecated.** " ++ s ++ "\n</Warning>\n"
  | summary s => s ++ "\n"
  | signature s => s ++ "\n"
  | remarks s => "## Remarks\n\n" ++ s ++ "\n"
  | parameters params => "## Parameters\n\n| Parameter | Description |\n| --- | --- |\n" ++
      String.join (params.map fun p => tableRow p.name p.description)
  | returns s => "## Returns\n\n" ++ s ++ "\n"
  | members s => "## " ++ s.title ++ "\n\n" ++ s.listing
  | examples codes => "## Examples\n\n" ++ String.intercalate "\n\n" codes ++ "\n"
  | seeAlso entries => "## See Also\n\n" ++ String.join (entries.map fun e => "- " ++ e ++ "\n")

/-- The block of a text, if that is not empty. -/
def ifAny (s : String) (block : String → Block) : List Block := if s.isEmpty then [] else [block s]

/-- The block of a list, if that is not empty. -/
def ifSome {α : Type} (as : List α) (block : List α → Block) : List Block :=
  if as.isEmpty then [] else [block as]

namespace PageView

/-- The blocks before the last one. -/
def leadingBlocks (v : PageView) : List Block :=
  ifAny v.breadcrumb .breadcrumb ++ ifAny (v.badge.getD "") .badge ++
    ifAny (v.deprecated.getD "") .deprecated ++ ifAny v.summary .summary ++
    ifAny v.signature .signature ++ ifAny v.remarks .remarks ++ ifSome v.params .parameters ++
    ifAny v.returns .returns ++ v.sections.map .members ++ ifSome v.examples .examples

/-- The blocks of a page, in order. -/
def blocks (v : PageView) : List Block := v.leadingBlocks ++ ifSome v.see .seeAlso

/-- The text of a page: the front matter between lines of hyphens, and the blocks with an empty line before
    each. -/
def written (v : PageView) : String :=
  "---\n" ++ v.frontMatter ++ "---\n" ++ String.join (v.blocks.map fun b => "\n" ++ b.text)

end PageView

/-! ## Parts of the template -/

namespace Layout

variable {library : Library} {depth : Nat} {vars : Variables} {name : String}

/-- Blocks with an empty line behind each. -/
def spaced (bs : List Block) : String := String.join (bs.map fun b => b.text ++ "\n")

section Members

variable {m : MemberView} {s : SectionView}

end Members

/-! ## The page -/

variable {v : PageView} {p : Page}

end Layout

/-! ## The front matter -/

namespace FrontMatter

end FrontMatter

/-! ## Rendering -/

/-- The text of a page without the line break at its end shows the view of the page. It is the text with all
    blocks, but for blank characters at the end, and its last character is not blank. The front matter ends its
    last line, so that the hyphens behind it are on a line of their own. -/
structure Page.LaidOut (page : Page) (language : String) (links : Links) (body : String) : Prop where
  text : ∃ blanks, (page.view language links).written.toList = body.toList ++ blanks ∧
    ∀ c ∈ blanks, isBlank c = true
  last : ∃ c, body.toList.getLast? = some c ∧ isBlank c = false
  frontMatter : ∃ c, (page.view language links).frontMatter.toList.getLast? = some c ∧
    FrontMatter.isBreak c = true ∧ (c = '\n' ∨ page.icon.toList.getLast? = some c)

end ReferenceSite
