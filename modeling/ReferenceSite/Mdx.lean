import ReferenceSite.Docs

/-!
# MDX texts

In MDX braces open expressions and angle brackets open elements. Every text of a model passes through one
of the functions of this module before it reaches a page: `escape` for running text, `tableCell` for a cell,
`codeSpan` and `codeBlock` for code between backticks. A fence is always longer than any run of
backticks inside it, so code is never ended by its own content.
-/

namespace ReferenceSite

/-- The address that a link to a declaration leads to, as seen from a context item. -/
abbrev Links := Reference → (context : Nat) → Option String

namespace Mdx

/-- The backtick. -/
def backtick : Char := '\x60'

/-- How a character is written in running text. -/
def escapeChar (c : Char) : List Char :=
  match c.toNat with
  | 0x7B => ['\x5c', c]
  | 0x7D => ['\x5c', c]
  | 0x3C => ['&', 'l', 't', ';']
  | 0x3E => ['&', 'g', 't', ';']
  | _ => [c]

/-- Running text. -/
def escape (text : String) : String := .ofList (text.toList.flatMap escapeChar)

/-- How a character is written in the text of a link. -/
def escapeLinkChar (c : Char) : List Char :=
  if c == '[' || c == ']' then ['\x5c', c] else escapeChar c

/-- The text of a link. -/
def escapeLink (text : String) : String := .ofList (text.toList.flatMap escapeLinkChar)

/-- How a character is written in a table cell. -/
def escapeCellChar (c : Char) : List Char := if c == '|' then ['\x5c', c] else [c]

/-- The text of a table cell: on one line, with the bars escaped. -/
def tableCell (text : String) : String :=
  .ofList ((Text.collapse text.toList).flatMap escapeCellChar)

/-- The length of the longest run of backticks. -/
def longestRun (cs : List Char) : Nat := (Text.runLengths (· == backtick) cs).foldl max 0

/-- A run of backticks. -/
def fence (n : Nat) : List Char := List.replicate n backtick

/-- The character is a backtick. -/
def isBacktick (c : Option Char) : Bool := c == some backtick

/-- Code within a line. -/
def codeSpan (code : String) : String :=
  let cs := code.toList
  let ticks := fence (longestRun cs + 1)
  let padded := if isBacktick cs.head? || isBacktick cs.getLast? then ' ' :: cs ++ [' '] else cs
  .ofList (ticks ++ padded ++ ticks)

/-- Code on lines of its own, with the name of its language. -/
def codeBlock (code language : String) : String :=
  let cs := code.toList
  let ticks := fence (max (longestRun cs) 2 + 1)
  .ofList (ticks ++ language.toList ++ '\n' :: Text.trimEnd cs ++ '\n' :: ticks)

/-- A link with escaped text. -/
def link (text address : String) : String := "[" ++ text ++ "](" ++ address ++ ")"

/-- A node of a documentation text. A link without an address is shown as its text. -/
def renderNode (links : Links) (context : Nat) (node : Doc.Node) : String :=
  match node with
  | .text t => escape t
  | .code c => codeSpan c
  | .link target _ =>
    match links target context with
    | some address => link (escapeLink node.plainText) address
    | none => escape node.plainText
  | .paragraph => "\n\n"

/-- A documentation text, without blanks at its ends. -/
def renderNodes (links : Links) (context : Nat) (nodes : List Doc.Node) : String :=
  Text.trimmed (String.join (nodes.map (renderNode links context)))

end Mdx

end ReferenceSite
