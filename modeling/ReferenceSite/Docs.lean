import ReferenceSite.Reference

/-!
# Documentation of an item

A documentation comment consists of texts with inline code and links (`Doc.Node`), and the signature of a
declaration of tokens (`Excerpt.Token`). Each type has a JSON form with a writer `toJson` and a reader
`ofJson?`; the target of a link may also be read from the short form of a reference.
-/

namespace ReferenceSite

/-- A part of a documentation text. -/
inductive Doc.Node where
  /-- Plain text. -/
  | text (text : String)
  /-- Inline code. -/
  | code (code : String)
  /-- A link to a declaration, with the text to show. -/
  | link (target : Reference) (text : Option String)
  /-- The break between two paragraphs. -/
  | paragraph
deriving DecidableEq, Repr, Inhabited

namespace Doc

/-- What to show for a node that cannot be a link. -/
def Node.plainText : Node → String
  | text t => t
  | code c => c
  | link target shown =>
    (shown.or (target.members.getLast?.or target.package)).getD ""
  | paragraph => "\n\n"

/-- The text of a list of nodes, its words separated by single spaces. -/
def plainText (nodes : List Node) : String :=
  .ofList (Text.collapse (nodes.flatMap fun n => n.plainText.toList))

/-- A documented parameter. -/
structure Param where
  /-- The name. -/
  name : String
  /-- What it is for. -/
  description : List Node := []
deriving DecidableEq, Repr, Inhabited

/-- The documentation comment of an item. -/
structure Comment where
  /-- The first sentences. -/
  summary : List Node := []
  /-- Everything else about the item. -/
  remarks : List Node := []
  /-- The parameters. -/
  params : List Param := []
  /-- What is returned. -/
  returns : List Node := []
  /-- Blocks of example code. -/
  examples : List String := []
  /-- The notice of a deprecated item. -/
  deprecated : Option (List Node) := none
  /-- What else to read. -/
  see : List (List Node) := []
deriving DecidableEq, Repr, Inhabited

/-- The comment with a plain text as its summary. -/
def Comment.ofSummary (text : String) : Comment := { summary := [.text text] }

/-! ## JSON -/

/-- A node as a JSON value; its kind tells which fields it has. -/
def Node.toJson : Node → Json
  | text t => .obj [("kind", .str "text"), ("text", .str t)]
  | code c => .obj [("kind", .str "code"), ("code", .str c)]
  | link target shown =>
    .present [some ("kind", .str "link"), some ("target", target.toJson),
      shown.map fun t => ("text", .str t)]
  | paragraph => .obj [("kind", .str "paragraph")]

/-- The names of the fields that a kind of node has, or nothing for an unknown kind. -/
def Node.fieldsOfKind? : String → Option (List String)
  | "text" => some ["text"]
  | "code" => some ["code"]
  | "link" => some ["target", "text"]
  | "paragraph" => some []
  | _ => none

/-- The kind of a node and the value that holds its other fields. -/
def Node.split? : Json → Option (String × Json)
  | .obj members => do
    let known ← Json.objectFields? ["kind"] members
    let kind ← Json.required "kind" Json.string? known
    return (kind, .obj (members.filter (·.1 != "kind")))
  | .arr (.str kind :: rest) => some (kind, .arr rest)
  | _ => none

/-- Read a node: an object with the kind under the key `kind`, or an array with the kind in front. -/
def Node.ofJson? (v : Json) : Option Node := do
  if !v.isReadable then none
  let (kind, rest) ← split? v
  let fields ← rest.fields? (← fieldsOfKind? kind)
  match kind with
  | "text" => text <$> Json.required "text" Json.string? fields
  | "code" => code <$> Json.required "code" Json.string? fields
  | "link" =>
    link <$> Json.required "target" Reference.ofEitherForm? fields
      <*> Json.optional "text" Json.string? fields
  | _ => return paragraph

/-- A list of nodes as a JSON value. -/
def nodesToJson (nodes : List Node) : Json := .arr (nodes.map Node.toJson)

/-- Read a list of nodes. -/
def nodesOfJson? : Json → Option (List Node) := Json.list? Node.ofJson?

/-- A parameter as a JSON value. -/
def Param.toJson (p : Param) : Json :=
  .obj [("name", .str p.name), ("description", nodesToJson p.description)]

/-- Read a parameter. -/
def Param.ofJson? (v : Json) : Option Param := do
  let fields ← v.fields? ["name", "description"]
  return {
    name := ← Json.required "name" Json.string? fields
    description := ← Json.withDefault "description" [] nodesOfJson? fields }

/-- What the reader of a parameter looks at. -/
def Param.shape : Json.Shape := .record [("name", .whole), ("description", .whole)]

/-- What the reader of a comment looks at. -/
def Comment.shape : Json.Shape :=
  .record
    [("summary", .whole), ("remarks", .whole), ("params", .list Param.shape), ("returns", .whole),
      ("examples", .whole), ("deprecated", .whole), ("see", .whole)]

/-- A comment as a JSON value. -/
def Comment.toJson (c : Comment) : Json :=
  .present
    [some ("summary", nodesToJson c.summary),
      some ("remarks", nodesToJson c.remarks),
      some ("params", .arr (c.params.map Param.toJson)),
      some ("returns", nodesToJson c.returns),
      some ("examples", .arr (c.examples.map .str)),
      c.deprecated.map fun nodes => ("deprecated", nodesToJson nodes),
      some ("see", .arr (c.see.map nodesToJson))]

/-- Read a comment; every field may be missing. -/
def Comment.ofJson? (v : Json) : Option Comment := do
  let fields ← v.fields?
    ["summary", "remarks", "params", "returns", "examples", "deprecated", "see"]
  return {
    summary := ← Json.withDefault "summary" [] nodesOfJson? fields
    remarks := ← Json.withDefault "remarks" [] nodesOfJson? fields
    params := ← Json.withDefault "params" [] (Json.list? Param.ofJson?) fields
    returns := ← Json.withDefault "returns" [] nodesOfJson? fields
    examples := ← Json.withDefault "examples" [] (Json.list? Json.string?) fields
    deprecated := ← Json.optional "deprecated" nodesOfJson? fields
    see := ← Json.withDefault "see" [] (Json.list? nodesOfJson?) fields }

end Doc

/-! ## Excerpts -/

/-- What a token of an excerpt is. -/
inductive Excerpt.TokenKind where
  /-- Source text. -/
  | content
  /-- The name of another declaration. -/
  | reference
deriving DecidableEq, Repr, Inhabited

namespace Excerpt

/-- The name of a kind of token. -/
def TokenKind.name : TokenKind → String
  | content => "content"
  | reference => "reference"

/-- The kind of token with a name. -/
def TokenKind.ofName? (s : String) : Option TokenKind := [content, reference].find? (·.name == s)

/-- A token of the signature of a declaration. -/
structure Token where
  /-- What the token is. -/
  kind : TokenKind := .content
  /-- The text of the token. -/
  text : String
  /-- The declaration that the token names. -/
  canonicalReference : Option Reference := none
deriving DecidableEq, Repr, Inhabited

/-- A token of source text. -/
def Token.ofContent (text : String) : Token := { text }

/-- A token that names a declaration. -/
def Token.ofReference (text : String) (target : Reference) : Token :=
  { kind := .reference, text, canonicalReference := some target }

/-- The text of an excerpt. -/
def text (tokens : List Token) : String := String.join (tokens.map Token.text)

/-- A token as a JSON value. -/
def Token.toJson (t : Token) : Json :=
  .present
    [some ("kind", .str t.kind.name), some ("text", .str t.text),
      t.canonicalReference.map fun r => ("canonicalReference", r.toJson)]

/-- Read a token. -/
def Token.ofJson? (v : Json) : Option Token := do
  let fields ← v.fields? ["kind", "text", "canonicalReference"]
  return {
    kind := ← Json.withDefault "kind" .content (Json.word? TokenKind.ofName?) fields
    text := ← Json.required "text" Json.string? fields
    canonicalReference := ← Json.optional "canonicalReference" Reference.ofEitherForm? fields }

/-- What the reader of an excerpt looks at. -/
def shape : Json.Shape :=
  .list (.record [("kind", .whole), ("text", .whole), ("canonicalReference", .whole)])

/-- An excerpt as a JSON value. -/
def toJson (tokens : List Token) : Json := .arr (tokens.map Token.toJson)

/-- Read an excerpt. -/
def ofJson? : Json → Option (List Token) := Json.list? Token.ofJson?

end Excerpt

end ReferenceSite
