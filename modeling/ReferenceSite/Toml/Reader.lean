import ReferenceSite.Toml.Scalar

/-!
# Reading TOML

The reader first takes a text apart into statements, one a line: an entry, or a header that opens a
table. `Toml.ofStatements?` then builds the table of the document by the rules of `Toml.Entries`.
-/

namespace ReferenceSite.Toml

/-- A key with one or more parts: the parts in front of the last, and the last. -/
abbrev Key := List String × String

/-- The deepest nesting of arrays and inline tables. -/
def nestingLimit : Nat := 80

/-! ## Keys -/

/-- A character of a key without quotes. -/
def isKeyChar (c : Char) : Bool := c.isAlphanum || c == '_' || c == '-'

/-- Read a part of a key. -/
def readPart (cs : List Char) : Option (String × List Char) :=
  match cs with
  | [] => none
  | c :: rest =>
    if c == quote || c == apostrophe then readShort c rest
    else if isKeyChar c then some (.ofList (cs.takeWhile isKeyChar), cs.dropWhile isKeyChar)
    else none

/-- Read a key and the blanks behind it. `fuel` exceeds the number of characters left; `read` are the
reversed parts before. -/
def readParts : (fuel : Nat) → (read : List String) → List Char → Option (Key × List Char)
  | 0, _, _ => none
  | fuel + 1, read, cs => do
    let (part, cs) ← readPart cs
    match skipSpace cs with
    | '.' :: rest => readParts fuel (part :: read) (skipSpace rest)
    | rest => return ((read.reverse, part), rest)

/-- Read a key and the blanks behind it. -/
def readKey (cs : List Char) : Option (Key × List Char) := readParts (cs.length + 1) [] cs

/-- Read a key with the equals sign behind it and the blanks behind that. -/
def readAssigned (cs : List Char) : Option (Key × List Char) := do
  let (key, cs) ← readKey cs
  match cs with
  | '=' :: cs => return (key, skipSpace cs)
  | _ => none

/-! ## Comments -/

/-- Drop a comment behind its sign, up to the end of the line. -/
def skipComment? (cs : List Char) : Option (List Char) :=
  let rest := cs.dropWhile isPlain
  if rest.isEmpty || (dropBreak? rest).isSome then some rest else none

/-- Drop blanks, line breaks and comments. `fuel` exceeds the number of characters left. -/
def skipLines? : (fuel : Nat) → List Char → Option (List Char)
  | 0, _ => none
  | fuel + 1, cs =>
    match skipSpace cs with
    | '#' :: rest => do skipLines? fuel (← skipComment? rest)
    | rest =>
      match dropBreak? rest with
      | some rest => skipLines? fuel rest
      | none => some rest

/-- Drop blanks, line breaks and comments. -/
def skipAll? (cs : List Char) : Option (List Char) := skipLines? (cs.length + 1) cs

/-- Drop the rest of a line, which holds at most blanks and a comment. -/
def endLine? (cs : List Char) : Option (List Char) := do
  let rest ← match skipSpace cs with
    | '#' :: rest => skipComment? rest
    | rest => some rest
  if rest.isEmpty then return [] else dropBreak? rest

/-! ## Values -/

mutual

/-- Read a value that nests at most `room` containers. `fuel` exceeds twice the number of characters
left. -/
def readValue : (fuel : Nat) → (room : Nat) → List Char → Option (Toml × List Char)
  | 0, _, _ => none
  | _ + 1, _, [] => none
  | fuel + 1, room, c :: cs =>
    if c == quote || c == apostrophe then do
      let (s, rest) ← readString c cs
      return (.string s, rest)
    else if c == '[' then do
      if room == 0 then none
      let (vs, rest) ← readElements fuel (room - 1) [] (← skipAll? cs)
      return (.array vs, rest)
    else if c == '\x7b' then do
      if room == 0 then none
      let (added, rest) ← readEntries fuel (room - 1) [] (← skipAll? cs)
      return (.table .inline (← Entries.addAll [] added), rest)
    else do
      let (word, rest) := splitWord (c :: cs)
      return (← ofWord? word, rest)

/-- Read the elements of an array up to its end; `read` are the reversed elements before. -/
def readElements : (fuel : Nat) → (room : Nat) → (read : List Toml) → List Char →
    Option (List Toml × List Char)
  | 0, _, _, _ => none
  | fuel + 1, room, read, cs =>
    match cs with
    | ']' :: rest => some (read.reverse, rest)
    | cs => do
      let (v, cs) ← readValue fuel room cs
      match ← skipAll? cs with
      | ',' :: rest => readElements fuel room (v :: read) (← skipAll? rest)
      | ']' :: rest => return ((v :: read).reverse, rest)
      | _ => none

/-- Read the entries of an inline table up to its end; `read` are the reversed entries before. -/
def readEntries : (fuel : Nat) → (room : Nat) → (read : List (Key × Toml)) → List Char →
    Option (List (Key × Toml) × List Char)
  | 0, _, _, _ => none
  | fuel + 1, room, read, cs =>
    if cs.head? == some '\x7d' then some (read.reverse, cs.drop 1)
    else do
      let (key, cs) ← readAssigned cs
      let (v, cs) ← readValue fuel room cs
      let rest ← skipAll? cs
      if rest.head? == some ',' then
        readEntries fuel room ((key, v) :: read) (← skipAll? (rest.drop 1))
      else if rest.head? == some '\x7d' then return (((key, v) :: read).reverse, rest.drop 1)
      else none

end

/-! ## Documents -/

/-- A statement of a document. -/
inductive Statement where
  /-- An entry. -/
  | entry (key : Key) (value : Toml)
  /-- A header that opens a table. -/
  | header (key : Key)
  /-- A header that opens one more of several tables. -/
  | nextHeader (key : Key)
deriving Repr, Inhabited

/-- Drop fixed characters in front. -/
def dropExactly? (expected cs : List Char) : Option (List Char) :=
  if expected.isPrefixOf cs then some (cs.drop expected.length) else none

/-- Read a statement. -/
def readStatement (cs : List Char) : Option (Statement × List Char) :=
  match cs with
  | '[' :: '[' :: rest => do
    let (key, rest) ← readKey (skipSpace rest)
    return (.nextHeader key, ← dropExactly? [']', ']'] rest)
  | '[' :: rest => do
    let (key, rest) ← readKey (skipSpace rest)
    return (.header key, ← dropExactly? [']'] rest)
  | cs => do
    let (key, rest) ← readAssigned cs
    let (v, rest) ← readValue (2 * rest.length + 2) nestingLimit rest
    return (.entry key v, rest)

/-- Read the statements of a document. `fuel` exceeds the number of characters left; `read` are the
reversed statements before. -/
def readStatements : (fuel : Nat) → (read : List Statement) → List Char → Option (List Statement)
  | 0, _, _ => none
  | fuel + 1, read, cs => do
    match ← skipAll? cs with
    | [] => return read.reverse
    | cs =>
      let (s, rest) ← readStatement cs
      readStatements fuel (s :: read) (← endLine? rest)

/-- The entries in front of the first header, and each header with the entries below it. -/
def sections (statements : List Statement) :
    List (Key × Toml) × List (Statement × List (Key × Toml)) :=
  statements.foldr
    (fun
      | .entry key v, (pending, found) => ((key, v) :: pending, found)
      | header, (pending, found) => ([], (header, pending) :: found))
    ([], [])

/-- Extend a document by a header and the entries below it. -/
def addSection (document : Entries) : Statement × List (Key × Toml) → Option Entries
  | (.header key, added) => document.openTable key added
  | (.nextHeader key, added) => document.openNext key added
  | (.entry key v, _) => document.addEntry key v

/-- The table that some statements describe, unless they define something twice. -/
def ofStatements? (statements : List Statement) : Option Entries := do
  let (top, rest) := sections statements
  rest.foldlM addSection (← Entries.addAll [] top)

/-- The table written in a text, which may start with a byte order mark. -/
def ofText? (text : String) : Option Entries := do
  let cs := text.toList
  let cs := if cs.head? == some '\ufeff' then cs.drop 1 else cs
  ofStatements? (← readStatements (cs.length + 1) [] cs)

end ReferenceSite.Toml
