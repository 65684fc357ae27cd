import ReferenceSite.Template
import ReferenceSite.Text.Blank

/-!
# Reading templates

A template is cut into pieces: text, values between double braces, and statements between a brace and a
percent sign; comments between a brace and a number sign vanish. A statement or a comment that begins its
line takes the blanks before it along, and the line break right behind it. A hyphen at either end of a
piece takes along all blanks on that side. The break at the end of the template does not count.
-/

namespace ReferenceSite.Template

/-! ## Tokens -/

/-- A token inside a piece. -/
inductive Token where
  /-- A word. -/
  | word (s : String)
  /-- A text in quotes. -/
  | text (s : String)
  /-- An integer. -/
  | int (n : Nat)
  /-- A sign, of one or two characters. -/
  | sign (s : String)
deriving DecidableEq, Repr, Inhabited

/-- A piece of a template. -/
inductive Piece where
  /-- Text to copy. -/
  | text (s : String)
  /-- A value to show. -/
  | value (tokens : List Token)
  /-- A statement. -/
  | statement (tokens : List Token)
deriving DecidableEq, Repr, Inhabited

/-- The kinds of pieces that are not text. -/
inductive Marker where
  /-- A value. -/
  | value
  /-- A statement. -/
  | statement
  /-- A comment. -/
  | comment
deriving DecidableEq, Repr

/-- The marker that the second character behind a brace stands for. -/
def Marker.ofChar? (c : Char) : Option Marker :=
  if c == '\x7b' then some .value
  else if c == '%' then some .statement
  else if c == '#' then some .comment
  else none

/-- The character before the closing brace. -/
def Marker.closing : Marker → Char
  | value => '\x7d'
  | statement => '%'
  | comment => '#'

/-- A character of a word. -/
def isWordChar (c : Char) : Bool := c.isAlphanum || c == '_'

/-- Read a text up to its closing quote. -/
def readQuoted (quote : Char) : (read : List Char) → List Char → Option (List Char × List Char)
  | _, [] => none
  | read, '\x5c' :: c :: cs =>
    let d := if c == 'n' then '\n' else if c == 't' then '\t' else if c == 'r' then '\r' else c
    readQuoted quote (d :: read) cs
  | read, c :: cs => if c == quote then some (read.reverse, cs) else readQuoted quote (c :: read) cs

/-- The character behind the marker of a piece says how blanks at that side are treated. -/
def isTrim (c : Char) : Bool := c == '-' || c == '+'

/-- Read the tokens of a piece up to its end; the flag says that a hyphen stood there. `fuel` exceeds the
number of characters. -/
def readTokens (closing : Char) : (fuel : Nat) → (read : List Token) → List Char →
    Option (List Token × Bool × List Char)
  | 0, _, _ => none
  | fuel + 1, read, cs =>
    match cs.dropWhile Text.isBlank with
    | [] => none
    | c :: rest =>
      if c == closing && rest.head? == some '\x7d' then some (read.reverse, false, rest.drop 1)
      else if isTrim c && rest.head? == some closing && rest[1]? == some '\x7d' then
        some (read.reverse, c == '-', rest.drop 2)
      else if c == '\x22' || c == '\x27' then
        match readQuoted c [] rest with
        | some (s, rest) => readTokens closing fuel (.text (.ofList s) :: read) rest
        | none => none
      else if c.isDigit then
        match Text.natOfDigits? ((c :: rest).takeWhile Char.isDigit) with
        | some n => readTokens closing fuel (.int n :: read) ((c :: rest).dropWhile Char.isDigit)
        | none => none
      else if isWordChar c then
        readTokens closing fuel (.word (.ofList ((c :: rest).takeWhile isWordChar)) :: read)
          ((c :: rest).dropWhile isWordChar)
      else if (c == '=' || c == '!') && rest.head? == some '=' then
        readTokens closing fuel (.sign (.ofList [c, '=']) :: read) (rest.drop 1)
      else readTokens closing fuel (.sign (.ofList [c]) :: read) rest

/-- Skip a comment; the flag says that a hyphen stood at its end. -/
def skipComment : (hyphen : Bool) → List Char → Option (Bool × List Char)
  | hyphen, '#' :: '\x7d' :: cs => some (hyphen, cs)
  | _, c :: cs => skipComment (c == '-') cs
  | _, [] => none

/-! ## Pieces -/

/-- What a piece does to the text behind it. -/
inductive After where
  /-- Nothing. -/
  | nothing
  /-- A line break goes. -/
  | lineBreak
  /-- All blanks go. -/
  | blanks
deriving DecidableEq, Repr

/-- The text behind a piece. -/
def dropAfter (after : After) (cs : List Char) : List Char :=
  match after with
  | .nothing => cs
  | .blanks => cs.dropWhile Text.isBlank
  | .lineBreak =>
    match cs with
    | '\r' :: '\n' :: rest => rest
    | '\n' :: rest => rest
    | '\r' :: rest => rest
    | rest => rest

/-- The blanks of a line. -/
def isLineBlank (c : Char) : Bool := Text.isBlank c && !Text.isLineBreak c

/-- The text before a statement or a comment that begins its line, without the blanks of that line.
`fresh` says that the text starts a line. -/
def dropBefore (fresh : Bool) (cs : List Char) : List Char :=
  let kept := Text.dropEndWhile isLineBlank cs
  match kept.getLast? with
  | none => if fresh then [] else cs
  | some c => if Text.isLineBreak c then kept else cs

/-- Split at the first marker of a piece. -/
def splitMarker : List Char → Option (List Char × Marker × List Char)
  | [] => none
  | '\x7b' :: c :: cs =>
    match Marker.ofChar? c with
    | some marker => some ([], marker, cs)
    | none => (splitMarker (c :: cs)).map fun (text, found) => ('\x7b' :: text, found)
  | c :: cs => (splitMarker cs).map fun (text, found) => (c :: text, found)

/-- The piece of a text, unless it is empty. -/
def textPiece (cs : List Char) : List Piece := if cs.isEmpty then [] else [.text (.ofList cs)]

/-- Cut a template into pieces; `read` are the reversed pieces before, `after` what the last of them does to
the text behind it, and `start` says that the template begins here. `fuel` exceeds the number of
characters. -/
def readPieces : (fuel : Nat) → (read : List Piece) → (after : After) → (start : Bool) → List Char →
    Option (List Piece)
  | 0, _, _, _, _ => none
  | fuel + 1, read, after, start, cs =>
    match splitMarker cs with
    | none => some ((textPiece (dropAfter after cs)).reverse ++ read).reverse
    | some (before, marker, rest) =>
      let hyphen := rest.head? == some '-'
      let plain := rest.head? == some '+'
      let rest := if hyphen || plain then rest.drop 1 else rest
      let shown := dropAfter after before
      let fresh := start || before.any Text.isLineBreak
      let shown :=
        if hyphen then Text.trimEnd shown
        else if plain || marker == .value then shown
        else dropBefore fresh shown
      let read := (textPiece shown).reverse ++ read
      match marker with
      | .comment =>
        match skipComment false rest with
        | none => none
        | some (hyphen, rest) =>
          readPieces fuel read (if hyphen then .blanks else .lineBreak) false rest
      | .value =>
        match readTokens marker.closing (rest.length + 1) [] rest with
        | none => none
        | some (tokens, hyphen, rest) =>
          readPieces fuel (.value tokens :: read) (if hyphen then .blanks else .nothing) false rest
      | .statement =>
        match readTokens marker.closing (rest.length + 1) [] rest with
        | none => none
        | some (tokens, hyphen, rest) =>
          readPieces fuel (.statement tokens :: read) (if hyphen then .blanks else .lineBreak) false
            rest

/-! ## Expressions -/

mutual

/-- Read an expression. `fuel` exceeds the number of tokens by far. -/
def readExpr : (fuel : Nat) → List Token → Option (Expr × List Token)
  | 0, _ => none
  | fuel + 1, ts => do
    let (a, ts) ← readConjunction fuel ts
    match ts with
    | .word "or" :: ts =>
      let (b, ts) ← readExpr fuel ts
      return (.either a b, ts)
    | ts => return (a, ts)

/-- Read operands between the word for both. -/
def readConjunction : (fuel : Nat) → List Token → Option (Expr × List Token)
  | 0, _ => none
  | fuel + 1, ts => do
    let (a, ts) ← readNegation fuel ts
    match ts with
    | .word "and" :: ts =>
      let (b, ts) ← readConjunction fuel ts
      return (.both a b, ts)
    | ts => return (a, ts)

/-- Read a comparison, perhaps behind the word for the opposite. -/
def readNegation : (fuel : Nat) → List Token → Option (Expr × List Token)
  | 0, _ => none
  | fuel + 1, ts =>
    match ts with
    | .word "not" :: ts => do
      let (e, ts) ← readNegation fuel ts
      return (.negation e, ts)
    | ts => do
      let (a, ts) ← readOperand fuel ts
      match ts with
      | .sign "==" :: ts =>
        let (b, ts) ← readOperand fuel ts
        return (.equal a b, ts)
      | .sign "!=" :: ts =>
        let (b, ts) ← readOperand fuel ts
        return (.different a b, ts)
      | ts => return (a, ts)

/-- Read an operand with its attributes, elements and calls. -/
def readOperand : (fuel : Nat) → List Token → Option (Expr × List Token)
  | 0, _ => none
  | fuel + 1, ts =>
    match ts with
    | .word "true" :: ts => readSuffixes fuel (.bool true) ts
    | .word "false" :: ts => readSuffixes fuel (.bool false) ts
    | .word "none" :: ts => readSuffixes fuel .none ts
    | .word "True" :: ts => readSuffixes fuel (.bool true) ts
    | .word "False" :: ts => readSuffixes fuel (.bool false) ts
    | .word "None" :: ts => readSuffixes fuel .none ts
    | .word name :: ts => readSuffixes fuel (.var name) ts
    | .text s :: ts => readSuffixes fuel (.text s) ts
    | .int n :: ts => readSuffixes fuel (.int n) ts
    | .sign "(" :: ts => do
      match ← readExpr fuel ts with
      | (e, .sign ")" :: ts) => readSuffixes fuel e ts
      | _ => none
    | _ => none

/-- Read the attributes, elements and calls behind an operand. -/
def readSuffixes : (fuel : Nat) → Expr → List Token → Option (Expr × List Token)
  | 0, _, _ => none
  | fuel + 1, e, ts =>
    match ts with
    | .sign "." :: .word name :: ts => readSuffixes fuel (.attribute e name) ts
    | .sign "." :: _ => none
    | .sign "[" :: ts => do
      match ← readExpr fuel ts with
      | (index, .sign "]" :: ts) => readSuffixes fuel (.element e index) ts
      | _ => none
    | .sign "(" :: ts => do
      let (arguments, ts) ← readArguments fuel [] ts
      readSuffixes fuel (.call e arguments) ts
    | ts => some (e, ts)

/-- Read the arguments of a call up to the closing parenthesis. -/
def readArguments : (fuel : Nat) → (read : List Expr) → List Token → Option (List Expr × List Token)
  | 0, _, _ => none
  | fuel + 1, read, ts =>
    match ts with
    | .sign ")" :: ts => some (read.reverse, ts)
    | ts => do
      match ← readExpr fuel ts with
      | (e, .sign "," :: ts) => readArguments fuel (e :: read) ts
      | (e, .sign ")" :: ts) => some ((e :: read).reverse, ts)
      | _ => none

end

/-- Enough fuel to read an expression from tokens. -/
def exprFuel (ts : List Token) : Nat := 8 * ts.length + 8

/-- The expression that takes up all tokens. -/
def exprOf? (ts : List Token) : Option Expr :=
  match readExpr (exprFuel ts) ts with
  | some (e, []) => some e
  | _ => none

/-- Words that are no names. -/
def isReserved (s : String) : Bool :=
  ["true", "false", "none", "True", "False", "None", "and", "or", "not", "in", "is", "if",
    "else"].contains s

/-- The names of parameters up to the closing parenthesis. -/
def parametersOf? : List Token → Option (List String)
  | [.sign ")"] => some []
  | [.word p, .sign ")"] => if isReserved p then none else some [p]
  | .word p :: .sign "," :: ts =>
    if isReserved p then none else (parametersOf? ts).map (p :: ·)
  | _ => none

/-! ## Statements -/

/-- Words that end the parts of a statement. -/
def isClosing (s : String) : Bool := ["endif", "endfor", "endmacro", "else", "elif"].contains s

mutual

/-- Read the parts up to a statement that closes or continues another one, or up to the end; the tokens of
that statement are returned. `fuel` exceeds twice the number of pieces. -/
def readNodes : (fuel : Nat) → (read : List Node) → List Piece →
    Option (List Node × List Token × List Piece)
  | 0, _, _ => none
  | _ + 1, read, [] => some (read.reverse, [], [])
  | fuel + 1, read, .text s :: ps => readNodes fuel (.text s :: read) ps
  | fuel + 1, read, .value ts :: ps => do readNodes fuel (.print (← exprOf? ts) :: read) ps
  | fuel + 1, read, .statement ts :: ps =>
    match ts with
    | .word "if" :: ts => do
      let (node, ps) ← readBranch fuel [] (← exprOf? ts) ps
      readNodes fuel (node :: read) ps
    | .word "for" :: .word name :: .word "in" :: ts => do
      if isReserved name then none
      let source ← exprOf? ts
      let (body, closing, ps) ← readNodes fuel [] ps
      match closing with
      | [.word "endfor"] => readNodes fuel (.loop name source body [] :: read) ps
      | [.word "else"] =>
        match ← readNodes fuel [] ps with
        | (otherwise, [.word "endfor"], ps) =>
          readNodes fuel (.loop name source body otherwise :: read) ps
        | _ => none
      | _ => none
    | .word "macro" :: .word name :: .sign "(" :: ts => do
      let parameters ← parametersOf? ts
      match ← readNodes fuel [] ps with
      | (body, [.word "endmacro"], ps) => readNodes fuel (.define name parameters body :: read) ps
      | (body, [.word "endmacro", .word _], ps) =>
        readNodes fuel (.define name parameters body :: read) ps
      | _ => none
    | .word "import" :: ts => do
      match ← readExpr (exprFuel ts) ts with
      | (e, [.word "as", .word name]) => readNodes fuel (.importAs e name :: read) ps
      | _ => none
    | .word "include" :: ts => do readNodes fuel (.splice (← exprOf? ts) :: read) ps
    | .word closing :: _ => if isClosing closing then some (read.reverse, ts, ps) else none
    | _ => none

/-- Read the cases of a condition; `cases` are the reversed cases before. -/
def readBranch : (fuel : Nat) → (cases : List (Expr × List Node)) → Expr → List Piece →
    Option (Node × List Piece)
  | 0, _, _, _ => none
  | fuel + 1, cases, condition, ps => do
    let (body, closing, ps) ← readNodes fuel [] ps
    let cases := (condition, body) :: cases
    match closing with
    | [.word "endif"] => return (.branch cases.reverse [], ps)
    | .word "elif" :: ts => readBranch fuel cases (← exprOf? ts) ps
    | [.word "else"] =>
      match ← readNodes fuel [] ps with
      | (otherwise, [.word "endif"], ps) => return (.branch cases.reverse otherwise, ps)
      | _ => none
    | _ => none

end

/-- The template without the line break at its end. -/
def dropFinalBreak (cs : List Char) : List Char :=
  match cs.reverse with
  | '\n' :: '\r' :: rest => rest.reverse
  | '\n' :: rest => rest.reverse
  | _ => cs

/-- The template that a text spells, or nothing if it is malformed. -/
def ofText? (text : String) : Option (List Node) := do
  let cs := dropFinalBreak text.toList
  let pieces ← readPieces (cs.length + 1) [] .nothing true cs
  match ← readNodes (2 * pieces.length + 2) [] pieces with
  | (nodes, [], []) => return nodes
  | _ => none

end ReferenceSite.Template
