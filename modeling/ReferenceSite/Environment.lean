import ReferenceSite.Text.Blank
import ReferenceSite.Text.CaseTable
import ReferenceSite.Text.WordTable

/-!
# Environment variables in texts

A text may refer to environment variables: `$NAME`, with letters, digits and underscores in the name, or
`${NAME}`, or `${NAME:-fallback}`. `Environment.expand` replaces the references by the values, which are
not scanned again; a fallback takes the place of a variable that is not set and is not scanned either. Two
dollar signs stand for one, and any other dollar sign for itself.

A text without a dollar sign before an opening brace is left as it is.
-/

namespace ReferenceSite

/-- The value of an environment variable. -/
inductive Environment.Value where
  /-- A text. -/
  | text (s : String)
  /-- Bytes that are not a text in UTF-8. -/
  | notText
deriving DecidableEq, Repr, Inhabited

/-- The environment variables that are set. -/
structure Environment where
  /-- The values by name. -/
  values : List (String × Environment.Value) := []
deriving Repr, Inhabited

namespace Environment

/-- Why a variable has no text. -/
inductive Problem where
  /-- It is not set. -/
  | notSet
  /-- Its value is not a text. -/
  | notText
deriving DecidableEq, Repr

/-- A variable that has no text. -/
structure Failure where
  /-- The name. -/
  name : String
  /-- The reason. -/
  problem : Problem
deriving DecidableEq, Repr

/-- The message of a failure. -/
def Failure.message (f : Failure) : String :=
  "$\x7b" ++ f.name ++ "\x7d " ++ match f.problem with
    | .notSet => "is not set"
    | .notText => "is not valid unicode"

/-- The text of a variable. -/
def get (env : Environment) (name : String) : Except Failure String :=
  match env.values.lookup name with
  | some (.text s) => .ok s
  | some .notText => .error ⟨name, .notText⟩
  | none => .error ⟨name, .notSet⟩

/-- The text of a variable, or a fallback if it has none. -/
def getOr (env : Environment) (name : String) (fallback : Option String) : Except Failure String :=
  match env.get name, fallback with
  | .error _, some s => .ok s
  | r, _ => r

/-! ## References -/

/-- The opening brace. -/
def opening : Char := '\x7b'

/-- The closing brace. -/
def closing : Char := '\x7d'

/-- A character of a name without braces. -/
def isNameChar (c : Char) : Bool :=
  c == '_' || Text.CaseTable.within Text.WordTable.wordRanges c.toNat

/-- Split at the first colon that has a hyphen behind it. -/
def splitFallback : List Char → Option (List Char × List Char)
  | ':' :: '-' :: cs => some ([], cs)
  | c :: cs => (splitFallback cs).map fun (x, y) => (c :: x, y)
  | [] => none

/-- The name and the fallback between braces. A name is not empty, so nothing is split off in front of
which there is none. -/
def parts (cs : List Char) : String × Option String :=
  match splitFallback cs with
  | some (c :: name, fallback) => (.ofList (c :: name), some (.ofList fallback))
  | _ => (.ofList cs, none)

/-- A piece of a text. -/
inductive Piece where
  /-- A character that stands for itself. -/
  | char (c : Char)
  /-- A reference. -/
  | reference (name : String) (fallback : Option String)
deriving DecidableEq, Repr

/-- The pieces of a text. `fuel` is at least the number of characters. -/
def piecesFrom : (fuel : Nat) → List Char → List Piece
  | 0, _ => []
  | _ + 1, [] => []
  | fuel + 1, '$' :: cs =>
    match cs with
    | [] => [.char '$']
    | c :: rest =>
      if c == opening then
        match Text.splitFirst (· == closing) rest with
        | some (inner, after) =>
          let (name, fallback) := parts inner
          .reference name fallback :: piecesFrom fuel after
        | none => .char '$' :: .char c :: piecesFrom fuel rest
      else if isNameChar c then
        .reference (.ofList ((c :: rest).takeWhile isNameChar)) none
          :: piecesFrom fuel ((c :: rest).dropWhile isNameChar)
      else if c == '$' then .char '$' :: piecesFrom fuel rest
      else .char '$' :: piecesFrom fuel (c :: rest)
  | fuel + 1, c :: cs => .char c :: piecesFrom fuel cs

/-- The pieces of a text. -/
def pieces (text : String) : List Piece := piecesFrom text.toList.length text.toList

/-- The text of a piece. -/
def valueOf (env : Environment) : Piece → Except Failure String
  | .char c => .ok (.ofList [c])
  | .reference name fallback => env.getOr name fallback

/-- The text with all references replaced; the first variable without a text is an error. -/
def expand (env : Environment) (text : String) : Except Failure String :=
  if Text.occursIn ['$', opening] text.toList then
    ((pieces text).mapM env.valueOf).map String.join
  else .ok text

end Environment

end ReferenceSite
