import ReferenceSite.Json.Value
import ReferenceSite.Text.Quoted

/-!
# Writing JSON

Two forms: `Json.compact` without any blank, and `Json.pretty` with one value on a line and two spaces of
indentation for each container. Strings escape the quote, the backslash and the control characters below
the space, and nothing else.
-/

namespace ReferenceSite.Json

/-- How a character is written inside a string. -/
def escapeChar (c : Char) : List Char :=
  match c.toNat with
  | 0x22 => ['\x5c', '\x22']
  | 0x5C => ['\x5c', '\x5c']
  | 8 => ['\x5c', 'b']
  | 9 => ['\x5c', 't']
  | 10 => ['\x5c', 'n']
  | 12 => ['\x5c', 'f']
  | 13 => ['\x5c', 'r']
  | n => if n < 0x20 then ['\x5c', 'u'] ++ Text.hexPadded 4 n else [c]

/-- A string in quotes. -/
def stringText (s : String) : String :=
  .ofList ('\x22' :: s.toList.flatMap escapeChar ++ ['\x22'])

/-- The text of a number. -/
def Number.toText : Number → String
  | natural n => toString n
  | negative n => "-" ++ toString n
  | double x => x.toText

/-- The text of a value without parts; unreadable values are never written. -/
def scalarText : Json → String
  | bool b => if b then "true" else "false"
  | num n => n.toText
  | str s => stringText s
  | _ => "null"

mutual

/-- The text of a value without blanks. -/
def compact : Json → String
  | arr elements => "[" ++ compactElements elements ++ "]"
  | obj members => "\x7b" ++ compactMembers members ++ "\x7d"
  | v => scalarText v

/-- The elements of an array, separated by commas. -/
def compactElements : List Json → String
  | [] => ""
  | [v] => compact v
  | v :: vs => compact v ++ "," ++ compactElements vs

/-- The members of an object, separated by commas. -/
def compactMembers : List (String × Json) → String
  | [] => ""
  | [(k, v)] => stringText k ++ ":" ++ compact v
  | (k, v) :: ms => stringText k ++ ":" ++ compact v ++ "," ++ compactMembers ms

end

/-- A line break and the indentation of a level. -/
def newline (level : Nat) : String := "\n" ++ .ofList (List.replicate (2 * level) ' ')

mutual

/-- The text of a value with one value on a line, at a level of indentation. -/
def prettyAt (level : Nat) : Json → String
  | arr [] => "[]"
  | obj [] => "\x7b\x7d"
  | arr elements => "[" ++ prettyElements (level + 1) elements ++ newline level ++ "]"
  | obj members => "\x7b" ++ prettyMembers (level + 1) members ++ newline level ++ "\x7d"
  | v => scalarText v

/-- The elements of an array, each on a line of its own. -/
def prettyElements (level : Nat) : List Json → String
  | [] => ""
  | [v] => newline level ++ prettyAt level v
  | v :: vs => newline level ++ prettyAt level v ++ "," ++ prettyElements level vs

/-- The members of an object, each on a line of its own. -/
def prettyMembers (level : Nat) : List (String × Json) → String
  | [] => ""
  | [(k, v)] => newline level ++ stringText k ++ ": " ++ prettyAt level v
  | (k, v) :: ms =>
    newline level ++ stringText k ++ ": " ++ prettyAt level v ++ "," ++ prettyMembers level ms

end

/-- The text of a value with one value on a line. -/
def pretty (v : Json) : String := prettyAt 0 v

end ReferenceSite.Json
