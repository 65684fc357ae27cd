import ReferenceSite.Decimal.Binary64
import ReferenceSite.Text.Blank
import ReferenceSite.Text.Quoted

/-!
# Front matter

A page begins with its title, its description and its icon as a YAML mapping, one entry after the other.
Each value is a string and is written so that a YAML reader takes it for that string: plainly if that is
safe, else in single quotes, and in double quotes if it has characters that have to be spelled out; a text of
several lines is a literal block where that is possible. Lines are never folded.
-/

namespace ReferenceSite.FrontMatter

/-! ## Characters -/

/-- Line breaks that may stand in a text; the others count as special. -/
def isBreak (c : Char) : Bool := c == '\n' || c.toNat == 0x2028 || c.toNat == 0x2029

/-- Characters that have to be spelled out. -/
def isSpecial (c : Char) : Bool :=
  let n := c.toNat
  (n < 0x20 && n != 10) || (0x7F ≤ n && n < 0xA0) || n == 0xFEFF || n == 0xFFFE || n == 0xFFFF

/-- What may follow a mark that then has a meaning: a blank, a break or the end of the text. -/
def endsMark (c : Option Char) : Bool :=
  match c with
  | none => true
  | some c => c == ' ' || c == '\t' || isBreak c

/-- Two neighbouring characters satisfy a relation. -/
def hasPair (p : Char → Char → Bool) : List Char → Bool
  | a :: b :: rest => p a b || hasPair p (b :: rest)
  | _ => false

/-! ## Texts that a reader would take for something else -/

/-- Remove a sign. -/
def unsigned : List Char → List Char
  | '+' :: cs => cs
  | '-' :: cs => cs
  | cs => cs

/-- Remove a plus sign. -/
def unplussed : List Char → List Char
  | '+' :: cs => cs
  | cs => cs

/-- The words for a missing value and for truth values. -/
def isReservedWord (s : String) : Bool :=
  ["~", "null", "Null", "NULL", "true", "True", "TRUE", "false", "False", "FALSE"].contains s

/-- Several digits of which the first is zero, perhaps behind a sign. -/
def isZeroPadded (cs : List Char) : Bool :=
  match unsigned cs with
  | '0' :: d :: ds => (d :: ds).all Char.isDigit
  | _ => false

/-- The value of a digit in a base up to sixteen. -/
def digit? (base : Nat) (c : Char) : Option Nat :=
  let n := c.toNat
  let value :=
    if c.isDigit then n - 48
    else if 97 ≤ n && n ≤ 102 then n - 87
    else if 65 ≤ n && n ≤ 70 then n - 55
    else 16
  if value < base then some value else none

/-- The number written in a base, if there are only digits and at least one. -/
def natInBase? (base : Nat) (cs : List Char) : Option Nat :=
  if cs.isEmpty then none
  else (cs.mapM (digit? base)).map fun ds => ds.foldl (fun n d => n * base + d) 0

/-- An integer with a mark for its base, of at most 128 bits. -/
def isMarkedInteger (cs : List Char) : Bool :=
  let (limit, cs) := match cs with
    | '-' :: rest => (Nat.pow 2 127, rest)
    | '+' :: rest => (Nat.pow 2 128 - 1, rest)
    | rest => (Nat.pow 2 128 - 1, rest)
  match cs with
  | '0' :: mark :: digits =>
    let base := if mark == 'x' then 16 else if mark == 'o' then 8 else if mark == 'b' then 2 else 0
    match natInBase? base digits with
    | some n => n ≤ limit
    | none => false
  | _ => false

/-- The words for infinities and for no number. -/
def isNumberWord (cs : List Char) : Bool :=
  [".inf", ".Inf", ".INF"].contains (.ofList (unsigned cs))
    || [".nan", ".NaN", ".NAN"].contains (.ofList cs)

/-- A power of ten is within the range of doubles for a significand with so many digits. -/
def isFinite (significand : Nat) (digits : Nat) (exponent : Int) : Bool :=
  if significand == 0 || digits + exponent < 300 then true
  else if 400 < exponent then false
  else
    let (num, den) := (significand * Nat.pow 10 exponent.toNat, Nat.pow 10 (-exponent).toNat)
    (Binary64.ofRatio? false num den).isSome

/-- A decimal number, perhaps behind a sign: digits with at most one point among them, then perhaps an
exponent. It must not exceed the range of doubles. -/
def isDecimal (cs : List Char) : Bool :=
  let cs := match cs with
    | '+' :: '-' :: _ => []
    | '+' :: '+' :: _ => []
    | cs => unsigned cs
  let whole := cs.takeWhile Char.isDigit
  let rest := cs.dropWhile Char.isDigit
  let (fraction, rest) := match rest with
    | '.' :: rest => (rest.takeWhile Char.isDigit, rest.dropWhile Char.isDigit)
    | rest => ([], rest)
  let digits := whole ++ fraction
  let significand := (Text.natOfDigits? digits).getD 0
  let exponent? : Option Int := match rest with
    | [] => some 0
    | e :: rest =>
      if e == 'e' || e == 'E' then
        match rest with
        | '-' :: ds => (Text.natOfDigits? ds).map fun n => -(n : Int)
        | ds => (Text.natOfDigits? (unplussed ds)).map fun n => (n : Int)
      else none
  match exponent? with
  | none => false
  | some e => !digits.isEmpty && isFinite significand digits.length (e - fraction.length)

/-- A reader would take the text for something other than a string. -/
def readsAsOther (s : String) : Bool :=
  let cs := s.toList
  cs.isEmpty || isReservedWord s || isZeroPadded cs || isMarkedInteger cs || isNumberWord cs
    || isDecimal cs

/-! ## Styles -/

/-- Indicators that have a meaning at the start of a text. -/
def isIndicator (c : Char) : Bool :=
  "#,[]&*!|>'%@".toList.contains c || c == '\x7b' || c == '\x7d' || c == '\x22' || c == '\x60'

/-- Some part of the text has a meaning for a reader. -/
def hasIndicators (cs : List Char) : Bool :=
  (match cs with
    | [] => false
    | c :: rest =>
      isIndicator c || ((c == '-' || c == '?' || c == ':') && endsMark rest.head?))
  || ['-', '-', '-'].isPrefixOf cs || ['.', '.', '.'].isPrefixOf cs
  || hasPair (fun a b => a == ':' && endsMark (some b)) cs || cs.getLast? == some ':'
  || hasPair (fun a b => endsMark (some a) && b == '#') cs

/-- A character is a space. -/
def isSpace (c : Char) : Bool := c == ' '

/-- The text has to be in double quotes. -/
def needsDoubleQuotes (cs : List Char) : Bool :=
  cs.any isSpecial || hasPair (fun a b => isSpace a && isBreak b) cs

/-- The text may be written plainly. -/
def isPlain (s : String) : Bool :=
  let cs := s.toList
  !readsAsOther s && !hasIndicators cs && !cs.any isBreak
    && !(cs.head?.map isSpace).getD false && !(cs.getLast?.map isSpace).getD false

/-- The two spaces that continue a value on a new line. -/
def indent : List Char := [' ', ' ']

/-- Write the characters of a text, with an indentation in front of each line that has any; `fresh` says that
a line has just begun. -/
def indented (write : Char → List Char) : (fresh : Bool) → List Char → List Char
  | _, [] => []
  | fresh, c :: cs =>
    if isBreak c then c :: indented write true cs
    else (if fresh then indent else []) ++ write c ++ indented write false cs

/-- A text in single quotes; a quote inside is doubled. -/
def singleQuoted (cs : List Char) : List Char :=
  let write := fun c => if c == '\x27' then [c, c] else [c]
  ['\x27'] ++ indented write false cs
    ++ (if (cs.getLast?.map isBreak).getD false then indent else []) ++ ['\x27']

/-- How a character is written in double quotes. -/
def doubleQuotedChar (c : Char) : List Char :=
  if isSpecial c || isBreak c || c == '\x22' || c == '\x5c' then
    let n := c.toNat
    let letter? : Option Char :=
      [(0, '0'), (7, 'a'), (8, 'b'), (9, 't'), (10, 'n'), (11, 'v'), (12, 'f'), (13, 'r'), (27, 'e'),
        (0x22, '\x22'), (0x5C, '\x5c'), (0x85, 'N'), (0x2028, 'L'), (0x2029, 'P')].lookup n
    '\x5c' :: match letter? with
      | some letter => [letter]
      | none =>
        if n < 0x100 then 'x' :: Text.hexPaddedBy (Text.hexDigit 'A') 2 n
        else if n < 0x10000 then 'u' :: Text.hexPaddedBy (Text.hexDigit 'A') 4 n
        else 'U' :: Text.hexPaddedBy (Text.hexDigit 'A') 8 n
  else [c]

/-- A text in double quotes. -/
def doubleQuoted (cs : List Char) : List Char :=
  ['\x22'] ++ cs.flatMap doubleQuotedChar ++ ['\x22']

/-- The marks at the head of a literal block: the indentation if the first line does not show it, and what
becomes of the breaks at the end. -/
def blockMarks (cs : List Char) : List Char :=
  let first := cs.head?.map fun c => isSpace c || isBreak c
  let chomp := match cs.reverse with
    | [] => ['-']
    | [c] => if isBreak c then ['+'] else ['-']
    | c :: d :: _ => if !isBreak c then ['-'] else if isBreak d then ['+'] else []
  (if first.getD false then ['2'] else []) ++ chomp

/-- A text as a literal block. -/
def literalBlock (cs : List Char) : List Char :=
  '|' :: blockMarks cs ++ '\n' :: indented (fun c => [c]) true cs

/-- The text of a value. -/
def scalar (s : String) : List Char :=
  let cs := s.toList
  if cs.contains '\n' then
    if needsDoubleQuotes cs || (cs.getLast?.map isSpace).getD false then doubleQuoted cs
    else literalBlock cs
  else if isPlain s && !needsDoubleQuotes cs then cs
  else if needsDoubleQuotes cs || hasPair (fun a b => isBreak a && isSpace b) cs then doubleQuoted cs
  else singleQuoted cs

/-- An entry on lines of its own; a literal block may end its last line itself. -/
def entry (key value : String) : String :=
  let text := scalar value
  key ++ ": " ++ .ofList (if (text.getLast?.map isBreak).getD false then text else text ++ ['\n'])

/-- The front matter of a page. -/
def render (title description icon : String) : String :=
  entry "title" title ++ entry "description" description ++ entry "icon" icon

end ReferenceSite.FrontMatter
