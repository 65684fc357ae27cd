import ReferenceSite.Decimal.Binary64
import ReferenceSite.Text.Quoted
import ReferenceSite.Text.Blank
import ReferenceSite.Toml

/-!
# Reading TOML strings, numbers, dates and times

The values without parts, after version 1.1 of the format. Strings are read by functions on lists of
characters that return what they read and the rest. All other values are words of letters, digits and a few
signs, and `Toml.ofWord?` tells what a word means.
-/

namespace ReferenceSite.Toml

/-! ## Characters -/

/-- The quote of strings with escapes. -/
def quote : Char := '\x22'

/-- The quote of strings without escapes. -/
def apostrophe : Char := '\x27'

/-- A character that may stand in a string or a comment. -/
def isPlain (c : Char) : Bool := c == '\t' || (0x20 ≤ c.toNat && c.toNat != 0x7F)

/-- A blank within a line. -/
def isSpace (c : Char) : Bool := c == ' ' || c == '\t'

/-- Drop the blanks in front. -/
def skipSpace (cs : List Char) : List Char := cs.dropWhile isSpace

/-- Drop a line break in front. -/
def dropBreak? : List Char → Option (List Char)
  | '\n' :: cs => some cs
  | '\r' :: '\n' :: cs => some cs
  | _ => none

/-! ## Strings -/

/-- The value of a number of digits in base sixteen, and the rest. -/
def readHex : (count : Nat) → (value : Nat) → List Char → Option (Nat × List Char)
  | 0, value, cs => some (value, cs)
  | _ + 1, _, [] => none
  | count + 1, value, c :: cs => do readHex count (value * 16 + (← Text.hexValue? c)) cs

/-- Read the code point of a character. -/
def readCode (digits : Nat) (cs : List Char) : Option (Char × List Char) := do
  let (n, cs) ← readHex digits 0 cs
  if n.isValidChar then return (Char.ofNat n, cs) else none

/-- Read an escape behind its backslash. -/
def readEscape : List Char → Option (Char × List Char)
  | [] => none
  | c :: cs =>
    match c with
    | 'b' => some ('\x08', cs)
    | 't' => some ('\t', cs)
    | 'n' => some ('\n', cs)
    | 'f' => some ('\x0c', cs)
    | 'r' => some ('\r', cs)
    | 'e' => some ('\x1b', cs)
    | 'x' => readCode 2 cs
    | 'u' => readCode 4 cs
    | 'U' => readCode 8 cs
    | c => if c == quote || c == '\x5c' then some (c, cs) else none

/-- Read the rest of a string on one line. `fuel` exceeds the number of characters left; `read` are the
reversed characters before. -/
def readLine (escapes : Bool) (ending : Char) : (fuel : Nat) → (read : List Char) → List Char →
    Option (String × List Char)
  | 0, _, _ => none
  | _ + 1, _, [] => none
  | fuel + 1, read, c :: cs =>
    if c == ending then some (.ofList read.reverse, cs)
    else if escapes && c == '\x5c' then do
      let (d, cs) ← readEscape cs
      readLine escapes ending fuel (d :: read) cs
    else if isPlain c then readLine escapes ending fuel (c :: read) cs
    else none

/-- A backslash at the end of a line hides the line break and all blanks and line breaks behind it. -/
def skipHidden? (cs : List Char) : Option (List Char) :=
  (dropBreak? (skipSpace cs)).map fun cs => cs.dropWhile fun c => isSpace c || c == '\n' || c == '\r'

/-- Read the rest of a string over several lines. Three quotes end it, of which the first two of five, or the
first of four, belong to it. `fuel` exceeds the number of characters left; `read` are the reversed
characters before. -/
def readLines (escapes : Bool) (ending : Char) : (fuel : Nat) → (read : List Char) → List Char →
    Option (String × List Char)
  | 0, _, _ => none
  | _ + 1, _, [] => none
  | fuel + 1, read, c :: cs =>
    if c == ending then
      let run := ((c :: cs).takeWhile (· == ending)).length
      if run < 3 then readLines escapes ending fuel (c :: read) cs
      else
        let kept := min run 5 - 3
        some (.ofList (read.reverse ++ List.replicate kept c), (c :: cs).drop (kept + 3))
    else if escapes && c == '\x5c' then
      match skipHidden? cs with
      | some cs => readLines escapes ending fuel read cs
      | none => do
        let (d, cs) ← readEscape cs
        readLines escapes ending fuel (d :: read) cs
    else match dropBreak? (c :: cs) with
      | some cs => readLines escapes ending fuel ('\n' :: read) cs
      | none => if isPlain c then readLines escapes ending fuel (c :: read) cs else none

/-- Read a string on one line behind its opening quote. -/
def readShort (ending : Char) (cs : List Char) : Option (String × List Char) :=
  readLine (ending == quote) ending (cs.length + 1) [] cs

/-- Read a string behind its opening quote. A line break right behind three opening quotes does not belong
to the string. -/
def readString (ending : Char) (cs : List Char) : Option (String × List Char) :=
  if [ending, ending].isPrefixOf cs then
    let cs := cs.drop 2
    let cs := (dropBreak? cs).getD cs
    readLines (ending == quote) ending (cs.length + 1) [] cs
  else readShort ending cs

/-! ## Numbers -/

/-- The digits of a number, between which single underscores may stand. -/
def digits? (isDigit : Char → Bool) (cs : List Char) : Option (List Char) :=
  let groups := Text.splitWhere (· == '_') cs
  if groups.all fun g => !g.isEmpty && g.all isDigit then some groups.flatten else none

/-- The digits of a decimal number without leading zeros. -/
def leading? (cs : List Char) : Option (List Char) := do
  let ds ← digits? Char.isDigit cs
  if ds.head? == some '0' && 1 < ds.length then none else return ds

/-- The value of digits in a base. -/
def valueIn (base : Nat) (ds : List Char) : Nat :=
  ds.foldl (fun n d => n * base + (Text.hexValue? d).getD 0) 0

/-- An integer, if it fits 128 bits with or without a sign. -/
def ofInteger (n : Int) : Toml :=
  if -(Nat.pow 2 127 : Nat) ≤ n && n < (Nat.pow 2 128 : Nat) then .integer n else .unreadable

/-- The sign of a number and what is behind it. -/
def splitSign : List Char → Bool × List Char
  | '-' :: cs => (true, cs)
  | '+' :: cs => (false, cs)
  | cs => (false, cs)

/-- A word that is an integer: decimal with or without a sign, or in another base behind a mark. -/
def integer? (cs : List Char) : Option Toml :=
  let inBase := fun (base : Nat) (ds : List Char) => do
    let ds ← digits? (fun c => (Text.hexValue? c).any (· < base)) ds
    return ofInteger (valueIn base ds)
  match cs with
  | '0' :: 'x' :: ds => inBase 16 ds
  | '0' :: 'o' :: ds => inBase 8 ds
  | '0' :: 'b' :: ds => inBase 2 ds
  | cs => do
    let (negative, ds) := splitSign cs
    let n : Int := valueIn 10 (← leading? ds)
    return ofInteger (if negative then -n else n)

/-- A real number with some digits, of which the last stands at a power of ten, if it is in range. -/
def ofDecimal (ds : List Char) (power : Int) : Toml :=
  let n := valueIn 10 ds
  let size : Int := (Nat.toDigits 10 n).length + power
  if n == 0 || size < 300 then .real
  else if 320 < size then .unreadable
  else
    let (num, den) := (n * Nat.pow 10 power.toNat, Nat.pow 10 (-power).toNat)
    if (Binary64.ofRatio? false num den).isSome then .real else .unreadable

/-- A word that is a real number: an infinity, not a number, or digits with a point, with an exponent or with
both. -/
def real? (cs : List Char) : Option Toml := do
  let (_, cs) := splitSign cs
  if cs == ['i', 'n', 'f'] || cs == ['n', 'a', 'n'] then return .real
  let (mantissa, exponent) := match Text.splitFirst (fun c => c == 'e' || c == 'E') cs with
    | some (m, e) => (m, some e)
    | none => (cs, none)
  let (whole, fraction) := match Text.splitFirst (· == '.') mantissa with
    | some (w, f) => (w, some f)
    | none => (mantissa, none)
  if exponent.isNone && fraction.isNone then none
  let whole ← leading? whole
  let fraction ← (fraction.map (digits? Char.isDigit)).getD (some [])
  let (negative, exponent) := splitSign (exponent.getD ['0'])
  let power : Int := valueIn 10 (← digits? Char.isDigit exponent)
  return ofDecimal (whole ++ fraction) ((if negative then -power else power) - fraction.length)

/-! ## Dates and times -/

/-- Two digits with a value from `low` to `high`. -/
def twoDigits? (low high : Nat) (a b : Char) : Option Nat :=
  if a.isDigit && b.isDigit then
    let n := valueIn 10 [a, b]
    if low ≤ n && n ≤ high then some n else none
  else none

/-- The number of days of a month. -/
def daysOf (year month : Nat) : Nat :=
  if month == 2 then
    if year % 4 == 0 && (year % 100 != 0 || year % 400 == 0) then 29 else 28
  else if month == 4 || month == 6 || month == 9 || month == 11 then 30
  else 31

/-- What is behind a date. -/
def dropDate? : List Char → Option (List Char)
  | y :: z :: u :: v :: '-' :: m :: n :: '-' :: d :: e :: cs => do
    if [y, z, u, v].any (!·.isDigit) then none
    let month ← twoDigits? 1 12 m n
    let _ ← twoDigits? 1 (daysOf (valueIn 10 [y, z, u, v]) month) d e
    return cs
  | _ => none

/-- What is behind the fraction of a second. -/
def dropFraction? : List Char → Option (List Char)
  | '.' :: c :: cs => if c.isDigit then some (cs.dropWhile Char.isDigit) else none
  | '.' :: [] => none
  | cs => some cs

/-- What is behind a time, of which the seconds may be missing. -/
def dropTime? : List Char → Option (List Char)
  | h :: i :: ':' :: m :: n :: cs => do
    let _ ← twoDigits? 0 23 h i
    let _ ← twoDigits? 0 59 m n
    match cs with
    | ':' :: s :: t :: cs => do
      let _ ← twoDigits? 0 60 s t
      dropFraction? cs
    | ':' :: _ => none
    | cs => some cs
  | _ => none

/-- The characters are the distance from universal time, or nothing. -/
def isOffset : List Char → Bool
  | [] => true
  | ['Z'] => true
  | ['z'] => true
  | [sign, h, i, ':', m, n] =>
    (sign == '+' || sign == '-') && (twoDigits? 0 23 h i).isSome && (twoDigits? 0 59 m n).isSome
  | _ => false

/-- A word that is a time, a date, or a date and a time. -/
def moment? (cs : List Char) : Option Toml :=
  match dropDate? cs with
  | none => if dropTime? cs == some [] then some .moment else none
  | some [] => some .moment
  | some (separator :: time) =>
    if separator == 'T' || separator == 't' || separator == ' ' then do
      if isOffset (← dropTime? time) then return .moment else none
    else none

/-! ## Words -/

/-- A character of a word. -/
def isWordChar (c : Char) : Bool :=
  c.isAlphanum || c == '+' || c == '-' || c == '_' || c == '.' || c == ':'

/-- Split off a word. A date and a time behind a single space make one word. -/
def splitWord (cs : List Char) : List Char × List Char :=
  let word := cs.takeWhile isWordChar
  let rest := cs.dropWhile isWordChar
  match rest with
  | ' ' :: c :: more =>
    if dropDate? word == some [] && c.isDigit then
      (word ++ ' ' :: (c :: more).takeWhile isWordChar, (c :: more).dropWhile isWordChar)
    else (word, rest)
  | _ => (word, rest)

/-- The meaning of a word. -/
def ofWord? (cs : List Char) : Option Toml :=
  if cs == ['t', 'r', 'u', 'e'] then some (.boolean true)
  else if cs == ['f', 'a', 'l', 's', 'e'] then some (.boolean false)
  else ((integer? cs).or (real? cs)).or (moment? cs)

end ReferenceSite.Toml
