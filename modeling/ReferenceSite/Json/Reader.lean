import ReferenceSite.Json.Value
import ReferenceSite.Text.Quoted

/-!
# Reading JSON

The reader accepts the grammar of RFC 8259 and nothing else: no byte order mark, no raw control characters
in strings, no leading zeros, no text after the value. It works on lists of characters; each function
returns what it read and the rest.

A number without a point and without an exponent is an integer as long as it fits 64 bits (`-0` is a
double). For any other number the digits that fit 64 bits form the significand and the others only move the
point, and the double is `Binary64.ofDecimal?` of the two.
-/

namespace ReferenceSite.Json

/-- The blanks between tokens. -/
def isSpace (c : Char) : Bool := c == ' ' || c == '\n' || c == '\t' || c == '\r'

/-- Drop the blanks in front. -/
def skipSpace (cs : List Char) : List Char := cs.dropWhile isSpace

/-- Read a fixed word, given by its characters. -/
def dropWord : List Char → List Char → Option (List Char)
  | [], cs => some cs
  | w :: ws, c :: cs => if w == c then dropWord ws cs else none
  | _ :: _, [] => none

/-! ## Strings -/

/-- Read four digits in base sixteen. -/
def readHex4 : List Char → Option (Nat × List Char)
  | a :: b :: c :: d :: rest => do
    let a ← Text.hexValue? a
    let b ← Text.hexValue? b
    let c ← Text.hexValue? c
    let d ← Text.hexValue? d
    return (((a * 16 + b) * 16 + c) * 16 + d, rest)
  | _ => none

/-- The character that a letter stands for after a backslash. -/
def escaped? (c : Char) : Option Nat :=
  match c.toNat with
  | 0x22 => some 0x22
  | 0x5C => some 0x5C
  | 0x2F => some 0x2F
  | 0x62 => some 8
  | 0x66 => some 12
  | 0x6E => some 10
  | 0x72 => some 13
  | 0x74 => some 9
  | _ => none

/-- Read the rest of a string behind its opening quote, as code points of which a `\u` escape may give
half of a surrogate pair. `fuel` is at least the number of characters left, `read` the reversed code points
before. -/
def readCodes : (fuel : Nat) → (read : List Nat) → List Char → Option (List Nat × List Char)
  | 0, _, _ => none
  | _ + 1, _, [] => none
  | fuel + 1, read, c :: cs =>
    if c.toNat == 0x22 then some (read.reverse, cs)
    else if c.toNat < 0x20 then none
    else if c.toNat != 0x5C then readCodes fuel (c.toNat :: read) cs
    else match cs with
      | 'u' :: cs => do
        let (n, cs) ← readHex4 cs
        readCodes fuel (n :: read) cs
      | e :: cs => do
        let n ← escaped? e
        readCodes fuel (n :: read) cs
      | [] => none

/-- The characters of code points, a high surrogate and the low one behind it being one character. Nothing
if a surrogate stands alone. -/
def joinSurrogates : List Nat → Option (List Char)
  | [] => some []
  | [n] => if 0xD800 ≤ n && n < 0xE000 then none else some [Char.ofNat n]
  | n :: m :: rest =>
    if 0xD800 ≤ n && n < 0xE000 then
      if n < 0xDC00 && 0xDC00 ≤ m && m < 0xE000 then
        (joinSurrogates rest).map
          (Char.ofNat (0x10000 + (n - 0xD800) * 0x400 + (m - 0xDC00)) :: ·)
      else none
    else (joinSurrogates (m :: rest)).map (Char.ofNat n :: ·)

/-- Read a string behind its opening quote; the inner `none` is a string without a value. -/
def readString (cs : List Char) : Option (Option String × List Char) := do
  let (codes, rest) ← readCodes (cs.length + 1) [] cs
  return ((joinSurrogates codes).map String.ofList, rest)

/-! ## Numbers -/

/-- The digits of a natural number without leading zeros. -/
def readDigits (cs : List Char) : Option (List Char × List Char) :=
  match cs with
  | '0' :: c :: rest => if c.isDigit then none else some (['0'], c :: rest)
  | '0' :: [] => some (['0'], [])
  | c :: rest =>
    if c.isDigit then some ((c :: rest).takeWhile Char.isDigit, (c :: rest).dropWhile Char.isDigit)
    else none
  | [] => none

/-- The digits behind the point, at least one; no point gives no digits. -/
def readFraction (cs : List Char) : Option (List Char × List Char) :=
  match cs with
  | '.' :: rest =>
    match rest.takeWhile Char.isDigit with
    | [] => none
    | ds => some (ds, rest.dropWhile Char.isDigit)
  | _ => some ([], cs)

/-- The exponent, if there is one. -/
def readExponent (cs : List Char) : Option (Option Int × List Char) :=
  match cs with
  | [] => some (none, [])
  | e :: rest =>
    if e == 'e' || e == 'E' then
      let (negative, rest) := match rest with
        | '-' :: rest => (true, rest)
        | '+' :: rest => (false, rest)
        | rest => (false, rest)
      match rest.takeWhile Char.isDigit with
      | [] => none
      | ds =>
        let n : Int := ds.foldl (fun n d => n * 10 + (d.toNat - 48)) (0 : Nat)
        some (some (if negative then -n else n), rest.dropWhile Char.isDigit)
    else some (none, cs)

/-- The greatest number of 64 bits. -/
def maxNatural : Nat := UInt64.size - 1

/-- Append digits to a significand as long as it fits 64 bits; the digits that do not are returned. -/
def absorb : Nat → List Char → Nat × List Char
  | n, [] => (n, [])
  | n, d :: ds =>
    let m := n * 10 + (d.toNat - 48)
    if maxNatural < m then (n, d :: ds) else absorb m ds

/-- The value of a number in its parts, or nothing if it is out of range. -/
def numberOf? (negative : Bool) (digits fraction : List Char) (exponent : Option Int) :
    Option Number := do
  let (n, dropped) := absorb 0 digits
  if dropped.isEmpty && fraction.isEmpty && exponent.isNone then
    if !negative then return .natural n
    if 0 < n && n ≤ Nat.pow 2 63 then return .negative n
  let (m, unread) := absorb n fraction
  let place : Int := dropped.length - (fraction.length - unread.length : Nat)
  let x ← Binary64.ofDecimal? m (place + exponent.getD 0)
  return .double (if negative then x.neg else x)

/-- Read a number. -/
def readNumber (cs : List Char) : Option (Json × List Char) := do
  let (negative, cs) := match cs with
    | '-' :: rest => (true, rest)
    | cs => (false, cs)
  let (digits, cs) ← readDigits cs
  let (fraction, cs) ← readFraction cs
  let (exponent, cs) ← readExponent cs
  match numberOf? negative digits fraction exponent with
  | some n => return (.num n, cs)
  | none => return (.unreadable, cs)

/-! ## Values -/

/-- The members of an object, or an unreadable value if one of the keys is. -/
def objectOf (members : List (Option String × Json)) : Json :=
  match members.mapM (fun (k, v) => k.map (·, v)) with
  | some ms => .obj ms
  | none => .unreadable

mutual

/-- Read a value; blanks may precede it. `fuel` exceeds twice the number of characters left. -/
def readValue : (fuel : Nat) → List Char → Option (Json × List Char)
  | 0, _ => none
  | fuel + 1, cs =>
    match skipSpace cs with
    | [] => none
    | c :: rest =>
      match c.toNat with
      | 0x22 => do
        let (s, rest) ← readString rest
        return ((s.map Json.str).getD .unreadable, rest)
      | 0x5B =>
        match skipSpace rest with
        | ']' :: rest => some (.arr [], rest)
        | rest => do
          let (vs, rest) ← readElements fuel [] rest
          return (.arr vs, rest)
      | 0x7B =>
        match skipSpace rest with
        | [] => none
        | c :: after =>
          if c.toNat == 0x7D then some (.obj [], after)
          else do
            let (ms, rest) ← readMembers fuel [] (c :: after)
            return (objectOf ms, rest)
      | 0x6E => (dropWord ['u', 'l', 'l'] rest).map (.null, ·)
      | 0x74 => (dropWord ['r', 'u', 'e'] rest).map (.bool true, ·)
      | 0x66 => (dropWord ['a', 'l', 's', 'e'] rest).map (.bool false, ·)
      | _ => readNumber (c :: rest)

/-- Read the elements of an array up to its end; `read` are the reversed elements before. -/
def readElements : (fuel : Nat) → (read : List Json) → List Char → Option (List Json × List Char)
  | 0, _, _ => none
  | fuel + 1, read, cs => do
    let (v, cs) ← readValue fuel cs
    match skipSpace cs with
    | ',' :: rest => readElements fuel (v :: read) rest
    | ']' :: rest => some ((v :: read).reverse, rest)
    | _ => none

/-- Read the members of an object up to its end; `read` are the reversed members before. -/
def readMembers : (fuel : Nat) → (read : List (Option String × Json)) → List Char →
    Option (List (Option String × Json) × List Char)
  | 0, _, _ => none
  | fuel + 1, read, cs =>
    match skipSpace cs with
    | [] => none
    | c :: rest =>
      if c.toNat != 0x22 then none
      else do
        let (k, cs) ← readString rest
        match skipSpace cs with
        | ':' :: rest =>
          let (v, cs) ← readValue fuel rest
          match skipSpace cs with
          | [] => none
          | c :: rest =>
            if c == ',' then readMembers fuel ((k, v) :: read) rest
            else if c.toNat == 0x7D then some (((k, v) :: read).reverse, rest)
            else none
        | _ => none

end

/-- The value that a text spells, or nothing if the text is not JSON. -/
def ofText? (text : String) : Option Json := do
  let cs := text.toList
  let (v, rest) ← readValue (2 * cs.length + 2) cs
  if (skipSpace rest).isEmpty then return v else none

end ReferenceSite.Json
