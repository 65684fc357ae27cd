import ReferenceSite.Text.CaseTable
import ReferenceSite.Text.QuoteTable

/-!
# Quoted texts

Messages show a path or a page reference between double quotes, with every character that a reader could
not tell from the text around it spelled out: the quote, the backslash, the usual control characters by a
letter, and all other characters of `QuoteTable` by their code point in braces.
-/

namespace ReferenceSite.Text

/-- One digit of a number in base sixteen; a letter stands for ten, and those behind it for more. -/
def hexDigit (ten : Char) (n : Nat) : Char :=
  if n < 10 then Char.ofNat (48 + n) else Char.ofNat (ten.toNat + (n - 10))

/-- The digits of a number in base sixteen, in lower case and without leading zeros. -/
def hexDigits (n : Nat) : List Char :=
  if n < 16 then [hexDigit 'a' n] else hexDigits (n / 16) ++ [hexDigit 'a' (n % 16)]
termination_by n
decreasing_by omega

/-- The last `width` digits of a number in base sixteen, with leading zeros; `digit` writes one digit. -/
def hexPaddedBy (digit : Nat → Char) : (width : Nat) → Nat → List Char
  | 0, _ => []
  | width + 1, n => hexPaddedBy digit width (n / 16) ++ [digit (n % 16)]

/-- The last `width` digits of a number in base sixteen, in lower case and with leading zeros. -/
def hexPadded (width n : Nat) : List Char := hexPaddedBy (hexDigit 'a') width n

/-- The value of a digit in base sixteen, in either case. -/
def hexValue? (c : Char) : Option Nat :=
  if c.isDigit then some (c.toNat - 48)
  else if 'a' ≤ c && c ≤ 'f' then some (c.toNat - 87)
  else if 'A' ≤ c && c ≤ 'F' then some (c.toNat - 55)
  else none

/-- How a character is written inside quotes. -/
def quotedChar (c : Char) : List Char :=
  match c.toNat with
  | 0 => ['\x5c', '0']
  | 9 => ['\x5c', 't']
  | 10 => ['\x5c', 'n']
  | 13 => ['\x5c', 'r']
  | 0x22 => ['\x5c', '\x22']
  | 0x5C => ['\x5c', '\x5c']
  | n =>
    if CaseTable.within QuoteTable.escapedRanges n then
      ['\x5c', 'u', '\x7b'] ++ hexDigits n ++ ['\x7d']
    else [c]

/-- A text between double quotes. -/
def quoted (s : String) : String :=
  .ofList (['\x22'] ++ s.toList.flatMap quotedChar ++ ['\x22'])

end ReferenceSite.Text
