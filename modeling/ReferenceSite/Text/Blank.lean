/-!
# Blank characters, trimming and words

Blank characters are those of the Unicode property `White_Space`. Names, references and summaries are
trimmed and split by this one class, so a no-break space or an ideographic space separates words just
as an ordinary space does, while a zero width space or a byte order mark does not.

The operations are stated on lists of characters; the functions on `String` at the end of the module
are the same operations for callers that hold a text.
-/

namespace ReferenceSite.Text

/-- The characters with the Unicode property `White_Space`. -/
def isBlank (c : Char) : Bool :=
  let n := c.toNat
  (9 ≤ n && n ≤ 13) || n == 0x20 || n == 0x85 || n == 0xA0 || n == 0x1680
    || (0x2000 ≤ n && n ≤ 0x200A) || n == 0x2028 || n == 0x2029 || n == 0x202F || n == 0x205F
    || n == 0x3000

/-- The control characters (Unicode category `Cc`). -/
def isControl (c : Char) : Bool :=
  let n := c.toNat
  n < 0x20 || (0x7F ≤ n && n < 0xA0)

/-- A line break. -/
def isLineBreak (c : Char) : Bool := c == '\n' || c == '\r'

/-- A separator of path components on some system. -/
def isSeparator (c : Char) : Bool := c == '/' || c == '\x5c'

section Lists

variable {α : Type}

/-- Drop the longest run of elements satisfying `p` at the end of a list. -/
def dropEndWhile (p : α → Bool) (l : List α) : List α :=
  (l.reverse.dropWhile p).reverse

/-- Put an element in front of the first list of a list of lists. -/
def consFirst (a : α) : List (List α) → List (List α)
  | [] => [[a]]
  | l :: ls => (a :: l) :: ls

/-- The pieces between the elements satisfying `p`; there is one piece more than such elements. -/
def splitWhere (p : α → Bool) (l : List α) : List (List α) :=
  l.foldr (fun a pieces => if p a then [] :: pieces else consFirst a pieces) [[]]

/-- Split at the first element satisfying `p`, which belongs to neither side. -/
def splitFirst (p : α → Bool) : List α → Option (List α × List α)
  | [] => none
  | a :: l => if p a then some ([], l) else (splitFirst p l).map fun (x, y) => (a :: x, y)

/-- Split at the last element satisfying `p`, which belongs to neither side. -/
def splitLast (p : α → Bool) (l : List α) : Option (List α × List α) :=
  (splitFirst p l.reverse).map fun (x, y) => (y.reverse, x.reverse)

/-- The lengths of the maximal runs of elements satisfying `p`, in order. -/
def runLengths (p : α → Bool) (l : List α) : List Nat :=
  ((splitWhere (fun a => !p a) l).map List.length).filter (0 < ·)

end Lists

/-- Drop the blank characters at the end. -/
def trimEnd (cs : List Char) : List Char := dropEndWhile isBlank cs

/-- Drop the blank characters at both ends. -/
def trim (cs : List Char) : List Char := trimEnd (cs.dropWhile isBlank)

/-- The maximal runs of characters that are not blank. -/
def words (cs : List Char) : List (List Char) :=
  (splitWhere isBlank cs).filter (!·.isEmpty)

/-- The words of a text with a single space between neighbours. -/
def collapse (cs : List Char) : List Char := List.intercalate [' '] (words cs)

/-! ## On texts -/

/-- A text without the blank characters at its ends. -/
def trimmed (s : String) : String := .ofList (trim s.toList)

/-- A text without the blank characters at its end. -/
def trimmedEnd (s : String) : String := .ofList (trimEnd s.toList)

/-- A text is blank when it has no other characters, in particular when it is empty. -/
def isBlankText (s : String) : Bool := s.toList.all isBlank

/-- The pieces of a text between the occurrences of a character. -/
def splitAt (c : Char) (s : String) : List String :=
  (splitWhere (· == c) s.toList).map String.ofList

/-- A text without the occurrences of a character at its ends. -/
def stripChar (c : Char) (s : String) : String :=
  .ofList (dropEndWhile (· == c) (s.toList.dropWhile (· == c)))

/-- Whether a character occurs in a text. -/
def hasChar (c : Char) (s : String) : Bool := s.toList.contains c

/-- Whether the first list occurs as a contiguous part of the second. -/
def occursIn (w : List Char) : List Char → Bool
  | [] => w.isEmpty
  | c :: cs => w.isPrefixOf (c :: cs) || occursIn w cs

/-- The number written by decimal digits, or nothing if there is none or another character. -/
def natOfDigits? (cs : List Char) : Option Nat :=
  if cs.isEmpty || cs.any (fun c => !c.isDigit) then none
  else some (cs.foldl (fun n c => n * 10 + (c.toNat - 48)) 0)

/-- A letter of the ASCII alphabet. -/
def isAsciiLetter (c : Char) : Bool := c.isAlpha

end ReferenceSite.Text
