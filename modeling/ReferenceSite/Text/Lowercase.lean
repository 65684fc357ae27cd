import ReferenceSite.Text.CaseTable

/-!
# Lowercase texts

The full Unicode lowercase mapping. It is independent of any language and has two rules beyond the
mapping of single characters: a capital I with a dot becomes two characters, and a capital sigma becomes a
final sigma when it ends a word, that is, when the nearest cased character before it exists and the nearest
one after it does not, skipping characters that are ignorable for case.
-/

namespace ReferenceSite.Text

open CaseTable

/-- Whether a character has case. -/
def isCased (c : Char) : Bool := within casedRanges c.toNat

/-- Whether a character is skipped when the cased neighbours of a letter are looked for. -/
def isCaseIgnorable (c : Char) : Bool := within ignorableRanges c.toNat

/-- The lowercase form of a character, whatever stands around it. -/
def lowerChar (c : Char) : List Char :=
  if c.toNat == 0x130 then ['i', Char.ofNat 0x307]
  else match lowerRuns.find? (fun (lo, hi, step, _) =>
      lo ≤ c.toNat && c.toNat ≤ hi && (c.toNat - lo) % step == 0) with
    | some (_, _, _, shift) => [Char.ofNat (c.toNat + shift).toNat]
    | none => [c]

/-- The nearest character that is not ignorable for case exists and is cased. -/
def meetsCased (cs : List Char) : Bool :=
  match cs.dropWhile isCaseIgnorable with
  | [] => false
  | c :: _ => isCased c

/-- Lowercase the second list, the first being the reversed text before it. -/
def lowerAfter : List Char → List Char → List Char
  | _, [] => []
  | before, c :: rest =>
    (if c.toNat == 0x3A3 then
      [if meetsCased before && !meetsCased rest then Char.ofNat 0x3C2 else Char.ofNat 0x3C3]
    else lowerChar c) ++ lowerAfter (c :: before) rest

/-- The lowercase form of a list of characters. -/
def lower (cs : List Char) : List Char := lowerAfter [] cs

/-- The lowercase form of a text. -/
def lowercase (s : String) : String := .ofList (lower s.toList)

end ReferenceSite.Text
