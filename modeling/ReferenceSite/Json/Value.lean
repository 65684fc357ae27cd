import ReferenceSite.Decimal.Binary64

/-!
# JSON values

A JSON document as a tree. Objects keep their keys in the order of the text, and also every repetition of a
key: a reader of records refuses repetitions, a reader of free documents lets the last one win
(`Json.merged`).

A text may spell a value that no reader can hold, namely half of a surrogate pair or a number beyond the
range of a double. Such a value is `Json.unreadable`; a record whose reader skips it is still accepted.
-/

namespace ReferenceSite

/-- A number: an integer that fits 64 bits with or without a sign, or a double. -/
inductive Json.Number where
  /-- An integer that is not negative, below `2 ^ 64`. -/
  | natural (n : Nat)
  /-- The integer `-n`, with `n` from `1` to `2 ^ 63`. -/
  | negative (n : Nat)
  /-- Any other number. -/
  | double (x : Binary64)
deriving DecidableEq, Repr, Inhabited

/-- A JSON value. -/
inductive Json where
  /-- The value `null`. -/
  | null
  /-- A truth value. -/
  | bool (b : Bool)
  /-- A number. -/
  | num (n : Json.Number)
  /-- A string. -/
  | str (s : String)
  /-- An array. -/
  | arr (elements : List Json)
  /-- An object, its members in the order of the text. -/
  | obj (members : List (String × Json))
  /-- A well-formed text without a value. -/
  | unreadable
deriving Repr, Inhabited

namespace Json

/-! ## Equality -/

mutual

/-- Equality of values, the order of members included. -/
def beq : Json → Json → Bool
  | null, null => true
  | bool a, bool b => a == b
  | num a, num b => a == b
  | str a, str b => a == b
  | arr a, arr b => beqElements a b
  | obj a, obj b => beqMembers a b
  | unreadable, unreadable => true
  | _, _ => false

/-- Equality of arrays. -/
def beqElements : List Json → List Json → Bool
  | [], [] => true
  | a :: as, b :: bs => beq a b && beqElements as bs
  | _, _ => false

/-- Equality of objects. -/
def beqMembers : List (String × Json) → List (String × Json) → Bool
  | [], [] => true
  | (k, a) :: as, (l, b) :: bs => k == l && beq a b && beqMembers as bs
  | _, _ => false

end

instance : BEq Json := ⟨beq⟩

/-! ## Measures -/

mutual

/-- The number of containers around the most deeply nested value, the value itself included. -/
def nesting : Json → Nat
  | arr elements => nestingElements elements + 1
  | obj members => nestingMembers members + 1
  | _ => 0

/-- The greatest nesting among the elements of an array. -/
def nestingElements : List Json → Nat
  | [] => 0
  | v :: vs => max (nesting v) (nestingElements vs)

/-- The greatest nesting among the members of an object. -/
def nestingMembers : List (String × Json) → Nat
  | [] => 0
  | (_, v) :: ms => max (nesting v) (nestingMembers ms)

end

mutual

/-- No part of the value is unreadable. -/
def isReadable : Json → Bool
  | arr elements => elementsReadable elements
  | obj members => membersReadable members
  | unreadable => false
  | _ => true

/-- All elements of an array are readable. -/
def elementsReadable : List Json → Bool
  | [] => true
  | v :: vs => isReadable v && elementsReadable vs

/-- All members of an object are readable. -/
def membersReadable : List (String × Json) → Bool
  | [] => true
  | (_, v) :: ms => isReadable v && membersReadable ms

end

/-- The most containers that a value being read may be nested in. -/
def nestingLimit : Nat := 127

/-! ## Members -/

/-- The value of the first member with a key. -/
def find? (key : String) (members : List (String × Json)) : Option Json :=
  (members.find? (·.1 == key)).map (·.2)

/-- The value of a key of an object; nothing else has keys. -/
def get? (key : String) : Json → Option Json
  | obj members => find? key members
  | _ => none

/-- Set the value of a key: in place of the first member with it, or at the end. -/
def put (key : String) (value : Json) : List (String × Json) → List (String × Json)
  | [] => [(key, value)]
  | (k, v) :: ms => if k == key then (k, value) :: ms else (k, v) :: put key value ms

/-- The members with each key at its first position and with its last value. -/
def putAll (members : List (String × Json)) : List (String × Json) :=
  members.foldl (fun ms (k, v) => put k v ms) []

mutual

/-- The value with the repetitions of keys merged in every object. -/
def merged : Json → Json
  | arr elements => arr (mergedElements elements)
  | obj members => obj (putAll (mergedMembers members))
  | v => v

/-- Merge the repetitions within each element. -/
def mergedElements : List Json → List Json
  | [] => []
  | v :: vs => merged v :: mergedElements vs

/-- Merge the repetitions within each member. -/
def mergedMembers : List (String × Json) → List (String × Json)
  | [] => []
  | (k, v) :: ms => (k, merged v) :: mergedMembers ms

end

/-- A free document: readable, not nested too deeply, and with repeated keys merged. -/
def document? (v : Json) : Option Json :=
  if v.isReadable && v.nesting ≤ nestingLimit then some v.merged else none

/-- The value of a number that is a natural number. -/
def ofNat (n : Nat) : Json := num (.natural n)

/-- The value or `null`. -/
def ofOption {α : Type} (f : α → Json) : Option α → Json
  | none => null
  | some a => f a

end Json

end ReferenceSite
