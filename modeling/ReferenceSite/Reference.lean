import ReferenceSite.Text.Blank
import ReferenceSite.Json.Record

/-!
# Declaration references

A reference names an item by a package, by the names of members from the package inwards, and by an
overload. Its short form is `package!Outer.inner:2`; names with a dot have no short form and are given by
the structured form only. `Reference.ofText?` reads the short form and `Reference.toText` writes it.
-/

namespace ReferenceSite

/-- A reference to a declaration. -/
structure Reference where
  /-- The package; without one the reference is read from a context. -/
  package : Option String := none
  /-- The names of members, from the package inwards. -/
  members : List String := []
  /-- The overload, counted from one. -/
  overload : Option UInt32 := none
deriving DecidableEq, Repr, Inhabited, Hashable

namespace Reference

/-- Why a text is no reference. -/
inductive ParseError where
  /-- Nothing is named. -/
  | empty
  /-- A member has no name. -/
  | emptySegment (text : String)
  /-- What follows the last colon is not a number of 32 bits. -/
  | invalidOverload (text : String)
deriving DecidableEq, Repr

/-- The message of an error. -/
def ParseError.message : ParseError → String
  | empty => "empty declaration reference"
  | emptySegment text => "empty member segment in reference '" ++ text ++ "'"
  | invalidOverload text => "invalid overload index in reference '" ++ text ++ "'"

/-- The short form. -/
def toText (r : Reference) : String :=
  (match r.package with
    | some p => p ++ "!"
    | none => "")
  ++ String.intercalate "." r.members
  ++ (match r.overload with
    | some n => ":" ++ toString n.toNat
    | none => "")

/-- An overload as written: decimal digits, a plus sign in front being allowed. -/
def overload? (cs : List Char) : Option UInt32 :=
  let digits := match cs with
    | '+' :: ds => ds
    | ds => ds
  (Text.natOfDigits? digits).bind fun n => if n < UInt32.size then some (UInt32.ofNat n) else none

/-- Split off the package: what stands before the first exclamation mark, unless that is empty. -/
def splitPackage (cs : List Char) : Option String × List Char :=
  match Text.splitFirst (· == '!') cs with
  | none => (none, cs)
  | some ([], rest) => (none, rest)
  | some (p, rest) => (some (.ofList p), rest)

/-- Read the short form. -/
def ofText? (text : String) : Except ParseError Reference := do
  let cs := Text.trim text.toList
  if cs.isEmpty then throw .empty
  let (package, rest) := splitPackage cs
  let (path, overload) ← match Text.splitLast (· == ':') rest with
    | none => pure (rest, none)
    | some (path, index) =>
      match overload? index with
      | some n => pure (path, some n)
      | none => throw (.invalidOverload (.ofList cs))
  let members := if path.isEmpty then [] else Text.splitWhere (· == '.') path
  if members.any List.isEmpty then throw (.emptySegment (.ofList cs))
  if package.isNone && members.isEmpty then throw .empty
  return { package, members := members.map .ofList, overload }

/-! ## JSON -/

/-- The structured form as a JSON value. -/
def toJson (r : Reference) : Json :=
  .present
    [r.package.map fun p => ("package", .str p),
      some ("members", .arr (r.members.map .str)),
      r.overload.map fun n => ("overload", .ofNat n.toNat)]

/-- Read the structured form. -/
def ofJson? (v : Json) : Option Reference := do
  let fields ← v.fields? ["package", "members", "overload"]
  return {
    package := ← Json.optional "package" Json.string? fields
    members := ← Json.withDefault "members" [] (Json.list? Json.string?) fields
    overload := ← Json.optional "overload" Json.word32? fields }

/-- Read a reference in the short form or in the structured form. Which of the two it is can only be told of
a value that is readable throughout. -/
def ofEitherForm? : Json → Option Reference
  | .str s => (ofText? s).toOption
  | v => if v.isReadable then ofJson? v else none

end Reference

end ReferenceSite
