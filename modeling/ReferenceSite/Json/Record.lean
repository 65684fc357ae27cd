import ReferenceSite.Json.Value

/-!
# Records in JSON

A record with named fields is written as an object, its fields in any order and further keys ignored, or
as an array of its fields in order of declaration, of which the last ones may be missing. A repeated field
is refused. What a missing field means is the reader's decision.

Each reader here returns `none` for a value that it does not accept.
-/

namespace ReferenceSite.Json

/-- The fields of a record that are present, by name. -/
abbrev Fields := List (String × Json)

/-- The fields of an object; a repeated one is refused and keys without a meaning are dropped. -/
def objectFields? (names : List String) (members : List (String × Json)) : Option Fields :=
  let known := members.filter fun (k, _) => names.contains k
  if (known.map (·.1)).Nodup then some known else none

/-- The fields of a record in either form. -/
def fields? (names : List String) : Json → Option Fields
  | obj members => objectFields? names members
  | arr elements => if elements.length ≤ names.length then some (names.zip elements) else none
  | _ => none

/-- Read a field that must be present. -/
def required {α : Type} (name : String) (read : Json → Option α) (fields : Fields) : Option α :=
  (find? name fields).bind read

/-- Read a field with a value to take when it is missing. -/
def withDefault {α : Type} (name : String) (fallback : α) (read : Json → Option α) (fields : Fields) :
    Option α :=
  match find? name fields with
  | none => some fallback
  | some v => read v

/-- Read a value that may be `null`. -/
def nullable {α : Type} (read : Json → Option α) : Json → Option (Option α)
  | null => some none
  | v => (read v).map some

/-- Read a field that may be missing or `null`. -/
def optional {α : Type} (name : String) (read : Json → Option α) (fields : Fields) :
    Option (Option α) :=
  withDefault name none (nullable read) fields

/-- Read a string. -/
def string? : Json → Option String
  | str s => some s
  | _ => none

/-- Read a truth value. -/
def bool? : Json → Option Bool
  | bool b => some b
  | _ => none

/-- Read a natural number written as an integer. -/
def natural? : Json → Option Nat
  | num (.natural n) => some n
  | _ => none

/-- Read a natural number of 32 bits. -/
def word32? (v : Json) : Option UInt32 :=
  (natural? v).bind fun n => if n < UInt32.size then some (UInt32.ofNat n) else none

/-- Read an array, each element by one reader. -/
def list? {α : Type} (read : Json → Option α) : Json → Option (List α)
  | arr elements => elements.mapM read
  | _ => none

/-- Read one of several words: as a string, or as an object with the word as its only key and `null` as its
value. -/
def word? {α : Type} (meaning : String → Option α) : Json → Option α
  | str s => meaning s
  | obj [(s, null)] => meaning s
  | _ => none

/-! ## What a reader looks at -/

/-- The parts of a value that a reader looks at. Other keys of a record are skipped, so they may nest as
deeply as they like. -/
inductive Shape where
  /-- Everything. -/
  | whole
  /-- The elements of an array. -/
  | list (element : Shape)
  /-- The named fields of a record. -/
  | record (fields : List (String × Shape))
deriving Repr, Inhabited

mutual

/-- The number of containers around the most deeply nested part that a reader looks at. -/
def Shape.nesting : Shape → Json → Nat
  | .list element, arr vs => (vs.map (Shape.nesting element)).foldl max 0 + 1
  | .record fields, obj ms => Shape.nestingFields fields ms + 1
  | .record fields, arr vs => Shape.nestingPositions fields vs + 1
  | _, v => v.nesting

/-- The greatest nesting among the named fields of an object. -/
def Shape.nestingFields : List (String × Shape) → List (String × Json) → Nat
  | [], _ => 0
  | (name, shape) :: fields, ms =>
    max (((ms.filter (·.1 == name)).map fun m => Shape.nesting shape m.2).foldl max 0)
      (Shape.nestingFields fields ms)

/-- The greatest nesting among the fields of a record in array form. -/
def Shape.nestingPositions : List (String × Shape) → List Json → Nat
  | (_, shape) :: fields, v :: vs => max (Shape.nesting shape v) (Shape.nestingPositions fields vs)
  | _, _ => 0

end

/-- Read a value that is not nested too deeply where the reader looks. -/
def within? {α : Type} (shape : Shape) (limit : Nat) (read : Json → Option α) (v : Json) : Option α :=
  if shape.nesting v ≤ limit then read v else none

/-- The members that are present, in order. -/
def present (members : List (Option (String × Json))) : Json := obj (members.filterMap id)

end ReferenceSite.Json
