import ReferenceSite.Text.Quoted

/-!
# Page templates

A template is text with placeholders for values, conditions, loops, macros, and with other templates
included or imported by name. This module holds the tree of a template, the values it works on and how
values are shown; `ReferenceSite.Template.Reader` reads templates and `ReferenceSite.Template.Evaluation`
evaluates them.
-/

namespace ReferenceSite.Template

/-- An expression. -/
inductive Expr where
  /-- A variable. -/
  | var (name : String)
  /-- A text. -/
  | text (s : String)
  /-- An integer. -/
  | int (n : Int)
  /-- A truth value. -/
  | bool (b : Bool)
  /-- No value. -/
  | none
  /-- An attribute of a value. -/
  | attribute (e : Expr) (name : String)
  /-- An element of a value. -/
  | element (e index : Expr)
  /-- A macro applied to arguments. -/
  | call (e : Expr) (arguments : List Expr)
  /-- Two values are equal. -/
  | equal (a b : Expr)
  /-- Two values are different. -/
  | different (a b : Expr)
  /-- The opposite truth value. -/
  | negation (e : Expr)
  /-- The first value if it counts as false, else the second. -/
  | both (a b : Expr)
  /-- The first value if it counts as true, else the second. -/
  | either (a b : Expr)
deriving Repr, Inhabited

/-- A part of a template. -/
inductive Node where
  /-- Text to copy. -/
  | text (s : String)
  /-- A value to show. -/
  | print (e : Expr)
  /-- The first case whose condition counts as true, or the other part. -/
  | branch (cases : List (Expr × List Node)) (otherwise : List Node)
  /-- A part for each element of a value, or the other part if there is none. -/
  | loop (name : String) (source : Expr) (body otherwise : List Node)
  /-- The macros of another template under one name. -/
  | importAs (template : Expr) (name : String)
  /-- The text of another template. -/
  | splice (template : Expr)
  /-- A macro. -/
  | define (name : String) (parameters : List String) (body : List Node)
deriving Repr, Inhabited

/-- A value. -/
inductive Value where
  /-- The value of a name that has none. -/
  | undefined
  /-- The value that is no value. -/
  | none
  /-- A truth value. -/
  | bool (b : Bool)
  /-- An integer. -/
  | int (n : Int)
  /-- A text. -/
  | text (s : String)
  /-- A list. -/
  | list (vs : List Value)
  /-- Values by name. -/
  | record (fields : List (String × Value))
  /-- A macro with the variables around its definition. -/
  | procedure (name : String) (parameters : List String) (body : List Node)
      (closure : List (String × Value))
deriving Repr, Inhabited

namespace Value

/-- A text or no value. -/
def ofOption : Option String → Value
  | some s => text s
  | Option.none => none

/-- The value counts as true. -/
def isTrue : Value → Bool
  | undefined => false
  | none => false
  | bool b => b
  | int n => n != 0
  | text s => !s.isEmpty
  | list vs => !vs.isEmpty
  | record fields => !fields.isEmpty
  | procedure .. => true

mutual

/-- Equality of values; a macro equals nothing. -/
def equals : Value → Value → Bool
  | undefined, undefined => true
  | none, none => true
  | bool a, bool b => a == b
  | int a, int b => a == b
  | text a, text b => a == b
  | list as, list bs => equalElements as bs
  | record as, record bs => equalFields as bs
  | _, _ => false

/-- Equality of lists. -/
def equalElements : List Value → List Value → Bool
  | [], [] => true
  | a :: as, b :: bs => equals a b && equalElements as bs
  | _, _ => false

/-- Equality of records. -/
def equalFields : List (String × Value) → List (String × Value) → Bool
  | [], [] => true
  | (k, a) :: as, (l, b) :: bs => k == l && equals a b && equalFields as bs
  | _, _ => false

end

mutual

/-- A value inside a list or a record. -/
def toInnerText : Value → String
  | text s => Text.quoted s
  | list vs => "[" ++ innerElements vs ++ "]"
  | record fields => "\x7b" ++ innerFields fields ++ "\x7d"
  | undefined => "undefined"
  | none => "none"
  | bool b => if b then "true" else "false"
  | int n => toString n
  | procedure name .. => "<macro " ++ name ++ ">"

/-- The elements of a list. -/
def innerElements : List Value → String
  | [] => ""
  | [v] => toInnerText v
  | v :: vs => toInnerText v ++ ", " ++ innerElements vs

/-- The fields of a record. -/
def innerFields : List (String × Value) → String
  | [] => ""
  | [(k, v)] => Text.quoted k ++ ": " ++ toInnerText v
  | (k, v) :: rest => Text.quoted k ++ ": " ++ toInnerText v ++ ", " ++ innerFields rest

end

/-- The text that a value is shown as. -/
def toText : Value → String
  | undefined => ""
  | text s => s
  | v => v.toInnerText

/-- The elements that a loop runs over, if the value has any kind of elements. -/
def elements? : Value → Option (List Value)
  | undefined => some []
  | none => some []
  | text s => some (s.toList.map fun c => text (.ofList [c]))
  | list vs => some vs
  | record fields => some (fields.map fun f => text f.1)
  | _ => Option.none

end Value

end ReferenceSite.Template
