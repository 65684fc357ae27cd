/-!
# TOML values

A TOML document is a table. A table remembers how it came about (`Toml.Origin`), because that decides
whether a later part of the document may extend it: `Toml.Entries.addEntry` and its neighbours are the rules.

Real numbers, dates and times are kept without their value, which no reader of this library asks for. A
number that no machine number holds is `Toml.unreadable`.
-/

namespace ReferenceSite

/-- How a table came about. -/
inductive Toml.Origin where
  /-- Written between braces. -/
  | inline
  /-- Named in front of the last key of a header. -/
  | implicit
  /-- Opened by a header. -/
  | header
  /-- Named in front of the last key of an entry. -/
  | dotted
deriving DecidableEq, Repr, Inhabited

/-- A TOML value. -/
inductive Toml where
  /-- A string. -/
  | string (s : String)
  /-- An integer. -/
  | integer (n : Int)
  /-- A truth value. -/
  | boolean (b : Bool)
  /-- A real number, an infinity or not a number. -/
  | real
  /-- A date, a time or both. -/
  | moment
  /-- A number out of range. -/
  | unreadable
  /-- An array written between brackets. -/
  | array (elements : List Toml)
  /-- A table. -/
  | table (origin : Toml.Origin) (entries : List (String × Toml))
  /-- The tables opened by headers in double brackets. -/
  | tables (elements : List (List (String × Toml)))
deriving Repr, Inhabited

namespace Toml

/-- The entries of a table, in the order of the text. -/
abbrev Entries := List (String × Toml)

mutual

/-- No part of the value is unreadable. -/
def isReadable : Toml → Bool
  | unreadable => false
  | array elements => elementsReadable elements
  | table _ entries => entriesReadable entries
  | tables elements => tablesReadable elements
  | _ => true

/-- All elements of an array are readable. -/
def elementsReadable : List Toml → Bool
  | [] => true
  | v :: vs => isReadable v && elementsReadable vs

/-- All entries of a table are readable. -/
def entriesReadable : Entries → Bool
  | [] => true
  | (_, v) :: es => isReadable v && entriesReadable es

/-- All of several tables are readable. -/
def tablesReadable : List Entries → Bool
  | [] => true
  | t :: ts => entriesReadable t && tablesReadable ts

end

namespace Entries

/-- Replace the value of the first entry with a key, or append an entry. -/
def put (key : String) (value : Toml) : Entries → Entries
  | [] => [(key, value)]
  | (k, v) :: es => if k == key then (k, value) :: es else (k, v) :: put key value es

/-! ## Rules for extending tables -/

/-- Whether the keys on the way to a table stand in a header or in an entry. -/
inductive Way where
  /-- In a header. -/
  | header
  /-- In an entry. -/
  | entry
deriving DecidableEq, Repr

/-- The origin of a table that is opened on the way. -/
def Way.origin : Way → Origin
  | header => .implicit
  | entry => .dotted

/-- Whether a table may be entered on the way. Headers enter every table but an inline one; entries leave
alone the tables that a header has opened. -/
def Way.enters : Way → Origin → Bool
  | _, .inline => false
  | entry, .header => false
  | _, _ => true

/-- Change the table at the end of a way; tables that are missing on the way are opened, and the last
of the tables in double brackets is entered. -/
def changeAt (way : Way) (change : Origin → Entries → Option Entries) :
    (keys : List String) → Origin → Entries → Option Entries
  | [], origin, es => change origin es
  | k :: ks, _, es =>
    match es.lookup k with
    | none => do
      return es ++ [(k, .table way.origin (← changeAt way change ks way.origin []))]
    | some (.table origin inner) =>
      if way.enters origin then do
        return put k (.table origin (← changeAt way change ks origin inner)) es
      else none
    | some (.tables elements) => do
      let inner ← changeAt way change ks .header (elements.getLast?.getD [])
      return put k (.tables (elements.dropLast ++ [inner])) es
    | some _ => none

/-- Append an entry under a key that is new. -/
def append (key : String) (value : Toml) (es : Entries) : Option Entries :=
  if es.any (·.1 == key) then none else some (es ++ [(key, value)])

/-- Add an entry with a key of one or more parts. Only a table that belongs to such keys takes an entry. -/
def addEntry (es : Entries) (key : List String × String) (value : Toml) : Option Entries :=
  changeAt .entry
    (fun origin inner => if key.1.isEmpty || origin == .dotted then append key.2 value inner else none)
    key.1 .header es

/-- Add entries one after the other. -/
def addAll (es : Entries) (added : List ((List String × String) × Toml)) : Option Entries :=
  added.foldlM (fun es (key, value) => es.addEntry key value) es

/-- Open a table by a header and add the entries below the header. A table that was only named on the way
to others may still be opened, once. -/
def openTable (es : Entries) (header : List String × String)
    (added : List ((List String × String) × Toml)) : Option Entries :=
  changeAt .header
    (fun _ outer =>
      match outer.lookup header.2 with
      | none => do return outer ++ [(header.2, .table .header (← addAll [] added))]
      | some (.table .implicit inner) => do
        return put header.2 (.table .header (← addAll inner added)) outer
      | some _ => none)
    header.1 .header es

/-- Open one more table by a header in double brackets and add the entries below the header. -/
def openNext (es : Entries) (header : List String × String)
    (added : List ((List String × String) × Toml)) : Option Entries :=
  changeAt .header
    (fun _ outer =>
      match outer.lookup header.2 with
      | none => do return outer ++ [(header.2, .tables [← addAll [] added])]
      | some (.tables elements) => do
        return put header.2 (.tables (elements ++ [← addAll [] added])) outer
      | some _ => none)
    header.1 .header es

end Entries

end Toml

end ReferenceSite
