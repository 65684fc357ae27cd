import ReferenceSite.Kind

/-!
# Navigation categories

Pages are gathered by category, both in the navigation and on the page of a container. The categories have
a fixed order, a heading and an icon.
-/

namespace ReferenceSite

/-- A category of pages. -/
inductive Category where
  /-- Classes. -/
  | classes
  /-- Interfaces. -/
  | interfaces
  /-- Functions. -/
  | functions
  /-- Methods and constructors. -/
  | methods
  /-- Properties. -/
  | properties
  /-- Enumerations and their members. -/
  | enumerations
  /-- Type aliases. -/
  | typeAliases
  /-- Variables. -/
  | vars
  /-- Namespaces. -/
  | namespaces
  /-- Everything else. -/
  | other
deriving DecidableEq, Repr, Inhabited

namespace Category

/-- All categories, in the order of display. -/
def all : List Category :=
  [classes, interfaces, functions, methods, properties, enumerations, typeAliases, vars, namespaces,
    other]

/-- The place in the order of display. -/
def position (c : Category) : Nat := all.idxOf c

/-- The name of the category in one word. -/
def name : Category → String
  | classes => "Classes"
  | interfaces => "Interfaces"
  | functions => "Functions"
  | methods => "Methods"
  | properties => "Properties"
  | enumerations => "Enumerations"
  | typeAliases => "TypeAliases"
  | vars => "Variables"
  | namespaces => "Namespaces"
  | other => "Other"

/-- The category with a name. -/
def ofName? (s : String) : Option Category := all.find? (·.name == s)

/-- The heading. -/
def label : Category → String
  | typeAliases => "Type Aliases"
  | c => c.name

/-- The name of the icon. -/
def icon : Category → String
  | classes => "cube"
  | interfaces => "plug"
  | functions => "function"
  | methods => "code"
  | properties => "sliders"
  | enumerations => "list"
  | typeAliases => "tag"
  | vars => "box"
  | namespaces => "folder"
  | other => "file"

/-- The category of the pages of a kind. -/
def ofKind : Kind → Category
  | .class => classes
  | .interface => interfaces
  | .function => functions
  | .method | .constructor => methods
  | .property => properties
  | .enum | .enumMember => enumerations
  | .typeAlias => typeAliases
  | .variable => vars
  | .namespace => namespaces
  | .model | .package | .entryPoint => other

end Category

end ReferenceSite
