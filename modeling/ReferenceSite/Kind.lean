/-!
# Kinds of API items and release tags

The kind of an item decides whether it is a mere wrapper around others, whether it gets a page, whether it
may have members and how a page or a message calls it.
-/

namespace ReferenceSite

/-- The kind of an API item. -/
inductive Kind where
  /-- The whole model. -/
  | model
  /-- A package. -/
  | package
  /-- An entry point of a package. -/
  | entryPoint
  /-- A namespace. -/
  | «namespace»
  /-- A class. -/
  | «class»
  /-- An interface. -/
  | interface
  /-- A function. -/
  | function
  /-- A method. -/
  | method
  /-- A constructor. -/
  | constructor
  /-- A property. -/
  | property
  /-- An enumeration. -/
  | enum
  /-- A member of an enumeration. -/
  | enumMember
  /-- A type alias. -/
  | typeAlias
  /-- A variable. -/
  | «variable»
deriving DecidableEq, Repr, Inhabited, Hashable

namespace Kind

/-- All kinds, in order. -/
def all : List Kind :=
  [model, package, entryPoint, «namespace», «class», interface, function, method, constructor, property,
    enum, enumMember, typeAlias, «variable»]

/-- Wrappers never get a page or a breadcrumb and are looked through when names are resolved. -/
def isWrapper : Kind → Bool
  | model | entryPoint => true
  | _ => false

/-- Members of an enumeration are listed on its page. -/
def hasInlineListing : Kind → Bool
  | enum => true
  | _ => false

/-- Items that are listed on the page of their owner and have none of their own. -/
def isInlineMember : Kind → Bool
  | enumMember => true
  | _ => false

/-- Items that may have members. -/
def isContainer : Kind → Bool
  | model | package | entryPoint | «namespace» | «class» | interface | enum => true
  | _ => false

/-- Items whose members are grouped under them in the navigation. -/
def ownsNavigation : Kind → Bool
  | «namespace» | «class» | interface => true
  | _ => false

/-- Items that get a page. -/
def producesPage (k : Kind) : Bool := !k.isWrapper && !k.isInlineMember

/-- The name in a model file. -/
def name : Kind → String
  | model => "Model"
  | package => "Package"
  | entryPoint => "EntryPoint"
  | «namespace» => "Namespace"
  | «class» => "Class"
  | interface => "Interface"
  | function => "Function"
  | method => "Method"
  | constructor => "Constructor"
  | property => "Property"
  | enum => "Enum"
  | enumMember => "EnumMember"
  | typeAlias => "TypeAlias"
  | «variable» => "Variable"

/-- The name for readers. -/
def label : Kind → String
  | entryPoint => "Entry Point"
  | enumMember => "Enum Member"
  | typeAlias => "Type Alias"
  | k => k.name

/-- The name in paths. -/
def slug : Kind → String
  | model => "model"
  | package => "package"
  | entryPoint => "entry-point"
  | «namespace» => "namespace"
  | «class» => "class"
  | interface => "interface"
  | function => "function"
  | method => "method"
  | constructor => "constructor"
  | property => "property"
  | enum => "enum"
  | enumMember => "enum-member"
  | typeAlias => "type-alias"
  | «variable» => "variable"

/-- The kind with a name. -/
def ofName? (s : String) : Option Kind := all.find? (·.name == s)

end Kind

/-- The release tag of an item. -/
inductive ReleaseTag where
  /-- No tag. -/
  | untagged
  /-- For internal use. -/
  | internal
  /-- An alpha release. -/
  | alpha
  /-- A beta release. -/
  | beta
  /-- A public release. -/
  | released
deriving DecidableEq, Repr, Inhabited

namespace ReleaseTag

/-- All release tags. -/
def all : List ReleaseTag := [untagged, internal, alpha, beta, released]

/-- The name in a model file. -/
def name : ReleaseTag → String
  | untagged => "none"
  | internal => "internal"
  | alpha => "alpha"
  | beta => "beta"
  | released => "public"

/-- The release tag with a name. -/
def ofName? (s : String) : Option ReleaseTag := all.find? (·.name == s)

/-- The text of the badge on a page; finished releases have none. -/
def badge : ReleaseTag → Option String
  | untagged | released => none
  | t => some t.name

end ReleaseTag

end ReferenceSite
