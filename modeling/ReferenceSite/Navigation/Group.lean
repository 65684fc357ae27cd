import ReferenceSite.Json.Reader
import ReferenceSite.Json.Record
import ReferenceSite.Text.Quoted
import ReferenceSite.Text.Blank

/-!
# Navigation groups

A group has a heading, an optional icon and pages, each of which is a page reference or a group. A group
that was read from JSON keeps the keys that have no meaning here, in their order, and writes them again
behind its own.
-/

namespace ReferenceSite

/-- A page reference or a group within a group. -/
inductive NavPage where
  /-- A page reference. -/
  | page (path : String)
  /-- A group with its heading, icon, pages and further keys. -/
  | group (heading : String) (icon : Option String) (pages : List NavPage)
      (extra : List (String × Json))
deriving Repr, Inhabited

/-- A group of pages. -/
structure NavGroup where
  /-- The heading. -/
  heading : String
  /-- The name of the icon. -/
  icon : Option String := none
  /-- Page references and groups, in the order of display. -/
  pages : List NavPage := []
  /-- Keys without a meaning here. -/
  extra : List (String × Json) := []
deriving Repr, Inhabited

namespace NavGroup

/-- The group as a page of another group. -/
def asPage (g : NavGroup) : NavPage := .group g.heading g.icon g.pages g.extra

mutual

/-- The page references below a page, depth first. -/
def pageRefs : NavPage → List String
  | .page path => [path]
  | .group _ _ pages _ => listRefs pages

/-- The page references below a list of pages, depth first. -/
def listRefs : List NavPage → List String
  | [] => []
  | p :: ps => pageRefs p ++ listRefs ps

end

/-- Every page reference in the group, depth first. -/
def refs (g : NavGroup) : List String := listRefs g.pages

/-! ## JSON -/

mutual

/-- A page as a JSON value. -/
def pageToJson : NavPage → Json
  | .page path => .str path
  | .group heading icon pages extra =>
    .obj (("group", .str heading) :: (icon.map fun i => ("icon", Json.str i)).toList
      ++ ("pages", .arr (pagesToJson pages)) :: extra)

/-- A list of pages as JSON values. -/
def pagesToJson : List NavPage → List Json
  | [] => []
  | p :: ps => pageToJson p :: pagesToJson ps

end

/-- A group as a JSON value. -/
def toJson (g : NavGroup) : Json := pageToJson g.asPage

/-- A group as a part of a document, in which every object has each key once. -/
def toDocument (g : NavGroup) : Json := g.toJson.merged

/-- The keys with a meaning. -/
def ownKeys : List String := ["group", "icon", "pages"]

/-- The keys without a meaning, each at its first place with its last value. -/
def extraOf (members : List (String × Json)) : List (String × Json) :=
  Json.putAll (Json.mergedMembers (members.filter fun (k, _) => !ownKeys.contains k))

/-- A page that is a group, from the members of an object and the pages read from them. -/
def groupOf? (members : List (String × Json)) (pages : List NavPage) : Option NavPage := do
  let fields ← Json.objectFields? ownKeys members
  return .group (← Json.required "group" Json.string? fields)
    (← Json.optional "icon" Json.string? fields) pages (extraOf members)

mutual

/-- Read a page: a string or a group. -/
def pageOfJson? : Json → Option NavPage
  | .str path => some (.page path)
  | .obj members => do groupOf? members (← pagesOfMembers? members)
  | _ => none

/-- Read the pages among the members of a group; a group without the key has none. -/
def pagesOfMembers? : List (String × Json) → Option (List NavPage)
  | [] => some []
  | (k, v) :: ms => if k == "pages" then pagesOfValue? v else pagesOfMembers? ms

/-- Read an array of pages. -/
def pagesOfValue? : Json → Option (List NavPage)
  | .arr vs => pagesOfElements? vs
  | _ => none

/-- Read each of several pages. -/
def pagesOfElements? : List Json → Option (List NavPage)
  | [] => some []
  | v :: vs => do return (← pageOfJson? v) :: (← pagesOfElements? vs)

end

/-- Read a group. -/
def ofJson? (v : Json) : Option NavGroup :=
  match v with
  | .obj _ =>
    match pageOfJson? v with
    | some (.group heading icon pages extra) => some { heading, icon, pages, extra }
    | _ => none
  | _ => none

/-- The group written in a JSON text. -/
def ofJsonText? (text : String) : Option NavGroup := do
  let v ← Json.ofText? text
  if v.isReadable && v.nesting ≤ Json.nestingLimit then ofJson? v else none

/-! ## Page references -/

/-- What is wrong with a page reference. -/
inductive RefFault where
  /-- It is empty. -/
  | empty
  /-- It starts at the root. -/
  | absolute
  /-- It climbs to a parent directory. -/
  | parentDirectory
  /-- It starts with a drive. -/
  | drive
deriving DecidableEq, Repr

/-- The reason given for a fault. -/
def RefFault.reason : RefFault → String
  | empty => "empty reference"
  | absolute => "absolute reference"
  | parentDirectory => "parent directory component"
  | drive => "drive prefix"

/-- The first fault of a page reference. -/
def refFault? (ref : String) : Option RefFault :=
  let cs := ref.toList
  if cs.isEmpty then some .empty
  else if (cs.head?.map Text.isSeparator).getD false then some .absolute
  else if (Text.splitWhere Text.isSeparator cs).any (· == ['.', '.']) then some .parentDirectory
  else if cs[1]? == some ':' then some .drive
  else none

/-- A page reference of a group with a fault. -/
structure InvalidRef where
  /-- The page reference. -/
  ref : String
  /-- Its fault. -/
  fault : RefFault
deriving DecidableEq, Repr

/-- The message of an error. -/
def InvalidRef.message (e : InvalidRef) : String :=
  "Invalid page reference " ++ Text.quoted e.ref ++ ": " ++ e.fault.reason

/-- The first page reference with a fault. -/
def invalidRef? (g : NavGroup) : Option InvalidRef :=
  g.refs.findSome? fun ref => (refFault? ref).map fun fault => { ref, fault }

end NavGroup

end ReferenceSite
