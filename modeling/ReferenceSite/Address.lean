import ReferenceSite.Model
import ReferenceSite.Path
import ReferenceSite.Text.Quoted

/-!
# Page addresses

Every item with a page has an address: one segment for each item of its lineage that is neither a wrapper
nor an inline member. Names come from a model that nobody has checked, so each segment is checked before
the segments are joined and the joined text is checked again. An address gives the page's file
(`Address.file`) and its page reference (`Address.pageRef`).
-/

namespace ReferenceSite

/-- The address of a page. -/
structure Address where
  /-- The segments, the outermost first. -/
  segments : List String
deriving DecidableEq, Repr, Inhabited

namespace Address

/-! ## Checks -/

/-- What is wrong with a segment. -/
inductive SegmentFault where
  /-- It is empty. -/
  | empty
  /-- It stands for the directory itself. -/
  | currentDirectory
  /-- It holds two dots in a row. -/
  | parentDirectory
  /-- It starts like a home directory. -/
  | homeDirectory
  /-- It holds a separator twice in a row. -/
  | doubledSeparator
  /-- It starts with a separator. -/
  | leadingSeparator
  /-- It holds a separator. -/
  | separator
  /-- It holds a control character. -/
  | control
  /-- It holds an angle bracket. -/
  | angleBracket
  /-- Some systems reserve the name for a device. -/
  | reservedName
  /-- It is too long. -/
  | tooLong
deriving DecidableEq, Repr

/-- The reason given for a fault. -/
def SegmentFault.reason : SegmentFault → String
  | empty => "empty segment"
  | currentDirectory => "current directory reference"
  | parentDirectory => "parent directory reference"
  | homeDirectory => "home directory reference"
  | doubledSeparator => "doubled separator"
  | leadingSeparator => "leading separator"
  | separator => "path separator"
  | control => "control character"
  | angleBracket => "angle bracket"
  | reservedName => "reserved device name"
  | tooLong => "segment too long"

/-- What is wrong with the joined segments. -/
inductive JoinedFault where
  /-- They start with a drive. -/
  | drive
  /-- They start at the root. -/
  | absolute
  /-- They climb to a parent directory. -/
  | parentDirectory
  /-- They have another component that is no name. -/
  | notNormal
deriving DecidableEq, Repr

/-- The reason given for a fault. -/
def JoinedFault.reason : JoinedFault → String
  | drive => "drive prefix"
  | absolute => "absolute path"
  | parentDirectory => "parent directory component"
  | notNormal => "non-normal component"

/-- Why there is no address. -/
inductive Error where
  /-- There are no segments. -/
  | empty
  /-- A segment is unsafe. -/
  | invalidSegment (segment : String) (fault : SegmentFault)
  /-- The joined segments are unsafe. -/
  | invalidPath (path : String) (fault : JoinedFault)
deriving DecidableEq, Repr

/-- The message of an error. -/
def Error.message : Error → String
  | empty => "Item has no path segments"
  | invalidSegment segment fault =>
    "Invalid path segment " ++ Text.quoted segment ++ ": " ++ fault.reason
  | invalidPath path fault => "Invalid path " ++ Text.quoted path ++ ": " ++ fault.reason

/-- The longest segment, in characters. -/
def maxSegmentLength : Nat := 128

/-- The names that some systems reserve for devices, in capitals. -/
def reservedNames : List String :=
  ["CON", "PRN", "AUX", "NUL", "COM1", "COM2", "COM3", "COM4", "COM5", "COM6", "COM7", "COM8", "COM9",
    "LPT1", "LPT2", "LPT3", "LPT4", "LPT5", "LPT6", "LPT7", "LPT8", "LPT9"]

/-- What stands before the first dot is a reserved name, letters of the ASCII alphabet in either case. -/
def isReserved (cs : List Char) : Bool :=
  reservedNames.contains (.ofList ((cs.takeWhile (· != '.')).map Char.toUpper))

/-- The first fault of a segment. -/
def segmentFault? (segment : String) : Option SegmentFault :=
  let cs := segment.toList
  if cs.isEmpty then some .empty
  else if cs == ['.'] then some .currentDirectory
  else if Text.occursIn ['.', '.'] cs then some .parentDirectory
  else if cs.head? == some '~' then some .homeDirectory
  else if Text.occursIn ['/', '/'] cs || Text.occursIn ['\x5c', '\x5c'] cs then
    some .doubledSeparator
  else if (cs.head?.map Text.isSeparator).getD false then some .leadingSeparator
  else if cs.any Text.isSeparator then some .separator
  else if cs.any Text.isControl then some .control
  else if cs.any fun c => c == '<' || c == '>' then some .angleBracket
  else if isReserved cs then some .reservedName
  else if maxSegmentLength < cs.length then some .tooLong
  else none

/-- The first fault of the joined segments. -/
def joinedFault? (joined : String) : Option JoinedFault :=
  let cs := joined.toList
  if (cs.head?.map Text.isAsciiLetter).getD false && cs[1]? == some ':' then some .drive
  else if (cs.head?.map Text.isSeparator).getD false then some .absolute
  else (Path.components joined).findSome? fun
    | .normal _ => none
    | .parent => some .parentDirectory
    | _ => some .notNormal

/-! ## Addresses -/

/-- The segments with slashes between them. -/
def toText (a : Address) : String := String.intercalate "/" a.segments

/-- The address with some segments, if they are safe. -/
def ofSegments (segments : List String) : Except Error Address :=
  if segments.isEmpty then .error .empty
  else
    match segments.findSome? fun s => (segmentFault? s).map (s, ·) with
    | some (s, fault) => .error (.invalidSegment s fault)
    | none =>
      let a : Address := ⟨segments⟩
      match joinedFault? a.toText with
      | some fault => .error (.invalidPath a.toText fault)
      | none => .ok a

/-- The file of the page, relative to the output directory. -/
def file (a : Address) (extension : String) : Path := a.toText ++ "." ++ extension

/-- The page reference below a path in the site. -/
def pageRef (a : Address) (base : String) : String :=
  let base := Text.stripChar '/' base
  if base.isEmpty then a.toText else base ++ "/" ++ a.toText

end Address

/-! ## Names in addresses -/

namespace Declaration

/-- The list without a first and a last element, if these are the given characters. -/
def between? (opening closing : Char) (cs : List Char) : Option (List Char) :=
  match cs with
  | c :: d :: rest =>
    if c == opening && (d :: rest).getLast? == some closing then some (d :: rest).dropLast else none
  | _ => none

/-- The characters of the name to show: the name is trimmed, and the one of a constructor loses the
parentheses around it. -/
def shownChars (d : Declaration) : List Char :=
  let name := Text.trim d.name.toList
  if d.kind == .constructor then ((between? '(' ')' name).map Text.trim).getD name else name

/-- The name to show. -/
def shownName (d : Declaration) : String := .ofList d.shownChars

end Declaration

namespace Address

/-- The name of a package without its scope. -/
def withoutScope (cs : List Char) : List Char :=
  match cs with
  | '@' :: rest =>
    match Text.splitFirst (· == '/') rest with
    | some (_, name) => name
    | none => cs
  | _ => cs

/-- The characters without the pairs of empty parentheses. -/
def withoutParentheses : List Char → List Char
  | '(' :: ')' :: cs => withoutParentheses cs
  | c :: cs => c :: withoutParentheses cs
  | [] => []

/-- The words of a name with hyphens between them. -/
def hyphenated (cs : List Char) : List Char :=
  List.intercalate ['-'] (Text.words (withoutParentheses cs))

/-- What the name of an item contributes to a segment; it may be empty. -/
def baseOf (d : Declaration) : String :=
  .ofList (if d.kind == .package then withoutScope (Text.trim d.name.toList)
    else hyphenated d.shownChars)

end Address

namespace Model

/-- The segment of an item whose name contributes nothing: its kind and its position among the members of
its parent, counted from one. -/
def fallbackSegment (m : Model) (id : Nat) : String :=
  let item := m.item id
  let position := match item.parent with
    | none => 1
    | some p => (((m.item p).members.findIdx? (· == id)).map (· + 1)).getD 1
  item.kind.slug ++ "-" ++ toString position

/-- The segment of an item. -/
def segment (m : Model) (id : Nat) : String :=
  let item := m.item id
  let base := Address.baseOf item.toDeclaration
  (if base.isEmpty then m.fallbackSegment id else base)
    ++ if 1 < item.overloadIndex then "_" ++ toString item.overloadIndex.toNat else ""

/-- The items whose segments make up the address of an item. -/
def addressItems (m : Model) (id : Nat) : List Nat :=
  (m.lineage id).filter fun i => !(m.item i).kind.isWrapper && !(m.item i).kind.isInlineMember

/-- The address of an item. -/
def address (m : Model) (id : Nat) : Except Address.Error Address :=
  Address.ofSegments ((m.addressItems id).map m.segment)

end Model

end ReferenceSite
