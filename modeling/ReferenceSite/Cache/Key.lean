import ReferenceSite.Cache
import ReferenceSite.Resolution

/-!
# Cached resolutions

Resolutions are kept by reference and context (`LookUp`). `LookUp.canonical` writes a key as one text in
which the length of every name stands before it, so different keys have different texts whatever
characters the names contain.
-/

namespace ReferenceSite

/-- A question to a resolver. -/
structure LookUp where
  /-- What is looked up. -/
  reference : Reference
  /-- The item from which it is seen. -/
  context : Option Nat := none
deriving DecidableEq, Repr, Inhabited, Hashable

namespace LookUp

/-- The question does not depend on a context item. -/
def isDetached (k : LookUp) : Bool := k.context.isNone

/-- A name behind its length in bytes. -/
def measured (name : String) : String := toString name.utf8ByteSize ++ ":" ++ name

/-- A number, or a dash in place of none. -/
def numberOrDash : Option Nat → String
  | some n => toString n
  | none => "-"

/-- The key as one text. -/
def canonical (k : LookUp) : String :=
  (match k.reference.package with
    | some p => "p" ++ measured p
    | none => "-")
  ++ "|m" ++ toString k.reference.members.length
  ++ String.join (k.reference.members.map fun name => ":" ++ measured name)
  ++ "|o" ++ numberOrDash (k.reference.overload.map UInt32.toNat)
  ++ "|c" ++ numberOrDash k.context

end LookUp

/-- A cache of answers to look-ups. -/
abbrev ResolutionCache := Cache LookUp Resolution

namespace ResolutionCache

/-- Resolve a reference through a cache, by a resolver that may have effects. -/
def resolveM {m : Type → Type} [Monad m] (c : ResolutionCache)
    (inner : Reference → (context : Option Nat) → m Resolution) (r : Reference) (context : Option Nat) :
    m (Resolution × ResolutionCache) :=
  Cache.memoM c ⟨r, context⟩ fun k => inner k.reference k.context

/-- Resolve a reference through a cache. -/
def resolve (c : ResolutionCache) (inner : Resolver) (r : Reference) (context : Option Nat) :
    Resolution × ResolutionCache :=
  Cache.memo c ⟨r, context⟩ fun k => inner k.reference k.context

end ResolutionCache

end ReferenceSite
