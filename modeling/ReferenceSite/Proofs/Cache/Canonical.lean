import Mathlib.Data.String.Basic
import ReferenceSite.Cache.Key
import ReferenceSite.Proofs.Text.Digits

/-!
# Keys written as texts

A key is written piece by piece: a count, a length or a number is told from what follows it because no digit
follows, and a name because its length in bytes stands before it. So each piece of the text determines what
it was written for and where it ends, whatever comes behind, and a key is determined by its text
(`canonical_eq_iff`). No character is reserved: a name may hold the marks between the pieces, or look like a
text of its own.
-/

namespace ReferenceSite.LookUp

open Text

variable {a b : String} {r s : List Char}

/-! ## Pieces -/

/-- A name of known length ends in one place, since every character takes some bytes. -/
theorem name_append_inj (hsize : a.utf8ByteSize = b.utf8ByteSize) (h : a.toList ++ r = b.toList ++ s) :
    a = b ∧ r = s := by
  have hlonger : ∀ {x y : String} {more : List Char}, x.utf8ByteSize = y.utf8ByteSize →
      y.toList = x.toList ++ more → more = [] := by
    intro x y more hsize hmore
    have hy : y = x ++ String.ofList more := by
      apply String.toList_injective
      rw [hmore, String.toList_append, String.toList_ofList]
    rw [hy, String.utf8ByteSize_append] at hsize
    have hempty : (String.ofList more).utf8ByteSize = 0 := by omega
    rwa [String.utf8ByteSize_eq_zero_iff, String.ofList_eq_empty_iff] at hempty
  rcases List.append_eq_append_iff.1 h with ⟨more, hb, hr⟩ | ⟨more, ha, hs⟩
  · obtain rfl := hlonger hsize hb
    exact ⟨String.toList_injective (by simpa using hb.symm), by simpa using hr⟩
  · obtain rfl := hlonger hsize.symm ha
    exact ⟨String.toList_injective (by simpa using ha), by simpa using hs.symm⟩

theorem toList_measured (name : String) :
    (measured name).toList = Nat.toDigits 10 name.utf8ByteSize ++ ':' :: name.toList := by
  simp [measured]

theorem measured_append_inj (h : (measured a).toList ++ r = (measured b).toList ++ s) :
    a = b ∧ r = s := by
  rw [toList_measured, toList_measured, List.append_assoc, List.append_assoc] at h
  obtain ⟨hsize, hrest⟩ := toDigits_append_inj (by simp [NoDigit]) (by simp [NoDigit]) h
  exact name_append_inj hsize (List.cons.inj hrest).2

/-! ## Parts of a key -/

/-- The package of a key as it is written. -/
def packageText : Option String → List Char
  | some p => 'p' :: (measured p).toList
  | none => ['-']

/-- The names of the members as they are written, behind their number. -/
def memberTexts (names : List String) : List Char := names.flatMap fun name => ':' :: (measured name).toList

theorem packageText_append_inj {p p' : Option String} (h : packageText p ++ r = packageText p' ++ s) :
    p = p' ∧ r = s := by
  cases p with
  | none =>
    cases p' with
    | none => exact ⟨rfl, (List.cons.inj h).2⟩
    | some b => exact absurd (List.cons.inj h).1 (by decide)
  | some a =>
    cases p' with
    | none => exact absurd (List.cons.inj h).1 (by decide)
    | some b =>
      obtain ⟨rfl, hrest⟩ := measured_append_inj (List.cons.inj h).2
      exact ⟨rfl, hrest⟩

/-- As many names as were announced are told apart from each other and from what follows. -/
theorem memberTexts_append_inj {names names' : List String} (hlength : names.length = names'.length)
    (h : memberTexts names ++ r = memberTexts names' ++ s) : names = names' ∧ r = s := by
  induction names generalizing names' with
  | nil =>
    obtain rfl := List.length_eq_zero_iff.1 hlength.symm
    exact ⟨rfl, h⟩
  | cons a names ih =>
    obtain ⟨b, names', rfl⟩ := List.exists_cons_of_length_eq_add_one hlength.symm
    rw [memberTexts, memberTexts, List.flatMap_cons, List.flatMap_cons, List.append_assoc,
      List.append_assoc] at h
    obtain ⟨rfl, hrest⟩ := measured_append_inj (List.cons.inj h).2
    obtain ⟨rfl, hrest'⟩ := ih (by simpa using hlength) hrest
    exact ⟨rfl, hrest'⟩

theorem numberOrDash_append_inj {o o' : Option Nat} (hr : NoDigit r) (hs : NoDigit s)
    (h : (numberOrDash o).toList ++ r = (numberOrDash o').toList ++ s) : o = o' ∧ r = s := by
  -- a number does not begin with a dash
  have hdash : ∀ {n : Nat} {r s : List Char}, Nat.toDigits 10 n ++ r ≠ '-' :: s := by
    intro n r s h
    obtain ⟨c, cs, hcs⟩ := List.exists_cons_of_ne_nil (Nat.toDigits_ne_nil (b := 10) (n := n))
    have hc : c.isDigit = true := isDigit_of_mem_toDigits c (hcs ▸ List.mem_cons_self)
    rw [hcs, List.cons_append] at h
    rw [(List.cons.inj h).1] at hc
    exact absurd hc (by decide)
  cases o with
  | none =>
    cases o' with
    | none => exact ⟨rfl, List.append_cancel_left h⟩
    | some n => exact absurd (by simpa [numberOrDash] using h.symm) hdash
  | some n =>
    cases o' with
    | none => exact absurd (by simpa [numberOrDash] using h) hdash
    | some n' =>
      obtain ⟨rfl, hrest⟩ := toDigits_append_inj hr hs (by simpa [numberOrDash] using h)
      exact ⟨rfl, hrest⟩

/-! ## Keys -/

theorem toList_canonical (k : LookUp) : k.canonical.toList =
    packageText k.reference.package ++ '|' :: 'm' ::
      (Nat.toDigits 10 k.reference.members.length ++ (memberTexts k.reference.members ++ '|' :: 'o' ::
        ((numberOrDash (k.reference.overload.map UInt32.toNat)).toList ++ '|' :: 'c' ::
          ((numberOrDash k.context).toList ++ [])))) := by
  obtain ⟨⟨package, members, overload⟩, context⟩ := k
  cases package <;> simp [canonical, packageText, memberTexts, String.toList_join, List.flatMap_map]

theorem noDigit_memberTexts (names : List String) : NoDigit (memberTexts names ++ '|' :: r) := by
  cases names <;> simp [NoDigit, memberTexts]

theorem canonical_injective : Function.Injective canonical := by
  intro k k' h
  obtain ⟨⟨package, members, overload⟩, context⟩ := k
  obtain ⟨⟨package', members', overload'⟩, context'⟩ := k'
  have htexts := congrArg String.toList h
  rw [toList_canonical, toList_canonical] at htexts
  obtain ⟨rfl, hmembers⟩ := packageText_append_inj htexts
  obtain ⟨hcount, hnames⟩ := toDigits_append_inj (noDigit_memberTexts _) (noDigit_memberTexts _)
    (List.cons.inj (List.cons.inj hmembers).2).2
  obtain ⟨rfl, hoverload⟩ := memberTexts_append_inj hcount hnames
  obtain ⟨hindex, hcontext⟩ := numberOrDash_append_inj (by simp [NoDigit]) (by simp [NoDigit])
    (List.cons.inj (List.cons.inj hoverload).2).2
  obtain ⟨rfl, -⟩ := numberOrDash_append_inj (by simp [NoDigit]) (by simp [NoDigit])
    (List.cons.inj (List.cons.inj hcontext).2).2
  obtain rfl := Option.map_injective (fun _ _ => UInt32.toNat_inj.1) hindex
  rfl

/-- Two keys have the same text exactly if they are equal, that is, if they have the same package, the same
    members, the same overload and the same context. -/
theorem canonical_eq_iff (r r' : Reference) (context context' : Option Nat) :
    (canonical ⟨r, context⟩ = canonical ⟨r', context'⟩ ↔
      (⟨r, context⟩ : LookUp) = ⟨r', context'⟩) ∧
    ((⟨r, context⟩ : LookUp) = ⟨r', context'⟩ ↔ r.package = r'.package ∧ r.members = r'.members ∧
      r.overload = r'.overload ∧ context = context') := by
  obtain ⟨package, members, overload⟩ := r
  obtain ⟨package', members', overload'⟩ := r'
  exact ⟨canonical_injective.eq_iff, by simp only [mk.injEq, Reference.mk.injEq, and_assoc]⟩

/-- A name that looks like the rest of a text is told from that rest. -/
example :
    canonical { reference := { package := some "p|m1:1:a" } } = "p8:p|m1:1:a|m0|o-|c-" ∧
      canonical { reference := { package := some "p", members := ["a"] } } = "p1:p|m1:1:a|o-|c-" := by
  decide

end ReferenceSite.LookUp
