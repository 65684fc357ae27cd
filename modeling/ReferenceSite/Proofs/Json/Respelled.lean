import ReferenceSite.Proofs.Json.Parts
import ReferenceSite.Reference

/-!
# Values with references in the short form

A JSON value may hold references under some of its keys. `Respelled` relates a value to the same value with
any number of these references given by other texts, and tells which text stands for which reference. A
reader takes such a value for what was written if each text is read as the reference that it stands for, and
refuses it if a text is read as no reference at all (`ReadAs`).
-/

namespace ReferenceSite.Json

/-- The keys whose values are references. -/
def referenceKeys : List String := ["target", "canonicalReference"]

/-- A reference and the text that is put in its place. -/
abbrev Change := Reference × String

mutual

/-- The second value is the first one with a text in place of some of the references under `referenceKeys`;
    the list holds what was changed, in order. -/
inductive Respelled : List Change → Json → Json → Prop
  | same (v : Json) : Respelled [] v v
  | arr {changes : List Change} {vs ws : List Json} :
      RespelledElements changes vs ws → Respelled changes (.arr vs) (.arr ws)
  | obj {changes : List Change} {ms ns : List (String × Json)} :
      RespelledMembers changes ms ns → Respelled changes (.obj ms) (.obj ns)

/-- Each element of an array is respelled. -/
inductive RespelledElements : List Change → List Json → List Json → Prop
  | nil : RespelledElements [] [] []
  | cons {changes changes' : List Change} {v w : Json} {vs ws : List Json} :
      Respelled changes v w → RespelledElements changes' vs ws →
      RespelledElements (changes ++ changes') (v :: vs) (w :: ws)

/-- Each value of an object is respelled, or it is a reference and a text is put in its place. -/
inductive RespelledMembers : List Change → List (String × Json) → List (String × Json) → Prop
  | nil : RespelledMembers [] [] []
  | value {changes changes' : List Change} {key : String} {v w : Json} {ms ns : List (String × Json)} :
      Respelled changes v w → RespelledMembers changes' ms ns →
      RespelledMembers (changes ++ changes') ((key, v) :: ms) ((key, w) :: ns)
  | reference {changes : List Change} {key : String} {v : Json} {r : Reference} {text : String}
      {ms ns : List (String × Json)} : key ∈ referenceKeys → v = r.toJson → RespelledMembers changes ms ns →
      RespelledMembers ((r, text) :: changes) ((key, v) :: ms) ((key, .str text) :: ns)

end

variable {changes : List Change} {v w : Json} {vs ws : List Json} {ms ns : List (String × Json)}
  {key text : String} {r : Reference}

/-! ## Parts of a respelled value -/

theorem respelledElements_self (vs : List Json) : RespelledElements [] vs vs := by
  induction vs with
  | nil => exact .nil
  | cons v vs ih => exact .cons (.same v) ih

theorem respelledMembers_self (ms : List (String × Json)) : RespelledMembers [] ms ms := by
  induction ms with
  | nil => exact .nil
  | cons m ms ih => exact .value (.same m.2) ih

theorem respelled_arr :
    Respelled changes (.arr vs) w ↔ ∃ ws, w = .arr ws ∧ RespelledElements changes vs ws := by
  constructor
  · intro h
    cases h with
    | same => exact ⟨vs, rfl, respelledElements_self vs⟩
    | arr h => exact ⟨_, rfl, h⟩
  · rintro ⟨ws, rfl, h⟩
    exact .arr h

theorem respelled_obj :
    Respelled changes (.obj ms) w ↔ ∃ ns, w = .obj ns ∧ RespelledMembers changes ms ns := by
  constructor
  · intro h
    cases h with
    | same => exact ⟨ms, rfl, respelledMembers_self ms⟩
    | obj h => exact ⟨_, rfl, h⟩
  · rintro ⟨ns, rfl, h⟩
    exact .obj h

theorem respelledElements_nil : RespelledElements changes [] ws ↔ changes = [] ∧ ws = [] := by
  constructor
  · intro h
    cases h
    exact ⟨rfl, rfl⟩
  · rintro ⟨rfl, rfl⟩
    exact .nil

theorem respelledElements_cons : RespelledElements changes (v :: vs) ws ↔
    ∃ front back w ws', changes = front ++ back ∧ ws = w :: ws' ∧ Respelled front v w ∧
      RespelledElements back vs ws' := by
  constructor
  · intro h
    cases h with
    | cons hv hvs => exact ⟨_, _, _, _, rfl, rfl, hv, hvs⟩
  · rintro ⟨front, back, w, ws', rfl, rfl, hv, hvs⟩
    exact .cons hv hvs

theorem respelledMembers_nil : RespelledMembers changes [] ns ↔ changes = [] ∧ ns = [] := by
  constructor
  · intro h
    cases h
    exact ⟨rfl, rfl⟩
  · rintro ⟨rfl, rfl⟩
    exact .nil

/-- Under a key without references the value is respelled. -/
theorem respelledMembers_cons (hkey : key ∉ referenceKeys) :
    RespelledMembers changes ((key, v) :: ms) ns ↔
      ∃ front back w ns', changes = front ++ back ∧ ns = (key, w) :: ns' ∧ Respelled front v w ∧
        RespelledMembers back ms ns' := by
  constructor
  · intro h
    cases h with
    | value hv hms => exact ⟨_, _, _, _, rfl, rfl, hv, hms⟩
    | reference hmem => exact absurd hmem hkey
  · rintro ⟨front, back, w, ns', rfl, rfl, hv, hms⟩
    exact .value hv hms

/-! ## Values without references -/

/-- A value is respelled as itself only. -/
def Fixed (v : Json) : Prop := ∀ changes w, Respelled changes v w → changes = [] ∧ w = v

theorem fixed_str (text : String) : Fixed (.str text) := by
  intro changes w h
  cases h
  exact ⟨rfl, rfl⟩

theorem fixed_num (n : Number) : Fixed (.num n) := by
  intro changes w h
  cases h
  exact ⟨rfl, rfl⟩

theorem fixed_arr (hvs : ∀ v ∈ vs, Fixed v) : Fixed (.arr vs) := by
  intro changes w h
  obtain ⟨ws, rfl, hws⟩ := respelled_arr.1 h
  suffices changes = [] ∧ ws = vs from ⟨this.1, congrArg Json.arr this.2⟩
  clear h
  induction vs generalizing changes ws with
  | nil => exact respelledElements_nil.1 hws
  | cons v vs ih =>
    rw [List.forall_mem_cons] at hvs
    obtain ⟨front, back, w, ws, rfl, rfl, hv, hrest⟩ := respelledElements_cons.1 hws
    obtain ⟨rfl, rfl⟩ := hvs.1 _ _ hv
    obtain ⟨rfl, rfl⟩ := ih hvs.2 _ _ hrest
    exact ⟨rfl, rfl⟩

theorem fixed_members (hms : ∀ m ∈ ms, m.1 ∉ referenceKeys ∧ Fixed m.2)
    (h : RespelledMembers changes ms ns) : changes = [] ∧ ns = ms := by
  induction ms generalizing changes ns with
  | nil => exact respelledMembers_nil.1 h
  | cons m ms ih =>
    rw [List.forall_mem_cons] at hms
    obtain ⟨⟨hkey, hfixed⟩, hms⟩ := hms
    obtain ⟨front, back, w, ns, rfl, rfl, hv, hrest⟩ := (respelledMembers_cons hkey).1 h
    obtain ⟨rfl, rfl⟩ := hfixed _ _ hv
    obtain ⟨rfl, rfl⟩ := ih hms hrest
    exact ⟨rfl, rfl⟩

theorem fixed_obj (hms : ∀ m ∈ ms, m.1 ∉ referenceKeys ∧ Fixed m.2) : Fixed (.obj ms) := by
  intro changes w h
  obtain ⟨ns, rfl, hns⟩ := respelled_obj.1 h
  obtain ⟨hchanges, hsame⟩ := fixed_members hms hns
  exact ⟨hchanges, congrArg Json.obj hsame⟩

theorem fixed_texts (texts : List String) : Fixed (.arr (texts.map .str)) := by
  refine fixed_arr fun v hv => ?_
  obtain ⟨text, -, rfl⟩ := List.mem_map.1 hv
  exact fixed_str text

/-! ## References -/

theorem word32?_ofNat (n : UInt32) : word32? (ofNat n.toNat) = some n := by
  have hlt : n.toNat < UInt32.size := n.toNat_lt
  simp [word32?, natural?, ofNat, hlt]

theorem nullable_of_ne_null {α : Type} (read : Json → Option α) (hv : v ≠ .null) :
    nullable read v = (read v).map some := by
  unfold nullable
  split
  · exact absurd rfl hv
  · rfl

theorem list?_texts (texts : List String) : list? string? (.arr (texts.map .str)) = some texts := by
  rw [list?]
  induction texts with
  | nil => rfl
  | cons text texts ih => simp [List.mapM_cons, string?, ih]

theorem isReadable_toJson (r : Reference) : r.toJson.isReadable = true := by
  have htexts : elementsReadable (r.members.map .str) = true := by
    rw [elementsReadable_iff, List.forall_mem_map]
    exact fun _ _ => rfl
  obtain ⟨package, members, overload⟩ := r
  cases package <;> cases overload <;>
    simp [Reference.toJson, present, isReadable, membersReadable, ofNat, htexts]

theorem ofJson?_toJson (r : Reference) : Reference.ofJson? r.toJson = some r := by
  obtain ⟨package, members, overload⟩ := r
  have hoverload : ∀ n : UInt32, nullable word32? (ofNat n.toNat) = some (some n) := by
    intro n
    rw [nullable_of_ne_null _ (by simp [ofNat]), word32?_ofNat, Option.map_some]
  cases package <;> cases overload <;>
    simp [Reference.toJson, Reference.ofJson?, present, fields?, objectFields?, optional, withDefault,
      find?, nullable_of_ne_null, string?, list?_texts, hoverload]

theorem toJson_injective {r r' : Reference} (h : r.toJson = r'.toJson) : r = r' := by
  have hread := ofJson?_toJson r
  rw [h, ofJson?_toJson] at hread
  exact (Option.some.inj hread).symm

theorem fixed_toJson (r : Reference) : Fixed r.toJson := by
  obtain ⟨package, members, overload⟩ := r
  refine fixed_obj fun m hm => ?_
  simp only [List.mem_filterMap, List.mem_cons, List.not_mem_nil, or_false] at hm
  obtain ⟨_, rfl | rfl | rfl, hm⟩ := hm
  · obtain ⟨text, -, rfl⟩ := Option.map_eq_some_iff.1 hm
    exact ⟨by simp [referenceKeys], fixed_str text⟩
  · obtain rfl := Option.some.inj hm
    exact ⟨by simp [referenceKeys], fixed_texts members⟩
  · obtain ⟨n, -, rfl⟩ := Option.map_eq_some_iff.1 hm
    exact ⟨by simp [referenceKeys], fixed_num _⟩

/-- A reference in the form in which it was written, or a text in its place. -/
inductive Spelled (r : Reference) : List Change → Json → Prop
  | written : Spelled r [] r.toJson
  | text (text : String) : Spelled r [(r, text)] (.str text)

/-- Under a key with references the reference is left as it was written, or a text is put in its place. -/
theorem respelledMembers_reference (hkey : key ∈ referenceKeys) :
    RespelledMembers changes ((key, r.toJson) :: ms) ns ↔
      ∃ front back w ns', changes = front ++ back ∧ ns = (key, w) :: ns' ∧ Spelled r front w ∧
        RespelledMembers back ms ns' := by
  constructor
  · intro h
    generalize hv : r.toJson = v at h
    cases h with
    | value h hms =>
      subst hv
      obtain ⟨rfl, rfl⟩ := fixed_toJson r _ _ h
      exact ⟨_, _, _, _, rfl, rfl, .written, hms⟩
    | reference _ hv' hms =>
      obtain rfl := toJson_injective (hv.trans hv')
      exact ⟨_, _, _, _, rfl, rfl, .text _, hms⟩
  · rintro ⟨front, back, w, ns', rfl, rfl, h, hms⟩
    cases h with
    | written => exact .value (.same _) hms
    | text text => exact .reference hkey rfl hms

theorem Spelled.isReadable {r : Reference} (h : Spelled r changes w) : w.isReadable = true := by
  cases h with
  | written => exact isReadable_toJson r
  | text text => rfl

theorem Spelled.ne_null {r : Reference} (h : Spelled r changes w) : w ≠ .null := by
  cases h <;> simp [Reference.toJson, present]

/-! ## Reading -/

/-- What was read is `a` exactly if each text was read as the reference that it stands for, and something was
    read exactly if each text was read as some reference. -/
structure ReadAs {α : Type} (answer : Option α) (a : α) (changes : List Change) : Prop where
  same : answer = some a ↔ ∀ c ∈ changes, Reference.ofText? c.2 = .ok c.1
  accepted : (∃ b, answer = some b) ↔ ∀ c ∈ changes, ∃ r, Reference.ofText? c.2 = .ok r

variable {α β : Type} {answer : Option α} {a : α}

theorem readAs_some (a : α) : ReadAs (some a) a [] :=
  ⟨by simp, by simp⟩

theorem ReadAs.map {f : α → β} (hf : f.Injective) (h : ReadAs answer a changes) :
    ReadAs (answer.map f) (f a) changes := by
  constructor
  · rw [← h.same, Option.map_eq_some_iff]
    simp [hf.eq_iff]
  · rw [← h.accepted]
    simp

theorem ReadAs.refused (h : ReadAs answer a changes) :
    answer = none ↔ ∃ c ∈ changes, ∃ e, Reference.ofText? c.2 = .error e := by
  have herror : ∀ text, (¬ ∃ r, Reference.ofText? text = .ok r) ↔ ∃ e, Reference.ofText? text = .error e := by
    intro text
    cases Reference.ofText? text <;> simp
  have hnone : answer = none ↔ ¬ ∃ b, answer = some b := by
    cases answer <;> simp
  rw [hnone, h.accepted]
  simp only [not_forall, herror, exists_prop]

theorem Fixed.readAs {read : Json → Option α} (hfixed : Fixed v) (hread : read v = some a)
    (h : Respelled changes v w) : ReadAs (read w) a changes := by
  obtain ⟨rfl, rfl⟩ := hfixed _ _ h
  rw [hread]
  exact readAs_some a

theorem readAs_list {write : α → Json} {read : Json → Option α} {as : List α}
    (hread : ∀ a ∈ as, ∀ changes w, Respelled changes (write a) w → ReadAs (read w) a changes)
    (h : Respelled changes (.arr (as.map write)) w) : ReadAs (list? read w) as changes := by
  obtain ⟨ws, rfl, hws⟩ := respelled_arr.1 h
  rw [list?]
  clear h
  induction as generalizing changes ws with
  | nil =>
    obtain ⟨rfl, rfl⟩ := respelledElements_nil.1 hws
    exact readAs_some []
  | cons a as ih =>
    obtain ⟨front, back, w, ws, rfl, rfl, hw, hrest⟩ := respelledElements_cons.1 hws
    have hfirst := hread a List.mem_cons_self _ _ hw
    have hothers := ih (fun b hb => hread b (List.mem_cons_of_mem _ hb)) _ hrest
    constructor
    · rw [List.forall_mem_append, ← hfirst.same, ← hothers.same]
      simp [List.mapM_cons, Option.bind_eq_some_iff]
    · rw [List.forall_mem_append, ← hfirst.accepted, ← hothers.accepted]
      simp [List.mapM_cons, Option.bind_eq_some_iff]

theorem Spelled.readAs {r : Reference} (h : Spelled r changes w) :
    ReadAs (Reference.ofEitherForm? w) r changes := by
  cases h with
  | written =>
    have hread : Reference.ofEitherForm? r.toJson = some r := by
      unfold Reference.ofEitherForm?
      split
      · next heq => simp [Reference.toJson, present] at heq
      · rw [if_pos (isReadable_toJson r), ofJson?_toJson]
    rw [hread]
    exact readAs_some r
  | text text =>
    have hread : Reference.ofEitherForm? (.str text) = (Reference.ofText? text).toOption := rfl
    rw [hread]
    cases hr : Reference.ofText? text <;> exact ⟨by simp [hr, Except.toOption], by simp [hr, Except.toOption]⟩

end ReferenceSite.Json
