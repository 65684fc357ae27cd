import ReferenceSite.Model.Source
import ReferenceSite.Proofs.Itinerary

/-!
# Models of model files

A model that is read from a text is laid out by adding items to a root, so it is among the models that can be
built (`built_ofJsonText`).
-/

namespace ReferenceSite.Model

mutual

/-- A tree is laid out behind the items of the model that it is added to. -/
theorem built_addSource {m m' : Model} (hm : m.Built) {parent : Nat} (hparent : parent < m.size)
    {parentKind : Kind} :
    ∀ {s : Source}, addSource m parent parentKind s = .ok m' → m'.Built ∧ m.size ≤ m'.size
  | .node d members, h => by
    rw [addSource] at h
    split_ifs at h
    have hsize := m.size_add parent d
    obtain ⟨hbuilt, hle⟩ := built_addSources (hm.add hparent d) (by omega) h
    exact ⟨hbuilt, by omega⟩

/-- Trees are laid out one behind the other. -/
theorem built_addSources {m m' : Model} (hm : m.Built) {parent : Nat} (hparent : parent < m.size)
    {parentKind : Kind} :
    ∀ {ss : List Source}, addSources m parent parentKind ss = .ok m' → m'.Built ∧ m.size ≤ m'.size
  | [], h => by
    cases h
    exact ⟨hm, Nat.le_refl _⟩
  | s :: ss, h => by
    rw [addSources] at h
    cases hs : addSource m parent parentKind s with
    | error e =>
      rw [hs] at h
      cases h
    | ok m₁ =>
      rw [hs] at h
      obtain ⟨hbuilt₁, hle₁⟩ := built_addSource hm hparent hs
      obtain ⟨hbuilt, hle⟩ := built_addSources hbuilt₁ (Nat.lt_of_lt_of_le hparent hle₁) h
      exact ⟨hbuilt, Nat.le_trans hle₁ hle⟩

end

theorem built_ofSource {s : Source} {m : Model} (h : ofSource s = .ok m) : m.Built := by
  unfold ofSource at h
  dsimp only at h
  split_ifs at h
  exact (built_addSources (.root _ _) (by simp [root, ofRoot, size]) h).1

theorem exists_source_of_ofJsonText {text : String} {m : Model} (h : ofJsonText text = .ok m) :
    ∃ s, ofSource s = .ok m := by
  unfold ofJsonText at h
  split at h
  · cases h
  · next s _ =>
    cases hs : ofSource s with
    | error e =>
      rw [hs] at h
      cases h
    | ok m₁ =>
      rw [hs] at h
      cases h
      exact ⟨s, hs⟩

/-- A model that is read from a text can be built. -/
theorem built_ofJsonText {text : String} {m : Model} (h : ofJsonText text = .ok m) : m.Built := by
  obtain ⟨s, hs⟩ := exists_source_of_ofJsonText h
  exact built_ofSource hs

end ReferenceSite.Model
