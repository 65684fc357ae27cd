import ReferenceSite.Template.Evaluation

/-!
# What templates print

Most parts of a template print a text and leave the variables as they are (`Prints`). The text of such parts
is put together from the texts of what they are made of: one rule for each kind of part, and one for parts
in a row (`PrintsAll`).
-/

namespace ReferenceSite.Template

/-- A part prints a text and sets no variables. -/
def Prints (library : Library) (depth : Nat) (vars : Variables) (node : Node) (s : String) : Prop :=
  runNode library depth vars node = .ok (s, vars)

/-- Parts in a row print a text and set no variables. -/
def PrintsAll (library : Library) (depth : Nat) (vars : Variables) (nodes : List Node) (s : String) :
    Prop :=
  inSequence (runNode library depth) vars nodes = .ok (s, vars)

variable {library : Library} {depth : Nat} {vars : Variables} {e : Expr} {v : Value} {node : Node}
  {nodes body otherwise : List Node} {name field s rest : String}

/-- What is done with a result goes on with its value. -/
theorem ok_bind {α β : Type} (a : α) (f : α → Except EvalError β) : (Except.ok a >>= f) = f a := rfl

/-! ## Values -/

theorem Prints.print (h : evaluate library depth vars e = .ok v) :
    Prints library (depth + 1) vars (.print e) v.toText := by
  rw [Prints, runNode, h]
  rfl

theorem PrintsAll.cons (h : Prints library depth vars node s)
    (hs : PrintsAll library depth vars nodes rest) :
    PrintsAll library depth vars (node :: nodes) (s ++ rest) := by
  rw [Prints] at h
  rw [PrintsAll] at hs
  rw [PrintsAll, inSequence, h, ok_bind]
  dsimp only
  rw [hs]
  rfl

theorem PrintsAll.of_eq {s' : String} (h : PrintsAll library depth vars nodes s) (heq : s = s') :
    PrintsAll library depth vars nodes s' := heq ▸ h

/-- Of two cases, the first is taken if its condition counts as true. -/
theorem Prints.branch {text : String} (h : evaluate library depth vars e = .ok v)
    (hbody : v.isTrue = true → PrintsAll library depth vars body text)
    (hotherwise : v.isTrue = false → PrintsAll library depth vars otherwise text) :
    Prints library (depth + 1) vars (.branch [(e, body)] otherwise) text := by
  rw [Prints, runNode, chooseCase, h, ok_bind]
  cases hv : v.isTrue with
  | true => exact hbody hv
  | false => exact hotherwise hv

/-- A loop prints its body for each element. -/
theorem Prints.loop {α : Type} {source : Expr} {as : List α} {value : α → Value} {text : α → String}
    (h : evaluate library depth vars source = .ok (.list (as.map value)))
    (hbody : ∀ a ∈ as, PrintsAll library depth ((name, value a) :: vars) body (text a)) :
    Prints library (depth + 1) vars (.loop name source body []) (String.join (as.map text)) := by
  have hall : ∀ as' : List α, as' ⊆ as →
      forEach (fun v => do
        return (← inSequence (runNode library depth) ((name, v) :: vars) body).1) (as'.map value) =
        .ok (String.join (as'.map text)) := by
    intro as' hsub
    induction as' with
    | nil => rfl
    | cons a as' ih =>
      obtain ⟨ha, hsub⟩ := List.cons_subset.1 hsub
      have hfirst := hbody a ha
      rw [PrintsAll] at hfirst
      rw [List.map_cons, List.map_cons, forEach, hfirst, ih hsub, String.join_cons]
      rfl
  cases as with
  | nil =>
    rw [Prints, runNode, h]
    rfl
  | cons a as =>
    have hloop := hall (a :: as) (List.Subset.refl _)
    rw [List.map_cons] at h hloop
    rw [Prints, runNode, h, ok_bind, Value.elements?]
    dsimp only
    rw [hloop]
    rfl

end ReferenceSite.Template
