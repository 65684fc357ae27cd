import ReferenceSite.Template

/-!
# Evaluating templates

Evaluation turns the parts of a template into text, one after the other, each with the variables that the
parts before it have set. An unknown variable or attribute is an undefined value, which is shown as nothing
and counts as false; only to ask an undefined value for an attribute is an error, besides calling what is no
macro, running a loop over what has no elements, and naming a template that does not exist.
-/

namespace ReferenceSite.Template

/-- The templates that a template may name. -/
abbrev Library := List (String × List Node)

/-- The variables in scope, the innermost first. -/
abbrev Variables := List (String × Value)

/-- Why a template has no text. -/
inductive EvalError where
  /-- Calls are nested too deeply. -/
  | tooDeep
  /-- An attribute of an undefined value. -/
  | undefinedValue
  /-- A call of something that is no macro. -/
  | notCallable
  /-- More arguments than parameters. -/
  | tooManyArguments
  /-- A loop over a value without elements. -/
  | notIterable
  /-- There is no template with the name. -/
  | unknownTemplate
deriving DecidableEq, Repr

/-- How deeply parts and calls may be nested. -/
def depthLimit : Nat := 500

/-- The value of a variable. -/
def Variables.get (vars : Variables) (name : String) : Value := (vars.lookup name).getD .undefined

/-- An attribute of a value. -/
def attributeOf (v : Value) (name : String) : Except EvalError Value :=
  match v with
  | .undefined => .error .undefinedValue
  | .record fields => .ok ((fields.lookup name).getD .undefined)
  | _ => .ok .undefined

/-- An element of a value. -/
def elementOf (v index : Value) : Except EvalError Value :=
  match v, index with
  | .undefined, _ => .error .undefinedValue
  | .record fields, .text name => .ok ((fields.lookup name).getD .undefined)
  | .list vs, .int n =>
    let place := if n < 0 then n + vs.length else n
    .ok (if place < 0 then .undefined else (vs[place.toNat]?).getD .undefined)
  | _, _ => .ok .undefined

/-- The parameters of a macro with their arguments; a missing argument is undefined. -/
def bindParameters (parameters : List String) (arguments : List Value) : Except EvalError Variables :=
  if parameters.length < arguments.length then .error .tooManyArguments
  else .ok (parameters.zip (arguments ++ List.replicate parameters.length .undefined))

/-- The template that a value names. -/
def named (library : Library) (v : Value) : Except EvalError (List Node) :=
  match v with
  | .text name =>
    match library.lookup name with
    | some nodes => .ok nodes
    | none => .error .unknownTemplate
  | _ => .error .unknownTemplate

/-- The text of parts, and the variables behind them, from what each part does. -/
def inSequence (run : Variables → Node → Except EvalError (String × Variables)) :
    Variables → List Node → Except EvalError (String × Variables)
  | vars, [] => .ok ("", vars)
  | vars, node :: nodes => do
    let (s, vars) ← run vars node
    let (rest, vars) ← inSequence run vars nodes
    return (s ++ rest, vars)

/-- The text of a part for each of several values. -/
def forEach (run : Value → Except EvalError String) : List Value → Except EvalError String
  | [] => .ok ""
  | v :: vs => do return (← run v) ++ (← forEach run vs)

/-- The parts of the first case whose condition counts as true. -/
def chooseCase (test : Expr → Except EvalError Value) (otherwise : List Node) :
    List (Expr × List Node) → Except EvalError (List Node)
  | [] => .ok otherwise
  | (condition, body) :: cases => do
    if (← test condition).isTrue then return body else chooseCase test otherwise cases

mutual

/-- The value of an expression. -/
def evaluate (library : Library) : (depth : Nat) → Variables → Expr → Except EvalError Value
  | 0, _, _ => .error .tooDeep
  | depth + 1, vars, e =>
    match e with
    | .var name => .ok (vars.get name)
    | .text s => .ok (.text s)
    | .int n => .ok (.int n)
    | .bool b => .ok (.bool b)
    | .none => .ok .none
    | .attribute e name => do attributeOf (← evaluate library depth vars e) name
    | .element e index => do
      elementOf (← evaluate library depth vars e) (← evaluate library depth vars index)
    | .equal a b => do
      return .bool ((← evaluate library depth vars a).equals (← evaluate library depth vars b))
    | .different a b => do
      return .bool !((← evaluate library depth vars a).equals (← evaluate library depth vars b))
    | .negation e => do return .bool !(← evaluate library depth vars e).isTrue
    | .both a b => do
      let v ← evaluate library depth vars a
      if v.isTrue then evaluate library depth vars b else return v
    | .either a b => do
      let v ← evaluate library depth vars a
      if v.isTrue then return v else evaluate library depth vars b
    | .call e arguments => do
      let f ← evaluate library depth vars e
      let values ← arguments.mapM (evaluate library depth vars)
      match f with
      | .procedure _ parameters body closure =>
        let bound ← bindParameters parameters values
        let (s, _) ← inSequence (runNode library depth) (bound ++ closure) body
        return .text s
      | _ => .error .notCallable

/-- The text of a part, and the variables behind it. -/
def runNode (library : Library) : (depth : Nat) → Variables → Node →
    Except EvalError (String × Variables)
  | 0, _, _ => .error .tooDeep
  | depth + 1, vars, node =>
    match node with
    | .text s => .ok (s, vars)
    | .print e => do return ((← evaluate library depth vars e).toText, vars)
    | .branch cases otherwise => do
      inSequence (runNode library depth) vars
        (← chooseCase (evaluate library depth vars) otherwise cases)
    | .loop name source body otherwise => do
      match (← evaluate library depth vars source).elements? with
      | none => .error .notIterable
      | some [] => inSequence (runNode library depth) vars otherwise
      | some vs =>
        let s ← forEach (fun v => do
          return (← inSequence (runNode library depth) ((name, v) :: vars) body).1) vs
        return (s, vars)
    | .importAs template name => do
      let nodes ← named library (← evaluate library depth vars template)
      let (_, after) ← inSequence (runNode library depth) vars nodes
      return ("", (name, .record (after.take (after.length - vars.length))) :: vars)
    | .splice template => do
      let nodes ← named library (← evaluate library depth vars template)
      return ((← inSequence (runNode library depth) vars nodes).1, vars)
    | .define name parameters body =>
      .ok ("", (name, .procedure name parameters body vars) :: vars)

end

/-- The text of a template with some variables. -/
def render (library : Library) (nodes : List Node) (vars : Variables) : Except EvalError String := do
  return (← inSequence (runNode library depthLimit) vars nodes).1

end ReferenceSite.Template
