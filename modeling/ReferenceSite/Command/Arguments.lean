import ReferenceSite.Environment
import ReferenceSite.Path

/-!
# Arguments of the command

The command is called with the name of an action and with flags. A flag has a name behind two hyphens and
possibly a letter behind one; letters may be gathered behind one hyphen. The value of a flag stands behind
it as a word of its own, behind an equals sign, or right behind the letter. Words are read from left to
right: the first flag that asks for help ends the reading, and so does the first fault.
-/

namespace ReferenceSite.Command

/-- What the command can do. -/
inductive Action where
  /-- Write the pages of a model and update the manifest. -/
  | generate
  /-- Count the items of a model. -/
  | inspect
deriving DecidableEq, Repr, Inhabited

/-- A flag of an action. -/
inductive Flag where
  /-- The model file. -/
  | model
  /-- The directory of the pages. -/
  | outputDirectory
  /-- The manifest file. -/
  | manifest
  /-- Do without the cache. -/
  | noCache
  /-- Report progress in detail. -/
  | verbose
  /-- The configuration file. -/
  | configuration
  /-- Ask for help. -/
  | help
deriving DecidableEq, Repr, Inhabited

/-- The name behind two hyphens. -/
def Flag.long : Flag → String
  | model => "model"
  | outputDirectory => "output-dir"
  | manifest => "manifest"
  | noCache => "no-cache"
  | verbose => "verbose"
  | configuration => "config"
  | help => "help"

/-- The letter behind one hyphen. -/
def Flag.short? : Flag → Option Char
  | model => some 'm'
  | outputDirectory => some 'o'
  | verbose => some 'v'
  | configuration => some 'c'
  | help => some 'h'
  | manifest | noCache => none

/-- The flag has a value. -/
def Flag.takesValue : Flag → Bool
  | model | outputDirectory | manifest | configuration => true
  | noCache | verbose | help => false

namespace Action

/-- All actions. -/
def all : List Action := [generate, inspect]

/-- The name. -/
def name : Action → String
  | generate => "generate"
  | inspect => "inspect"

/-- The action with a name. -/
def ofName? (s : String) : Option Action := all.find? (·.name == s)

/-- The flags. -/
def flags : Action → List Flag
  | generate =>
    [.model, .outputDirectory, .manifest, .noCache, .verbose, .configuration, .help]
  | inspect => [.model, .configuration, .help]

/-- The flag with a name. -/
def ofLong? (a : Action) (s : String) : Option Flag := a.flags.find? (·.long == s)

/-- The flag with a letter. -/
def ofShort? (a : Action) (c : Char) : Option Flag := a.flags.find? (·.short? == some c)

end Action

/-! ## Reading flags -/

/-- The flags that are given, with their values. -/
abbrev Given := List (Flag × Option String)

/-- One more flag; no flag is given twice and no value is empty. -/
def Given.add? (g : Given) (f : Flag) (value : Option String) : Option Given :=
  if g.any (·.1 == f) || value == some "" then none else some (g ++ [(f, value)])

/-- How the reading of some words ends. -/
inductive Reading where
  /-- At the end of the words, with these flags. -/
  | given (flags : Given)
  /-- At a flag that waits for its value in the next word. -/
  | waiting (flags : Given) (flag : Flag)
  /-- At a flag that asks for help. -/
  | help
deriving DecidableEq, Repr

/-- Read the letters behind one hyphen. -/
def readLetters (a : Action) (g : Given) : List Char → Option Reading
  | [] => some (.given g)
  | c :: cs => do
    let f ← a.ofShort? c
    if f == .help then return .help
    else if f.takesValue then
      match cs with
      | [] => return .waiting g f
      | '=' :: value => return .given (← g.add? f (some (.ofList value)))
      | value => return .given (← g.add? f (some (.ofList value)))
    else readLetters a (← g.add? f none) cs

/-- Read a name behind two hyphens, with or without a value. -/
def readName (a : Action) (g : Given) (cs : List Char) : Option Reading := do
  let (name, value) := match Text.splitFirst (· == '=') cs with
    | some (name, value) => (name, some (String.ofList value))
    | none => (cs, none)
  let f ← a.ofLong? (.ofList name)
  if f.takesValue then
    if value.isNone then return .waiting g f else return .given (← g.add? f value)
  else if value.isSome then none
  else if f == .help then return .help
  else return .given (← g.add? f none)

/-- Read a word that is no value; a word without a hyphen, or a hyphen alone, is a fault. -/
def readFlag (a : Action) (g : Given) (word : String) : Option Reading :=
  match word.toList with
  | '-' :: '-' :: cs => readName a g cs
  | ['-'] => none
  | '-' :: cs => readLetters a g cs
  | _ => none

/-- A word that cannot be the value of a flag in front of it. -/
def isFlagLike (word : String) : Bool :=
  match word.toList with
  | '-' :: _ :: _ => true
  | _ => false

/-- Read all words. Two hyphens alone end the flags, and nothing may follow them. -/
def readWords (a : Action) (g : Given) : List String → Option Reading
  | [] => some (.given g)
  | word :: words =>
    if word == "--" then if words.isEmpty then some (.given g) else none
    else
      match readFlag a g word with
      | some (.given g) => readWords a g words
      | some (.waiting g f) =>
        match words with
        | [] => none
        | value :: words =>
          if isFlagLike value then none
          else
            match g.add? f (some value) with
            | some g => readWords a g words
            | none => none
      | r => r

/-! ## Requests -/

/-- How an action is to be done. -/
structure Options where
  /-- The model file. -/
  model : Option Path := none
  /-- The directory of the pages. -/
  outputDirectory : Option Path := none
  /-- The manifest file. -/
  manifest : Option Path := none
  /-- Do without the cache. -/
  noCache : Bool := false
  /-- Report progress in detail. -/
  verbose : Bool := false
  /-- The configuration file. -/
  configuration : Option Path := none
deriving DecidableEq, Repr, Inhabited

/-- The options that some flags stand for. -/
def Options.ofGiven (g : Given) : Options where
  model := (g.lookup .model).join
  outputDirectory := (g.lookup .outputDirectory).join
  manifest := (g.lookup .manifest).join
  noCache := g.any (·.1 == .noCache)
  verbose := g.any (·.1 == .verbose)
  configuration := (g.lookup .configuration).join

/-- What the caller asks for. -/
inductive Request where
  /-- To do an action. -/
  | act (action : Action) (options : Options)
  /-- The version. -/
  | version
  /-- How to call the command, or an action. -/
  | help (topic : Option Action)
deriving DecidableEq, Repr

/-- The environment variable that names a configuration file if no flag does. -/
def configurationVariable : String := "APIDOCS_CONFIG"

/-- The flags with the configuration file that the environment names, if they name none. An empty name is a
fault. -/
def withEnvironment (env : Environment) (g : Given) : Option Given :=
  if g.any (·.1 == .configuration) then some g
  else
    match env.get configurationVariable with
    | .ok path => g.add? .configuration (some path)
    | .error _ => some g

/-- What the words behind the name of an action ask for. -/
def requestOf (env : Environment) (a : Action) (words : List String) : Option Request := do
  match ← readWords a [] words with
  | .given g => return .act a (.ofGiven (← withEnvironment env g))
  | .waiting _ _ => none
  | .help => return .help (some a)

/-- The topic of help that words name. -/
def helpOf : List String → Option Request
  | [] => some (.help none)
  | [word] => if word == "help" then some (.help none) else (Action.ofName? word).map fun a => .help (some a)
  | _ => none

/-- What some words ask for, or nothing if they are faulty. -/
def Request.ofWords? (env : Environment) : List String → Option Request
  | [] => none
  | word :: words =>
    match Action.ofName? word with
    | some a => requestOf env a words
    | none =>
      if word == "help" then helpOf words
      else if word == "--help" then some (.help none)
      else if word == "--version" then some .version
      else match word.toList with
        | '-' :: 'h' :: _ => some (.help none)
        | '-' :: 'V' :: _ => some .version
        | _ => none

end ReferenceSite.Command
