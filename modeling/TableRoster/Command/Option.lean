/-! # Options on a command line

An option has names; one with two hyphens may have its value behind an equals sign, and those with
one hyphen and one letter may share a hyphen. Where options may stand among other arguments, all
arguments are looked at; elsewhere the first other argument ends the options. -/

namespace TableRoster.Command

inductive Misuse
  | noSuchOption (name : String)
  | valueMissing (name : String)
  | valueUnwanted (name : String)
  | badChoice (name value : String)
  | badNumber (name value : String)
  | folderGiven (name value : String)
  | unexpected (args : List String)
  | noSuchCommand (name : String)
  | commandMissing
  | nothingGiven
  deriving DecidableEq, Repr

def Misuse.message : Misuse → String
  | .noSuchOption name => "No such option: " ++ name
  | .valueMissing name => "Option '" ++ name ++ "' requires an argument."
  | .valueUnwanted name => "Option '" ++ name ++ "' does not take a value."
  | .badChoice name value => "Invalid value for '" ++ name ++ "': '" ++ value ++ "' is not a choice."
  | .badNumber name value => "Invalid value for '" ++ name ++ "': '" ++ value ++ "' is no number."
  | .folderGiven name value =>
    "Invalid value for '" ++ name ++ "': '" ++ value ++ "' is a directory."
  | .unexpected args => "Got unexpected extra arguments (" ++ " ".intercalate args ++ ")"
  | .noSuchCommand name => "No such command '" ++ name ++ "'."
  | .commandMissing => "Missing command."
  | .nothingGiven => "No command given."

/-- An option: the key it is found by, its names, and whether it takes a value. -/
structure Spec (κ : Type) where
  key : κ
  names : List String
  takesValue : Bool

/-- Options that were given, in order, and the other arguments. -/
structure Given (κ : Type) where
  options : List (κ × String)
  others : List String

namespace Given

def has [BEq κ] (g : Given κ) (key : κ) : Bool :=
  g.options.any fun o => o.1 == key

/-- The value of an option, where it was given last. -/
def value? [BEq κ] (g : Given κ) (key : κ) : Option String :=
  (g.options.reverse.find? fun o => o.1 == key).map (·.2)

end Given

def spec? (specs : List (Spec κ)) (name : String) : Option (Spec κ) :=
  specs.find? fun s => s.names.contains name

/-- A name that has a hyphen in front of one letter. -/
def isShort (name : String) : Bool :=
  name.length == 2 && !(['-', '-'].isPrefixOf name.toList)

/-- The options behind one hyphen, and what is left of the other arguments. -/
def readShort (specs : List (Spec κ)) : (letters : List Char) → (rest : List String) →
    Except Misuse (List (κ × String) × List String)
  | [], rest => .ok ([], rest)
  | c :: cs, rest =>
    let name := String.ofList ['-', c]
    match spec? specs name with
    | none => .error (.noSuchOption name)
    | some s =>
      if s.takesValue then
        if cs ≠ [] then .ok ([(s.key, String.ofList cs)], rest)
        else
          match rest with
          | [] => .error (.valueMissing name)
          | v :: rest => .ok ([(s.key, v)], rest)
      else (readShort specs cs rest).map fun p => ((s.key, "") :: p.1, p.2)

/-- A name, and the value behind an equals sign. -/
def splitValue (arg : String) : String × Option String :=
  let s := arg.toList
  let name := s.takeWhile (· ≠ '=')
  if name.length = s.length then (arg, none)
  else (String.ofList name, some (String.ofList (s.drop (name.length + 1))))

/-- The options of one argument, and what is left of the other arguments. -/
def readOne (specs : List (Spec κ)) (arg : String) (rest : List String) :
    Except Misuse (List (κ × String) × List String) :=
  let (name, value) := splitValue arg
  match if isShort name then none else spec? specs name with
  | some s =>
    match s.takesValue, value, rest with
    | false, none, rest => .ok ([(s.key, "")], rest)
    | false, some _, _ => .error (.valueUnwanted name)
    | true, some v, rest => .ok ([(s.key, v)], rest)
    | true, none, v :: rest => .ok ([(s.key, v)], rest)
    | true, none, [] => .error (.valueMissing name)
  | none =>
    if ['-', '-'].isPrefixOf arg.toList then .error (.noSuchOption name)
    else readShort specs (arg.toList.drop 1) rest

def isOption (arg : String) : Bool :=
  ['-'].isPrefixOf arg.toList && arg.length > 1

def readArguments (specs : List (Spec κ)) (anywhere : Bool) : (fuel : Nat) → List String →
    Except Misuse (Given κ)
  | 0, args => .ok ⟨[], args⟩
  | _, [] => .ok ⟨[], []⟩
  | fuel + 1, arg :: rest =>
    if arg = "--" then .ok ⟨[], rest⟩
    else if isOption arg then do
      let (os, rest) ← readOne specs arg rest
      let g ← readArguments specs anywhere fuel rest
      pure { g with options := os ++ g.options }
    else if anywhere then do
      let g ← readArguments specs anywhere fuel rest
      pure { g with others := arg :: g.others }
    else .ok ⟨[], arg :: rest⟩

end TableRoster.Command
