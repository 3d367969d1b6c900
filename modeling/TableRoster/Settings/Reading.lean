import TableRoster.Crash
import TableRoster.Settings.Basic
import TableRoster.Value

/-! # Reading settings from values

Each setting is read from the value of its key. What is wrong is told for all settings at once, in
their order. A rule about a setting is only looked at if the value has the right form. -/

namespace TableRoster.Settings

/-! ## Problems -/

/-- A step from a setting to a part of its value. -/
inductive Step
  | key (name : String)
  | index (n : Int)
  /-- The key itself, rather than the value behind it. -/
  | itself
  deriving DecidableEq, Repr

/-- A rule that a value of the right form breaks. -/
inductive Rule
  | badPattern (pattern : String) (fault : Pattern.Fault)
  /-- A pattern is refused for a value in it that is out of its range. -/
  | badRange (cause : Pattern.Cause)
  | badAggregateName (name : String)
  | emptyMarker
  deriving DecidableEq, Repr

def Rule.message : Rule → String
  | .badPattern p f => "invalid regex " ++ Text.quoted p ++ ": " ++ f.message p
  | .badRange c => c.message
  | .badAggregateName n => "not a valid identifier: " ++ Text.quoted n
  | .emptyMarker => "factory_marker must not be empty"

/-- What is wrong with a value. -/
inductive Problem
  | missing
  | noPath
  | noText
  | undecodedText
  | noList
  | noMapping
  | noFlag
  | unreadFlag
  | rule (r : Rule)
  deriving DecidableEq, Repr

structure Detail where
  place : List Step
  problem : Problem
  deriving DecidableEq, Repr

/-- A value that was read, or what is wrong with it. -/
abbrev Read (α : Type) := Except (List Detail) α

def problem (place : List Step) (p : Problem) : Read α :=
  .error [⟨place, p⟩]

/-- Two readings; the problems of both are told. -/
def both (a : Read α) (b : Read β) : Read (α × β) :=
  match a, b with
  | .ok x, .ok y => .ok (x, y)
  | .error ds, .ok _ => .error ds
  | .ok _, .error es => .error es
  | .error ds, .error es => .error (ds ++ es)

/-- All readings; the problems of all are told. -/
def every : List (Read α) → Read (List α)
  | [] => .ok []
  | r :: rs => (both r (every rs)).map fun p => p.1 :: p.2

/-! ## Values of one form -/

def readText (place : List Step) : Value → Read String
  | .text s => .ok s
  | .bytes bs =>
    match String.fromUTF8? ⟨bs.toArray⟩ with
    | some s => .ok s
    | none => problem place .undecodedText
  | _ => problem place .noText

def readPath (place : List Step) : Value → Read Path
  | .text s => .ok (.ofString s)
  | _ => problem place .noPath

/-- Texts for true and false, in lower case. -/
def flagTexts : List (String × Bool) :=
  [("0", false), ("off", false), ("f", false), ("false", false), ("n", false), ("no", false),
    ("1", true), ("on", true), ("t", true), ("true", true), ("y", true), ("yes", true)]

def readNumberFlag (place : List Step) (n : Int) : Read Bool :=
  if n = 0 then .ok false else if n = 1 then .ok true else problem place .unreadFlag

def readTextFlag (place : List Step) (s : String) : Read Bool :=
  match lookup? flagTexts (String.ofList (s.toList.map Char.toLower)) with
  | some b => .ok b
  | none => problem place .unreadFlag

def readFlag (place : List Step) : Value → Read Bool
  | .flag b => .ok b
  | .int n => readNumberFlag place n
  | .float x =>
    match (Decimal.whole? x).filter fun n => n.natAbs < Decimal.twoTo 53 with
    | some n => readNumberFlag place n
    | none => problem place .noFlag
  | .text s => readTextFlag place s
  | .bytes bs =>
    match String.fromUTF8? ⟨bs.toArray⟩ with
    | some s => readTextFlag place s
    | none => problem place .unreadFlag
  | _ => problem place .noFlag

def indexed (place : List Step) (vs : List Value) : List (List Step × Value) :=
  vs.zipIdx.map fun (v, i) => (place ++ [.index i], v)

def readTexts (place : List Step) (v : Value) : Read (List String) :=
  match v with
  | .list vs | .set vs => every ((indexed place vs).map fun p => readText p.1 p.2)
  | .pair a b => every ((indexed place [a, b]).map fun p => readText p.1 p.2)
  | _ => problem place .noList

/-- The step to the value behind a key. -/
def keyStep : Value → Step
  | .text s => .key s
  | .int n => if -0x8000000000000000 ≤ n ∧ n < 0x8000000000000000 then .index n else .key (Value.shown (.int n))
  | .flag b => .index (if b then 1 else 0)
  | v => .key v.shown

/-- Sets the text of a key, in its place if it has one and at the end otherwise. -/
def putText (entries : List (String × String)) (entry : String × String) : List (String × String) :=
  if entries.any fun e => e.1 == entry.1 then
    entries.map fun e => if e.1 == entry.1 then entry else e
  else entries ++ [entry]

/-- A mapping of texts. Different keys may be read as one text. -/
def readMapping (place : List Step) (v : Value) : Read (List (String × String)) :=
  match v with
  | .map es =>
    (every (es.map fun (k, w) =>
      both (readText (place ++ [keyStep k, .itself]) k) (readText (place ++ [keyStep k]) w))).map
        fun entries => entries.foldl putText []
  | _ => problem place .noMapping

/-! ## Rules -/

/-- The first text that is no pattern is a broken rule, unless it is a count that ends the
program. -/
def checkPatterns (place : List Step) : List String → Except Crash (Read Unit)
  | [] => .ok (.ok ())
  | p :: ps =>
    match Pattern.ofText p with
    | .ok _ => checkPatterns place ps
    | .error f =>
      match f.cause with
      | .largeCount => .error .largeCount
      | .rivalAlphabets | .longCount _ => .ok (problem place (.rule (.badRange f.cause)))
      | _ => .ok (problem place (.rule (.badPattern p f)))

def readPatterns (place : List Step) (v : Value) : Except Crash (Read (List String)) :=
  match readTexts place v with
  | .error ds => .ok (.error ds)
  | .ok ps => (checkPatterns place ps).map fun r => r.map fun _ => ps

/-- The text that marks tables, which is not empty. -/
def readMarker (place : List Step) (v : Value) : Read String := do
  let s ← readText place v
  if s = "" then problem place (.rule .emptyMarker) else pure s

def readAggregateName (place : List Step) (v : Value) : Read String := do
  let s ← readText place v
  if isAggregateName s.toList then pure s
  else problem place (.rule (.badAggregateName s))

/-! ## All settings -/

abbrev Fields := List (String × Value)

def keys : List String :=
  ["schema_dir", "output_file", "exclude_patterns", "include_table_patterns",
    "exclude_table_patterns", "generate_types", "generate_table_names", "import_path_mapping",
    "factory_marker", "aggregate_name", "allow_duplicate_symbols"]

/-- A setting without a value of its own. -/
def required (fields : Fields) (key : String) (read : List Step → Value → Read α) : Read α :=
  match lookup? fields key with
  | some v => read [.key key] v
  | none => problem [.key key] .missing

/-- A setting with a value of its own. -/
def optional (fields : Fields) (key : String) (read : List Step → Value → Read α) (own : α) :
    Read α :=
  match lookup? fields key with
  | some v => read [.key key] v
  | none => .ok own

/-- Patterns with a value of their own. -/
def optionalPatterns (fields : Fields) (key : String) (own : List String) :
    Except Crash (Read (List String)) :=
  match lookup? fields key with
  | some v => readPatterns [.key key] v
  | none => .ok (.ok own)

def read (fields : Fields) : Except Crash (Read Settings) := do
  let included ← optionalPatterns fields "include_table_patterns" [".*"]
  let excluded ← optionalPatterns fields "exclude_table_patterns" []
  let all :=
    both (required fields "schema_dir" readPath) <|
    both (required fields "output_file" readPath) <|
    both (optional fields "exclude_patterns" readTexts []) <|
    both included <|
    both excluded <|
    both (optional fields "generate_types" readFlag true) <|
    both (optional fields "generate_table_names" readFlag true) <|
    both (optional fields "import_path_mapping" readMapping []) <|
    both (optional fields "factory_marker" readMarker "pgTable(") <|
    both (optional fields "aggregate_name" readAggregateName "dbSchema") <|
    optional fields "allow_duplicate_symbols" readFlag false
  pure <| all.map fun (schemaFolder, outputFile, excludeGlobs, includePatterns, excludePatterns,
      emitTypes, emitNames, overrides, marker, aggregateName, allowDuplicates) =>
    { schemaFolder, outputFile, excludeGlobs, includePatterns, excludePatterns, emitTypes,
      emitNames, overrides, marker, aggregateName, allowDuplicates }

end TableRoster.Settings
