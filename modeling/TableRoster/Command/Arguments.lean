import TableRoster.Command.Option
import TableRoster.Decimal.Reading
import TableRoster.Disk.Walk
import TableRoster.Failure
import TableRoster.Journal.Setup

/-! # The command line

Options for the program as a whole stand before the name of a command, those for the command behind
it. -/

namespace TableRoster.Command

def programName : String := "schemagen"

def version : String := "0.1.0"

/-! ## Options -/

inductive Key
  | help
  | version
  | environment
  | file
  | verbose
  | quiet
  | debug
  | schemaFolder
  | output
  | noTypes
  | noNames
  | asJson
  | difference
  | fix
  | interval
  | debounce
  deriving DecidableEq, Repr

def helpSpec : Spec Key :=
  ⟨.help, ["--help", "-h"], false⟩

def environmentSpec : Spec Key :=
  ⟨.environment, ["--env"], true⟩

def programSpecs : List (Spec Key) :=
  [⟨.version, ["--version"], false⟩, environmentSpec, ⟨.file, ["--config", "-c"], true⟩,
    ⟨.verbose, ["--verbose", "-v"], false⟩, ⟨.quiet, ["--quiet", "-q"], false⟩,
    ⟨.debug, ["--debug"], false⟩, helpSpec]

def jsonSpec : Spec Key :=
  ⟨.asJson, ["--json-output", "--json"], false⟩

/-- The options that change settings for one command. -/
def settingSpecs : List (Spec Key) :=
  [environmentSpec, ⟨.schemaFolder, ["--schema-dir"], true⟩, ⟨.output, ["--output"], true⟩,
    ⟨.noTypes, ["--no-types"], false⟩, ⟨.noNames, ["--no-table-names"], false⟩]

/-! ## Commands -/

inductive Name
  | generate
  | validate
  | sync
  | watch
  | clean
  | info
  | help
  deriving DecidableEq, Repr

def names : List (String × Name) :=
  [("generate", .generate), ("validate", .validate), ("sync", .sync), ("watch", .watch),
    ("clean", .clean), ("info", .info), ("help", .help)]

def Name.specs : Name → List (Spec Key)
  | .generate => settingSpecs ++ [jsonSpec, helpSpec]
  | .validate => settingSpecs
      ++ [⟨.difference, ["--diff"], false⟩, ⟨.fix, ["--fix"], false⟩, jsonSpec, helpSpec]
  | .sync => settingSpecs ++ [helpSpec]
  | .watch => settingSpecs
      ++ [⟨.interval, ["--interval"], true⟩, ⟨.debounce, ["--debounce"], true⟩, helpSpec]
  | .clean => [environmentSpec, helpSpec]
  | .info => [environmentSpec, jsonSpec, helpSpec]
  | .help => [helpSpec]

structure Choices where
  environment : Option String
  schemaFolder : Option String
  output : Option String
  noTypes : Bool
  noNames : Bool
  deriving DecidableEq, Repr

inductive Task
  | generate (c : Choices) (asJson : Bool)
  | validate (c : Choices) (difference fix asJson : Bool)
  | sync (c : Choices)
  | watch (c : Choices) (interval debounce : Float)
  | clean (c : Choices)
  | info (c : Choices) (asJson : Bool)

def Task.choices : Task → Choices
  | .generate c _ | .validate c .. | .sync c | .watch c .. | .clean c | .info c _ => c

structure Scope where
  /-- The environment, unless a command has its own. -/
  environment : String
  file : Option Path
  loudness : Journal.Loudness

/-! ## Reading -/

/-- What a command line asks for: a text of the program itself, or something to do. -/
inductive Asked (α : Type)
  | version
  | help
  | act (a : α)

/-- The first of the options that end a command line. -/
def early? (g : Given Key) : Option (Asked α) :=
  g.options.findSome? fun o =>
    match o.1 with
    | .version => some .version
    | .help => some .help
    | _ => none

def environment? (g : Given Key) : Except Misuse (Option String) :=
  match g.value? .environment with
  | none => .ok none
  | some e => if e ∈ environments then .ok (some e) else .error (.badChoice "--env" e)

def seconds (g : Given Key) (key : Key) (name : String) (own : Float) : Except Misuse Float :=
  match g.value? key with
  | none => .ok own
  | some s =>
    match Decimal.readFloat? s.toList with
    | some x => .ok x
    | none => .error (.badNumber name s)

/-- The settings file that is named. A folder is none. -/
def file? (d : Disk) (g : Given Key) : Except Misuse (Option Path) :=
  match g.value? .file with
  | none => .ok none
  | some s =>
    if s = "" then .ok none
    else if d.isFolder (.ofString s) then .error (.folderGiven "--config" s)
    else .ok (some (.ofString s))

def environmentVariable : String := "SCHEMAGEN_ENV"

/-- The environment for a value from the command line, which wins over a variable. -/
def environmentOr (env : Journal.Environment) (given : Option String) : String :=
  match given with
  | some e => e
  | none => (lookup? env environmentVariable).getD "default"

/-- The options of the program as a whole, the name of the command, and its arguments. -/
def readProgram (env : Journal.Environment) (d : Disk) (args : List String) :
    Except Misuse (Asked (Scope × Name × List String)) := do
  if args = [] then throw .nothingGiven
  let g ← readArguments programSpecs false (args.length + 1) args
  match early? g with
  | some a => pure a
  | none =>
    let environment ← environment? g
    let file ← file? d g
    match g.others with
    | [] => throw .commandMissing
    | name :: rest =>
      match names.lookup name with
      | some n =>
        let loudness := ⟨g.has .debug, g.has .verbose, g.has .quiet⟩
        pure (.act (⟨environmentOr env environment, file, loudness⟩, n, rest))
      | none =>
        -- Something that looks like options is read once more.
        if isOption name then
          match early? (← readArguments programSpecs false (rest.length + 2) (name :: rest)) with
          | some a => pure a
          | none => throw (.noSuchCommand name)
        else throw (.noSuchCommand name)

def readTask (n : Name) (args : List String) : Except Misuse (Asked Task) := do
  let g ← readArguments n.specs true (args.length + 1) args
  match early? g with
  | some a => pure a
  | none =>
    let environment ← environment? g
    let interval ← seconds g .interval "--interval" 1.0
    let debounce ← seconds g .debounce "--debounce" 0.5
    if g.others ≠ [] then throw (.unexpected g.others)
    let c : Choices := ⟨environment, g.value? .schemaFolder, g.value? .output, g.has .noTypes,
      g.has .noNames⟩
    pure (match n with
      | .generate => .act (.generate c (g.has .asJson))
      | .validate => .act (.validate c (g.has .difference) (g.has .fix) (g.has .asJson))
      | .sync => .act (.sync c)
      | .watch => .act (.watch c interval debounce)
      | .clean => .act (.clean c)
      | .info => .act (.info c (g.has .asJson))
      | .help => .help)

/-! ## Texts of the program itself -/

def versionText : String :=
  programName ++ ", version " ++ version

def helpLines : List String :=
  ["Usage: schemagen [OPTIONS] COMMAND [ARGS]...",
    "",
    "  schemagen — aggregate pgTable definitions into one schema module.",
    "",
    "Options:",
    "  --version                 Show the version and exit.",
    "  --env [default|dev|prod]  Config preset (default: $SCHEMAGEN_ENV or 'default').",
    "  -c, --config FILE         Path to schemagen.yml (default: auto-detect).",
    "  -v, --verbose             Enable verbose output.",
    "  -q, --quiet               Suppress non-essential output.",
    "  --debug                   Enable debug logging (very verbose).",
    "  -h, --help                Show this message and exit.",
    "",
    "Commands:",
    "  clean     Delete the generated aggregator.",
    "  generate  Scan table modules and write the schema aggregator.",
    "  help      Show this help message.",
    "  info      Show the effective configuration.",
    "  sync      Validate, and regenerate only if out of sync.",
    "  validate  Check whether the generated aggregator is in sync.",
    "  watch     Regenerate whenever table modules change (Ctrl+C to stop)."]

def misuseLines (m : Misuse) : List String :=
  ["Usage: schemagen [OPTIONS] COMMAND [ARGS]...", "Try 'schemagen --help' for help.", "",
    "Error: " ++ m.message]

end TableRoster.Command
