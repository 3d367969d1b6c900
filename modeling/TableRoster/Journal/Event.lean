import TableRoster.Decimal.Fixed
import TableRoster.Failure

/-! # Events

What a run has to tell while it goes on. Each event has a level, a part of the program that tells
it, and a wording. -/

namespace TableRoster

inductive Level
  | debug
  | info
  | warning
  | error
  deriving DecidableEq, Repr

def Level.number : Level → Nat
  | .debug => 10
  | .info => 20
  | .warning => 30
  | .error => 40

/-- The part of the program that tells an event. -/
inductive Teller
  | loader
  | reader
  | extractor
  | scanner
  | pipeline
  | emitter
  | validator
  | output
  | generate
  | validate
  | watcher
  | command
  deriving DecidableEq, Repr

def Teller.name : Teller → String
  | .loader => "config.loader"
  | .reader => "services.ts_source"
  | .extractor => "services.extractor"
  | .scanner => "services.scanner"
  | .pipeline => "services.pipeline"
  | .emitter => "services.emitter"
  | .validator => "services.validator"
  | .output => "persistence.artifact_file"
  | .generate => "use_cases.generate"
  | .validate => "use_cases.validate"
  | .watcher => "services.watcher"
  | .command => "main"

/-- Something that happened during a run. -/
inductive Event
  | loadingSettings (file : Path)
  | loadedSettings (environment : String) (folder output : Path)
  | readModule (file : Path) (declarations : Nat)
  | skippedDefault (name : String) (file : Path)
  | foundTable (symbol : String) (file : Path)
  | skippedTable (symbol : String) (file : Path)
  | skippedOutput (file : Path)
  | excluded (file : Path)
  | foundModules (count : Nat) (folder : Path)
  | foundTables (count : Nat)
  | duplicateSymbols (symbols : List String)
  | comparing (output folder : Path)
  | inSync (tables : Nat)
  | drifted (output : Path)
  | writeFailed (file : Path) (origin : Origin)
  | written (file : Path) (bytes : Nat)
  | removed (file : Path)
  | noTables (folder : Path)
  | generated (file : Path) (tables : Nat)
  | fixing (file : Path)
  | watchScanFailed (f : Failure)
  | changed (names : List String)
  | regenerationFailed (reason : String)
  | watching (folder : Path) (interval quiet : Float)
  | cycleFailed
  | commandFailed

namespace Event

def level : Event → Level
  | .loadingSettings _ | .loadedSettings .. | .readModule .. | .skippedDefault ..
  | .skippedTable .. | .skippedOutput _ | .excluded _ | .written .. | .watchScanFailed _
  | .commandFailed => .debug
  | .foundTable .. | .foundModules .. | .foundTables _ | .comparing .. | .inSync _ | .drifted _
  | .removed _ | .generated .. | .fixing _ | .changed _ | .watching .. => .info
  | .duplicateSymbols _ | .noTables _ => .warning
  | .writeFailed .. | .regenerationFailed _ | .cycleFailed => .error

def part : Event → Teller
  | .loadingSettings _ | .loadedSettings .. => .loader
  | .readModule .. => .reader
  | .skippedDefault .. | .foundTable .. | .skippedTable .. => .extractor
  | .skippedOutput _ | .excluded _ | .foundModules .. => .scanner
  | .foundTables _ => .pipeline
  | .duplicateSymbols _ => .emitter
  | .comparing .. | .inSync _ | .drifted _ => .validator
  | .writeFailed .. | .written .. | .removed _ => .output
  | .noTables _ | .generated .. => .generate
  | .fixing _ => .validate
  | .watchScanFailed _ | .changed _ | .regenerationFailed _ | .watching .. | .cycleFailed =>
    .watcher
  | .commandFailed => .command

def noTablesText (folder : Path) : String :=
  "No table declarations found under " ++ folder.text ++ "; nothing written"

def message (say : Origin → String) : Event → String
  | .loadingSettings file => "Loading schemagen config from " ++ file.text
  | .loadedSettings environment folder output =>
    "Loaded config env=" ++ environment ++ " schema_dir=" ++ folder.text ++ " output_file="
      ++ output.text
  | .readModule file n => file.text ++ ": " ++ toString n ++ " top-level declaration(s)"
  | .skippedDefault name file => "Skipping default export " ++ name ++ " in " ++ file.text
  | .foundTable symbol file => "Found table " ++ symbol ++ " in " ++ file.text
  | .skippedTable symbol file =>
    "Skipping table " ++ symbol ++ " in " ++ file.text ++ " (filtered by name patterns)"
  | .skippedOutput file => "Skipping generated file " ++ file.text
  | .excluded file => "Excluded " ++ file.text
  | .foundModules n folder =>
    "Found " ++ toString n ++ " schema module(s) under " ++ folder.text
  | .foundTables n => "Found " ++ toString n ++ " table declaration(s) in total"
  | .duplicateSymbols symbols =>
    "Duplicate table symbols (later ones shadow earlier ones): " ++ ", ".intercalate symbols
  | .comparing output folder => "Validating " ++ output.text ++ " against " ++ folder.text
  | .inSync n => "Artifact is in sync (" ++ toString n ++ " tables)"
  | .drifted output => "Drift detected in " ++ output.text
  | .writeFailed file origin => "Failed to write " ++ file.text ++ ": " ++ say origin
  | .written file n => "Artifact written to " ++ file.text ++ " (" ++ toString n ++ " bytes)"
  | .removed file => "Removed " ++ file.text
  | .noTables folder => noTablesText folder
  | .generated file n => "Wrote " ++ file.text ++ " with " ++ toString n ++ " table(s)"
  | .fixing file => "Fixing drift by regenerating " ++ file.text
  | .watchScanFailed f => "Watch scan failed: " ++ f.message say
  | .changed names => "Change detected: " ++ ", ".intercalate names
  | .regenerationFailed reason => "Regeneration failed: " ++ reason
  | .watching folder interval quiet =>
    "Watching " ++ folder.text ++ " (poll every " ++ Decimal.tenths interval ++ "s, debounce "
      ++ Decimal.tenths quiet ++ "s)"
  | .cycleFailed => "Watch cycle failed; continuing"
  | .commandFailed => "Command failed"

end Event

end TableRoster
