import TableRoster.Settings.Reading

/-! # Failures

Everything that ends a run on purpose is a cause here, and each cause has its wording in one place.
What the file system or a reader of a format adds to a message is told by the caller of
`Failure.message`. -/

namespace TableRoster

/-- What lies behind a failure outside of this program's own rules. -/
inductive Origin
  | file (f : FileFault)
  | encoding
  | format
  | values
  deriving DecidableEq, Repr

def Origin.text : Origin → String
  | .file f => f.text
  | .encoding => "the text is not in UTF-8"
  | .format => "the text is malformed"
  | .values => "a value does not fit its key"

/-- Why a run ends on purpose. -/
inductive Failure
  | unknownEnvironment (name : String)
  | settingsMissing (file : Path)
  | settingsUnreadable (file : Path) (origin : Origin)
  | settingsMalformed (file : Path)
  | settingsNoMapping (file : Path) (kind : String)
  | environmentsNoMapping (file : Path)
  | environmentNoMapping (file : Path) (name : String)
  | unknownKeys (source : String) (keys : List String)
  | badPathValue (v : String)
  | badSettings (details : List Settings.Detail)
  | schemaMissing (folder : Path)
  | folderUnlistable (folder : Path) (origin : Origin)
  | moduleUnreadable (file : Path) (origin : Origin)
  | nothingToEmit
  | unresolved (symbols : List String)
  | duplicates (entries : List (String × List String))
  | outputUnreadable (file : Path) (origin : Origin)
  | folderUncreatable (folder : Path) (origin : Origin)
  | outputUnwritable (file : Path) (origin : Origin)
  | outputUnremovable (file : Path) (origin : Origin)
  deriving DecidableEq, Repr

def environments : List String :=
  ["default", "dev", "prod"]

def Failure.message (say : Origin → String) : Failure → String
  | .unknownEnvironment name =>
    "Unknown environment '" ++ name ++ "'. Valid: " ++ ", ".intercalate environments
  | .settingsMissing file => "Config file not found: " ++ file.text
  | .settingsUnreadable file origin => "Cannot read " ++ file.text ++ ": " ++ say origin
  | .settingsMalformed file => "Invalid YAML in " ++ file.text ++ ": " ++ say .format
  | .settingsNoMapping file kind => "Expected a YAML mapping in " ++ file.text ++ ", got " ++ kind
  | .environmentsNoMapping file => "'environments' in " ++ file.text ++ " must be a mapping"
  | .environmentNoMapping file name =>
    "'environments." ++ name ++ "' in " ++ file.text ++ " must be a mapping"
  | .unknownKeys source keys => "Unknown config keys in " ++ source ++ ": " ++ ", ".intercalate keys
  | .badPathValue v => "Invalid path value " ++ v
  | .badSettings _ => "Invalid configuration: " ++ say .values
  | .schemaMissing folder => "Schema directory not found: " ++ folder.text
  | .folderUnlistable folder origin => "Cannot list " ++ folder.text ++ ": " ++ say origin
  | .moduleUnreadable file origin => "Cannot read module " ++ file.text ++ ": " ++ say origin
  | .nothingToEmit => "Nothing to emit: no table declarations"
  | .unresolved symbols => "Unresolved import path for: " ++ ", ".intercalate symbols
  | .duplicates entries =>
    "Duplicate table symbols: " ++ "; ".intercalate (entries.map fun e =>
      e.1 ++ " (" ++ ", ".intercalate e.2 ++ ")")
  | .outputUnreadable file origin => "Cannot read " ++ file.text ++ ": " ++ say origin
  | .folderUncreatable folder origin =>
    "Cannot create directory " ++ folder.text ++ ": " ++ say origin
  | .outputUnwritable file origin => "Cannot write " ++ file.text ++ ": " ++ say origin
  | .outputUnremovable file origin => "Cannot remove " ++ file.text ++ ": " ++ say origin

/-- What ends a run: a failure or a crash. -/
inductive Stop
  | failure (f : Failure)
  | crash (c : Crash)
  deriving DecidableEq, Repr

end TableRoster
