import TableRoster.Disk.RealPath
import TableRoster.Disk.Text
import TableRoster.Journal.Telling
import TableRoster.Value.Key
import TableRoster.Yaml.Reading

/-! # Loading settings

The value of a setting is taken from the highest layer that has its key: what the caller gives, the
section of the settings file for the environment, the rest of that file, and a preset. Paths that
the caller gives start at the working folder, other paths at the folder of the settings file. -/

namespace TableRoster.Settings

/-! ## Preset -/

def textsValue (ss : List String) : Value :=
  .list (ss.map .text)

/-- The settings of an environment that nothing is said about. All environments have the same. -/
def preset : Fields :=
  [("schema_dir", .text "src/db/schema"),
    ("output_file", .text "src/db/schema/index.ts"),
    ("exclude_patterns", textsValue ["**/generated-*.ts", "**/index.ts", "**/*.test.ts",
      "**/*.spec.ts"]),
    ("include_table_patterns", textsValue [".*"]),
    ("exclude_table_patterns", textsValue [".*Relations$", ".*Enum$"]),
    ("generate_types", .flag true),
    ("generate_table_names", .flag true),
    ("import_path_mapping", .map [])]

/-! ## Finding the settings file -/

def fileName : String := "schemagen.yml"

/-- The number of folders that are searched, from the first one up. -/
def searchLimit : Nat := 20

/-- The settings file in a folder or in one above it. The folder is told by its names, last name
first. -/
def fileAbove? (d : Disk) : (limit : Nat) → (names : List String) → Option Path
  | 0, _ => none
  | limit + 1, names =>
    let file : Path := ⟨.slash, (fileName :: names).reverse⟩
    if d.isFile file then some file
    else
      match names with
      | [] => none
      | _ :: above => fileAbove? d limit above

def findFile (d : Disk) (folder : Path) : Except Crash (Option Path) :=
  (d.realPath folder).map fun real => fileAbove? d searchLimit real.parts.reverse

/-! ## Reading the settings file -/

def sectionsKey : String := "environments"

def textEntries (es : List (Value × Value)) : Fields :=
  es.filterMap fun
    | (.text k, v) => some (k, v)
    | _ => none

/-- The keys that are no settings, in order; a crash if one of them is no text. -/
def unknownKeys (es : List (Value × Value)) : Except Crash (List String) :=
  let isKnown (v : Value) : Bool := match v with
    | .text k => keys.contains k
    | _ => false
  let unknown := (es.map (·.1)).filter fun k => !isKnown k
  let texts := unknown.filterMap fun
    | .text k => some k
    | _ => none
  if texts.length = unknown.length then .ok (texts.mergeSort fun a b => !decide (b < a))
  else .error .badKeys

/-- The fields of a mapping all of whose keys are settings. -/
def knownFields (source : String) (es : List (Value × Value)) : Telling Fields := do
  let unknown ← Telling.ofCrash (unknownKeys es)
  if unknown = [] then pure (textEntries es) else Telling.fail (.unknownKeys source unknown)

/-- A mapping; what counts as absent is an empty one. -/
def mappingOf? (v : Option Value) : Option (List (Value × Value)) :=
  match v with
  | none => some []
  | some (.map es) => some es
  | some v => if v.isVoid then some [] else none

/-- A mapping again stands for its entries: those of the outermost mapping, or of the one around the
value. -/
def unrolled (outermost around : List (Value × Value)) : Value → Value
  | .again true true => .map outermost
  | .again true false => .map around
  | v => v

def isSections : Value → Bool
  | .text k => k == sectionsKey
  | _ => false

/-- The entries that are no sections. -/
def othersIn (es : List (Value × Value)) : List (Value × Value) :=
  es.filter fun e => !isSections e.1

/-- The sections, one for each environment; nothing if they are no mapping. -/
def sectionsIn? (es : List (Value × Value)) : Option (List (Value × Value)) :=
  mappingOf? ((Value.get? es sectionsKey).map (unrolled (othersIn es) (othersIn es)))

/-- The section of an environment; nothing if it is no mapping. -/
def sectionIn? (es sections : List (Value × Value)) (environment : String) :
    Option (List (Value × Value)) :=
  mappingOf? ((Value.get? sections environment).map (unrolled (othersIn es) sections))

/-- The layers of a settings file for an environment: its section, and the rest. The sections are
taken out before anything else is looked at. -/
def fileLayers (file : Path) (environment : String) (v : Value) : Telling (Fields × Fields) :=
  match v with
  | .null => pure ([], [])
  | .map es => do
    match sectionsIn? es with
    | none => Telling.fail (.environmentsNoMapping file)
    | some sections =>
      let rest ← knownFields file.text
        ((othersIn es).map fun e => (e.1, unrolled (othersIn es) (othersIn es) e.2))
      match sectionIn? es sections environment with
      | none => Telling.fail (.environmentNoMapping file environment)
      | some own =>
        let own ← knownFields (file.text ++ " (environments." ++ environment ++ ")")
          (own.map fun e => (e.1, unrolled (othersIn es) own e.2))
        pure (own, rest)
  | v => Telling.fail (.settingsNoMapping file v.kind)

def readFile (d : Disk) (file : Path) (environment : String) : Telling (Fields × Fields) :=
  if !d.isFile file then Telling.fail (.settingsMissing file)
  else do
    Telling.tell (.loadingSettings file)
    match d.text file with
    | .error .encoding => Telling.crash .undecodable
    | .error o => Telling.fail (.settingsUnreadable file o)
    | .ok text =>
      match Yaml.read text with
      | .error .malformed => Telling.fail (.settingsMalformed file)
      | .error (.crash c) => Telling.crash c
      | .ok v => fileLayers file environment v

/-! ## Layers -/

def pathKeys : List String :=
  ["schema_dir", "output_file"]

/-- The value of the highest layer that has a key. -/
def valueIn? (layers : List Fields) (key : String) : Option Value :=
  layers.findSome? fun l => lookup? l key

/-- The real path that a value gives from a folder on. -/
def realValue (d : Disk) (folder : Path) (v : Value) : Telling Value :=
  match v with
  | .text s => do
    let real ← Telling.ofCrash (d.realPath (folder.join (.ofString s)))
    pure (.text real.text)
  | v => if v.isShowable then Telling.fail (.badPathValue v.shown) else Telling.crash .badValue

/-- Fields with the real paths of those that are paths, from a folder on. -/
def realFields (d : Disk) (folder : Path) : Fields → Telling Fields
  | [] => pure []
  | (k, v) :: fs => do
    let v ← if k ∈ pathKeys then realValue d folder v else pure v
    let fs ← realFields d folder fs
    pure ((k, v) :: fs)

/-- What the caller says about settings. -/
structure Request where
  environment : String
  /-- The settings file, if it is not searched for. -/
  file : Option Path
  overrides : Fields
  /-- The settings file is searched for from the working folder up. -/
  search : Bool

def workingFolder (d : Disk) : Except Crash Path :=
  d.realPath ⟨.none, []⟩

/-- The settings file of a request, if there is one. -/
def fileOf (d : Disk) (r : Request) : Except Crash (Option Path) :=
  match r.file with
  | some file => .ok (some file)
  | none => if r.search then findFile d ⟨.none, []⟩ else .ok none

/-- The layers of the settings file, and the folder that its paths start at. -/
def fileLayersOf (d : Disk) (r : Request) : Telling (Fields × Fields × Path) := do
  match ← Telling.ofCrash (fileOf d r) with
  | none =>
    let folder ← Telling.ofCrash (workingFolder d)
    pure ([], [], folder)
  | some file =>
    let (own, rest) ← readFile d file r.environment
    let folder ← Telling.ofCrash (d.realPath file.parent)
    pure (own, rest, folder)

/-- The fields that a row of layers gives. -/
def fieldsIn (layers : List Fields) : Fields :=
  keys.filterMap fun k => (valueIn? layers k).map fun v => (k, v)

/-- An override without a value does not count. -/
def isGiven (f : String × Value) : Bool :=
  match f.2 with
  | .null => false
  | _ => true

def load (r : Request) (d : Disk) : Telling Settings := do
  if r.environment ∉ environments then Telling.fail (.unknownEnvironment r.environment)
  else
    let (own, rest, folder) ← fileLayersOf d r
    let lower ← realFields d folder (fieldsIn [own, rest, preset])
    let here ← Telling.ofCrash (workingFolder d)
    let given ← realFields d here (r.overrides.filter isGiven)
    let _ ← knownFields "overrides" (given.map fun f => (.text f.1, f.2))
    match ← Telling.ofCrash (read (fieldsIn [given, lower])) with
    | .error ds => Telling.fail (.badSettings ds)
    | .ok s =>
      Telling.tell (.loadedSettings r.environment s.schemaFolder s.outputFile)
      pure s

end TableRoster.Settings
