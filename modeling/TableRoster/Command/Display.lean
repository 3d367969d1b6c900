import TableRoster.Validation

/-! # What commands say -/

namespace TableRoster.Command

def settingsFields (s : Settings) : List (String × Report) :=
  [("schema_dir", .text s.schemaFolder.text),
    ("output_file", .text s.outputFile.text),
    ("exclude_patterns", .texts s.excludeGlobs),
    ("include_table_patterns", .texts s.includePatterns),
    ("exclude_table_patterns", .texts s.excludePatterns),
    ("generate_types", .flag s.emitTypes),
    ("generate_table_names", .flag s.emitNames),
    ("import_path_mapping", .record (s.overrides.map fun o => (o.1, .text o.2))),
    ("factory_marker", .text s.marker),
    ("aggregate_name", .text s.aggregateName),
    ("allow_duplicate_symbols", .flag s.allowDuplicates)]

def yesNo (b : Bool) : String :=
  if b then "yes" else "no"

def scanningLine (s : Settings) : String :=
  "🚀 Scanning " ++ s.schemaFolder.text ++ " ..."

def generationLines (s : Settings) : List String :=
  ["",
    "📋 Generation config:",
    "   Schema dir:  " ++ s.schemaFolder.text,
    "   Output file: " ++ s.outputFile.text,
    "   Types:       " ++ yesNo s.emitTypes,
    "   Table names: " ++ yesNo s.emitNames]

def warningLine (text : String) : String :=
  "\u26a0\ufe0f  " ++ text

/-- What came of a generation: warnings always, the rest unless it is to be quiet. -/
def generatedLines (verbose quiet : Bool) (s : Settings) (g : Generated) : List String :=
  g.warnings.map warningLine
    ++ if !g.written || quiet then []
      else
        [("✅ Generated " ++ s.outputFile.text ++ if g.unchanged then " (no changes)" else ""),
          "   Tables (" ++ toString g.symbols.length ++ "): " ++ ", ".intercalate g.symbols]
          ++ if verbose then generationLines s else []

/-- The number of characters of a text that are shown of it. -/
def previewLength : Nat := 100

def preview (s : String) : String :=
  String.ofList (s.toList.take previewLength) ++ "..."

def differenceLimit : Nat := 50

/-- The first lines of differences, and how many there are more. -/
def cutLines (lines : List String) : List String :=
  if lines = [] then []
  else "" :: lines.take differenceLimit
    ++ if lines.length > differenceLimit then
        ["... (" ++ toString (lines.length - differenceLimit) ++ " more lines)"]
      else []

/-- The differences of a verdict that has two texts: how they start, how long they are, and where
they differ. -/
def differenceLines (v : Verdict) : List String :=
  match v.expected?, v.actual? with
  | some expected, some actual =>
    let expectedCount := (Drift.linesOf expected).length
    let actualCount := (Drift.linesOf actual).length
    ["", "📋 Differences:",
      "\nExpected (first " ++ toString previewLength ++ " chars):", preview expected,
      "\nActual (first " ++ toString previewLength ++ " chars):", preview actual,
      "", "📊 Stats:",
      "   Expected lines: " ++ toString expectedCount,
      "   Actual lines:   " ++ toString actualCount]
      ++ (if expectedCount ≠ actualCount then
          ["   \u26a0\ufe0f  Line count mismatch"] else [])
      ++ cutLines (v.difference Drift.ownContext)
  | _, _ => []

def verdictLine (v : Verdict) : String :=
  (if v.isValid then "✅ " else "❌ ") ++ v.message

def infoLines (environment : String) (s : Settings) : List String :=
  ["📋 Current configuration:",
    "   Environment:            " ++ environment,
    "   Schema dir:             " ++ s.schemaFolder.text,
    "   Output file:            " ++ s.outputFile.text,
    "   Generate types:         " ++ yesNo s.emitTypes,
    "   Generate table names:   " ++ yesNo s.emitNames,
    "   Exclude file patterns:  " ++ ", ".intercalate s.excludeGlobs,
    "   Include table patterns: " ++ ", ".intercalate s.includePatterns,
    "   Exclude table patterns: " ++ ", ".intercalate s.excludePatterns]
    ++ if s.overrides = [] then []
      else "   Import path mapping:" :: s.overrides.map fun o => "     • " ++ o.1 ++ " → " ++ o.2

end TableRoster.Command
