import TableRoster.Drift.Unified
import TableRoster.Generation

/-! # Validating the aggregate module

The file is compared with the aggregate module that the tables make now. Nothing is written, unless
a fix is asked for. -/

namespace TableRoster

namespace Drift

/-- The differences between two texts; none if one is missing. -/
def difference (n : Nat) (actual expected : Option String) : List String :=
  match actual, expected with
  | some a, some e => unified n a e
  | _, _ => []

/-- The context of differences, if nothing else is asked for. -/
def ownContext : Nat := 3

def linesAdded (actual expected : Option String) : Nat :=
  countMarked '+' (difference ownContext actual expected)

def linesRemoved (actual expected : Option String) : Nat :=
  countMarked '-' (difference ownContext actual expected)

end Drift

/-- What came of a comparison. Texts are held in the form that is compared. -/
inductive Verdict
  | inSync
  | noTables (folder : Path) (actual : Option String)
  | noFile (output : Path) (expected : String)
  | drifted (output : Path) (expected actual : String)
  deriving DecidableEq, Repr

namespace Verdict

def isValid : Verdict → Bool
  | .inSync => true
  | _ => false

def message : Verdict → String
  | .inSync => "Schema file is in sync with the current table definitions"
  | .noTables folder _ => "No table declarations found under " ++ folder.text
  | .noFile output _ =>
    "Generated schema file " ++ output.text ++ " does not exist; run \x60schemagen generate\x60"
  | .drifted output _ _ =>
    "Drift detected: " ++ output.text
      ++ " is out of date; run \x60schemagen generate\x60 to update it"

def hasFile : Verdict → Bool
  | .inSync => true
  | .noTables _ actual => actual.isSome
  | .noFile .. => false
  | .drifted .. => true

/-- What the file should hold, where that is told. -/
def expected? : Verdict → Option String
  | .noFile _ e | .drifted _ e _ => some e
  | _ => none

/-- What the file holds, where that is told. -/
def actual? : Verdict → Option String
  | .noTables _ a => a
  | .drifted _ _ a => some a
  | _ => none

def difference (n : Nat) (v : Verdict) : List String :=
  Drift.difference n v.actual? v.expected?

def fields (v : Verdict) : List (String × Report) :=
  [("is_valid", .flag v.isValid),
    ("message", .text v.message),
    ("details", .record [
      ("has_file", .flag v.hasFile),
      ("content_match", .flag v.isValid),
      ("expected_content", .optional v.expected?),
      ("actual_content", .optional v.actual?)]),
    ("lines_added", .count (Drift.linesAdded v.actual? v.expected?)),
    ("lines_removed", .count (Drift.linesRemoved v.actual? v.expected?))]

end Verdict

/-- Compares the file with the aggregate module that the tables make now. -/
def validate (s : Settings) (time : Timestamp) (d : Disk) : Telling Verdict := do
  Telling.tell (.comparing s.outputFile s.schemaFolder)
  let aggregate ← Collection.aggregate s s.outputFolder time d
  let actual := (← Output.read? s.outputFile d).map Drift.normal
  match aggregate with
  | none => pure (.noTables s.schemaFolder actual)
  | some a =>
    let expected := Drift.normal a.text
    match actual with
    | none => pure (.noFile s.outputFile expected)
    | some text =>
      if expected = text then
        Telling.tell (.inSync a.tables.length)
        pure .inSync
      else
        Telling.tell (.drifted s.outputFile)
        pure (.drifted s.outputFile expected text)

/-! ## Generation where needed -/

/-- A verdict, and the generation that a bad one led to. -/
structure Checked where
  verdict : Verdict
  generation : Option Generated
  deriving DecidableEq, Repr

namespace Checked

def ok (c : Checked) : Bool :=
  c.verdict.isValid || match c.generation with
    | none => false
    | some g => g.written

def generationReport (c : Checked) : Report :=
  match c.generation with
  | none => .absent
  | some g => g.report

def report (c : Checked) : Report :=
  .record (c.verdict.fields ++ [("fixed", c.generationReport)])

end Checked

/-- Validates, and generates if a fix is asked for and needed. -/
def check (s : Settings) (time : Timestamp) (fix : Bool) : Change Checked := do
  let verdict ← Change.look (validate s time)
  if !verdict.isValid && fix then
    Change.tell (.fixing s.outputFile)
    let g ← generate s time
    pure ⟨verdict, some g⟩
  else pure ⟨verdict, none⟩

/-- Validates, and generates if needed. -/
def sync (s : Settings) (time : Timestamp) : Change Checked := do
  let verdict ← Change.look (validate s time)
  if verdict.isValid then pure ⟨verdict, none⟩
  else
    let g ← generate s time
    pure ⟨verdict, some g⟩

def clean (s : Settings) : Change Bool :=
  Output.remove s.outputFile

end TableRoster
