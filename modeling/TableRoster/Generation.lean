import TableRoster.Collection
import TableRoster.Drift.Normal
import TableRoster.Output
import TableRoster.Report

/-! # Generating the aggregate module

Without a table nothing is written, and a file that is there stays as it is. -/

namespace TableRoster

structure Generated where
  output : Path
  aggregate : Option Aggregate
  written : Bool
  /-- The file had the same content before, apart from what is not compared. -/
  unchanged : Bool
  warnings : List String
  deriving DecidableEq, Repr

namespace Generated

def symbols (g : Generated) : List String :=
  match g.aggregate with
  | none => []
  | some a => a.symbols

def modules (g : Generated) : List String :=
  match g.aggregate with
  | none => []
  | some a => specifiers a.tables

def report (g : Generated) : Report :=
  .record [
    ("output_file", .text g.output.text),
    ("written", .flag g.written),
    ("unchanged", .flag g.unchanged),
    ("table_count", .count g.symbols.length),
    ("tables", .texts g.symbols),
    ("modules", .texts g.modules),
    ("generated_at", .optional (g.aggregate.map fun a => a.time.toMicroseconds)),
    ("warnings", .texts g.warnings)]

end Generated

/-- A text is there already, apart from what is not compared. -/
def isUnchanged (previous : Option String) (text : String) : Bool :=
  match previous with
  | none => false
  | some p => Drift.normal p = Drift.normal text

def generate (s : Settings) (time : Timestamp) : Change Generated := do
  match ← Change.look (Collection.aggregate s s.outputFolder time) with
  | none =>
    Change.tell (.noTables s.schemaFolder)
    pure ⟨s.outputFile, none, false, false, [Event.noTablesText s.schemaFolder]⟩
  | some a =>
    let previous ← Change.look (Output.read? s.outputFile)
    Output.write s.outputFile a.text
    Change.tell (.generated s.outputFile a.tables.length)
    pure ⟨s.outputFile, some a, true, isUnchanged previous a.text, []⟩

end TableRoster
