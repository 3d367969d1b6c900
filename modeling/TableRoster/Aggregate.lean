import TableRoster.Layout
import TableRoster.Journal.Telling

/-! # Emitting the aggregate module -/

namespace TableRoster

/-- An aggregate module: its body, its time, and the tables it is made of. -/
structure Aggregate where
  body : String
  time : Timestamp
  tables : List Table
  deriving DecidableEq, Repr

namespace Aggregate

def text (a : Aggregate) : String :=
  Layout.header a.time ++ "\n" ++ a.body

def symbols (a : Aggregate) : List String :=
  a.tables.map (·.symbol)

/-- Sorts names by their characters. -/
def sortNames (names : List String) : List String :=
  names.mergeSort fun a b => !decide (b < a)

/-- The aggregate module of resolved tables. There has to be one, each has to have a specifier, and
no two may have one symbol, unless the settings allow that. -/
def emit (s : Settings) (time : Timestamp) (ts : List Table) : Telling Aggregate := do
  let unresolved := (ts.filter (·.specifier = "")).map (·.symbol)
  let twice := duplicates ts
  if ts = [] then Telling.fail .nothingToEmit
  else if unresolved ≠ [] then Telling.fail (.unresolved unresolved)
  else if twice ≠ [] ∧ ¬ s.allowDuplicates then Telling.fail (.duplicates twice)
  else
    if twice ≠ [] then Telling.tell (.duplicateSymbols (sortNames (twice.map (·.1))))
    pure ⟨Layout.body s ts, time, ts⟩

end Aggregate

end TableRoster
