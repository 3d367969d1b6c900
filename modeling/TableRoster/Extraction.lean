import TableRoster.Journal.Telling
import TableRoster.Policy
import TableRoster.Source.Declaration
import TableRoster.Table
import TableRoster.Text.Find

/-! # Tables of a module

A table is an exported binding, under a name other than `default`, whose initializer holds the
marker and whose symbol the patterns include. -/

namespace TableRoster.Extraction

open Source

/-- The symbol of a declaration: an empty name outside stands for the name inside. -/
def symbolOf (d : Declaration) : String :=
  match d.exportName with
  | none => d.name
  | some n => if n = "" then d.name else n

/-- A declaration is exported and its initializer holds the marker. -/
def isCandidate (s : Settings) (d : Declaration) : Bool :=
  d.exportName.isSome && match d.initializer with
    | none => false
    | some text => Text.occursIn s.marker.toList text.toList

def table? (s : Settings) (file : Path) (d : Declaration) : Telling (Option Table) := do
  if !isCandidate s d then pure none
  else
    let symbol := symbolOf d
    if symbol = "default" then
      Telling.tell (.skippedDefault d.name file)
      pure none
    else if ← Telling.ofCrash (Policy.includes s.includePatterns s.excludePatterns symbol) then
      Telling.tell (.foundTable symbol file)
      pure (some ⟨symbol, file, ""⟩)
    else
      Telling.tell (.skippedTable symbol file)
      pure none

def tables (s : Settings) (file : Path) (ds : List Declaration) : Telling (List Table) :=
  match ds with
  | [] => pure []
  | d :: ds => do
    let t ← table? s file d
    let ts ← tables s file ds
    pure (t.toList ++ ts)

end TableRoster.Extraction
