import TableRoster.Aggregate
import TableRoster.Disk.Text
import TableRoster.Extraction
import TableRoster.Scan

/-! # From modules to the aggregate

The tables of all modules, in the order of the modules and of their declarations, with specifiers
as seen from a folder; and the aggregate module that they make. -/

namespace TableRoster.Collection

def load (d : Disk) (file : Path) : Telling (List Source.Declaration) :=
  match d.text file with
  | .error o => Telling.fail (.moduleUnreadable file o)
  | .ok text => do
    let ds := Source.declarations text
    Telling.tell (.readModule file ds.length)
    pure ds

def tablesIn (s : Settings) (d : Disk) : List Path → Telling (List Table)
  | [] => pure []
  | file :: files => do
    let ds ← load d file
    let ts ← Extraction.tables s file ds
    let others ← tablesIn s d files
    pure (ts ++ others)

/-- The tables of all modules, with specifiers as seen from a folder. -/
def tables (s : Settings) (folder : Path) (d : Disk) : Telling (List Table) := do
  let files ← Scan.modules s d
  let ts ← tablesIn s d files
  Telling.tell (.foundTables ts.length)
  pure (ts.map (Table.resolve d.here s.overrides folder))

/-- The aggregate module of all tables, if there is a table. -/
def aggregate (s : Settings) (folder : Path) (time : Timestamp) (d : Disk) :
    Telling (Option Aggregate) := do
  let ts ← tables s folder d
  if ts = [] then pure none
  else
    let a ← Aggregate.emit s time ts
    pure (some a)

end TableRoster.Collection
