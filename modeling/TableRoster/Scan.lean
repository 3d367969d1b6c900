import TableRoster.Disk.Edit
import TableRoster.Disk.RealPath
import TableRoster.Glob
import TableRoster.Journal.Telling
import TableRoster.Specifier

/-! # Finding modules

The modules of a run are the source files below the schema folder, folder by folder and each in
order of names. Folders with the code of others are passed over, and so are the aggregate module
and what a glob excludes. -/

namespace TableRoster.Scan

def skippedFolders : List String :=
  ["node_modules", ".git"]

/-- A name that an aggregate module has, wherever it is. -/
def reservedName : String := "generated-schema.ts"

def isSourceName (name : String) : Bool :=
  Specifier.sourceSuffix.isSuffixOf name.toList

/-- A bound for the number of names below a folder that a walk can follow: between two links the
walk stays within the depth of the disk. -/
def bound (d : Disk) : Nat :=
  (Disk.linkLimit + 1) * (d.depth + 1)

/-- The source files among the entries of a folder, and below them. -/
def sourcesAmong (d : Disk) (below : Path → Except Failure (List Path)) :
    List Path → Except Failure (List Path)
  | [] => .ok []
  | entry :: entries =>
    if d.isFolder entry then
      if entry.name ∈ skippedFolders then sourcesAmong d below entries
      else do
        let inner ← below entry
        let others ← sourcesAmong d below entries
        pure (inner ++ others)
    else if d.isFile entry && isSourceName entry.name then do
      let others ← sourcesAmong d below entries
      pure (d.absolute entry :: others)
    else sourcesAmong d below entries

def sourcesBelow (d : Disk) : (fuel : Nat) → Path → Except Failure (List Path)
  | 0, _ => .ok []
  | fuel + 1, folder =>
    match d.childrenOf folder with
    | .error f => .error (.folderUnlistable folder (.file f))
    | .ok entries => sourcesAmong d (sourcesBelow d fuel) entries

/-- A source file is the aggregate module, whose real path is given. -/
def isOutput (d : Disk) (output file : Path) : Except Crash Bool :=
  if file.name = reservedName then .ok true
  else (d.realPath file).map fun real => real = output

def isModule (d : Disk) (s : Settings) (output file : Path) : Telling Bool := do
  if ← Telling.ofCrash (isOutput d output file) then
    Telling.tell (.skippedOutput file)
    pure false
  else if Glob.isExcluded s.schemaFolder file s.excludeGlobs then
    Telling.tell (.excluded file)
    pure false
  else pure true

def modulesAmong (d : Disk) (s : Settings) (output : Path) : List Path → Telling (List Path)
  | [] => pure []
  | file :: files => do
    let here ← isModule d s output file
    let others ← modulesAmong d s output files
    pure (if here then file :: others else others)

def modules (s : Settings) (d : Disk) : Telling (List Path) := do
  if !d.isFolder s.schemaFolder then Telling.fail (.schemaMissing s.schemaFolder)
  else
    let output ← Telling.ofCrash (d.realPath s.outputFile)
    let files ← Telling.ofFailure (sourcesBelow d (bound d) s.schemaFolder)
    let found ← modulesAmong d s output files
    Telling.tell (.foundModules found.length s.schemaFolder)
    pure found

end TableRoster.Scan
