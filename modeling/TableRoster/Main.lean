import Std.Time.DateTime.Timestamp
import TableRoster.Command.Run

/-! # The program

The outer layer. It takes a picture of the files that a run may look at, runs the command on that
picture, says its lines, and then changes the files as the picture has changed. -/

namespace TableRoster.Main

/-! ## Pictures -/

def textOf (p : Place) : String :=
  Path.text ⟨.slash, p⟩

/-- The place that a text without links writes. -/
def placeOf (text : String) : Place :=
  (Path.ofString text).parts

/-- What is known of the files: a disk, and the folders all of whose entries it has. -/
structure Picture where
  disk : Disk
  listed : List Place

/-- The target of a link that leads nowhere, which cannot be read: a name that is too long for a
file. -/
def nowhere : String :=
  String.ofList (List.replicate 256 '-')

/-- A link of a picture leads to something. -/
def isReal (target : String) : Bool :=
  target.startsWith "/"

/-- What a link is known as: it leads to a real path, or nowhere, or back to itself. -/
def linkAt (entry : IO.FS.DirEntry) : IO Node := do
  match ← entry.path.metadata.toBaseIO with
  | .ok _ => return .link (← IO.FS.realPath entry.path).toString
  | .error (.noFileOrDirectory ..) => return .link nowhere
  | .error _ => return .link entry.fileName

/-- What is at a place. The content of a file is only read if it is wanted. -/
def nodeAt (wanted : String → Bool) (folder : Place) (name : String) : IO (Option Node) := do
  let entry : IO.FS.DirEntry := ⟨textOf folder, name⟩
  let .ok facts ← entry.path.symlinkMetadata.toBaseIO | return none
  match facts.type with
  | .dir => return some .folder
  | .symlink => return some (← linkAt entry)
  | .file =>
    let bytes ← if wanted name then IO.FS.readBinFile entry.path else pure ByteArray.empty
    return some (.file bytes (facts.modified.sec * 1000000000 + facts.modified.nsec.toNat))
  | .other => return none

/-- Adds what is on the way from a place along names. -/
partial def along (picture : Picture) (folder : Place) : List String → IO Picture
  | [] => return picture
  | ".." :: rest => along picture folder.dropLast rest
  | name :: rest => do
    let place := folder ++ [name]
    match ← nodeAt (fun _ => true) folder name with
    | none => along picture place rest
    | some (.link target) =>
      let picture := { picture with disk := picture.disk.put place (.link target) }
      if isReal target then along picture [] (placeOf target ++ rest) else return picture
    | some node => along { picture with disk := picture.disk.put place node } place rest

def alongPath (picture : Picture) (path : Path) : IO Picture :=
  along picture (picture.disk.startOf path) path.parts

/-- Adds all that is below a folder, and below the folders that links lead to. -/
partial def below (picture : Picture) (folder : Place) : IO Picture := do
  if picture.listed.contains folder then return picture
  let mut picture := { picture with listed := folder :: picture.listed }
  let .ok entries ← (← IO.FS.realPath (textOf folder)).readDir.toBaseIO | return picture
  for entry in entries do
    let place := folder ++ [entry.fileName]
    match ← nodeAt Scan.isSourceName folder entry.fileName with
    | none => pure ()
    | some node =>
      picture := { picture with disk := picture.disk.put place node }
      match node with
      | .folder =>
        if entry.fileName ∉ Scan.skippedFolders then picture ← below picture place
      | .link target =>
        if isReal target then
          picture ← along picture [] (placeOf target)
          if picture.disk.node? (placeOf target) = some .folder then
            picture ← below picture (placeOf target)
      | .file .. => pure ()
  return picture

/-- The paths of a request, before links on them are followed. -/
def writtenPaths (r : Settings.Request) (d : Disk) : List Path :=
  match (Settings.fileLayersOf d r).result with
  | .error _ => []
  | .ok (own, rest, folder) =>
    let rows := [(folder, Settings.fieldsIn [own, rest, Settings.preset]), (⟨.slash, d.here⟩, r.overrides)]
    rows.flatMap fun (start, fields) => fields.filterMap fun
      | (key, .text s) => if key ∈ Settings.pathKeys then some (start.join (.ofString s)) else none
      | _ => none

/-- Adds what a run with some settings may look at. A run does not guess where a link leads that has to
be followed. -/
def withSettings (picture : Picture) (s : Settings) : IO Picture := do
  if (s.schemaFolder.parts ++ s.outputFile.parts).contains nowhere then
    throw (IO.userError "A link that leads nowhere cannot be followed")
  let picture ← alongPath picture s.schemaFolder
  let picture ← alongPath picture s.outputFile
  match picture.disk.stat s.schemaFolder with
  | .ok (place, .folder) =>
    let picture ← below picture place
    -- The aggregate module is read whatever its name is.
    alongPath picture s.outputFile
  | _ => return picture

def time : IO Timestamp := do
  let now ← Std.Time.Timestamp.now
  let nanoseconds := now.toNanosecondsSinceUnixEpoch.toInt
  let seconds := nanoseconds.fdiv 1000000000
  return .ofSeconds seconds ((nanoseconds - seconds * 1000000000).toNat / 1000)

/-- The working folder, and the settings files in it and above it. -/
def first (env : Journal.Environment) : IO Picture := do
  let here := placeOf (← IO.FS.realPath (← IO.currentDir)).toString
  let mut picture : Picture := ⟨⟨[], here, 0⟩, []⟩
  for n in List.range (here.length + 1) do
    picture ← along picture [] (here.take n ++ [Settings.fileName])
  picture ← along picture [] here
  match lookup? env "SCHEMAGEN_LOG_FILE" with
  | some file => alongPath picture (Command.logPath picture.disk file)
  | none => return picture

/-! ## Changes -/

/-- The rights that the bits of a mode give: to the owner, to the group, and to others. -/
def rightsOf (mode : Nat) : IO.FileRight :=
  let right (shift : Nat) : IO.AccessRight :=
    ⟨mode.testBit (shift + 2), mode.testBit (shift + 1), mode.testBit shift⟩
  ⟨right 6, right 3, right 0⟩

/-- Writes a file so that it is never seen half written. -/
def replace (place : Place) (bytes : ByteArray) : IO Unit := do
  let entry : IO.FS.DirEntry := ⟨textOf place.dropLast, ".schemagen_" ++ place.getLast?.getD ""⟩
  IO.FS.writeBinFile entry.path bytes
  IO.setAccessRights entry.path (rightsOf Output.mode)
  IO.FS.rename entry.path (textOf place)

/-- Changes the files as a picture has changed; files at `growing` places are written as they are. -/
def change (growing : List Place) (before after : Disk) : IO Unit := do
  for (place, _) in before.nodes do
    if (after.node? place).isNone then IO.FS.removeFile (textOf place)
  let changed := after.nodes.filter fun (place, node) => before.node? place ≠ some node
  for (place, node) in changed.mergeSort fun a b => a.1.length ≤ b.1.length do
    match node with
    | .folder => IO.FS.createDir (textOf place)
    | .file bytes _ =>
      if growing.contains place then IO.FS.writeBinFile (textOf place) bytes else replace place bytes
    | .link _ => pure ()

def sayAll (output : IO.FS.Stream) (lines : List String) : IO Unit := do
  for line in lines do output.putStrLn line
  output.flush

/-- Shows what a command left, and changes the files; gives the exit code. -/
def leave (growing : List Place) (before : Disk) (f : Command.Finish) : IO UInt32 := do
  change growing before f.disk
  sayAll (← IO.getStdout) f.lines
  sayAll (← IO.getStderr) f.errors
  match f.ending with
  | .exit code => return code.toUInt32
  | .misuse _ => return 2
  | .crash c =>
    sayAll (← IO.getStderr) [c.text]
    return 1

/-! ## Runs -/

/-- A time as text, for a clock that only runs forward. -/
def clock : IO Float := do
  return (← IO.monoNanosNow).toFloat / 1000000000

/-- The places of log files. -/
def growingOf (ready : Command.Ready) (d : Disk) : List Place :=
  (Command.logFiles ready.setup).filterMap fun file =>
    match d.walk true (Command.logPath d file) with
    | .ok arrival => some arrival.place
    | .error _ => none

def pictureFor (ready : Command.Ready) (here : Place) (s : Settings) : IO Disk := do
  let mut picture ← along ⟨⟨[], here, 0⟩, []⟩ [] here
  for file in Command.logFiles ready.setup do
    picture ← alongPath picture (Command.logPath picture.disk file)
  return (← withSettings picture s).disk

/-- What a session leaves whose result is no exit code. -/
def finishOf (ready : Command.Ready) (now : Timestamp) (o : Command.Outcome α) : Command.Finish :=
  Command.finish ready.setup Origin.text now { o with result := o.result.map fun _ => 0 }

/-- Watches until the program is stopped from outside. -/
partial def watch (ready : Command.Ready) (here : Place) (w : Watcher) : IO UInt32 := do
  let disk ← pictureFor ready here w.settings
  let now ← time
  let outcome := Command.watchCycle ready.scope Origin.text now (← clock) w disk
  let code ← leave (growingOf ready disk) disk (finishOf ready now outcome)
  match outcome.result with
  | .ok w =>
    IO.sleep (w.interval * 1000).toUInt32
    watch ready here w
  | .error _ => return code

/-- Runs a command on a picture to which the settings may add. -/
def runReady (ready : Command.Ready) (picture : Picture) : IO UInt32 := do
  let add (p : Picture) : IO Picture := do
    match (Command.load ready.scope ready.task.choices p.disk).result with
    | .ok s => withSettings p s
    | .error _ => return p
  let paths := writtenPaths (Command.requestOf ready.scope ready.task.choices) picture.disk
  let picture ← paths.foldlM alongPath picture
  -- Links that the first look shows may lead elsewhere.
  let disk := (← add (← add picture)).disk
  let growing := growingOf ready disk
  let now ← time
  match ready.task with
  | .watch c interval debounce =>
    let generation := Command.generateFirst ready.scope now c disk
    let code ← leave growing disk (finishOf ready now generation)
    let .ok s := generation.result | return code
    -- Folders that were made may let links lead elsewhere.
    let disk ← pictureFor ready disk.here s
    let start := Command.startWatch s interval debounce disk
    let code ← leave (growingOf ready disk) disk (finishOf ready (← time) start)
    let .ok w := start.result | return code
    watch ready disk.here w
  | task =>
    let outcome := Command.runTask ready.scope now (fun _ w => pure w) task disk
    leave growing disk (Command.finish ready.setup Origin.text now outcome)

def variableNames : List String :=
  [Command.environmentVariable, "SCHEMAGEN_LOG_LEVEL", "SCHEMAGEN_LOG_FILE",
    "SCHEMAGEN_LOG_FILE_LEVEL"]

def run (args : List String) : IO UInt32 := do
  let env ← variableNames.filterMapM fun name => do
    return (← IO.getEnv name).map fun value => (name, value)
  let picture ← first env
  let picture ← match Command.readProgram env picture.disk args with
    | .ok (.act (scope, _)) =>
      match scope.file with
      | some file => alongPath picture file
      | none => pure picture
    | _ => pure picture
  match Command.prepare env args picture.disk with
  | .error finish => leave [] picture.disk finish
  | .ok (ready, disk) =>
    change (growingOf ready disk) picture.disk disk
    runReady ready { picture with disk }

end TableRoster.Main

def main (args : List String) : IO UInt32 := do
  try TableRoster.Main.run args
  catch e =>
    (← IO.getStderr).putStrLn ("❌ " ++ e.toString)
    return 1
