import TableRoster.Command.Arguments
import TableRoster.Command.Display
import TableRoster.Command.Session
import TableRoster.Settings.Layers

/-! # Running commands -/

namespace TableRoster.Command

/-! ## Settings -/

/-- The environment of a command: its own, or that of the program as a whole. -/
def environmentOf (p : Scope) (c : Choices) : String :=
  match c.environment with
  | some e => e
  | none => p.environment

def pathOverride (key : String) (path : Option String) : Settings.Fields :=
  match path with
  | some s => [(key, .text s)]
  | none => []

/-- The overrides that the choices of a command line make. -/
def overridesOf (c : Choices) : Settings.Fields :=
  pathOverride "schema_dir" c.schemaFolder ++ pathOverride "output_file" c.output
    ++ (if c.noTypes then [("generate_types", .flag false)] else [])
    ++ (if c.noNames then [("generate_table_names", .flag false)] else [])

def requestOf (p : Scope) (c : Choices) : Settings.Request :=
  ⟨environmentOf p c, p.file, overridesOf c, true⟩

def load (p : Scope) (c : Choices) : Session Settings :=
  Session.look (Settings.load (requestOf p c))

def sayLoud (p : Scope) (line : String) : Session Unit :=
  if p.loudness.quiet then pure () else Session.say line

def sayGenerated (p : Scope) (s : Settings) (g : Generated) : Session Unit :=
  Session.sayAll (generatedLines p.loudness.verbose p.loudness.quiet s g)

/-! ## Commands -/

def codeOf (ok : Bool) : Nat :=
  if ok then 0 else 1

def runGenerate (p : Scope) (time : Timestamp) (c : Choices) (asJson : Bool) : Session Nat := do
  let s ← load p c
  if !asJson then sayLoud p (scanningLine s)
  let g ← Session.change (TableRoster.generate s time)
  if asJson then Session.say (g.report.render 0) else sayGenerated p s g
  pure 0

def runValidate (p : Scope) (time : Timestamp) (c : Choices) (difference fix asJson : Bool) :
    Session Nat := do
  let s ← load p c
  let r ← Session.change (TableRoster.check s time fix)
  if asJson then Session.say (r.report.render 0)
  else
    if !p.loudness.quiet || !r.verdict.isValid then Session.say (verdictLine r.verdict)
    if !r.verdict.isValid && difference then Session.sayAll (differenceLines r.verdict)
    match r.generation with
    | none => pure ()
    | some g =>
      Session.say "🔧 Fixing..."
      sayGenerated p s g
      if g.written then Session.say "✅ Fixed"
  pure (codeOf r.ok)

def runSync (p : Scope) (time : Timestamp) (c : Choices) : Session Nat := do
  let s ← load p c
  sayLoud p "🔄 Syncing schema..."
  let r ← Session.change (TableRoster.sync s time)
  match r.generation with
  | none =>
    sayLoud p "✅ Schema already in sync, nothing to generate"
    pure 0
  | some g =>
    sayLoud p "🔧 Schema out of sync, regenerating..."
    sayGenerated p s g
    pure (codeOf r.ok)

def runClean (p : Scope) (c : Choices) : Session Nat := do
  let s ← load p c
  if ← Session.change (TableRoster.clean s) then
    Session.say ("🗑\ufe0f  Removed " ++ s.outputFile.text)
  else sayLoud p "📁 Nothing to clean"
  pure 0

def runInfo (p : Scope) (c : Choices) (asJson : Bool) : Session Nat := do
  let s ← load p c
  let environment := environmentOf p c
  if asJson then
    Session.say (Report.render 0 (.record (("env", .text environment) :: settingsFields s)))
  else Session.sayAll (infoLines environment s)
  pure 0

/-! ## Watching -/

/-- What a watcher does when it regenerates. -/
def regenerate (say : Origin → String) (time : Timestamp) (w : Watcher) :
    Nat → Change Regeneration :=
  fun _ => regeneration say (TableRoster.generate w.settings time)

def sayRegenerated (p : Scope) (w : Watcher) (r : Option Regeneration) : Session Unit :=
  match r with
  | some (.done (some g)) => sayGenerated p w.settings g
  | _ => pure ()

/-- The generation in front of a watch. -/
def generateFirst (p : Scope) (time : Timestamp) (c : Choices) : Session Settings := do
  let s ← load p c
  let g ← Session.change (TableRoster.generate s time)
  sayGenerated p s g
  pure s

def startWatch (s : Settings) (interval debounce : Float) : Session Watcher := do
  let w ← Session.look (Watcher.start s interval debounce)
  Session.say ("👀 Watching " ++ s.schemaFolder.text ++ " (Ctrl+C to stop)")
  Session.change (Change.tell (.watching s.schemaFolder interval debounce))
  pure w

/-- One cycle of a watcher. A crash is told and does not end the session. -/
def watchCycle (p : Scope) (say : Origin → String) (time : Timestamp) (now : Float) (w : Watcher) :
    Session Watcher := fun d =>
  let turn := w.check (regenerate say time w) now d
  match turn.telling.result with
  | .ok r =>
    let o := sayRegenerated p turn.watcher r turn.disk
    ⟨o.lines, turn.telling.events, .ok turn.watcher, turn.disk⟩
  | .error _ => ⟨[], turn.telling.events ++ [.cycleFailed], .ok turn.watcher, turn.disk⟩

def stoppedLine : String :=
  "\n👋 Stopped watching"

/-- Watches for as long as `poll` does. -/
def runWatch (p : Scope) (time : Timestamp) (c : Choices) (interval debounce : Float)
    (poll : Scope → Watcher → Session Watcher) : Session Nat := do
  let s ← generateFirst p time c
  let w ← startWatch s interval debounce
  let _ ← poll p w
  Session.say stoppedLine
  pure 0

def runTask (p : Scope) (time : Timestamp) (poll : Scope → Watcher → Session Watcher) :
    Task → Session Nat
  | .generate c asJson => runGenerate p time c asJson
  | .validate c difference fix asJson => runValidate p time c difference fix asJson
  | .sync c => runSync p time c
  | .watch c interval debounce => runWatch p time c interval debounce poll
  | .clean c => runClean p c
  | .info c asJson => runInfo p c asJson

/-! ## Log files -/

/-- Where a log file is: from the working folder on, by names alone. -/
def logPath (d : Disk) (file : String) : Path :=
  ⟨.slash, (Path.ofString file).absoluteParts d.here⟩

/-- Adds lines to a log file, which is made if it is not there. -/
def writeLog (d : Disk) (file : String) (lines : List String) : Except FileFault Disk :=
  let path := logPath d file
  let text := (String.join (lines.map (· ++ "\n"))).toUTF8
  match d.bytes path with
  | .ok old => if lines = [] then .ok d else d.write path (old ++ text)
  | .error .missing => d.write path text
  | .error f => .error f

/-- An event as a record. Events do not know the line that tells them. -/
def recordOf (say : Origin → String) (time : Timestamp) (e : Event) : Journal.Record :=
  ⟨programName ++ (if e.part = .command then "." else ".core.") ++ e.part.name, e.level.number,
    e.message say, 0, time⟩

def linesFor (setup : Journal.Setup) (say : Origin → String) (time : Timestamp) (es : List Event)
    (o : Journal.Outlet) : List String :=
  es.filterMap fun e => setup.lineOf? o (recordOf say time e)

/-! ## The whole program -/

inductive Ending
  | exit (code : Nat)
  | misuse (m : Misuse)
  | crash (c : Crash)

structure Finish where
  lines : List String
  errors : List String
  ending : Ending
  disk : Disk

/-- A program that is ready to run a command. -/
structure Ready where
  scope : Scope
  setup : Journal.Setup
  task : Task

def logFiles (setup : Journal.Setup) : List String :=
  setup.outlets.filterMap (·.file)

def openLogs (setup : Journal.Setup) (d : Disk) : Except FileFault Disk :=
  (logFiles setup).foldlM (fun d file => writeLog d file []) d

/-- Reads a command line; either the program ends with it, or it is ready and the log files are
there. -/
def prepare (env : Journal.Environment) (args : List String) (d : Disk) :
    Except Finish (Ready × Disk) :=
  let said (lines : List String) (d : Disk) : Finish := ⟨lines, [], .exit 0, d⟩
  match readProgram env d args with
  | .error m => .error ⟨[], misuseLines m, .misuse m, d⟩
  | .ok .version => .error (said [versionText] d)
  | .ok .help => .error (said helpLines d)
  | .ok (.act (scope, name, rest)) =>
    let setup := Journal.Setup.of scope.loudness env
    match openLogs setup d with
    | .error f => .error ⟨[], [], .crash (.file f), d⟩
    | .ok d =>
      match readTask name rest with
      | .error m => .error ⟨[], misuseLines m, .misuse m, d⟩
      | .ok .version => .error (said [versionText] d)
      | .ok .help => .error (said helpLines d)
      | .ok (.act task) => .ok (⟨scope, setup, task⟩, d)

def failureLine (say : Origin → String) (f : Failure) : String :=
  "❌ " ++ f.message say

/-- What a session leaves: its events are shown on the console and in log files. -/
def finish (setup : Journal.Setup) (say : Origin → String) (time : Timestamp) (o : Outcome Nat) :
    Finish :=
  let events := o.events ++ match o.result with
    | .error (.failure _) => [.commandFailed]
    | _ => []
  let shown := linesFor setup say time events
  let console := (setup.outlets.filter (·.file.isNone)).flatMap shown
  let disk := setup.outlets.foldl (fun d outlet =>
    match outlet.file with
    | none => d
    | some file =>
      match writeLog d file (shown outlet) with
      | .ok d => d
      | .error _ => d) o.disk
  match o.result with
  | .ok code => ⟨o.lines, console, .exit code, disk⟩
  | .error (.failure f) => ⟨o.lines, console ++ [failureLine say f], .exit 1, disk⟩
  | .error (.crash c) => ⟨o.lines, console, .crash c, disk⟩

def run (env : Journal.Environment) (say : Origin → String) (time : Timestamp)
    (poll : Scope → Watcher → Session Watcher) (args : List String) (d : Disk) : Finish :=
  match prepare env args d with
  | .error f => f
  | .ok (ready, d) => finish ready.setup say time (runTask ready.scope time poll ready.task d)

end TableRoster.Command
