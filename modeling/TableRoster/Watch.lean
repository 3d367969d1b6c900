import TableRoster.Generation

/-! # Watching modules

A watcher looks at the times of all modules again and again. A change leads to a regeneration once
nothing has changed for a while, so that a row of changes leads to one. -/

namespace TableRoster

/-- The time of the last change of each module, in seconds. -/
abbrev Snapshot := List (Path × Float)

namespace Snapshot

def seconds (nanoseconds : Int) : Float :=
  let whole := nanoseconds.fdiv 1000000000
  let rest := (nanoseconds - whole * 1000000000).toNat
  Float.ofInt whole + 1e-9 * Float.ofNat rest

def timesOf (d : Disk) (files : List Path) : Snapshot :=
  files.filterMap fun file => (d.modified? file).map fun t => (file, seconds t)

/-- The times of all modules; none if they cannot be listed. -/
def take (s : Settings) (d : Disk) : Telling Snapshot :=
  match Scan.modules s d with
  | ⟨es, .ok files⟩ => ⟨es, .ok (timesOf d files)⟩
  | ⟨es, .error (.failure f)⟩ => ⟨es ++ [.watchScanFailed f], .ok []⟩
  | ⟨es, .error (.crash c)⟩ => ⟨es, .error (.crash c)⟩

def same (a b : Snapshot) : Bool :=
  a == b

/-- The modules whose time is another one, or that only one of two snapshots has, in order. -/
def changed (before after : Snapshot) : List Path :=
  Path.sort <| (firstSeen ((before ++ after).map (·.1))).filter
    fun p => lookup? before p != lookup? after p

end Snapshot

/-- What came of a regeneration that did not crash. -/
inductive Regeneration
  | done (g : Option Generated)
  | failed (reason : String)
  deriving DecidableEq, Repr

def Regeneration.isDone (r : Option Regeneration) : Bool :=
  match r with
  | some (.done _) => true
  | _ => false

/-- A generation as the regeneration of a watcher. -/
def regeneration (say : Origin → String) (generation : Change Generated) : Change Regeneration :=
  fun d =>
    match generation d with
    | (⟨es, .ok g⟩, d) => (⟨es, .ok (.done (some g))⟩, d)
    | (⟨es, .error (.failure f)⟩, d) => (⟨es, .ok (.failed (f.message say))⟩, d)
    | (⟨es, .error (.crash c)⟩, d) => (⟨es, .error (.crash c)⟩, d)

structure Watcher where
  settings : Settings
  /-- The seconds from one look to the next. -/
  interval : Float
  /-- The seconds without a change before a regeneration. -/
  quiet : Float
  runs : Nat
  seen : Snapshot
  /-- Something has changed since the last regeneration. -/
  dirty : Bool
  lastChange : Float
  stopped : Bool

/-- A step of a watcher, and what it leaves. -/
structure Turn (α : Type) where
  telling : Telling α
  watcher : Watcher
  disk : Disk

/-- What a look at the modules leads to. -/
inductive Decision
  | note (changed : List Path)
  | wait
  | run
  deriving DecidableEq, Repr

namespace Watcher

def start (s : Settings) (interval quiet : Float) (d : Disk) : Telling Watcher := do
  let seen ← Snapshot.take s d
  pure ⟨s, interval, quiet, 0, seen, false, 0, false⟩

/-- A look at the modules at a time. A change is noted; without one, and if there was none for a
while, it is time to regenerate. -/
def observe (w : Watcher) (now : Float) (current : Snapshot) : Watcher × Decision :=
  if !current.same w.seen then
    ({ w with seen := current, dirty := true, lastChange := now },
      .note (Snapshot.changed w.seen current))
  else if !w.dirty || now - w.lastChange < w.quiet then (w, .wait)
  else (w, .run)

/-- Regenerates now; `regenerate` is given the number of the run. A failure is told and does not
stop the watcher. -/
def runOnce (w : Watcher) (regenerate : Nat → Change Regeneration) (d : Disk) :
    Turn (Option Regeneration) :=
  let w := { w with dirty := false, runs := w.runs + 1 }
  match regenerate w.runs d with
  | (⟨es, .ok (.failed reason)⟩, d) =>
    ⟨⟨es ++ [.regenerationFailed reason], .ok (some (.failed reason))⟩, w, d⟩
  | (⟨es, .ok r⟩, d) => ⟨⟨es, .ok (some r)⟩, w, d⟩
  | (⟨es, .error s⟩, d) => ⟨⟨es, .error s⟩, w, d⟩

/-- The number of modules that a message about changes names. -/
def namedChanges : Nat := 5

/-- One cycle: a look, and what it leads to; the regeneration, if there was one. -/
def check (w : Watcher) (regenerate : Nat → Change Regeneration) (now : Float) (d : Disk) :
    Turn (Option Regeneration) :=
  match Snapshot.take w.settings d with
  | ⟨es, .error s⟩ => ⟨⟨es, .error s⟩, w, d⟩
  | ⟨es, .ok current⟩ =>
    match w.observe now current with
    | (w, .note changed) =>
      let names := (changed.take namedChanges).map (·.name)
      ⟨⟨es ++ [.changed names], .ok none⟩, w, d⟩
    | (w, .wait) => ⟨⟨es, .ok none⟩, w, d⟩
    | (w, .run) =>
      let turn := w.runOnce regenerate d
      { turn with telling := ⟨es ++ turn.telling.events, turn.telling.result⟩ }

/-- A cycle within a loop: a crash is told and does not end the loop. -/
def cycle (w : Watcher) (regenerate : Nat → Change Regeneration) (now : Float) (d : Disk) :
    Turn Unit :=
  let turn := w.check regenerate now d
  let crashed := match turn.telling.result with
    | .ok _ => []
    | .error _ => [.cycleFailed]
  ⟨⟨turn.telling.events ++ crashed, .ok ()⟩, turn.watcher, turn.disk⟩

/-- What others do to the disk before a cycle, and the time of the cycle. -/
structure Cycle where
  edit : Disk → Disk
  now : Float

/-- Cycle after cycle; the watcher is stopped during the last. -/
def cycles (w : Watcher) (regenerate : Nat → Change Regeneration) (d : Disk) :
    List Cycle → Turn Unit
  | [] => ⟨pure (), { w with stopped := true }, d⟩
  | c :: cs =>
    let turn := w.cycle regenerate c.now (c.edit d)
    let last := turn.watcher.cycles regenerate turn.disk cs
    { last with telling := ⟨turn.telling.events ++ last.telling.events, last.telling.result⟩ }

/-- Announces the watcher, and then runs cycle after cycle, unless it is stopped. -/
def loop (w : Watcher) (regenerate : Nat → Change Regeneration) (d : Disk)
    (cs : List Cycle) : Turn Unit :=
  let announced : Event := .watching w.settings.schemaFolder w.interval w.quiet
  if w.stopped then ⟨Telling.tell announced, w, d⟩
  else
    let turn := w.cycles regenerate d cs
    { turn with telling := ⟨announced :: turn.telling.events, turn.telling.result⟩ }

end Watcher

end TableRoster
