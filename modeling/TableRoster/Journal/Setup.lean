import TableRoster.Settings.Basic
import TableRoster.Text.Case
import TableRoster.Timestamp

/-! # Where events are shown

The console shows events from a level on; a file may take them too, from a level of its own. How
much a line says depends on the level of the console. -/

namespace TableRoster.Journal

/-! ## Levels -/

def warningLevel : Nat := 30

def levelNames : List (String × Nat) :=
  [("CRITICAL", 50), ("FATAL", 50), ("ERROR", 40), ("WARNING", 30), ("WARN", 30), ("INFO", 20),
    ("DEBUG", 10), ("NOTSET", 0)]

/-- The level that a name in any case stands for; any other text is the level of warnings. -/
def levelOf (name : Option String) : Nat :=
  match name with
  | none => warningLevel
  | some n => (lookup? levelNames (String.ofList (n.toList.flatMap Text.upper))).getD warningLevel

def levelWord (n : Nat) : String :=
  match n with
  | 50 => "CRITICAL"
  | 40 => "ERROR"
  | 30 => "WARNING"
  | 20 => "INFO"
  | 10 => "DEBUG"
  | 0 => "NOTSET"
  | n => "Level " ++ toString n

/-- The flags that choose how much the console shows; the first that is set wins. -/
structure Loudness where
  debug : Bool
  verbose : Bool
  quiet : Bool
  deriving DecidableEq, Repr

abbrev Environment := List (String × String)

def consoleLevel (l : Loudness) (env : Environment) : Nat :=
  if l.debug then 10
  else if l.verbose then 20
  else if l.quiet then 40
  else levelOf (lookup? env "SCHEMAGEN_LOG_LEVEL")

/-! ## Lines -/

/-- An event as it is shown: who tells it, from which line, and when. -/
structure Record where
  teller : String
  level : Nat
  message : String
  line : Int
  time : Timestamp

inductive Style
  | message
  | told
  | timed
  | full
  deriving DecidableEq, Repr

def styleOf (level : Nat) : Style :=
  if level ≤ 10 then .timed else if level ≤ 20 then .told else .message

def shortName (teller : String) : String :=
  let s := teller.toList
  let cut (front : String) : Option String :=
    if front.toList.isPrefixOf s then some (String.ofList (s.drop front.length)) else none
  ((cut "schemagen.core.").or (cut "schemagen.")).getD teller

def padRight (width : Nat) (s : String) : String :=
  s ++ String.ofList (List.replicate (width - s.length) ' ')

def Record.show (r : Record) : Style → String
  | .message => r.message
  | .told => "[" ++ shortName r.teller ++ "] " ++ r.message
  | .timed =>
    r.time.clockText ++ " " ++ padRight 5 (levelWord r.level) ++ " " ++ shortName r.teller ++ ":"
      ++ toString r.line ++ " " ++ r.message
  | .full =>
    r.time.dateText ++ " " ++ r.time.clockText ++ " " ++ padRight 5 (levelWord r.level) ++ " "
      ++ r.teller ++ ":" ++ toString r.line ++ " " ++ r.message

/-! ## Outlets -/

/-- A place that shows records from a level on. -/
structure Outlet where
  /-- The file that takes the lines; without one they go to the console. -/
  file : Option String
  level : Nat
  style : Style
  deriving DecidableEq, Repr

structure Setup where
  level : Nat
  /-- Records below this level are shown nowhere. -/
  floor : Nat
  outlets : List Outlet
  /-- The level of the reader of settings files, if it has one of its own. -/
  formatLevel : Nat
  deriving DecidableEq, Repr

/-- The outlets for given flags and environment. A variable that is empty counts as not set. -/
def Setup.of (l : Loudness) (env : Environment) : Setup :=
  let level := consoleLevel l env
  let console : Outlet := ⟨none, level, styleOf level⟩
  let formatLevel := if level > 10 then warningLevel else 0
  match (lookup? env "SCHEMAGEN_LOG_FILE").filter (· ≠ "") with
  | none => ⟨level, level, [console], formatLevel⟩
  | some file =>
    let own := match (lookup? env "SCHEMAGEN_LOG_FILE_LEVEL").filter (· ≠ "") with
      | none => level
      | some name => levelOf (some name)
    ⟨level, min level own, [console, ⟨some file, own, .full⟩], formatLevel⟩

/-- The line that an outlet makes of a record, if it shows it. -/
def Setup.lineOf? (s : Setup) (o : Outlet) (r : Record) : Option String :=
  if s.floor ≤ r.level ∧ o.level ≤ r.level then some (r.show o.style) else none

end TableRoster.Journal
