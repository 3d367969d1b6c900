import TableRoster.Drift.Script
import TableRoster.Text.Lines

/-! # Differences as text

A script is shown in hunks: changed lines with a few kept ones around them. Lines that are added
start with a plus, lines that are removed with a minus, kept ones with a space. -/

namespace TableRoster.Drift

/-! ## Runs -/

/-- A run of a script: lines that are kept, or lines that are removed and then added. -/
inductive Run
  | kept (lines : List String)
  | changed (removed added : List String)
  deriving DecidableEq, Repr

/-- A run with one more edit in front, or a new run before it. -/
def pushEdit (e : Edit) (runs : List Run) : List Run :=
  match e, runs with
  | .keep l, .kept ls :: rs => .kept (l :: ls) :: rs
  | .keep l, rs => .kept [l] :: rs
  | .remove l, .changed old new :: rs => .changed (l :: old) new :: rs
  | .remove l, rs => .changed [l] [] :: rs
  | .add l, .changed [] new :: rs => .changed [] (l :: new) :: rs
  | .add l, rs => .changed [] [l] :: rs

def runsOf (es : List Edit) : List Run :=
  es.foldr pushEdit []

/-- A run where it stands: the number of lines before it on both sides. -/
structure Placed where
  old : Nat
  new : Nat
  run : Run
  deriving DecidableEq, Repr

namespace Placed

def oldLength (p : Placed) : Nat :=
  match p.run with
  | .kept ls => ls.length
  | .changed old _ => old.length

def newLength (p : Placed) : Nat :=
  match p.run with
  | .kept ls => ls.length
  | .changed _ new => new.length

def isKept (p : Placed) : Bool :=
  match p.run with
  | .kept _ => true
  | .changed .. => false

def last (n : Nat) (p : Placed) : Placed :=
  match p.run with
  | .kept ls => ⟨p.old + (ls.length - n), p.new + (ls.length - n), .kept (ls.drop (ls.length - n))⟩
  | _ => p

def first (n : Nat) (p : Placed) : Placed :=
  match p.run with
  | .kept ls => { p with run := .kept (ls.take n) }
  | _ => p

end Placed

def placeRuns (old new : Nat) : List Run → List Placed
  | [] => []
  | r :: rs =>
    let p : Placed := ⟨old, new, r⟩
    p :: placeRuns (old + p.oldLength) (new + p.newLength) rs

/-! ## Hunks -/

/-- Runs with only some lines of context at the start and at the end. -/
def trimContext (n : Nat) (ps : List Placed) : List Placed :=
  let front := match ps with
    | [] => []
    | p :: rest => p.last n :: rest
  match front.getLast? with
  | none => []
  | some p => front.dropLast ++ [p.first n]

/-- The hunks of runs, with the runs of the current hunk so far, reversed. A long run of kept lines
ends a hunk and starts the next. -/
def hunksFrom (n : Nat) (current : List Placed) : List Placed → List (List Placed)
  | [] => [current.reverse]
  | p :: ps =>
    if p.isKept ∧ 2 * n < p.oldLength then
      (p.first n :: current).reverse :: hunksFrom n [p.last n] ps
    else hunksFrom n (p :: current) ps

/-- A hunk that only keeps one run of lines shows nothing. -/
def isIdle (hunk : List Placed) : Bool :=
  match hunk with
  | [] => true
  | [p] => p.isKept
  | _ => false

/-- The hunks of a script with some lines of context. -/
def hunks (n : Nat) (es : List Edit) : List (List Placed) :=
  let all := hunksFrom n [] (trimContext n (placeRuns 0 0 (runsOf es)))
  match all.getLast? with
  | none => []
  | some h => if isIdle h then all.dropLast else all

/-! ## Lines -/

/-- The span of a hunk on one side. An empty span is told by the line before it. -/
def spanText (start length : Nat) : String :=
  if length = 1 then toString (start + 1)
  else if length = 0 then toString start ++ ",0"
  else toString (start + 1) ++ "," ++ toString length

def runLines : Run → List String
  | .kept ls => ls.map (" " ++ ·)
  | .changed old new => old.map ("-" ++ ·) ++ new.map ("+" ++ ·)

def hunkLines (hunk : List Placed) : List String :=
  let start (f : Placed → Nat) := (hunk.head?.map f).getD 0
  let length (f : Placed → Nat) := (hunk.map f).foldl Nat.add 0
  ("@@ -" ++ spanText (start (·.old)) (length (·.oldLength)) ++ " +"
    ++ spanText (start (·.new)) (length (·.newLength)) ++ " @@")
    :: hunk.flatMap fun p => runLines p.run

/-- The differences between old and new lines, with some lines of context; none if there are
none. -/
def unifiedLines (n : Nat) (old new : List String) : List String :=
  match hunks n (script old new) with
  | [] => []
  | hs => "--- persisted" :: "+++ expected" :: hs.flatMap hunkLines

def linesOf (text : String) : List String :=
  (Text.splitLines text.toList).map String.ofList

def unified (n : Nat) (old new : String) : List String :=
  unifiedLines n (linesOf old) (linesOf new)

/-- The lines that start with a mark, and not with three of it. -/
def countMarked (mark : Char) (lines : List String) : Nat :=
  lines.countP fun l => [mark].isPrefixOf l.toList && !([mark, mark, mark].isPrefixOf l.toList)

end TableRoster.Drift
