import TableRoster.Text.Lines

/-! # Paths

A path is a root and the names below it. Its text is simplified only as far as no file has to be
looked at: repeated slashes, `.` and a slash at the end go, `..` stays. -/

namespace TableRoster

/-- Where a path starts. Two slashes, and no more, are a root of their own. -/
inductive Root
  | none
  | slash
  | twoSlashes
  deriving DecidableEq, Repr

namespace Root

def text : Root → String
  | .none => ""
  | .slash => "/"
  | .twoSlashes => "//"

def ofText : List Char → Root
  | ['/', '/'] => .twoSlashes
  | '/' :: '/' :: c :: _ => if c = '/' then .slash else .twoSlashes
  | '/' :: _ => .slash
  | _ => .none

end Root

structure Path where
  root : Root
  parts : List String
  deriving DecidableEq, Repr

namespace Path

/-- The parts of a text between slashes, empty ones and `.` left out. -/
def partsOf (text : List Char) : List String :=
  ((Text.splitAt '/' text).map String.ofList).filter fun p => p ≠ "" ∧ p ≠ "."

def ofString (text : String) : Path :=
  ⟨Root.ofText text.toList, partsOf text.toList⟩

def text (p : Path) : String :=
  if p.root = .none ∧ p.parts = [] then "."
  else p.root.text ++ "/".intercalate p.parts

/-- A path that does not depend on a working folder. -/
def isAbsolute (p : Path) : Bool :=
  p.root != .none

/-- The path `q`, taken from `p` on if it is relative. -/
def join (p q : Path) : Path :=
  if q.isAbsolute then q else ⟨p.root, p.parts ++ q.parts⟩

def child (p : Path) (name : String) : Path :=
  ⟨p.root, p.parts ++ [name]⟩

def parent (p : Path) : Path :=
  ⟨p.root, p.parts.dropLast⟩

def name (p : Path) : String :=
  p.parts.getLast?.getD ""

/-- The names of `p` below `q`, if `p` starts like `q`. -/
def relativeTo? (p q : Path) : Option Path :=
  if p.root = q.root ∧ q.parts.isPrefixOf p.parts then
    some ⟨.none, p.parts.drop q.parts.length⟩
  else none

/-! ## Normal form -/

/-- The names from the root on, with every `..` taken back; above the root there is nothing. -/
def normalParts (parts : List String) : List String :=
  parts.foldl (fun done p => if p = ".." then done.dropLast else done ++ [p]) []

/-- The names of a path from the root on, in normal form, for a given working folder. -/
def absoluteParts (folder : List String) (p : Path) : List String :=
  normalParts (if p.isAbsolute then p.parts else folder ++ p.parts)

/-- The names that lead from one place to another: up to what they share, and down. -/
def between : (here there : List String) → List String
  | h :: hs, t :: ts =>
    if h = t then between hs ts else List.replicate (hs.length + 1) ".." ++ t :: ts
  | [], ts => ts
  | hs, [] => List.replicate hs.length ".."

/-! ## Order -/

/-- The parts that paths are ordered by, name by name. -/
def sortKey (p : Path) : List String :=
  if p.root = .none then p.parts else p.root.text :: p.parts

/-- One path comes before another or is the same. -/
def le (p q : Path) : Bool :=
  !decide (q.sortKey < p.sortKey)

def insert (p : Path) : List Path → List Path
  | [] => [p]
  | q :: qs => if p.le q then p :: q :: qs else q :: insert p qs

def sort (ps : List Path) : List Path :=
  ps.foldr insert []

end Path

end TableRoster
