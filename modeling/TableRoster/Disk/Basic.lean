import TableRoster.Path

/-! # Disks

A disk is a finite map from places to what is there. A place is the row of names from the root on,
without links and without `..`; the root itself is always a folder. Where several entries have one
place, the first counts. -/

namespace TableRoster

/-- The names from the root on. -/
abbrev Place := List String

inductive Node
  | folder
  /-- A file, with the time of its last change in nanoseconds. -/
  | file (bytes : ByteArray) (modified : Int)
  | link (target : String)

instance : DecidableEq Node
  | .folder, .folder => isTrue rfl
  | .link s, .link t => decidable_of_decidable_of_iff (p := s = t) (by simp)
  | .file a s, .file b t =>
    decidable_of_decidable_of_iff (p := a.data = b.data ∧ s = t) (by simp [ByteArray.ext_iff])
  | .folder, .file .. | .folder, .link _ | .file .., .folder | .file .., .link _
  | .link _, .folder | .link _, .file .. => isFalse (by simp)

/-- All files, folders and links, the working folder, and the time of the next change. -/
structure Disk where
  nodes : List (Place × Node)
  here : Place
  now : Int

namespace Disk

def node? (d : Disk) (p : Place) : Option Node :=
  if p = [] then some .folder else (d.nodes.find? (·.1 = p)).map (·.2)

def put (d : Disk) (p : Place) (n : Node) : Disk :=
  { d with nodes := (p, n) :: d.nodes.filter (·.1 ≠ p) }

def erase (d : Disk) (p : Place) : Disk :=
  { d with nodes := d.nodes.filter (·.1 ≠ p) }

def namesIn (d : Disk) (p : Place) : List String :=
  d.nodes.filterMap fun e => if e.1.dropLast = p then e.1.getLast? else none

def linkCount (d : Disk) : Nat :=
  d.nodes.countP fun e => match e.2 with
    | .link _ => true
    | _ => false

def depth (d : Disk) : Nat :=
  (d.nodes.map (·.1.length)).foldl max 0

/-- The step from one time of change to the next: a millisecond. -/
def tick : Int := 1000000

def writeAt (d : Disk) (p : Place) (bytes : ByteArray) : Disk :=
  { d.put p (.file bytes d.now) with now := d.now + tick }

@[simp] theorem node?_root (d : Disk) : d.node? [] = some .folder := by simp [node?]

theorem find?_filter_ne (l : List (Place × Node)) {p q : Place} (h : q ≠ p) :
    (l.filter (·.1 ≠ p)).find? (·.1 = q) = l.find? (·.1 = q) := by
  induction l with
  | nil => rfl
  | cons e l ih =>
    by_cases hp : e.1 = p
    · have hq : ¬ e.1 = q := fun hq => h (hq ▸ hp)
      simpa [hp, hq, Ne.symm h] using ih
    · by_cases hq : e.1 = q
      · simp [hq, h]
      · simpa [hp, hq] using ih

theorem node?_put_self (d : Disk) {p : Place} (n : Node) (h : p ≠ []) :
    (d.put p n).node? p = some n := by
  simp [node?, put, h]

theorem node?_put_of_ne (d : Disk) {p q : Place} (n : Node) (h : q ≠ p) :
    (d.put p n).node? q = d.node? q := by
  simp only [node?, put]
  rw [List.find?_cons_of_neg (by simpa using Ne.symm h), find?_filter_ne _ h]

end Disk

end TableRoster
