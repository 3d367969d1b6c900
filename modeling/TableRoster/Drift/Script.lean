/-! # Edit scripts

A script leads from old lines to new ones. The longest stretch that both have is kept, and what
stands before and behind it is treated alike; of several longest stretches the first is taken. -/

namespace TableRoster.Drift

inductive Edit
  | keep (line : String)
  | remove (line : String)
  | add (line : String)
  deriving DecidableEq, Repr

def oldLines : List Edit → List String
  | [] => []
  | .keep l :: es | .remove l :: es => l :: oldLines es
  | .add _ :: es => oldLines es

def newLines : List Edit → List String
  | [] => []
  | .keep l :: es | .add l :: es => l :: newLines es
  | .remove _ :: es => newLines es

/-! ## The longest common stretch -/

/-- A stretch of equal lines: where it starts on both sides, and its length. -/
structure Stretch where
  old : Nat
  new : Nat
  length : Nat
  deriving DecidableEq, Repr

/-- Lines that stand in a long text more often than in one of a hundred places do not lead to a
stretch. -/
def isCommon (size count : Nat) : Bool :=
  200 ≤ size && size / 100 + 1 < count

/-- The places of a line, unless it is too common. -/
def placesOf (lines : List String) (line : String) : List Nat :=
  let places := (lines.zipIdx.filter (·.1 = line)).map (·.2)
  if isCommon lines.length places.length then [] else places

/-- The lengths of the stretches that end at the places of a line, by the lengths of those that end
one line before. -/
def extend (ends : List (Nat × Nat)) (places : List Nat) : List (Nat × Nat) :=
  places.map fun j =>
    (j, (if j = 0 then 0 else ((ends.find? (·.1 = j - 1)).map (·.2)).getD 0) + 1)

/-- The better of a stretch and those that end at line `i`: a longer one wins. -/
def better (i : Nat) (best : Stretch) (ends : List (Nat × Nat)) : Stretch :=
  ends.foldl (fun b (j, n) => if b.length < n then ⟨i + 1 - n, j + 1 - n, n⟩ else b) best

/-- The best stretch of lines that are not too common, given the lines with their places. -/
def longest (inside : Nat → Bool) :
    (i : Nat) → (ends : List (Nat × Nat)) → Stretch → List (List Nat) → Stretch
  | _, _, best, [] => best
  | i, ends, best, places :: rest =>
    let ends := extend ends (places.filter inside)
    longest inside (i + 1) ends (better i best ends) rest

/-- A window on both sides, ends excluded. -/
structure Window where
  oldFrom : Nat
  oldTo : Nat
  newFrom : Nat
  newTo : Nat

/-- Both texts, and the places of each old line among the new ones. -/
structure Texts where
  old : Array String
  new : Array String
  places : Array (List Nat)

def Texts.same (t : Texts) (i j : Nat) : Bool :=
  match t.old[i]?, t.new[j]? with
  | some a, some b => a == b
  | _, _ => false

/-- A stretch with equal lines in front of it, within a window. -/
def growBack (t : Texts) (w : Window) : (fuel : Nat) → Stretch → Stretch
  | 0, s => s
  | n + 1, s =>
    if w.oldFrom < s.old ∧ w.newFrom < s.new ∧ t.same (s.old - 1) (s.new - 1) then
      growBack t w n ⟨s.old - 1, s.new - 1, s.length + 1⟩
    else s

/-- A stretch with equal lines behind it, within a window. -/
def growOn (t : Texts) (w : Window) : (fuel : Nat) → Stretch → Stretch
  | 0, s => s
  | n + 1, s =>
    if s.old + s.length < w.oldTo ∧ s.new + s.length < w.newTo
        ∧ t.same (s.old + s.length) (s.new + s.length) then
      growOn t w n ⟨s.old, s.new, s.length + 1⟩
    else s

def Texts.stretch (t : Texts) (w : Window) : Stretch :=
  let rows := (t.places.toList.drop w.oldFrom).take (w.oldTo - w.oldFrom)
  let best := longest (fun j => w.newFrom ≤ j && j < w.newTo) w.oldFrom []
    ⟨w.oldFrom, w.newFrom, 0⟩ rows
  growOn t w t.old.size (growBack t w t.old.size best)

/-! ## Scripts -/

def linesFrom (lines : Array String) (first last : Nat) : List String :=
  (lines.toList.drop first).take (last - first)

/-- A script for a window. A stretch is kept only if its lines are equal and it lies within the
window. -/
def Texts.scriptOf (t : Texts) : (fuel : Nat) → Window → List Edit
  | 0, w =>
    (linesFrom t.old w.oldFrom w.oldTo).map .remove ++ (linesFrom t.new w.newFrom w.newTo).map .add
  | n + 1, w =>
    let s := t.stretch w
    let kept := linesFrom t.old s.old (s.old + s.length)
    if 0 < s.length ∧ w.oldFrom ≤ s.old ∧ s.old + s.length ≤ w.oldTo ∧ w.newFrom ≤ s.new
        ∧ s.new + s.length ≤ w.newTo ∧ kept = linesFrom t.new s.new (s.new + s.length) then
      t.scriptOf n ⟨w.oldFrom, s.old, w.newFrom, s.new⟩ ++ kept.map .keep
        ++ t.scriptOf n ⟨s.old + s.length, w.oldTo, s.new + s.length, w.newTo⟩
    else
      (linesFrom t.old w.oldFrom w.oldTo).map .remove
        ++ (linesFrom t.new w.newFrom w.newTo).map .add

def script (old new : List String) : List Edit :=
  let t : Texts := ⟨old.toArray, new.toArray, (old.map (placesOf new)).toArray⟩
  t.scriptOf (old.length + 1) ⟨0, old.length, 0, new.length⟩

end TableRoster.Drift
