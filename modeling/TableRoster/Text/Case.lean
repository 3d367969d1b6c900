import TableRoster.Text.CaseTable

/-! # Changing case -/

namespace TableRoster.Text

namespace CaseRun

def holds (run : CaseRun) (n : Nat) : Bool :=
  run.first ≤ n && n ≤ run.last && (n - run.first) % run.step == 0

def partner (run : CaseRun) (n : Nat) : Nat :=
  (Int.ofNat n + run.shift).toNat

/-- The code point of the run whose partner is `n`, if there is one. -/
def source? (run : CaseRun) (n : Nat) : Option Nat :=
  let m := (Int.ofNat n - run.shift).toNat
  if run.holds m && run.partner m == n then some m else none

end CaseRun

/-- A code point through a table of runs; one in no run stays. -/
def convert (runs : List CaseRun) (n : Nat) : Nat :=
  match runs.find? (·.holds n) with
  | some run => run.partner n
  | none => n

/-- The single lower-case partner of a code point. -/
def lowerCode (n : Nat) : Nat :=
  convert lowerRuns n

/-- The single upper-case partner of a code point. -/
def upperCode (n : Nat) : Nat :=
  convert upperRuns n

/-- The upper case of a character, which may be several characters. -/
def upper (c : Char) : List Char :=
  match upperExpansions.find? (·.1 == c.toNat) with
  | some (_, codes) => codes.map Char.ofNat
  | none => [Char.ofNat (upperCode c.toNat)]

def isCased (n : Nat) : Bool :=
  lowerCode n != n || upperCode n != n || upperExpansions.any (·.1 == n)

/-- The lower-case code points that share the upper case of `n`, itself included. -/
def variants (n : Nat) : List Nat :=
  match caseVariants.find? (·.contains n) with
  | some group => group
  | none => [n]

/-- The code points whose lower case is `n`. -/
def lowerSources (n : Nat) : List Nat :=
  (if lowerCode n == n then [n] else []) ++ lowerRuns.filterMap (·.source? n)

end TableRoster.Text
