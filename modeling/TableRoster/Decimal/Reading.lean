import TableRoster.Text.Blank
import TableRoster.Text.Word

/-! # Numbers as texts

Blanks around a number do not count, a sign may stand before it, and digits of any script are
digits. -/

namespace TableRoster.Decimal

/-- The value of a digit; letters are the digits from ten on. -/
def digitValue? (c : Char) : Option Nat :=
  if Text.isDecimal c then some (Text.decimalValue c)
  else if 'a' ≤ c ∧ c ≤ 'z' then some (c.toNat - 0x57)
  else if 'A' ≤ c ∧ c ≤ 'Z' then some (c.toNat - 0x37)
  else none

def digitsNumber? (base : Nat) (ds : List Char) : Option Nat :=
  if ds = [] then none
  else ds.foldlM (fun n d =>
    match digitValue? d with
    | some v => if v < base then some (n * base + v) else none
    | none => none) 0

/-- Whether there is a minus, and the text behind the sign. -/
def splitSign (s : List Char) : Bool × List Char :=
  match s with
  | '-' :: r => (true, r)
  | '+' :: r => (false, r)
  | s => (false, s)

def baseLetters (base : Nat) : List Char :=
  if base = 2 then ['b', 'B'] else if base = 8 then ['o', 'O']
  else if base = 16 then ['x', 'X'] else []

/-- Digits without the zero and letter that name their base. -/
def dropBase (base : Nat) (s : List Char) : List Char :=
  match s with
  | '0' :: l :: r => if l ∈ baseLetters base then r else s
  | s => s

/-- Decimal numbers have no more digits than this. -/
def digitLimit : Nat := 4300

def readInt? (base : Nat) (text : List Char) : Option Int :=
  let (negative, s) := splitSign (Text.trim text)
  let ds := dropBase base s
  if base = 10 ∧ digitLimit < ds.length then none
  else (digitsNumber? base ds).map fun n => if negative then -(n : Int) else n

/-! ## Floating-point numbers -/

/-- A text without low lines, each of which stands between two digits. -/
def dropLowLines : (before : Bool) → List Char → Option (List Char)
  | _, [] => some []
  | before, c :: r =>
    if c = '_' then
      match r with
      | d :: _ => if before ∧ Text.isDecimal d then dropLowLines false r else none
      | [] => none
    else (dropLowLines (Text.isDecimal c) r).map (c :: ·)

/-- The number `m * 10 ^ e`. Powers far beyond the largest and the smallest number are cut off. -/
def scaled (m : Nat) (e : Int) : Float :=
  let size : Int := (Nat.toDigits 10 m).length + e
  if m = 0 ∨ size < -400 then 0
  else if 400 < size then 1.0 / 0.0
  else Float.ofScientific m (e < 0) e.natAbs

def exponent? (s : List Char) : Option Int :=
  match s with
  | [] => some 0
  | e :: r =>
    let (negative, ds) := splitSign r
    if (e = 'e' ∨ e = 'E') ∧ ds.all Text.isDecimal then
      (digitsNumber? 10 ds).map fun n => if negative then -(n : Int) else n
    else none

def readUnsigned? (s : List Char) : Option Float :=
  let word := s.map Char.toLower
  if word = "inf".toList ∨ word = "infinity".toList then some (1.0 / 0.0)
  else if word = "nan".toList then some (0.0 / 0.0)
  else
    let whole := s.takeWhile Text.isDecimal
    let r := s.drop whole.length
    let (fraction, r) := match r with
      | '.' :: r => (r.takeWhile Text.isDecimal, r.dropWhile Text.isDecimal)
      | r => ([], r)
    match digitsNumber? 10 (whole ++ fraction), exponent? r with
    | some m, some e => some (scaled m (e - fraction.length))
    | _, _ => none

def readFloat? (text : List Char) : Option Float := do
  let s ← dropLowLines false (Text.trim text)
  let (negative, s) := splitSign s
  let x ← readUnsigned? s
  pure (if negative then -x else x)

end TableRoster.Decimal
