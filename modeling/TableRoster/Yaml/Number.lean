import TableRoster.Crash
import TableRoster.Decimal.Reading
import TableRoster.Text.Lines

/-! # Numbers of settings files -/

namespace TableRoster.Yaml.Number

/-- A text without low lines, and whether it is negative; there has to be a character. -/
def signed (s : List Char) : Except Crash (Bool × List Char) :=
  let s := s.filter (· ≠ '_')
  if s = [] then .error .noCharacter else .ok (Decimal.splitSign s)

def withSign (negative : Bool) (n : Int) : Int :=
  if negative then -n else n

/-- A number that has to be readable. -/
def readable (n : Option α) : Except Crash α :=
  match n with
  | some n => .ok n
  | none => .error .badValue

/-- The parts of a number in groups of sixty. -/
def groupsOf (s : List Char) : List (List Char) :=
  Text.splitAt ':' s

/-- The whole number of a text: binary, octal, decimal, hexadecimal, or in groups of sixty. -/
def int (text : List Char) : Except Crash Int := do
  let (negative, s) ← signed text
  let n ← match s with
    | [] => .error .noCharacter
    | ['0'] => pure 0
    | '0' :: 'b' :: r => readable (Decimal.readInt? 2 r)
    | '0' :: 'x' :: r => readable (Decimal.readInt? 16 r)
    | '0' :: r => readable (Decimal.readInt? 8 ('0' :: r))
    | s =>
      if ':' ∈ s then
        (groupsOf s).foldlM (fun n g => do pure (n * 60 + (← readable (Decimal.readInt? 10 g)))) 0
      else readable (Decimal.readInt? 10 s)
  pure (withSign negative n)

/-- The sum of parts in groups of sixty, the last part first. -/
def sixties : (base : Float) → (sum : Float) → List Float → Float
  | _, sum, [] => sum
  | base, sum, x :: xs => sixties (base * 60) (sum + x * base) xs

def float (text : List Char) : Except Crash Float := do
  let (negative, s) ← signed (text.map Char.toLower)
  let x ← if s = ".inf".toList then pure (1.0 / 0.0)
    else if s = ".nan".toList then pure (0.0 / 0.0)
    else if ':' ∈ s then do
      let xs ← (groupsOf s).mapM fun g => readable (Decimal.readFloat? g)
      pure (sixties 1 0 xs.reverse)
    else readable (Decimal.readFloat? s)
  pure (if negative then -x else x)

end TableRoster.Yaml.Number
