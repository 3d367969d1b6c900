import TableRoster.Decimal.Reading
import TableRoster.Pattern.Escape

/-! # Sets and repetitions -/

namespace TableRoster.Pattern

/-! ## Sets -/

/-- A list without what stands in it earlier. -/
def distinct : List Member → List Member
  | [] => []
  | m :: ms => m :: (distinct ms).filter (· ≠ m)

/-- The member that a symbol of a set stands for. -/
def member (flags : Flags) (sym : Symbol) : Reading Member := do
  match sym with
  | ['\\', c] =>
    match (← setEscape c) with
    | .code n => pure (.code n)
    | .kind k negated => pure (.kind k flags.ascii negated)
    | _ => fault (.badEscape (String.ofList sym)) 2
  | c :: _ => pure (.code c.toNat)
  | [] => fault .unterminatedSet 0

/-- The members up to the closing bracket, with those read so far, reversed. -/
def members (flags : Flags) (here : Nat) : Nat → List Member → Reading (List Member)
  | 0, _ => faultAt .unterminatedSet here
  | n + 1, found => do
    match (← take) with
    | none => faultAt .unterminatedSet here
    | some sym =>
      if sym = [']'] ∧ !found.isEmpty then pure found.reverse
      else
        let first ← member flags sym
        if (← accept '-') then
          match (← take) with
          | none => faultAt .unterminatedSet here
          | some [']'] => pure (.code '-'.toNat :: first :: found).reverse
          | some last =>
            let second ← member flags last
            let bad : Reading (List Member) :=
              fault (.badRange (String.ofList sym) (String.ofList last))
                (sym.length + 1 + last.length)
            match first, second with
            | .code lo, .code hi =>
              if hi < lo then bad else members flags here n (.range lo hi :: found)
            | _, _ => bad
        else members flags here n (first :: found)

def characterSet (flags : Flags) : Reading Expr := do
  let here := (← position) - 1
  let negated ← accept '^'
  let ms := distinct (← members flags here ((← get).rest.length + 1) [])
  match ms with
  | [.code n] => pure (.one (.code n negated) flags.folding)
  | _ => pure (.one (.set ms negated) flags.folding)

/-! ## Repetitions -/

/-- How often, if a quantifier starts with this character. -/
inductive Count
  | plain
  | times (least : Nat) (most : Option Nat)

/-- The number that the digits of a bound write, if it can be counted. -/
def bound (digits : List Char) : Reading Nat :=
  if Decimal.digitLimit < digits.length then faultOf (.longCount digits.length)
  else
    let n := number 10 digits
    if n ≥ unlimited then faultOf .largeCount else pure n

/-- The bounds between braces, from behind the opening one. Braces that hold something else are
plain characters. -/
def bounds : Reading Count := do
  let here ← get
  if (← peek) = some ['\x7d'] then pure .plain
  else
    let lo ← takeWhile Char.isDigit here.rest.length
    let hi ← if (← accept ',') then takeWhile Char.isDigit here.rest.length else pure lo
    if !(← accept '\x7d') then
      set here
      pure .plain
    else
      let least ← bound lo
      if hi.isEmpty then pure (.times least none)
      else
        let most ← bound hi
        if most < least then faultAt .crossedBounds here.position
        else pure (.times least (some most))

/-- A quantifier, whose first character was just passed. -/
def count (c : Char) : Reading Count :=
  match c with
  | '?' => pure (.times 0 (some 1))
  | '*' => pure (.times 0 none)
  | '+' => pure (.times 1 none)
  | _ => bounds

def greed : Reading Greed := do
  if (← accept '?') then pure .lazy
  else if (← accept '+') then pure .possessive
  else pure .greedy

/-- The last of the parts so far, repeated. The quantifier started at a place. -/
def repeatLast (flags : Flags) (start least : Nat) (most : Option Nat) (parts : List Expr) :
    Reading (List Expr) := do
  match parts with
  | [] | .anchor _ :: _ => faultAt .nothingToRepeat start
  | .loop .. :: _ | .barredLoop .. :: _ => faultAt .repeatedRepeat start
  | part :: before =>
    let g ← greed
    pure ((if flags.template then .barredLoop g least most part else .loop g least most part) :: before)

end TableRoster.Pattern
