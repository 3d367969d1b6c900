import TableRoster.Crash
import TableRoster.Pattern.Matching
import TableRoster.Pattern.Reading

/-! # Which symbols are included

A symbol that an exclude pattern matches is left out; any other is included if an include pattern
matches it. A pattern is read only when it is reached. -/

namespace TableRoster.Policy

/-- The crash of a text that is used as a pattern and is none. -/
def crashOf (f : Pattern.Fault) : Crash :=
  match f.cause with
  | .largeCount => .largeCount
  | .rivalAlphabets | .longCount _ => .badValue
  | _ => .badPattern

def anyFound (symbol : String) : List String → Except Crash Bool
  | [] => .ok false
  | p :: ps =>
    match Pattern.ofText p with
    | .error f => .error (crashOf f)
    | .ok q => if q.foundIn symbol then .ok true else anyFound symbol ps

def includes (included excluded : List String) (symbol : String) : Except Crash Bool := do
  if ← anyFound symbol excluded then pure false else anyFound symbol included

end TableRoster.Policy
