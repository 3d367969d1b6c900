import TableRoster.Value

/-! # Values as keys

A mapping has one entry for each key. Numbers and flags are one key if they are equal as numbers,
whatever their form. -/

namespace TableRoster.Value

def whole? : Value → Option Int
  | .flag b => some (if b then 1 else 0)
  | .int n => some n
  | .float x => Decimal.whole? x
  | _ => none

/-- Two values are one key. -/
def sameKey : Value → Value → Bool
  | .null, .null => true
  | .text s, .text t => s == t
  | .bytes s, .bytes t => s == t
  | .date y m d, .date y' m' d' => y == y' && m == m' && d == d'
  | .time s, .time t => s.same t
  | .float x, .float y => x == y
  | .pair a b, .pair c d => sameKey a c && sameKey b d
  | v, w =>
    match v.whole?, w.whole? with
    | some m, some n => m == n
    | _, _ => false

/-- Sets the value of a key, in its place if it has one and at the end otherwise. -/
def putKey (entries : List (Value × Value)) (key value : Value) : List (Value × Value) :=
  if entries.any fun e => sameKey e.1 key then
    entries.map fun e => if sameKey e.1 key then (e.1, value) else e
  else entries ++ [(key, value)]

/-- The value of a text as key. -/
def get? (entries : List (Value × Value)) (key : String) : Option Value :=
  (entries.find? fun e => sameKey e.1 (.text key)).map (·.2)

end TableRoster.Value
