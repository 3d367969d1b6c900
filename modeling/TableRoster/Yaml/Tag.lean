import TableRoster.Yaml.Moment

/-! # Tags

A tag says what kind of value a node stands for. A plain scalar without a tag gets one by its
form. -/

namespace TableRoster.Yaml

/-- What a node stands for. -/
inductive Tag
  | null
  | flag
  | int
  | float
  | binary
  | time
  | orderedMap
  | pairs
  | set
  | text
  | list
  | map
  /-- The key whose value is merged into its mapping. -/
  | merge
  /-- The key of the value that a mapping stands for. -/
  | value
  | other
  deriving DecidableEq, Repr

namespace Tag

/-- The front of the tags that have a meaning here. -/
def front : String := "tag:yaml.org,2002:"

def names : List (String × Tag) :=
  [("null", .null), ("bool", .flag), ("int", .int), ("float", .float), ("binary", .binary),
    ("timestamp", .time), ("omap", .orderedMap), ("pairs", .pairs), ("set", .set), ("str", .text),
    ("seq", .list), ("map", .map), ("merge", .merge), ("value", .value)]

def ofText (s : String) : Tag :=
  if front.toList.isPrefixOf s.toList then
    (names.lookup (String.ofList (s.toList.drop front.length))).getD .other
  else .other

/-! ## Forms of plain scalars -/

/-- The rest of a text behind the characters of a class. -/
def behind (p : Char → Bool) (s : List Char) : List Char :=
  s.dropWhile p

def isDigit (c : Char) : Bool :=
  c.isDigit

/-- A digit below a base, or an underscore. -/
def isDigitBelow (base : Nat) (c : Char) : Bool :=
  c == '_' || (c.isDigit && c.toNat - 0x30 < base)
    || (base == 16 && (('a' ≤ c && c ≤ 'f') || ('A' ≤ c && c ≤ 'F')))

def unsigned (s : List Char) : List Char :=
  match s with
  | '+' :: r | '-' :: r => r
  | s => s

/-- One group or more of a colon and one or two digits, the first of two below six; and what
follows. -/
def sixties : (fuel : Nat) → List Char → Option (List Char)
  | 0, _ => none
  | fuel + 1, s =>
    match s with
    | ':' :: a :: b :: r =>
      if '0' ≤ a ∧ a ≤ '5' ∧ isDigit b then some ((sixties fuel r).getD r)
      else if isDigit a then some ((sixties fuel (b :: r)).getD (b :: r))
      else none
    | [':', a] => if isDigit a then some [] else none
    | _ => none

/-- The form of a whole number: binary, octal, decimal, hexadecimal, or in groups of sixty. -/
def isInt (s : List Char) : Bool :=
  match unsigned s with
  | ['0'] => true
  | '0' :: 'b' :: c :: r => (c :: r).all (isDigitBelow 2)
  | '0' :: 'x' :: c :: r => (c :: r).all (isDigitBelow 16)
  | '0' :: r => r.all (isDigitBelow 8)
  | c :: r =>
    isDigit c && match behind (isDigitBelow 10) r with
      | [] => true
      | r => sixties r.length r == some []
  | [] => false

def isExponent (s : List Char) : Bool :=
  match s with
  | e :: sign :: d :: r =>
    (e == 'e' || e == 'E') && (sign == '+' || sign == '-') && (d :: r).all isDigit
  | _ => false

def isFloat (s : List Char) : Bool :=
  let ends (r : List Char) : Bool := r == [] || isExponent r
  let startsDigit (r : List Char) : Bool := (r.head?.map isDigit).getD false
  let u := unsigned s
  let whole := startsDigit u && match behind (isDigitBelow 10) u with
    | '.' :: r => ends (behind (isDigitBelow 10) r)
    | r => match sixties r.length r with
      | some ('.' :: r) => r.all (isDigitBelow 10)
      | _ => false
  let fraction := match s with
    | '.' :: r => startsDigit r && ends (behind (isDigitBelow 10) r)
    | _ => false
  whole || fraction || u ∈ [".inf".toList, ".Inf".toList, ".INF".toList]
    || s ∈ [".nan".toList, ".NaN".toList, ".NAN".toList]

def flagWords : List String :=
  ["yes", "Yes", "YES", "no", "No", "NO", "true", "True", "TRUE", "false", "False", "FALSE", "on",
    "On", "ON", "off", "Off", "OFF"]

def ofPlain (s : String) : Tag :=
  -- A line break at the end does not count.
  let cs := s.toList
  let cs := if cs.getLast? = some '\n' then cs.dropLast else cs
  let text := String.ofList cs
  if s = "" then .null
  else if cs = [] then .text
  else if text ∈ flagWords then .flag
  else if isFloat cs then .float
  else if isInt cs then .int
  else if text = "<<" then .merge
  else if text ∈ ["~", "null", "Null", "NULL"] then .null
  else if ((Moment.ofText? cs).map Moment.isPlain).getD false then .time
  else if text = "=" then .value
  else .text

end Tag

end TableRoster.Yaml
