import TableRoster.Path
import TableRoster.Text.Find

/-! # Globs

A glob is a row of segments. Within a segment `*` stands for any text, `?` for any character and
`[…]` for a set; none of them crosses a slash. A segment `**` stands for any number of names. -/

namespace TableRoster.Glob

/-! ## Sets -/

/-- What a segment is made of. -/
inductive Element
  | star
  | anyChar
  | char (c : Char)
  | set (negated : Bool) (ranges : List (Char × Char))
  deriving DecidableEq, Repr

/-- The inside of a set up to its closing bracket, and what follows. A bracket at the front, also
behind an exclamation mark, belongs to the set. -/
def setBody? (s : List Char) : Option (List Char × List Char) :=
  let lead : Nat := match s with
    | '!' :: ']' :: _ => 2
    | '!' :: _ => 1
    | ']' :: _ => 1
    | _ => 0
  let body := s.take lead ++ (s.drop lead).takeWhile (· ≠ ']')
  match s.drop body.length with
  | ']' :: rest => some (body, rest)
  | _ => none

/-- The chunks of a set between the hyphens that make ranges. Between two such hyphens stand two
characters at least. -/
def chunks (skip : Nat) (s : List Char) : List (List Char) :=
  let before := s.take skip ++ (s.drop skip).takeWhile (· ≠ '-')
  match _h : s.drop before.length with
  | [] => [before]
  | _ :: rest =>
    if rest.isEmpty then [before, []] else before :: chunks 2 rest
termination_by s.length
decreasing_by
  have := congrArg List.length _h
  simp only [List.length_drop, List.length_cons] at this
  omega

/-- A hyphen at the end is a plain character. -/
def closeChunks : List (List Char) → List (List Char)
  | [] => []
  | [c, []] => [c ++ ['-']]
  | c :: cs => c :: closeChunks cs

/-- Joins chunks whose range would be empty, without the two ends of the range, from the last to
the first. -/
def joinEmptyRanges : List (List Char) → List (List Char)
  | [] => []
  | c :: cs =>
    match joinEmptyRanges cs with
    | [] => [c]
    | d :: ds =>
      match c.getLast?, d.head? with
      | some a, some b =>
        if b < a then (c.dropLast ++ d.tail) :: ds else c :: d :: ds
      | _, _ => c :: d :: ds

/-- The ranges of chunks: from the last character of each to the first of the next, and the other
characters by themselves. A hyphen with nothing in front of it makes no range. -/
def rangesOf : (start : Option Char) → List (List Char) → List (Char × Char)
  | _, [] => []
  | none, [] :: c :: cs => ('-', '-') :: rangesOf none (c :: cs)
  | start, [c] =>
    match start, c with
    | some a, b :: rest => (a, b) :: rest.map fun x => (x, x)
    | some a, [] => [(a, a)]
    | none, c => c.map fun x => (x, x)
  | start, c :: cs =>
    let inner := (match start with | some _ => c.tail | none => c).dropLast
    (match start, c.head? with | some a, some b => [(a, b)] | _, _ => [])
      ++ inner.map (fun x => (x, x)) ++ rangesOf c.getLast? cs

/-- The set that the inside of brackets writes. A set of nothing has no member; its negation has
all. -/
def setOf (body : List Char) : Element :=
  let cs :=
    if body.contains '-' then
      joinEmptyRanges (closeChunks (chunks (if body.head? = some '!' then 2 else 1) body))
    else [body]
  match cs with
  | ('!' :: c) :: rest => .set true (rangesOf none (c :: rest))
  | _ => .set false (rangesOf none cs)

/-! ## Segments -/

/-- The elements of a segment. A bracket that is not closed is a plain character. -/
def elements (s : List Char) : List Element :=
  match s with
  | [] => []
  | '*' :: r => .star :: elements r
  | '?' :: r => .anyChar :: elements r
  | '[' :: r =>
    match setBody? r with
    | some (body, _) => setOf body :: elements (r.drop (body.length + 1))
    | none => .char '[' :: elements r
  | c :: r => .char c :: elements r
termination_by s.length
decreasing_by
  all_goals simp only [List.length_cons, List.length_drop]; omega

/-- An element that stands for one character holds it. -/
def Element.holds (c : Char) : Element → Bool
  | .star => false
  | .anyChar => true
  | .char d => c == d
  | .set negated ranges => (ranges.any fun r => r.1 ≤ c && c ≤ r.2) != negated

def matchElements : List Element → List Char → Bool
  | [], s => s.isEmpty
  | .star :: es, s => (Text.suffixes s).any (matchElements es)
  | _ :: _, [] => false
  | e :: es, c :: s => e.holds c && matchElements es s

def matchName (segment name : String) : Bool :=
  matchElements (elements segment.toList) name.toList

/-! ## Paths -/

def matchNames : (segments names : List String) → Bool
  | [], names => names.isEmpty
  | s :: ss, names =>
    if s = "**" then (Text.suffixes names).any (matchNames ss)
    else match names with
      | [] => false
      | n :: ns => matchName s n && matchNames ss ns

/-- The text between outer slashes, split at the inner ones. -/
def splitSlashes (s : List Char) : List String :=
  let inner := ((s.dropWhile (· = '/')).reverse.dropWhile (· = '/')).reverse
  (Text.splitAt '/' inner).map String.ofList

def turned (glob : String) : List Char :=
  glob.toList.map fun c => if c = '\\' then '/' else c

/-- A glob excludes a path below a root: one that starts with a slash is matched against the path
itself, any other against what is below the root. -/
def excludes (root path : Path) (glob : String) : Bool :=
  let pattern := turned glob
  let target := if pattern.head? = some '/' then path else (path.relativeTo? root).getD path
  matchNames (splitSlashes pattern) (splitSlashes target.text.toList)

def isExcluded (root path : Path) (globs : List String) : Bool :=
  globs.any (excludes root path)

end TableRoster.Glob
