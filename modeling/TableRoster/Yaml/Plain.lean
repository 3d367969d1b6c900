import TableRoster.Yaml.Cursor

/-! # Plain scalars -/

namespace TableRoster.Yaml

/-- Brackets and commas, which end a plain scalar within brackets. -/
def isFlowMark (c : Char) : Bool :=
  c == ',' || c == '[' || c == ']' || c == '\x7b' || c == '\x7d'

/-- A stretch of a plain scalar without blanks. A colon ends it if a gap follows. -/
def plainRun (inFlow : Bool) : List Char → List Char
  | [] => []
  | c :: r =>
    let after := r.head?.getD '\x00'
    if isWide c || (c == ':' && (isWide after || (inFlow && isFlowMark after)))
        || (inFlow && (isFlowMark c || c == '?')) then []
    else c :: plainRun inFlow r

/-- What stands between two stretches of a plain scalar. -/
structure Between where
  /-- The text that stands for it; nothing ends the scalar. -/
  text : List Char
  brokeLine : Bool
  rest : List Char

/-- Empty lines and spaces behind a line break; nothing if a separator comes. -/
def plainBreaks : (fuel : Nat) → List Char → Option (List Char) × List Char
  | 0, s => (some [], s)
  | fuel + 1, s =>
    match s with
    | [] => (some [], [])
    | c :: r =>
      if c = ' ' then plainBreaks fuel r
      else if isBreak c then
        let (b, r) := lineBreak s
        if isSeparator r then (none, r)
        else
          let (bs, r) := plainBreaks fuel r
          (bs.map (b ++ ·), r)
      else (some [], s)

/-- What comes behind a stretch of a plain scalar. -/
def between (s : List Char) : Between :=
  let spaces := s.takeWhile (· == ' ')
  let r := s.drop spaces.length
  match lineBreak r with
  | ([], _) => ⟨spaces, false, r⟩
  | (b, r) =>
    if isSeparator r then ⟨[], true, r⟩
    else
      match plainBreaks (r.length + 1) r with
      | (none, r) => ⟨[], true, r⟩
      | (some bs, r) => ⟨folded b bs, true, r⟩

/-- The text of a plain scalar, whether a line break comes last, and the cursor behind it. Outside
of brackets the lines that continue it are indented by `indent` at least. -/
def plainText (inFlow : Bool) (indent : Int) :
    (fuel : Nat) → (blanks : List Char) → (brokeLine : Bool) → Cursor → List Char × Bool × Cursor
  | 0, _, brokeLine, c => ([], brokeLine, c)
  | fuel + 1, blanks, brokeLine, c =>
    let text := if c.next == '#' then [] else plainRun inFlow c.rest
    if text = [] then ([], brokeLine, c)
    else
      let c := c.skip text.length
      let gap := between c.rest
      let c := c.upTo gap.rest
      if gap.text = [] ∨ c.next = '#' ∨ (!inFlow ∧ (c.column : Int) < indent) then
        (blanks ++ text, gap.brokeLine, c)
      else
        let (more, brokeLine, c) := plainText inFlow indent fuel gap.text gap.brokeLine c
        (blanks ++ text ++ more, brokeLine, c)

/-- A plain scalar within a given indentation, and whether a line break comes last. -/
def plainScalar (inFlow : Bool) (indent : Int) (c : Cursor) : String × Bool × Cursor :=
  let (text, brokeLine, c) := plainText inFlow (indent + 1) (c.rest.length + 1) [] false c
  (String.ofList text, brokeLine, c)

end TableRoster.Yaml
