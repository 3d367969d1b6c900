import TableRoster.Yaml.Cursor

/-! # Block scalars -/

namespace TableRoster.Yaml

/-- What happens to the line breaks at the end of a block scalar. -/
inductive Ending
  | strip
  | clip
  | keep
  deriving DecidableEq, Repr

def endingOf? (c : Char) : Option Ending :=
  if c = '+' then some .keep else if c = '-' then some .strip else none

def widthOf? (c : Char) : Option Nat :=
  if c.isDigit then some (c.toNat - 0x30) else none

/-- The signs behind the mark of a block scalar: an ending and an indentation, in any order. -/
def blockSigns (c : Cursor) : Except Fault (Ending × Option Nat × Cursor) :=
  let found : Ending × Option Nat × Cursor :=
    match endingOf? c.next, widthOf? c.next with
    | some e, _ =>
      match widthOf? (c.peek 1) with
      | some n => (e, some n, c.skip 2)
      | none => (e, none, c.step)
    | none, some n =>
      match endingOf? (c.peek 1) with
      | some e => (e, some n, c.skip 2)
      | none => (.clip, some n, c.step)
    | none, none => (.clip, none, c)
  if found.2.1 = some 0 ∨ !isGap found.2.2.next then .error .malformed else .ok found

/-- Behind the rest of a line, which holds nothing but a comment. -/
def endLine (c : Cursor) : Except Fault Cursor :=
  let c := c.skipComment
  if isLineEnd c.next then .ok (c.upTo (lineBreak c.rest).2) else .error .malformed

/-- Leading empty lines, the largest indentation among them, and the cursor behind them. -/
def leadingLines : (fuel : Nat) → (breaks : List Char) → (width : Nat) → Cursor →
    List Char × Nat × Cursor
  | 0, breaks, width, c => (breaks, width, c)
  | fuel + 1, breaks, width, c =>
    if c.next = ' ' then
      let c := c.step
      leadingLines fuel breaks (max width c.column) c
    else if isBreak c.next then
      let (b, rest) := lineBreak c.rest
      leadingLines fuel (breaks ++ b) width (c.upTo rest)
    else (breaks, width, c)

def indentTo (column : Nat) (c : Cursor) : Cursor :=
  c.skip (min (column - c.column) (c.run (· == ' ')).length)

/-- Empty lines within an indentation, and the cursor at the text of the next line. -/
def emptyBlockLines (indent : Nat) : (fuel : Nat) → Cursor → List Char × Cursor
  | 0, c => ([], c)
  | fuel + 1, c =>
    let c := indentTo indent c
    if isBreak c.next then
      let (b, rest) := lineBreak c.rest
      let (bs, c) := emptyBlockLines indent fuel (c.upTo rest)
      (b ++ bs, c)
    else ([], c)

/-- The lines of a block scalar from its first line of text on: the text up to the last line, the
line break behind that, and the empty lines behind that. -/
def blockLines (isFolded : Bool) (indent : Nat) :
    (fuel : Nat) → Cursor → List Char × List Char × List Char × Cursor
  | 0, c => ([], [], [], c)
  | fuel + 1, c =>
    let isBlank (x : Char) : Bool := x == ' ' || x == '\t'
    let startsBlank := isBlank c.next
    let text := c.run fun x => !isLineEnd x
    let c := c.skip text.length
    let (b, rest) := lineBreak c.rest
    let (bs, c) := emptyBlockLines indent (rest.length + 1) (c.upTo rest)
    if c.column = indent ∧ c.next ≠ '\x00' then
      let joint :=
        if isFolded ∧ b = ['\n'] ∧ !startsBlank ∧ !isBlank c.next then
          if bs = [] then [' '] else []
        else b
      let (more, last, breaks, c) := blockLines isFolded indent fuel c
      (text ++ joint ++ bs ++ more, last, breaks, c)
    else (text, b, bs, c)

/-- A block scalar within a given indentation, for a cursor at its mark. -/
def blockScalar (isFolded : Bool) (outer : Int) (c : Cursor) : Except Fault (String × Cursor) := do
  let (ending, width, c) ← blockSigns c.step
  let c ← endLine c
  let least := max 1 (outer + 1).toNat
  let (breaks, indent, c) := match width with
    | none =>
      let (bs, widest, c) := leadingLines (c.rest.length + 1) [] 0 c
      (bs, max least widest, c)
    | some n =>
      let (bs, c) := emptyBlockLines (least + n - 1) (c.rest.length + 1) c
      (bs, least + n - 1, c)
  if c.column = indent ∧ c.next ≠ '\x00' then
    let (text, last, trailing, c) := blockLines isFolded indent (c.rest.length + 1) c
    let close := match ending with
      | .strip => []
      | .clip => last
      | .keep => last ++ trailing
    pure (String.ofList (breaks ++ text ++ close), c)
  else
    pure (String.ofList (if ending = .keep then breaks else []), c)

end TableRoster.Yaml
