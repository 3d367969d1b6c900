import TableRoster.Yaml.Quoted
import TableRoster.Yaml.Token

/-! # Directives, anchors and tags -/

namespace TableRoster.Yaml

/-- A name of letters, digits, hyphens and underscores. -/
def nameText (c : Cursor) : Except Fault (String × Cursor) :=
  let name := c.run isNameChar
  if name = [] then .error .malformed else .ok (String.ofList name, c.skip name.length)

def anchorName (c : Cursor) : Except Fault (String × Cursor) := do
  let (name, c) ← nameText c.step
  if isWide c.next ∨ c.next ∈ ['?', ':', ',', ']', '\x7d', '%', '@', '\x60'] then pure (name, c)
  else .error .malformed

/-! ## Tags -/

def isTagChar (c : Char) : Bool :=
  isNameChar c || "-;/?:@&=+$,_.!~*\x27()[]".toList.contains c

/-- Bytes written as percent signs with two digits each, and what follows. -/
def percentBytes : (fuel : Nat) → List Char → Except Fault (List UInt8 × List Char)
  | fuel + 1, '%' :: r =>
    match r with
    | a :: b :: r =>
      match hexNumber? [a, b] with
      | some n => (percentBytes fuel r).map fun p => (n.toUInt8 :: p.1, p.2)
      | none => .error .malformed
    | _ => .error .malformed
  | _, s => .ok ([], s)

/-- The text of a tag, and what follows. -/
def tagChars : (fuel : Nat) → List Char → Except Fault (List Char × List Char)
  | 0, s => .ok ([], s)
  | fuel + 1, s =>
    match s with
    | [] => .ok ([], [])
    | c :: r =>
      if c = '%' then do
        let (bytes, r) ← percentBytes s.length s
        match String.fromUTF8? ⟨bytes.toArray⟩ with
        | none => .error .malformed
        | some text =>
          let (more, r) ← tagChars fuel r
          pure (text.toList ++ more, r)
      else if isTagChar c then (tagChars fuel r).map fun p => (c :: p.1, p.2)
      else .ok ([], s)

def tagText (c : Cursor) : Except Fault (String × Cursor) := do
  let (text, rest) ← tagChars (c.rest.length + 1) c.rest
  if rest.length = c.rest.length then .error .malformed
  else pure (String.ofList text, c.upTo rest)

/-- The handle of a tag: an exclamation mark, or a name between two of them. -/
def tagHandle (c : Cursor) : Except Fault (String × Cursor) :=
  if c.next ≠ '!' then .error .malformed
  else if c.peek 1 = ' ' then .ok ("!", c.step)
  else
    let name := c.step.run isNameChar
    if c.peek (name.length + 1) = '!' then
      .ok (String.ofList ('!' :: name ++ ['!']), c.skip (name.length + 2))
    else .error .malformed

def tagToken (c : Cursor) : Except Fault (Token × Cursor) := do
  let (token, c) ←
    if c.peek 1 = '<' then do
      let (text, c) ← tagText (c.skip 2)
      if c.next = '>' then pure (Token.tag none text, c.step) else .error .malformed
    else if isWide (c.peek 1) then pure (Token.tag none "!", c.step)
    else if '!' ∈ c.step.run (fun x => !isGap x) then do
      let (handle, c) ← tagHandle c
      let (text, c) ← tagText c
      pure (Token.tag (some handle) text, c)
    else do
      let (text, c) ← tagText c.step
      pure (Token.tag (some "!") text, c)
  if isGap c.next then pure (token, c) else .error .malformed

/-! ## Directives -/

def numberText (c : Cursor) : Except Fault (Nat × Cursor) :=
  let digits := c.run Char.isDigit
  if digits = [] then .error .malformed
  else .ok (digits.foldl (fun n d => n * 10 + (d.toNat - 0x30)) 0, c.skip digits.length)

/-- The version that a file is written for. -/
def versionToken (c : Cursor) : Except Fault (Token × Cursor) := do
  let (major, c) ← numberText c.skipSpaces
  if c.next ≠ '.' then .error .malformed
  else
    let (_, c) ← numberText c.step
    if isGap c.next then pure (.version major, c) else .error .malformed

/-- A handle and the text it stands for. -/
def handleToken (c : Cursor) : Except Fault (Token × Cursor) := do
  let (name, c) ← tagHandle c.skipSpaces
  if c.next ≠ ' ' then .error .malformed
  else
    let (front, c) ← tagText c.skipSpaces
    if isGap c.next then pure (.handle name front, c) else .error .malformed

/-- A directive, for a cursor at its percent sign. -/
def directive (c : Cursor) : Except Fault (Token × Cursor) := do
  let (name, c) ← nameText c.step
  if !isGap c.next then .error .malformed
  else
    let (token, c) ←
      if name = "YAML" then versionToken c
      else if name = "TAG" then handleToken c
      else pure (Token.otherDirective, c.skipWhile fun x => !isLineEnd x)
    let c := c.skipComment
    if isLineEnd c.next then pure (token, c.upTo (lineBreak c.rest).2) else .error .malformed

end TableRoster.Yaml
