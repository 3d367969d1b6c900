import TableRoster.Yaml.Block
import TableRoster.Yaml.Plain
import TableRoster.Yaml.Property

/-! # From text to tokens

Indentation makes tokens of its own: where a block starts, and where it ends. A key may stand before
the colon that makes it one, so every place where a key could start is remembered until its line
ends. -/

namespace TableRoster.Yaml

structure KeyPlace where
  number : Nat
  /-- It starts a line of the current block, so that it has to be a key. -/
  required : Bool
  index : Nat
  line : Nat
  column : Nat

structure Lexer where
  cursor : Cursor
  flow : Nat
  /-- The column of the current block, and of those around it. -/
  indent : Int
  outer : List Int
  allowKey : Bool
  /-- Where keys may have started, for each number of open brackets. -/
  keys : List (Nat × KeyPlace)
  tokens : Array Token

namespace Lexer

def ofText (s : List Char) : Lexer :=
  ⟨.ofText s, 0, -1, [], true, [], #[]⟩

def push (l : Lexer) (t : Token) : Lexer :=
  { l with tokens := l.tokens.push t }

def insertAt (l : Lexer) (n : Nat) (t : Token) : Lexer :=
  { l with tokens := (l.tokens.extract 0 n).push t ++ l.tokens.extract n l.tokens.size }

def skip (l : Lexer) (n : Nat) : Lexer :=
  { l with cursor := l.cursor.skip n }

/-! ## Blanks -/

/-- A cursor at the next token, and whether a line has ended before it. -/
def skipBlanks : (fuel : Nat) → Cursor → Bool × Cursor
  | 0, c => (false, c)
  | fuel + 1, c =>
    let c := c.skipComment
    match lineBreak c.rest with
    | ([], _) => (false, c)
    | (_, rest) => (true, (skipBlanks fuel (c.upTo rest)).2)

/-- At the next token. Outside of brackets a key may start on a new line. -/
def toNext (l : Lexer) : Lexer :=
  let c := l.cursor
  let c := if c.index = 0 ∧ c.next = '\uFEFF' then c.step else c
  let (newLine, c) := skipBlanks (c.rest.length + 1) c
  { l with cursor := c, allowKey := l.allowKey || (newLine && l.flow == 0) }

/-! ## Keys -/

/-- A key cannot have started so far back. -/
def keyLimit : Nat := 1024

/-- Forgets places whose line has ended. -/
def dropStale (l : Lexer) : Except Fault Lexer :=
  let isStale (k : Nat × KeyPlace) : Bool :=
    k.2.line != l.cursor.line || k.2.index + keyLimit < l.cursor.index
  if l.keys.any fun k => isStale k && k.2.required then .error .malformed
  else .ok { l with keys := l.keys.filter fun k => !isStale k }

/-- Forgets the place within the current brackets. -/
def dropKey (l : Lexer) : Except Fault Lexer :=
  if l.keys.any fun k => k.1 == l.flow && k.2.required then .error .malformed
  else .ok { l with keys := l.keys.filter (·.1 != l.flow) }

/-- Remembers that a key may start here. -/
def noteKey (l : Lexer) : Except Fault Lexer :=
  if l.allowKey then do
    let l ← l.dropKey
    let c := l.cursor
    let place : KeyPlace :=
      ⟨l.tokens.size, l.flow == 0 && l.indent == c.column, c.index, c.line, c.column⟩
    pure { l with keys := l.keys ++ [(l.flow, place)] }
  else .ok l

/-! ## Blocks -/

/-- Ends the blocks that are indented by more than a column. -/
def unwind (column : Int) : (outer : List Int) → Lexer → Lexer
  | [], l => l
  | i :: is, l =>
    if l.flow = 0 ∧ column < l.indent then
      unwind column is { l.push .blockEnd with indent := i, outer := is }
    else l

/-- Ends blocks, for a token at a column. -/
def unwindTo (l : Lexer) (column : Int) : Lexer :=
  unwind column l.outer l

/-- Starts a block at a column, unless it has started before: the block's token goes before the
token with the given number. -/
def startBlock (l : Lexer) (column : Nat) (n : Nat) (t : Token) : Lexer :=
  if l.indent < column then
    { l.insertAt n t with indent := column, outer := l.indent :: l.outer }
  else l

/-! ## Tokens -/

/-- The end of all blocks, before something that belongs to the file as a whole. -/
def endBlocks (l : Lexer) : Except Fault Lexer := do
  let l ← (l.unwindTo (-1)).dropKey
  pure { l with allowKey := false }

def separator (l : Lexer) (t : Token) : Except Fault Lexer := do
  let l ← l.endBlocks
  pure ((l.push t).skip 3)

def openBracket (l : Lexer) (t : Token) : Except Fault Lexer := do
  let l ← l.noteKey
  pure { (l.push t).skip 1 with flow := l.flow + 1, allowKey := true }

def closeBracket (l : Lexer) (t : Token) : Except Fault Lexer := do
  let l ← l.dropKey
  if l.flow = 0 then .error .malformed
  else pure { (l.push t).skip 1 with flow := l.flow - 1, allowKey := false }

def comma (l : Lexer) : Except Fault Lexer := do
  let l ← l.dropKey
  pure { (l.push .comma).skip 1 with allowKey := true }

def item (l : Lexer) : Except Fault Lexer := do
  let l ←
    if l.flow = 0 then
      if l.allowKey then pure (l.startBlock l.cursor.column l.tokens.size .blockSequence)
      else .error .malformed
    else pure l
  let l ← l.dropKey
  pure { (l.push .item).skip 1 with allowKey := true }

def explicitKey (l : Lexer) : Except Fault Lexer := do
  let l ←
    if l.flow = 0 then
      if l.allowKey then pure (l.startBlock l.cursor.column l.tokens.size .blockMapping)
      else .error .malformed
    else pure l
  let l ← l.dropKey
  pure { (l.push .key).skip 1 with allowKey := l.flow == 0 }

/-- The colon of a value. What stands before it on its line is its key. -/
def value (l : Lexer) : Except Fault Lexer :=
  match l.keys.lookup l.flow with
  | some k =>
    let l := { l with keys := l.keys.filter (·.1 != l.flow) }
    let l := l.insertAt k.number .key
    let l := if l.flow = 0 then l.startBlock k.column k.number .blockMapping else l
    .ok { (l.push .value).skip 1 with allowKey := false }
  | none =>
    if l.flow = 0 ∧ !l.allowKey then .error .malformed
    else do
      let l := if l.flow = 0 then l.startBlock l.cursor.column l.tokens.size .blockMapping else l
      let l ← { l with allowKey := l.flow == 0 }.dropKey
      pure ((l.push .value).skip 1)

/-- Something that may be a key: an alias, an anchor, a tag or a quoted scalar. -/
def mayBeKey (l : Lexer) (read : Cursor → Except Fault (Token × Cursor)) : Except Fault Lexer := do
  let l ← l.noteKey
  let (t, c) ← read l.cursor
  pure { l.push t with cursor := c, allowKey := false }

def block (l : Lexer) (isFolded : Bool) : Except Fault Lexer := do
  let l ← l.dropKey
  let (text, c) ← blockScalar isFolded l.indent l.cursor
  pure { l.push (.scalar text false) with cursor := c, allowKey := true }

/-- A plain scalar. A key may follow it on a new line. -/
def plain (l : Lexer) : Except Fault Lexer := do
  let l ← l.noteKey
  let (text, brokeLine, c) := plainScalar (l.flow != 0) l.indent l.cursor
  pure { l.push (.scalar text true) with cursor := c, allowKey := brokeLine }

def quoted (double : Bool) (c : Cursor) : Except Fault (Token × Cursor) :=
  (quotedScalar double c).map fun p => (.scalar p.1 false, p.2)

def isIndicator (c : Char) : Bool :=
  isWide c || c ∈ ['-', '?', ':', ',', '[', ']', '\x7b', '\x7d', '#', '&', '*', '!', '|', '>',
    '\x27', '\x22', '%', '@', '\x60']

def startsPlain (l : Lexer) : Bool :=
  let c := l.cursor.next
  !isIndicator c
    || (!isWide (l.cursor.peek 1) && (c == '-' || (l.flow == 0 && (c == '?' || c == ':'))))

/-- One more token, for a lexer at its first character. -/
def token (l : Lexer) : Except Fault Lexer :=
  let c := l.cursor
  let gapFollows := isWide (c.peek 1)
  match c.next with
  | '%' => if c.column = 0 then do
      let l ← l.endBlocks
      let (t, c) ← directive l.cursor
      pure { l.push t with cursor := c }
    else .error .malformed
  | '[' => l.openBracket .flowSequence
  | '\x7b' => l.openBracket .flowMapping
  | ']' => l.closeBracket .flowSequenceEnd
  | '\x7d' => l.closeBracket .flowMappingEnd
  | ',' => l.comma
  | '*' => l.mayBeKey fun c => (anchorName c).map fun p => (.alias p.1, p.2)
  | '&' => l.mayBeKey fun c => (anchorName c).map fun p => (.anchor p.1, p.2)
  | '!' => l.mayBeKey tagToken
  | '|' => if l.flow = 0 then l.block false else .error .malformed
  | '>' => if l.flow = 0 then l.block true else .error .malformed
  | '\x27' => l.mayBeKey (quoted false)
  | '\x22' => l.mayBeKey (quoted true)
  | x =>
    if c.column = 0 ∧ isSeparator c.rest then
      l.separator (if x = '-' then .documentStart else .documentEnd)
    else if x = '-' ∧ gapFollows then l.item
    else if x = '?' ∧ (l.flow ≠ 0 ∨ gapFollows) then l.explicitKey
    else if x = ':' ∧ (l.flow ≠ 0 ∨ gapFollows) then l.value
    else if l.startsPlain then l.plain
    else .error .malformed

def run : (fuel : Nat) → Lexer → Except Fault (Array Token)
  | 0, _ => .error .malformed
  | fuel + 1, l => do
    let l ← l.toNext.dropStale
    let l := l.unwindTo l.cursor.column
    if l.cursor.rest = [] then
      let l ← l.endBlocks
      pure l.tokens
    else run fuel (← l.token)

end Lexer

def tokensOf (s : String) : Except Fault (Array Token) :=
  if s.toList.all isAllowed then (Lexer.ofText s.toList).run (s.length + 1) else .error .malformed

end TableRoster.Yaml
