import TableRoster.Crash

/-! # Reading settings files

A settings file is read from the front. A cursor knows what is left and where it stands. -/

namespace TableRoster.Yaml

inductive Fault
  | malformed
  | crash (c : Crash)
  deriving DecidableEq, Repr

/-! ## Characters -/

def isBreak (c : Char) : Bool :=
  c == '\n' || c == '\r' || c == '\u0085' || c == '\u2028' || c == '\u2029'

/-- The end of a line or of the text, which reads as a zero character. -/
def isLineEnd (c : Char) : Bool :=
  c == '\x00' || isBreak c

/-- The end of a line or of the text, or a space. -/
def isGap (c : Char) : Bool :=
  c == ' ' || isLineEnd c

/-- The end of a line or of the text, a space, or a tab. -/
def isWide (c : Char) : Bool :=
  c == '\t' || isGap c

def isNameChar (c : Char) : Bool :=
  c.isAlphanum || c == '-' || c == '_'

def isAllowed (c : Char) : Bool :=
  let n := c.toNat
  n == 0x9 || n == 0xa || n == 0xd || (0x20 ≤ n && n ≤ 0x7e) || n == 0x85
    || (0xa0 ≤ n && n ≤ 0xd7ff) || (0xe000 ≤ n && n ≤ 0xfffd) || 0x10000 ≤ n

/-! ## Cursors -/

structure Cursor where
  rest : List Char
  index : Nat
  line : Nat
  column : Nat

namespace Cursor

def ofText (s : List Char) : Cursor :=
  ⟨s, 0, 0, 0⟩

/-- A character that is left, or a zero character behind the end. -/
def peek (c : Cursor) (n : Nat) : Char :=
  (c.rest[n]?).getD '\x00'

def next (c : Cursor) : Char :=
  c.peek 0

/-- One character further. A mark of byte order has no width. -/
def step (c : Cursor) : Cursor :=
  match c.rest with
  | [] => c
  | x :: r =>
    if isBreak x && !(x == '\r' && r.head? == some '\n') then ⟨r, c.index + 1, c.line + 1, 0⟩
    else ⟨r, c.index + 1, c.line, if x = '\uFEFF' then c.column else c.column + 1⟩

def skip (c : Cursor) : (n : Nat) → Cursor
  | 0 => c
  | n + 1 => c.step.skip n

/-- Further, up to what is left of the text. -/
def upTo (c : Cursor) (rest : List Char) : Cursor :=
  c.skip (c.rest.length - rest.length)

def run (c : Cursor) (p : Char → Bool) : List Char :=
  c.rest.takeWhile p

/-- Behind the characters of a class. -/
def skipWhile (c : Cursor) (p : Char → Bool) : Cursor :=
  c.skip (c.run p).length

def skipSpaces (c : Cursor) : Cursor :=
  c.skipWhile (· == ' ')

def skipComment (c : Cursor) : Cursor :=
  let c := c.skipSpaces
  if c.next == '#' then c.skipWhile (fun x => !isLineEnd x) else c

end Cursor

/-! ## Line breaks -/

/-- The line break that comes next, as it is kept, and what follows it. -/
def lineBreak (s : List Char) : List Char × List Char :=
  match s with
  | '\r' :: '\n' :: r => (['\n'], r)
  | x :: r =>
    if x == '\u2028' || x == '\u2029' then ([x], r)
    else if isBreak x then (['\n'], r)
    else ([], s)
  | [] => ([], [])

/-- A line that separates documents comes next. -/
def isSeparator (s : List Char) : Bool :=
  (['-', '-', '-'].isPrefixOf s || ['.', '.', '.'].isPrefixOf s) && isWide ((s[3]?).getD '\x00')

/-- The text of a folded line break: a plain one is a space, unless empty lines follow. -/
def folded (first others : List Char) : List Char :=
  if first ≠ ['\n'] then first ++ others else if others = [] then [' '] else others

end TableRoster.Yaml
