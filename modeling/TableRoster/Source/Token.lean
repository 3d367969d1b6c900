/-! # Tokens of a table module

A module is read only as far as its top-level bindings need: a token carries its text and where it
stands, and nothing of its meaning. -/

namespace TableRoster.Source

/-- The classes of tokens. Comments and blanks are no tokens; line breaks are. -/
inductive Kind
  | word
  | mark
  | string
  | template
  | regex
  | number
  | lineBreak
  deriving DecidableEq, Repr

/-- A token with its first and its end offset, in characters, and the line it starts on. -/
structure Token where
  kind : Kind
  text : String
  start : Nat
  stop : Nat
  line : Nat
  deriving DecidableEq, Repr

namespace Token

/-- A word or a mark with this text. -/
def is (t : Token) (text : String) : Bool :=
  (t.kind == .word || t.kind == .mark) && t.text == text

def isBreak (t : Token) : Bool :=
  t.kind == .lineBreak

def isMarkOf (t : Token) (texts : List String) : Bool :=
  t.kind == .mark && texts.contains t.text

def isWordOf (t : Token) (texts : List String) : Bool :=
  t.kind == .word && texts.contains t.text

def opens (t : Token) : Bool :=
  t.isMarkOf ["(", "[", "\x7b"]

def closes (t : Token) : Bool :=
  t.isMarkOf [")", "]", "\x7d"]

end Token

/-! ## Bracket depth -/

/-- The depth after one more token; a closing bracket at depth 0 changes nothing. -/
def Token.depthAfter (depth : Nat) (t : Token) : Nat :=
  if t.opens then depth + 1 else if t.closes then depth - 1 else depth

/-- The depth after some tokens, from the start of a module. -/
def depthOf (ts : List Token) : Nat :=
  ts.foldl Token.depthAfter 0

end TableRoster.Source
