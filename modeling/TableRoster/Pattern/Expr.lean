/-! # Patterns for names

The expressions that a pattern is read into. Flags are resolved while a pattern is read, so every
part carries the way it compares letters. -/

namespace TableRoster.Pattern

/-- How letters are compared: as they are, or without regard to case. -/
inductive Folding
  | exact
  | ascii
  | unicode
  deriving DecidableEq, Repr

inductive CharKind
  | digit
  | blank
  | word
  deriving DecidableEq, Repr

/-- A member of a set. Code points are numbers because some name no character. -/
inductive Member
  | code (n : Nat)
  | range (lo hi : Nat)
  | kind (k : CharKind) (asciiOnly negated : Bool)
  deriving DecidableEq, Repr

inductive Test
  | any (lineFeedToo : Bool)
  | code (n : Nat) (negated : Bool)
  | set (members : List Member) (negated : Bool)
  deriving DecidableEq, Repr

/-- A condition on a place between two characters. -/
inductive Anchor
  | start
  | stop
  | lineStart
  | lineStop
  | lastLineStop
  | boundary (asciiOnly : Bool)
  | noBoundary (asciiOnly : Bool)
  deriving DecidableEq, Repr

/-- Whether a repetition takes much first, little first, or much without giving back. -/
inductive Greed
  | greedy
  | lazy
  | possessive
  deriving DecidableEq, Repr

/-- The least and the greatest number of characters of a match. -/
structure Width where
  least : Nat
  most : Nat
  deriving DecidableEq, Repr

inductive Expr
  | empty
  | one (test : Test) (folding : Folding)
  | anchor (a : Anchor)
  | seq (a b : Expr)
  | alt (a b : Expr)
  | loop (greed : Greed) (least : Nat) (most : Option Nat) (body : Expr)
  /-- A repetition where none is supported. -/
  | barredLoop (greed : Greed) (least : Nat) (most : Option Nat) (body : Expr)
  | capture (group : Nat) (body : Expr)
  | scope (body : Expr)
  | atomic (body : Expr)
  | ahead (negated : Bool) (body : Expr)
  | behind (negated : Bool) (body : Expr)
  | reference (group : Nat) (folding : Folding) (width : Width)
  | ifGroup (group : Nat) (yes no : Expr)
  deriving Repr

end TableRoster.Pattern

namespace TableRoster

/-- A whole pattern, and whether its alphabet is ASCII where it does not say otherwise. -/
structure Pattern where
  expr : Pattern.Expr
  asciiOnly : Bool

end TableRoster

namespace TableRoster.Pattern

/-! ## Widths -/

/-- No width is counted beyond this. -/
def Width.ceiling : Nat := 18446744073709551616

/-- The greatest number that a pattern can repeat, less one. -/
def unlimited : Nat := 4294967295

def Width.add (a b : Width) : Width :=
  ⟨min (a.least + b.least) ceiling, min (a.most + b.most) ceiling⟩

def Width.either (a b : Width) : Width :=
  ⟨min a.least b.least, max a.most b.most⟩

def Width.times (w : Width) (least : Nat) (most : Option Nat) : Width :=
  ⟨min (w.least * least) ceiling,
    match most with
    | none => if w.most = 0 then 0 else ceiling
    | some n => min (w.most * n) ceiling⟩

def Expr.width : Expr → Width
  | .empty | .anchor _ | .ahead .. | .behind .. => ⟨0, 0⟩
  | .one .. => ⟨1, 1⟩
  | .seq a b => a.width.add b.width
  | .alt a b => a.width.either b.width
  | .loop _ least most body | .barredLoop _ least most body => body.width.times least most
  | .capture _ body | .scope body | .atomic body => body.width
  | .reference _ _ w => w
  | .ifGroup _ yes no => yes.width.either no.width

end TableRoster.Pattern
