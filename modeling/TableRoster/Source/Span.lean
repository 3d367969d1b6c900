import TableRoster.Source.Token

/-! # Spans of tokens

Where a bracket group, a type and an expression end. Line breaks are tokens because they may end an
expression: whether one does depends on its two neighbours, so tokens are taken together with
these. -/

namespace TableRoster.Source

structure Placed where
  before : Option Token
  token : Token
  after : Option Token

/-- The tokens of a row, each with its neighbours; `before` stands in front of the row. -/
def place (before : Option Token) : List Token → List Placed
  | [] => []
  | t :: ts => ⟨before, t, ts.head?⟩ :: place (some t) ts

/-- The first token of a row is this word or mark. -/
def nextIs (ps : List Placed) (text : String) : Bool :=
  match ps with
  | [] => false
  | p :: _ => p.token.is text

/-- A row from its first token on that is no line break. -/
def skipBreaks (ps : List Placed) : List Placed :=
  ps.dropWhile (·.token.isBreak)

/-! ## Line breaks -/

def marksBeforeMore : List String :=
  ["=", "+", "-", "*", "/", "%", "&", "|", "^", "!", "~", "?", ":", ",", ".", "?.", "(", "[",
    "\x7b", "<", ">", "=>", "&&", "||", "??", "**", "==", "===", "!=", "!==", "<=", ">=", "<<",
    ">>", ">>>", "..."]

def wordsBeforeMore : List String :=
  ["new", "typeof", "await", "in", "instanceof", "as", "satisfies", "extends", "keyof", "void",
    "delete", "yield"]

def marksAfterMore : List String :=
  [".", "?.", ")", "]", "\x7d", "?", ":", "+", "-", "*", "/", "%", "&", "|", "^", "=", "==", "===",
    "!=", "!==", "<", ">", "<=", ">=", "&&", "||", "??", "=>", "(", "[", "**", ","]

def wordsAfterMore : List String :=
  ["as", "satisfies", "in", "instanceof"]

/-- The number of type argument lists that a mark closes. -/
def closedAngles (t : Token) : Nat :=
  if t.isMarkOf [">", ">>", ">>>"] then t.text.length else 0

namespace Placed

/-- The token in front of a line break asks for more. In a type, a closing angle does not. -/
def asksForMore (inType : Bool) (p : Placed) : Bool :=
  match p.before with
  | none => false
  | some t =>
    !(inType && closedAngles t > 0) && (t.isMarkOf marksBeforeMore || t.isWordOf wordsBeforeMore)

/-- The token behind a line break goes on with what stands in front. -/
def goesOn (p : Placed) : Bool :=
  match p.after with
  | none => false
  | some t => t.isMarkOf marksAfterMore || t.kind == .template || t.isWordOf wordsAfterMore

/-- A line break within an expression, or within a type. At the end of the module there is none. -/
def continuesLine (inType : Bool) (p : Placed) : Bool :=
  p.after.isSome && (p.asksForMore inType || p.goesOn)

/-- A token that is the first of a statement. -/
def startsStatement (p : Placed) : Bool :=
  match p.before with
  | none => true
  | some t => t.isBreak || t.isMarkOf [";", "\x7d"]

end Placed

/-! ## Groups, types, expressions

Each function splits a row of tokens into what belongs to the span and what follows it. -/

/-- A group from behind its opening bracket, at a given depth, to its closing bracket. -/
def splitGroup (depth : Nat) : List Placed → List Token × List Placed
  | [] => ([], [])
  | p :: ps =>
    let more (d : Nat) := let s := splitGroup d ps; (p.token :: s.1, s.2)
    if p.token.opens then more (depth + 1)
    else if p.token.closes then if depth ≤ 1 then ([p.token], ps) else more (depth - 1)
    else more depth

/-- A type, at given depths of brackets and angles. -/
def splitType (depth angles : Nat) : List Placed → List Token × List Placed
  | [] => ([], [])
  | p :: ps =>
    let more (d a : Nat) := let s := splitType d a ps; (p.token :: s.1, s.2)
    if p.token.opens then more (depth + 1) angles
    else if p.token.closes then if depth = 0 then ([], p :: ps) else more (depth - 1) angles
    else if p.token.isMarkOf ["<"] then more depth (angles + 1)
    else if closedAngles p.token > 0 then more depth (angles - closedAngles p.token)
    else if depth = 0 ∧ angles = 0 ∧ p.token.isMarkOf ["=", ",", ";"] then ([], p :: ps)
    else if depth = 0 ∧ angles = 0 ∧ p.token.isBreak ∧ !p.continuesLine true then ([], p :: ps)
    else more depth angles

/-- An expression, at a given depth of brackets. -/
def splitExpression (depth : Nat) : List Placed → List Token × List Placed
  | [] => ([], [])
  | p :: ps =>
    let more (d : Nat) := let s := splitExpression d ps; (p.token :: s.1, s.2)
    if p.token.opens then more (depth + 1)
    else if p.token.closes then if depth = 0 then ([], p :: ps) else more (depth - 1)
    else if depth = 0 ∧ p.token.isMarkOf [",", ";"] then ([], p :: ps)
    else if depth = 0 ∧ p.token.isBreak ∧ !p.continuesLine false then ([], p :: ps)
    else more depth

/-! ## A span and its rest are the row -/

theorem splitGroup_append (d : Nat) (ps : List Placed) :
    (splitGroup d ps).1 ++ (splitGroup d ps).2.map Placed.token = ps.map Placed.token := by
  induction ps generalizing d with
  | nil => rfl
  | cons p ps ih => simp only [splitGroup]; split <;> (try split) <;> (try split) <;> simp [ih]

theorem splitGroup_suffix (d : Nat) (ps : List Placed) : (splitGroup d ps).2 <:+ ps := by
  induction ps generalizing d with
  | nil => exact List.suffix_rfl
  | cons p ps ih =>
    simp only [splitGroup]
    repeat' split
    all_goals first
      | exact (ih _).trans (List.suffix_cons _ _)
      | exact List.suffix_cons _ _

theorem splitType_suffix (d a : Nat) (ps : List Placed) : (splitType d a ps).2 <:+ ps := by
  induction ps generalizing d a with
  | nil => exact List.suffix_rfl
  | cons p ps ih =>
    simp only [splitType]
    repeat' split
    all_goals first
      | exact (ih _ _).trans (List.suffix_cons _ _)
      | exact List.suffix_rfl

theorem splitExpression_suffix (d : Nat) (ps : List Placed) : (splitExpression d ps).2 <:+ ps := by
  induction ps generalizing d with
  | nil => exact List.suffix_rfl
  | cons p ps ih =>
    simp only [splitExpression]
    repeat' split
    all_goals first
      | exact (ih _).trans (List.suffix_cons _ _)
      | exact List.suffix_rfl

theorem skipBreaks_suffix (ps : List Placed) : skipBreaks ps <:+ ps :=
  List.dropWhile_suffix _

end TableRoster.Source
