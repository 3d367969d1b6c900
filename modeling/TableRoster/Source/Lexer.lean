import TableRoster.Source.Token
import TableRoster.Source.Literal

/-! # Reading tokens

A text is a row of elements, one behind the other: line breaks, blanks, comments, tokens and stray
characters. `Element.next` finds the first; `lex` goes through all of them and keeps the tokens. -/

namespace TableRoster.Source

open Text

/-! ## The first element -/

/-- What stands first in a text. -/
inductive Element
  | lineBreak
  | blank
  | comment
  | token (kind : Kind)
  | stray
  deriving DecidableEq

def blanks : List Char :=
  [' ', '\t', '\r', '\x0c', '\x0b', '\ufeff']

/-- The marks, each before any that it starts with. -/
def marks : List (List Char) :=
  ["=>", "===", "!==", "==", "!=", "<=", ">=", "??=", "??", "?.", "...", "&&=", "||=", "&&", "||",
    "**=", "**", "<<=", ">>>=", ">>=", "<<", ">>>", ">>", "++", "--", "-=", "+=", "*=", "/=", "%=",
    "&=", "|=", "^=", "\x7b", "\x7d", "(", ")", "[", "]", ";", ",", "<", ">", "=", "!", "?", ":",
    ".", "+", "-", "*", "/", "%", "&", "|", "^", "~", "@", "#"].map String.toList

/-- The first mark of the list that a text starts with. -/
def markAt? (s : List Char) : Option (List Char) :=
  marks.find? (·.isPrefixOf s)

def startsWord (c : Char) : Bool :=
  c == '$' || (isWord c && !isDecimal c)

def continuesWord (c : Char) : Bool :=
  c == '$' || isWord c

def continuesNumber (c : Char) : Bool :=
  c == '.' || isWord c

/-- A regular expression that starts here and closes on its line. -/
def regexAt? (allowed : Bool) (c : Char) (r : List Char) : Option (List Char) :=
  if c = '/' ∧ allowed then afterRegex false r else none

/-- The first element of the text `c :: r`, and what follows it. -/
def Element.next (regexAllowed : Bool) (c : Char) (r : List Char) : Element × List Char :=
  if c = '\n' then (.lineBreak, r)
  else if blanks.contains c then (.blank, r)
  else if c = '/' ∧ r.head? = some '/' then (.comment, afterLine r)
  else if c = '/' ∧ r.head? = some '*' then (.comment, afterComment r.tail)
  else if c = '\x27' ∨ c = '\x22' then (.token .string, afterString c r)
  else if c = '\x60' then (.token .template, afterTemplate [.template] r)
  else match regexAt? regexAllowed c r with
    | some rest => (.token .regex, rest)
    | none =>
      if startsWord c then (.token .word, r.dropWhile continuesWord)
      else if isDecimal c then (.token .number, r.dropWhile continuesNumber)
      else match markAt? (c :: r) with
        | some m => (.token .mark, r.drop (m.length - 1))
        | none => (.stray, r)

theorem Element.next_suffix (k : Bool) (c : Char) (r : List Char) : (Element.next k c r).2 <:+ r := by
  unfold Element.next
  split
  · exact List.suffix_rfl
  split
  · exact List.suffix_rfl
  split
  · exact afterLine_suffix r
  split
  · exact (afterComment_suffix _).trans (List.tail_suffix r)
  split
  · exact afterString_suffix c r
  split
  · exact afterTemplate_suffix _ r
  split
  · rename_i h
    unfold regexAt? at h
    split at h
    · exact afterRegex_suffix h
    · cases h
  split
  · exact List.dropWhile_suffix _
  split
  · exact List.dropWhile_suffix _
  split
  · exact List.drop_suffix _ _
  · exact List.suffix_rfl

/-! ## All tokens -/

/-- Where reading stands: the next character, its line, and the tokens before it that matter. -/
structure Reader where
  offset : Nat
  line : Nat
  last : Option Token
  /-- The last token that is no line break. -/
  solid : Option Token

namespace Reader

def start : Reader :=
  ⟨0, 1, none, none⟩

/-- Words after which a slash starts a regular expression. -/
def wordsBeforeRegex : List String :=
  ["return", "typeof", "case", "do", "else", "in", "instanceof", "new", "delete", "void", "throw",
    "yield", "await", "of"]

/-- A slash starts a regular expression unless the last token ends an operand. -/
def regexAllowed (rd : Reader) : Bool :=
  match rd.solid with
  | none => true
  | some t =>
    match t.kind with
    | .mark => !t.closes
    | .word => wordsBeforeRegex.contains t.text
    | _ => false

/-- A line break for this place, unless the last token is one already. -/
def breakToken? (rd : Reader) (text : List Char) : Option Token :=
  match rd.last with
  | some ⟨.lineBreak, _, _, _, _⟩ => none
  | _ => some ⟨.lineBreak, String.ofList (text.take 1), rd.offset, rd.offset + 1, rd.line⟩

/-- The token that an element with this text makes. A comment over several lines is a line
break. -/
def token? (rd : Reader) (e : Element) (text : List Char) : Option Token :=
  match e with
  | .lineBreak => rd.breakToken? text
  | .comment => if text.contains '\n' then rd.breakToken? text else none
  | .token k => some ⟨k, String.ofList text, rd.offset, rd.offset + text.length, rd.line⟩
  | _ => none

/-- The lines that an element ends. A line break hidden in a regular expression does not count. -/
def linesOf (e : Element) (text : List Char) : Nat :=
  if e = .token .regex then 0 else text.count '\n'

/-- The place behind an element with this text. -/
def advance (rd : Reader) (e : Element) (text : List Char) : Reader :=
  let t := rd.token? e text
  { offset := rd.offset + text.length
    line := rd.line + linesOf e text
    last := t.or rd.last
    solid := (t.filter fun t => !t.isBreak).or rd.solid }

end Reader

/-- What stands before `rest`, which is the end of `s`. -/
def upTo (s rest : List Char) : List Char :=
  s.take (s.length - rest.length)

theorem upTo_append {s rest : List Char} (h : rest <:+ s) : upTo s rest ++ rest = s := by
  obtain ⟨t, rfl⟩ := h
  simp [upTo]

def lex (rd : Reader) : List Char → List Token
  | [] => []
  | c :: r =>
    let found := Element.next rd.regexAllowed c r
    let text := upTo (c :: r) found.2
    (rd.token? found.1 text).toList ++ lex (rd.advance found.1 text) found.2
termination_by s => s.length
decreasing_by
  have := (Element.next_suffix rd.regexAllowed c r).length_le
  simp only [List.length_cons]
  omega

def tokens (source : String) : List Token :=
  lex Reader.start source.toList

end TableRoster.Source
