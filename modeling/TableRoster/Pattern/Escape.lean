import TableRoster.Pattern.Cursor

/-! # Escapes -/

namespace TableRoster.Pattern

inductive Escape
  | code (n : Nat)
  | kind (k : CharKind) (negated : Bool)
  | anchor (a : Bool → Anchor)
  | reference (group : Nat)

def controlCode? : Char → Option Nat
  | 'a' => some 7
  | 'b' => some 8
  | 'f' => some 12
  | 'n' => some 10
  | 'r' => some 13
  | 't' => some 9
  | 'v' => some 11
  | '\\' => some 92
  | _ => none

/-- Kinds of characters with an escape of one letter; a capital negates. -/
def kindEscape? : Char → Option (CharKind × Bool)
  | 'd' => some (.digit, false)
  | 'D' => some (.digit, true)
  | 's' => some (.blank, false)
  | 'S' => some (.blank, true)
  | 'w' => some (.word, false)
  | 'W' => some (.word, true)
  | _ => none

/-- Conditions with an escape of one letter, by whether words are ASCII. -/
def anchorEscape? : Char → Option (Bool → Anchor)
  | 'A' => some fun _ => .start
  | 'Z' => some fun _ => .stop
  | 'b' => some .boundary
  | 'B' => some .noBoundary
  | _ => none

def isOctal (c : Char) : Bool :=
  '0' ≤ c && c ≤ '7'

def isHex (c : Char) : Bool :=
  c.isDigit || ('a' ≤ c && c ≤ 'f') || ('A' ≤ c && c ≤ 'F')

def hexValue (c : Char) : Nat :=
  if c.isDigit then c.toNat - '0'.toNat
  else if 'a' ≤ c then c.toNat - 'a'.toNat + 10
  else c.toNat - 'A'.toNat + 10

def number (base : Nat) (digits : List Char) : Nat :=
  digits.foldl (fun n c => n * base + hexValue c) 0

/-- An escape `\x`, `\u` or `\U` with exactly so many hexadecimal digits. -/
def hexEscape (letter : Char) (digits : Nat) : Reading Escape := do
  let ds ← takeWhile isHex digits
  let escape := '\\' :: letter :: ds
  if ds.length ≠ digits then
    fault (.incompleteEscape (String.ofList escape)) escape.length
  else if number 16 ds > 0x10FFFF then
    fault (.badEscape (String.ofList escape)) escape.length
  else pure (.code (number 16 ds))

/-- A character by its name in braces; no names are known. -/
def namedEscape : Reading Escape := do
  if !(← accept '\x7b') then fault (.missing "\x7b") 0
  else
    let name ← takeUntil '\x7d' "character name"
    fault (.unknownCharacterName name) (name.length + 4)

def octalEscape (digits : List Char) : Reading Escape :=
  if number 8 digits > 0o377 then
    fault (.largeOctal (String.ofList ('\\' :: digits))) (digits.length + 1)
  else pure (.code (number 8 digits))

/-- The escapes that are alike inside and outside of a set, but for those of digits. -/
def plainEscape (c : Char) : Reading Escape :=
  match c with
  | 'x' => hexEscape 'x' 2
  | 'u' => hexEscape 'u' 4
  | 'U' => hexEscape 'U' 8
  | 'N' => namedEscape
  | _ =>
    if c.isAlphanum then fault (.badEscape (String.ofList ['\\', c])) 2
    else pure (.code c.toNat)

/-- An escape inside a set, whose first character was just passed. -/
def setEscape (c : Char) : Reading Escape :=
  match controlCode? c, kindEscape? c with
  | some n, _ => pure (.code n)
  | none, some (k, negated) => pure (.kind k negated)
  | none, none => do
    if isOctal c then octalEscape (c :: (← takeWhile isOctal 2))
    else plainEscape c

def groupReference (digits : List Char) : Reading Escape := do
  let group := number 10 digits
  let s ← get
  if group ≤ s.groups.length then
    if !s.closed group then fault .openReference (digits.length + 1)
    else
      checkLookbehind group
      pure (.reference group)
  else fault (.invalidReference group) digits.length

/-- An escape outside of a set, whose first character was just passed. -/
def bodyEscape (c : Char) : Reading Escape :=
  match anchorEscape? c, kindEscape? c, controlCode? c with
  | some a, _, _ => pure (.anchor a)
  | none, some (k, negated), _ => pure (.kind k negated)
  | none, none, some n => pure (.code n)
  | none, none, none => do
    if c = '0' then octalEscape (c :: (← takeWhile isOctal 2))
    else if c.isDigit then
      let second ← takeWhile Char.isDigit 1
      if isOctal c && second.all isOctal && !second.isEmpty then
        let third ← takeWhile isOctal 1
        if third.isEmpty then groupReference (c :: second)
        else octalEscape (c :: second ++ third)
      else groupReference (c :: second)
    else plainEscape c

end TableRoster.Pattern
