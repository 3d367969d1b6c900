import TableRoster.Yaml.Cursor

/-! # Quoted scalars -/

namespace TableRoster.Yaml

def hexValue? (c : Char) : Option Nat :=
  if c.isDigit then some (c.toNat - 0x30)
  else if 'a' ≤ c ∧ c ≤ 'f' then some (c.toNat - 0x57)
  else if 'A' ≤ c ∧ c ≤ 'F' then some (c.toNat - 0x37)
  else none

def hexNumber? (cs : List Char) : Option Nat :=
  cs.foldlM (fun n c => (hexValue? c).map (n * 16 + ·)) 0

/-- The character that a letter behind a backslash stands for. -/
def escapes : List (Char × Char) :=
  [('0', '\x00'), ('a', '\x07'), ('b', '\x08'), ('t', '\t'), ('\t', '\t'), ('n', '\n'),
    ('v', '\x0b'), ('f', '\x0c'), ('r', '\r'), ('e', '\x1b'), (' ', ' '), ('\x22', '\x22'),
    ('\\', '\\'), ('/', '/'), ('N', '\u0085'), ('_', '\u00a0'), ('L', '\u2028'), ('P', '\u2029')]

/-- The number of digits behind a letter that starts a code point. -/
def codeWidth? (c : Char) : Option Nat :=
  if c = 'x' then some 2 else if c = 'u' then some 4 else if c = 'U' then some 8 else none

/-- The character of a code point. A surrogate by itself is none; the null character, which no path
may hold either, stands for it. -/
def charOf (n : Nat) : Except Fault Char :=
  if n.isValidChar then .ok (Char.ofNat n)
  else if n < 0x110000 then .ok '\x00'
  else if n < 0x80000000 then .error (.crash .badValue)
  else .error (.crash .largeCount)

/-- The empty lines behind a line break within quotes, and what follows the blanks of the next
line. -/
def emptyLines : (fuel : Nat) → List Char → Except Fault (List Char × List Char)
  | 0, _ => .error .malformed
  | fuel + 1, s =>
    if isSeparator s then .error .malformed
    else
      let r := s.dropWhile fun c => c == ' ' || c == '\t'
      match lineBreak r with
      | ([], _) => .ok ([], r)
      | (b, r) => (emptyLines fuel r).map fun p => (b ++ p.1, p.2)

/-- The text of blanks and line breaks within quotes, and what follows. -/
def quotedBlanks (s : List Char) : Except Fault (List Char × List Char) :=
  let blanks := s.takeWhile fun c => c == ' ' || c == '\t'
  let r := s.drop blanks.length
  if r = [] then .error .malformed
  else
    match lineBreak r with
    | ([], _) => .ok (blanks, r)
    | (b, r) => (emptyLines (r.length + 1) r).map fun p => (folded b p.1, p.2)

/-- The text of an escape behind its backslash, and what follows. -/
def escape (s : List Char) : Except Fault (List Char × List Char) :=
  match s with
  | [] => .error .malformed
  | c :: r =>
    match escapes.lookup c, codeWidth? c with
    | some x, _ => .ok ([x], r)
    | none, some n =>
      match if n ≤ r.length then hexNumber? (r.take n) else none with
      | some code => (charOf code).map fun x => ([x], r.drop n)
      | none => .error .malformed
    | none, none =>
      match lineBreak s with
      | ([], _) => .error .malformed
      | (_, r) => emptyLines (r.length + 1) r

/-- The text up to a closing quote, and what follows. Between double quotes a backslash starts an
escape; between single quotes two quotes stand for one. -/
def quotedText (double : Bool) : (fuel : Nat) → List Char → Except Fault (List Char × List Char)
  | 0, _ => .error .malformed
  | fuel + 1, s =>
    let quote := if double then '\x22' else '\x27'
    match s with
    | [] => .error .malformed
    | c :: r =>
      if c = quote then
        if !double ∧ r.head? = some quote then
          (quotedText double fuel r.tail).map fun p => (quote :: p.1, p.2)
        else .ok ([], r)
      else if double ∧ c = '\\' then do
        let (text, r) ← escape r
        let (more, r) ← quotedText double fuel r
        pure (text ++ more, r)
      else if c = ' ' ∨ c = '\t' ∨ isBreak c then do
        let (text, r) ← quotedBlanks s
        let (more, r) ← quotedText double fuel r
        pure (text ++ more, r)
      else (quotedText double fuel r).map fun p => (c :: p.1, p.2)

def quotedScalar (double : Bool) (c : Cursor) : Except Fault (String × Cursor) := do
  let (text, rest) ← quotedText double (c.rest.length + 1) c.rest.tail
  pure (String.ofList text, c.upTo rest)

end TableRoster.Yaml
