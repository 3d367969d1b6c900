import TableRoster.Pattern.Expr
import TableRoster.Text.Blank
import TableRoster.Text.Case
import TableRoster.Text.Word

/-! # Searching for a pattern

The search tries alternatives from left to right and repetitions as their greed says, and goes back
to the last choice when what follows does not match. A repetition whose turn took no character is
not tried again from the same place. -/

namespace TableRoster.Pattern

open Text

/-! ## Single characters -/

def asciiLower (n : Nat) : Nat :=
  if 0x41 ≤ n && n ≤ 0x5A then n + 0x20 else n

def asciiCased (n : Nat) : Bool :=
  (0x41 ≤ n && n ≤ 0x5A) || (0x61 ≤ n && n ≤ 0x7A)

/-- The code points that a folding makes one with `n` before it is looked up. -/
def Folding.key (f : Folding) (n : Nat) : Nat :=
  match f with
  | .exact => n
  | .ascii => asciiLower n
  | .unicode => lowerCode n

/-- A code point that a folding tells from no other is compared as it is. -/
def Folding.cased (f : Folding) (n : Nat) : Bool :=
  match f with
  | .exact => false
  | .ascii => asciiCased n
  | .unicode => isCased n

/-- The keys that are equal to `n` under a folding. -/
def Folding.variants (f : Folding) (n : Nat) : List Nat :=
  match f with
  | .unicode => Text.variants n
  | _ => [n]

/-- The code points with this key. -/
def Folding.sources (f : Folding) (n : Nat) : List Nat :=
  match f with
  | .exact => [n]
  | .ascii => if 0x61 ≤ n && n ≤ 0x7A then [n, n - 0x20] else if asciiCased n then [] else [n]
  | .unicode => lowerSources n

def CharKind.holds (k : CharKind) (asciiOnly : Bool) (c : Char) : Bool :=
  match k with
  | .digit => if asciiOnly then c.isDigit else isDecimal c
  | .blank => if asciiOnly then c == ' ' || ('\t' ≤ c && c ≤ '\r') else isBlank c
  | .word => if asciiOnly then c == '_' || c.isAlphanum else isWord c

/-- A code point is equal to the character under a folding. -/
def sameCode (f : Folding) (n : Nat) (c : Char) : Bool :=
  if f.cased n then (f.variants (f.key n)).contains (f.key c.toNat) else c.toNat == n

def basicPlane : Nat := 0xFFFF

/-- A run of case pairs has a code point in a range. -/
def runMeets (lo hi : Nat) (run : CaseRun) : Bool :=
  let first := max lo run.first
  let aligned := first + (first - run.first) % run.step
  aligned ≤ min hi run.last

def rangeCased (f : Folding) (lo hi : Nat) : Bool :=
  match f with
  | .exact => false
  | .ascii => hi > basicPlane || (List.range 128).any fun n => lo ≤ n && n ≤ hi && asciiCased n
  | .unicode =>
    hi > basicPlane || lowerRuns.any (runMeets lo hi) || upperRuns.any (runMeets lo hi)
      || upperExpansions.any fun e => lo ≤ e.1 && e.1 ≤ hi

def Member.cased (f : Folding) : Member → Bool
  | .code n => n > basicPlane || f.cased n
  | .range lo hi => rangeCased f lo hi
  | .kind .. => false

/-- A member holds the code point as it is. -/
def Member.holds (c : Char) : Member → Bool
  | .code n => c.toNat == n
  | .range lo hi => lo ≤ c.toNat && c.toNat ≤ hi
  | .kind k asciiOnly negated => k.holds asciiOnly c != negated

/-- A member holds the key of a character, or a code point equal to it. Beyond the basic plane a
single code point is compared with the key as it is, and of a range both cases are tried. -/
def Member.holdsKey (f : Folding) (key : Nat) : Member → Bool
  | .code n => if n > basicPlane then key == n else (f.variants (f.key n)).contains key
  | .range lo hi =>
    ((f.variants key).flatMap f.sources).any (fun x => lo ≤ x && x ≤ min hi basicPlane)
      || (hi > basicPlane
        && ((lo ≤ key && key ≤ hi) || (lo ≤ upperCode key && upperCode key ≤ hi)))
  | .kind k asciiOnly negated => k.holds asciiOnly (Char.ofNat key) != negated

/-- A set holds a character. Case matters unless the set has a cased member. -/
def setHolds (f : Folding) (ms : List Member) (c : Char) : Bool :=
  if f != .exact && ms.any (·.cased f) then ms.any (·.holdsKey f (f.key c.toNat))
  else ms.any (·.holds c)

def Test.holds (f : Folding) (c : Char) : Test → Bool
  | .any lineFeedToo => lineFeedToo || c != '\n'
  | .code n negated => sameCode f n c != negated
  | .set ms negated => setHolds f ms c != negated

/-! ## Places -/

/-- A place in the searched text, and the spans of the groups matched so far, the last first. -/
structure Place where
  offset : Nat
  groups : List (Nat × Nat × Nat)

def Place.span? (p : Place) (group : Nat) : Option (Nat × Nat) :=
  (p.groups.find? (·.1 == group)).map (·.2)

def wordAt (s : Array Char) (asciiOnly : Bool) (i : Nat) : Bool :=
  match s[i]? with
  | some c => CharKind.word.holds asciiOnly c
  | none => false

def boundaryAt (s : Array Char) (asciiOnly : Bool) (i : Nat) : Bool :=
  (0 < i && wordAt s asciiOnly (i - 1)) != wordAt s asciiOnly i

/-- A condition holds at an offset. An empty text has neither a boundary nor a place that is
none. -/
def Anchor.holds (s : Array Char) (i : Nat) : Anchor → Bool
  | .start => i == 0
  | .stop => i == s.size
  | .lineStart => i == 0 || s[i - 1]? == some '\n'
  | .lineStop => i == s.size || s[i]? == some '\n'
  | .lastLineStop => i == s.size || (i + 1 == s.size && s[i]? == some '\n')
  | .boundary asciiOnly => s.size != 0 && boundaryAt s asciiOnly i
  | .noBoundary asciiOnly => s.size != 0 && !boundaryAt s asciiOnly i

/-- Two stretches of the text are equal under a folding. -/
def sameStretch (s : Array Char) (f : Folding) (i j : Nat) : Nat → Bool
  | 0 => true
  | n + 1 =>
    match s[i]?, s[j]? with
    | some a, some b => f.key a.toNat == f.key b.toNat && sameStretch s f (i + 1) (j + 1) n
    | _, _ => false

/-! ## Matching -/

/-- What is to match behind a place. -/
abbrev Rest := Place → Option Place

/-- A way to match at a place, with what is to match behind. -/
abbrev Matcher := Place → Rest → Option Place

def below (count : Nat) (most : Option Nat) : Bool :=
  match most with
  | none => true
  | some n => count < n

/-- Turns of a repetition, as many as possible first. `last` is where the last optional turn
started. -/
def greedyLoop (body : Matcher) (least : Nat) (most : Option Nat) (rest : Rest) :
    (turns count : Nat) → (last : Option Nat) → Place → Option Place
  | 0, _, _, p => rest p
  | n + 1, count, last, p =>
    if count < least then body p (greedyLoop body least most rest n (count + 1) last)
    else if below count most && last != some p.offset then
      body p (greedyLoop body least most rest n (count + 1) (some p.offset)) <|> rest p
    else rest p

/-- Turns of a repetition, as few as possible first. -/
def lazyLoop (body : Matcher) (least : Nat) (most : Option Nat) (rest : Rest) :
    (turns count : Nat) → (last : Option Nat) → Place → Option Place
  | 0, _, _, p => rest p
  | n + 1, count, last, p =>
    if count < least then body p (lazyLoop body least most rest n (count + 1) last)
    else rest p <|>
      if below count most && last != some p.offset then
        body p (lazyLoop body least most rest n (count + 1) (some p.offset))
      else none

/-- Turns of a repetition, each taken once and for all. -/
def possessiveLoop (body : Matcher) (least : Nat) (most : Option Nat) :
    (turns count : Nat) → Place → Option Place
  | 0, _, p => some p
  | n + 1, count, p =>
    if count < least then
      match body p some with
      | some q => possessiveLoop body least most n (count + 1) q
      | none => none
    else if below count most then
      match body p some with
      | some q =>
        if q.offset = p.offset then some q
        else possessiveLoop body least most n (count + 1) q
      | none => some p
    else some p

/-- How an expression matches in a text. -/
def Expr.matcher (s : Array Char) : Expr → Matcher
  | .empty => fun p rest => rest p
  | .one test f => fun p rest =>
    match s[p.offset]? with
    | some c => if test.holds f c then rest { p with offset := p.offset + 1 } else none
    | none => none
  | .anchor a => fun p rest => if a.holds s p.offset then rest p else none
  | .seq a b => fun p rest => a.matcher s p fun q => b.matcher s q rest
  | .alt a b => fun p rest => a.matcher s p rest <|> b.matcher s p rest
  | .loop greed least most body => fun p rest =>
    let turns := least + s.size + 2
    match greed with
    | .greedy => greedyLoop (body.matcher s) least most rest turns 0 none p
    | .lazy => lazyLoop (body.matcher s) least most rest turns 0 none p
    | .possessive => (possessiveLoop (body.matcher s) least most turns 0 p).bind rest
  | .barredLoop .. => fun _ _ => none
  | .capture g body => fun p rest =>
    body.matcher s p fun q => rest { q with groups := (g, p.offset, q.offset) :: q.groups }
  | .scope body => body.matcher s
  | .atomic body => fun p rest => (body.matcher s p some).bind rest
  | .ahead negated body => fun p rest =>
    match body.matcher s p some, negated with
    | some q, false => rest { q with offset := p.offset }
    | none, true => rest p
    | _, _ => none
  | .behind negated body => fun p rest =>
    let back := body.width.least
    let found :=
      if back ≤ p.offset then body.matcher s { p with offset := p.offset - back } some else none
    match found, negated with
    | some q, false => rest { q with offset := p.offset }
    | none, true => rest p
    | _, _ => none
  | .reference g f _ => fun p rest =>
    match p.span? g with
    | some (i, j) =>
      if sameStretch s f i p.offset (j - i) then rest { p with offset := p.offset + (j - i) }
      else none
    | none => none
  | .ifGroup g yes no => fun p rest =>
    if (p.span? g).isSome then yes.matcher s p rest else no.matcher s p rest

/-! ## Searching -/

/-- An expression that stands for no part at all. -/
def Expr.isVoid : Expr → Bool
  | .empty => true
  | .scope e => e.isVoid
  | .seq a b => a.isVoid && b.isVoid
  | _ => false

/-- The set that the first character of a match is in, if the expression starts with a set in which
case does not matter. -/
def Expr.opening? : Expr → Option (List Member × Bool)
  | .one (.set ms negated) f =>
    if ms.any (·.cased f) && f != .exact then none else some (ms, negated)
  | .seq a b => if a.isVoid then b.opening? else a.opening?
  | .capture _ e | .scope e => e.opening?
  | _ => none

/-- A member with its kind read in this alphabet. -/
def Member.inAlphabet (asciiOnly : Bool) : Member → Member
  | .kind k _ negated => .kind k asciiOnly negated
  | m => m

/-- A match may start at an offset. The set it starts with is read in the alphabet of the whole
pattern here, even if a group around it has another. -/
def mayStart (p : Pattern) (s : Array Char) (i : Nat) : Bool :=
  match p.expr.opening?, s[i]? with
  | some (ms, negated), some c =>
    p.expr.width.least == 0 || (ms.map (·.inAlphabet p.asciiOnly)).any (·.holds c) != negated
  | _, _ => true

def foundIn (p : Pattern) (text : String) : Bool :=
  let s := text.toList.toArray
  (List.range (s.size + 1)).any fun i =>
    p.mayStart s i && (p.expr.matcher s ⟨i, []⟩ some).isSome

end TableRoster.Pattern
