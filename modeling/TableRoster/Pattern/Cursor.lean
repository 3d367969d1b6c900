import TableRoster.Pattern.Flags
import TableRoster.Pattern.Fault
import TableRoster.Text.Name

/-! # Reading a pattern symbol by symbol

A pattern is read from left to right in symbols: a character, or a backslash with the character it
escapes. A backslash at the end of the pattern is a fault as soon as the symbol before it is
taken. -/

namespace TableRoster.Pattern

open Text

/-- Where reading stands, and what is known of the groups so far. -/
structure Cursor where
  rest : List Char
  position : Nat
  flags : Flags
  /-- The widths of the groups from the first; an open group has none. -/
  groups : List (Option Width)
  names : List (String × Nat)
  /-- The number of the first group that the outermost enclosing look-behind defines. -/
  lookbehind : Option Nat
  /-- The groups that conditions name by number, with the places. -/
  conditions : List (Nat × Nat)

/-- Reading changes the cursor and may find a fault. -/
abbrev Reading := StateT Cursor (Except Fault)

/-- A character, or a backslash with the character it escapes. -/
abbrev Symbol := List Char

/-- A fault so many characters before the cursor. -/
def fault (cause : Cause) (back : Nat) : Reading α := fun s =>
  .error ⟨cause, some (s.position - back)⟩

def faultAt (cause : Cause) (position : Nat) : Reading α := fun _ =>
  .error ⟨cause, some position⟩

/-- A fault of the pattern as a whole. -/
def faultOf (cause : Cause) : Reading α := fun _ =>
  .error ⟨cause, none⟩

def peek : Reading (Option Symbol) := fun s =>
  .ok (match s.rest with
    | [] => none
    | '\\' :: c :: _ => some ['\\', c]
    | c :: _ => some [c], s)

def position : Reading Nat := fun s => .ok (s.position, s)

/-- The cursor at a place with this text before it. A lone backslash is a fault. -/
def settle (s : Cursor) (rest : List Char) (position : Nat) : Except Fault Cursor :=
  if rest = ['\\'] then .error ⟨.loneBackslash, some position⟩
  else .ok { s with rest, position }

/-- The next symbol, which is passed. -/
def take : Reading (Option Symbol) := do
  let c ← peek
  match c with
  | none => pure none
  | some sym =>
    let s ← get
    set (← (settle s (s.rest.drop sym.length) (s.position + sym.length) : Except Fault Cursor))
    pure (some sym)

/-- Passes the next symbol if it is this character. -/
def accept (c : Char) : Reading Bool := do
  if (← peek) = some [c] then
    let _ ← take
    pure true
  else pure false

/-- The characters of a kind that come next, at most so many; they are passed. -/
def takeWhile (p : Char → Bool) : (most : Nat) → Reading (List Char)
  | 0 => pure []
  | n + 1 => do
    match (← peek) with
    | some [c] =>
      if p c then
        let _ ← take
        return c :: (← takeWhile p n)
      else pure []
    | _ => pure []

/-- The text before a terminator, which is passed too. -/
def takeUntil (terminator : Char) (what : String) : Reading String := do
  go terminator what ((← get).rest.length + 1) []
where
  /-- With the text passed so far, reversed. -/
  go (terminator : Char) (what : String) : Nat → List Char → Reading String
    | 0, _ => fault (.missing what) 0
    | n + 1, found => do
      match (← take) with
      | none =>
        if found.isEmpty then fault (.missing what) 0
        else fault (.unterminatedName terminator) found.length
      | some sym =>
        if sym = [terminator] then
          if found.isEmpty then fault (.missing what) 1
          else pure (String.ofList found.reverse)
        else go terminator what n (sym.reverse ++ found)

/-! ## Groups -/

def Cursor.closed (s : Cursor) (group : Nat) : Bool :=
  match s.groups[group - 1]? with
  | some (some _) => true
  | _ => false

def Cursor.widthOf (s : Cursor) (group : Nat) : Width :=
  match s.groups[group - 1]? with
  | some (some w) => w
  | _ => ⟨0, 0⟩

/-- Within a look-behind only groups from before it can be referred to. -/
def checkLookbehind (group : Nat) : Reading Unit := do
  let s ← get
  match s.lookbehind with
  | none => pure ()
  | some first =>
    if !s.closed group then fault .openReference 0
    else if first ≤ group then fault .lookbehindReference 0
    else pure ()

/-- Opens the next group and gives its number. -/
def openGroup (name : Option String) : Reading Nat := do
  let s ← get
  let group := s.groups.length + 1
  match name with
  | none => set { s with groups := s.groups ++ [none] }
  | some x =>
    match s.names.find? (·.1 == x) with
    | some (_, earlier) => fault (.redefinedName x group earlier) (x.length + 1)
    | none => set { s with groups := s.groups ++ [none], names := s.names ++ [(x, group)] }
  pure group

def closeGroup (group : Nat) (w : Width) : Reading Unit :=
  modify fun s => { s with groups := s.groups.set (group - 1) (some w) }

/-- A name that was just read with its terminator has the form of a name. -/
def checkName (name : String) : Reading Unit :=
  if isName name.toList then pure () else fault (.badNameCharacter name) (name.length + 1)

end TableRoster.Pattern
