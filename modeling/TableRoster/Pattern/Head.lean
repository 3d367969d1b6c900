import TableRoster.Decimal.Reading
import TableRoster.Pattern.Cursor
import TableRoster.Text.Blank

/-! # What a parenthesis starts

Behind an opening parenthesis stands a group of some kind, a reference, a comment, or flags. -/

namespace TableRoster.Pattern

open Text

/-! ## Flags of a group -/

def flagOf? (sym : Symbol) : Option Flags :=
  match sym with
  | [c] => Flags.ofLetter? c
  | _ => none

def isLetterSymbol (sym : Symbol) : Bool :=
  match sym with
  | [c] => isLetter c
  | _ => false

/-- The flags that are turned on, and the symbol behind them. -/
def flagsOn : Nat → Flags → Symbol → Reading (Flags × Symbol)
  | 0, _, _ => fault .missingFlagEnd 0
  | n + 1, on, sym => do
    if sym = ['L'] then fault .byteFlag 0
    else
      let flag := (flagOf? sym).getD {}
      let all := on.union flag
      if flag.choosesAlphabet && all.ascii && all.unicode then fault .rivalFlags 0
      else match (← take) with
        | none => fault .missingFlagEnd 0
        | some next =>
          if next = [')'] ∨ next = ['-'] ∨ next = [':'] then pure (all, next)
          else if (flagOf? next).isSome then flagsOn n all next
          else fault (if isLetterSymbol next then .unknownFlag else .missingFlagEnd) next.length

/-- The flags that are turned off, up to the colon. -/
def flagsOff : Nat → Flags → Symbol → Reading Flags
  | 0, _, _ => fault .missingColon 0
  | n + 1, off, sym => do
    let flag := (flagOf? sym).getD {}
    if flag.choosesAlphabet || sym = ['L'] then fault .lastingFlag 0
    else
      let all := off.union flag
      match (← take) with
      | none => fault .missingColon 0
      | some next =>
        if next = [':'] then pure all
        else if (flagOf? next).isSome then flagsOff n all next
        else fault (if isLetterSymbol next then .unknownFlag else .missingColon) next.length

/-- What a flag group holds: flags for the whole pattern, or those it turns on and off within. -/
inductive FlagGroup
  | global (flags : Flags)
  | inner (on off : Flags)

/-- A flag group from its first flag or minus sign, which was just passed. -/
def flagGroup (sym : Symbol) : Reading FlagGroup := do
  let fuel := (← get).rest.length + 1
  let (on, next) ← if sym = ['-'] then pure ({}, sym) else flagsOn fuel {} sym
  if next = [')'] then pure (.global on)
  else if on.template then fault (.scopedGlobalFlag true) 1
  else
    let off ← if next = ['-'] then
        match (← take) with
        | none => fault .missingFlag 0
        | some first =>
          if (flagOf? first).isSome then flagsOff fuel {} first
          else fault (if isLetterSymbol first then .unknownFlag else .missingFlag) first.length
      else pure {}
    if off.template then fault (.scopedGlobalFlag false) 1
    else if (on.minus (on.minus off)) ≠ {} then fault .contradictoryFlag 1
    else pure (.inner on off)

/-! ## Group heads -/

/-- What comes behind an opening parenthesis. -/
inductive Head
  | capture (name : Option String)
  | scope (on off : Flags)
  | atomic
  | ahead (negated : Bool)
  | behind (negated : Bool)
  | condition (group : Nat)
  | reference (group : Nat)
  | global (flags : Flags)
  | comment

/-- A named group or a reference by name, from behind the `P`. -/
def namedHead : Reading Head := do
  if (← accept '<') then
    let name ← takeUntil '>' "group name"
    checkName name
    pure (.capture (some name))
  else if (← accept '=') then
    let name ← takeUntil ')' "group name"
    checkName name
    let s ← get
    match s.names.find? (·.1 == name) with
    | none => fault (.unknownName name) (name.length + 1)
    | some (_, group) =>
      if !s.closed group then fault .openReference (name.length + 1)
      else
        checkLookbehind group
        pure (.reference group)
  else
    match (← take) with
    | none => fault .unexpectedEnd 0
    | some sym => fault (.unknownExtension (String.ofList ('P' :: sym))) (sym.length + 2)

/-- The whole number that a text writes, blanks around it and low lines between digits allowed. -/
def wholeNumber? (s : List Char) : Option Int :=
  let t := trim s
  let (sign, digits) : Int × List Char := match t with
    | '-' :: r => (-1, r)
    | '+' :: r => (1, r)
    | r => (1, r)
  let groups := splitOn digits
  if (groups.all fun g => !g.isEmpty && g.all isDecimal)
      && groups.flatten.length ≤ Decimal.digitLimit then
    some (sign * (groups.flatten.foldl (fun n c => n * 10 + decimalValue c) 0 : Nat))
  else none
where
  /-- The parts between low lines. -/
  splitOn : List Char → List (List Char)
    | [] => [[]]
    | c :: r =>
      if c = '_' then [] :: splitOn r
      else match splitOn r with
        | [] => [[c]]
        | p :: ps => (c :: p) :: ps

/-- The greatest number a group can have, and one more. -/
def groupLimit : Nat := 1073741823

/-- A condition from behind its inner parenthesis. -/
def conditionHead : Reading Head := do
  let name ← takeUntil ')' "group name"
  let s ← get
  let group ← if isName name.toList then
      match s.names.find? (·.1 == name) with
      | none => fault (.unknownName name) (name.length + 1)
      | some (_, group) => pure group
    else match wholeNumber? name.toList with
      | some (.ofNat n) =>
        if n = 0 then fault .zeroReference (name.length + 1)
        else if n ≥ groupLimit then fault (.invalidReference n) (name.length + 1)
        else
          if s.conditions.all (·.1 ≠ n) then
            set { s with conditions := s.conditions ++ [(n, s.position - name.length - 1)] }
          pure n
      | _ => fault (.badNameCharacter name) (name.length + 1)
  checkLookbehind group
  pure (.condition group)

def skipComment (start : Nat) : Nat → Reading Unit
  | 0 => faultAt .unterminatedComment start
  | n + 1 => do
    match (← take) with
    | none => faultAt .unterminatedComment start
    | some sym => if sym = [')'] then pure () else skipComment start n

/-- What an opening parenthesis at a place starts. -/
def head (start : Nat) : Reading Head := do
  if !(← accept '?') then pure (.capture none)
  else
    match (← take) with
    | none => fault .unexpectedEnd 0
    | some ['P'] => namedHead
    | some [':'] => pure (.scope {} {})
    | some ['#'] =>
      skipComment start ((← get).rest.length + 1)
      pure .comment
    | some ['='] => pure (.ahead false)
    | some ['!'] => pure (.ahead true)
    | some ['<'] =>
      match (← take) with
      | none => fault .unexpectedEnd 0
      | some ['='] => pure (.behind false)
      | some ['!'] => pure (.behind true)
      | some sym => fault (.unknownExtension (String.ofList ('<' :: sym))) (sym.length + 2)
    | some ['('] => conditionHead
    | some ['>'] => pure .atomic
    | some sym =>
      if (flagOf? sym).isSome ∨ sym = ['-'] then
        match (← flagGroup sym) with
        | .global flags => pure (.global flags)
        | .inner on off => pure (.scope on off)
      else fault (.unknownExtension (String.ofList sym)) (sym.length + 1)

end TableRoster.Pattern
