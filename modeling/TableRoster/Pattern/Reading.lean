import TableRoster.Pattern.Piece
import TableRoster.Pattern.Head

/-! # Reading patterns

`Pattern.ofText` reads a whole pattern, or says what is wrong with it and where. -/

namespace TableRoster.Pattern

/-! ## Expressions -/

def sequence (parts : List Expr) : Expr :=
  match parts with
  | [] => .empty
  | p :: ps => ps.foldl (fun e q => .seq q e) p

def setMembers? : Expr → Option (List Member)
  | .one (.code n false) _ => some [.code n]
  | .one (.set ms false) _ => some ms
  | _ => none

/-- Alternatives; if each tests a single character they are one set. -/
def alternatives (flags : Flags) (es : List Expr) : Expr :=
  match es with
  | [] => .empty
  | [e] => e
  | e :: rest =>
    match es.mapM setMembers? with
    | some mss => .one (.set (distinct mss.flatten) false) flags.folding
    | none => .alt e (joinAlt rest)
where
  joinAlt : List Expr → Expr
    | [] => .empty
    | [e] => e
    | e :: es => .alt e (joinAlt es)

/-- Passes the closing parenthesis of a group that started at a place. -/
def close (start : Nat) : Reading Unit := do
  if !(← accept ')') then faultAt .unterminatedGroup start

/-- The part that an escape outside of a set stands for. -/
def escapePart (flags : Flags) (e : Escape) : Reading Expr := do
  match e with
  | .code n => pure (.one (.code n false) flags.folding)
  | .kind k negated => pure (.one (.set [.kind k flags.ascii negated] false) flags.folding)
  | .anchor a => pure (.anchor (a flags.ascii))
  | .reference group => pure (.reference group flags.folding ((← get).widthOf group))

def isLayout (c : Char) : Bool :=
  c == ' ' || ('\t' ≤ c && c ≤ '\r')

/-- Passes a comment of a verbose pattern. -/
def skipLine : Nat → Reading Unit
  | 0 => pure ()
  | n + 1 => do
    match (← take) with
    | none => pure ()
    | some sym => if sym = ['\n'] then pure () else skipLine n

mutual

/-- Alternatives, with those read so far, reversed. At the top level the flags are those of the
whole pattern, which a first alternative may set. -/
def alternation : Nat → (top : Bool) → Flags → List Expr → Reading Expr
  | 0, _, _, _ => faultOf .unexpectedEnd
  | n + 1, top, flags, found => do
    let e ← parts n (top && found.isEmpty) flags []
    let flags ← if top then pure (← get).flags else pure flags
    if (← accept '|') then alternation n top flags (e :: found)
    else pure (alternatives flags (e :: found).reverse)

/-- One alternative, with the parts read so far, reversed. Only `first` may set flags for the whole
pattern. -/
def parts : Nat → (first : Bool) → Flags → List Expr → Reading Expr
  | 0, _, _, _ => faultOf .unexpectedEnd
  | n + 1, first, flags, found => do
    match (← peek) with
    | none | some ['|'] | some [')'] => pure (sequence found)
    | some sym =>
      let start ← position
      let _ ← take
      match sym with
      | ['\\', c] =>
        let e ← escapePart flags (← bodyEscape c)
        parts n first flags (e :: found)
      | [c] =>
        if flags.verbose && isLayout c then parts n first flags found
        else if flags.verbose && c == '#' then
          skipLine ((← get).rest.length + 1)
          parts n first flags found
        else match c with
          | '[' =>
            let e ← characterSet flags
            parts n first flags (e :: found)
          | '.' => parts n first flags (.one (.any flags.dotAll) flags.folding :: found)
          | '^' =>
            parts n first flags (.anchor (if flags.multiLine then .lineStart else .start) :: found)
          | '$' =>
            parts n first flags
              (.anchor (if flags.multiLine then .lineStop else .lastLineStop) :: found)
          | '(' =>
            let h ← head start
            match h with
            | .global flags' =>
              if !first || !found.isEmpty then faultAt .lateFlags start
              else
                modify fun s => { s with flags := s.flags.union flags' }
                parts n first (flags.union flags') found
            | .comment => parts n first flags found
            | .reference group =>
              let e ← escapePart flags (.reference group)
              parts n first flags (e :: found)
            | _ =>
              let e ← group n start flags h
              parts n first flags (e :: found)
          | _ =>
            if c = '?' ∨ c = '*' ∨ c = '+' ∨ c = '\x7b' then
              match (← count c) with
              | .plain => parts n first flags (.one (.code c.toNat false) flags.folding :: found)
              | .times least most =>
                let found ← repeatLast flags start least most found
                parts n first flags found
            else parts n first flags (.one (.code c.toNat false) flags.folding :: found)
      | _ => pure (sequence found)

/-- A group from behind its head, which started at a place. -/
def group : Nat → (start : Nat) → Flags → Head → Reading Expr
  | 0, _, _, _ => faultOf .unexpectedEnd
  | n + 1, start, flags, h => do
    match h with
    | .capture name =>
      let g ← openGroup name
      let e ← alternation n false flags []
      close start
      closeGroup g e.width
      pure (.capture g e)
    | .atomic =>
      let e ← alternation n false flags []
      close start
      pure (.atomic e)
    | .ahead negated =>
      let e ← alternation n false flags []
      close start
      pure (.ahead negated e)
    | .behind negated =>
      let outer := (← get).lookbehind
      modify fun s => { s with lookbehind := outer.or (some (s.groups.length + 1)) }
      let e ← alternation n false flags []
      modify fun s => { s with lookbehind := outer }
      close start
      pure (.behind negated e)
    | .condition g =>
      let yes ← parts n false flags []
      let no ← if (← accept '|') then
          let e ← parts n false flags []
          if (← peek) = some ['|'] then fault .thirdBranch 0 else pure e
        else pure .empty
      close start
      pure (.ifGroup g yes no)
    | .scope on off =>
      let e ← alternation n false (flags.within on off) []
      close start
      pure (.scope e)
    | _ => pure .empty

end

/-! ## Whole patterns -/

/-- The first part, from the left, that cannot be searched for. -/
def Expr.fault? : Expr → Option Cause
  | .barredLoop g .. => some (.barredLoop g)
  | .behind _ e =>
    let w := e.width
    if w.least > unlimited then some .deepLookbehind
    else if w.least ≠ w.most then some .looseLookbehind
    else e.fault?
  | .seq a b | .alt a b | .ifGroup _ a b => a.fault?.or b.fault?
  | .loop _ _ _ e | .capture _ e | .scope e | .atomic e | .ahead _ e => e.fault?
  | .empty | .one .. | .anchor _ | .reference .. => none

/-- A whole pattern: nothing is left, and every condition names a group. -/
def whole : Reading Pattern := do
  let e ← alternation (3 * (← get).rest.length + 8) true {} []
  let s ← get
  if s.flags.ascii && s.flags.unicode then faultOf .rivalAlphabets
  else if (← peek).isSome then fault .unbalanced 0
  else match s.conditions.find? (·.1 > s.groups.length) with
    | some (g, place) => faultAt (.invalidReference g) place
    | none =>
      match e.fault? with
      | some cause => faultOf cause
      | none => pure ⟨e, s.flags.ascii⟩

/-- The pattern that a text writes, or what is wrong with it. -/
def ofText (pattern : String) : Except Fault Pattern := do
  let start : Cursor := ⟨[], 0, {}, [], [], none, []⟩
  let (p, _) ← whole.run (← settle start pattern.toList 0)
  pure p

end TableRoster.Pattern
