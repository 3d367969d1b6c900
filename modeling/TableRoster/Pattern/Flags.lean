import TableRoster.Pattern.Expr

/-! # Flags -/

namespace TableRoster.Pattern

structure Flags where
  ignoreCase : Bool := false
  multiLine : Bool := false
  dotAll : Bool := false
  verbose : Bool := false
  ascii : Bool := false
  unicode : Bool := false
  template : Bool := false
  deriving DecidableEq, Repr

namespace Flags

def ofLetter? : Char → Option Flags
  | 'i' => some { ignoreCase := true }
  | 'm' => some { multiLine := true }
  | 's' => some { dotAll := true }
  | 'x' => some { verbose := true }
  | 'a' => some { ascii := true }
  | 'u' => some { unicode := true }
  | 't' => some { template := true }
  | 'L' => some {}
  | _ => none

def union (f g : Flags) : Flags :=
  { ignoreCase := f.ignoreCase || g.ignoreCase
    multiLine := f.multiLine || g.multiLine
    dotAll := f.dotAll || g.dotAll
    verbose := f.verbose || g.verbose
    ascii := f.ascii || g.ascii
    unicode := f.unicode || g.unicode
    template := f.template || g.template }

def minus (f g : Flags) : Flags :=
  { ignoreCase := f.ignoreCase && !g.ignoreCase
    multiLine := f.multiLine && !g.multiLine
    dotAll := f.dotAll && !g.dotAll
    verbose := f.verbose && !g.verbose
    ascii := f.ascii && !g.ascii
    unicode := f.unicode && !g.unicode
    template := f.template && !g.template }

def choosesAlphabet (f : Flags) : Bool :=
  f.ascii || f.unicode

/-- The flags within a group that turns some on and others off. -/
def within (f on off : Flags) : Flags :=
  let base := if on.choosesAlphabet then { f with ascii := false, unicode := false } else f
  (base.union on).minus off

def folding (f : Flags) : Folding :=
  if f.ignoreCase then if f.ascii then .ascii else .unicode else .exact

end Flags

end TableRoster.Pattern
