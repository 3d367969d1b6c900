import TableRoster.Pattern.Expr
import TableRoster.Text.Quoted

/-! # What can be wrong with a pattern -/

namespace TableRoster.Pattern

inductive Cause
  | loneBackslash
  | missing (what : String)
  | unterminatedName (terminator : Char)
  | badNameCharacter (name : String)
  | unknownName (name : String)
  | redefinedName (name : String) (group earlier : Nat)
  | incompleteEscape (escape : String)
  | badEscape (escape : String)
  | largeOctal (escape : String)
  | unknownCharacterName (name : String)
  | openReference
  | lookbehindReference
  | invalidReference (group : Nat)
  | zeroReference
  | unterminatedSet
  | badRange (first last : String)
  | crossedBounds
  | nothingToRepeat
  | repeatedRepeat
  | unexpectedEnd
  | unknownExtension (text : String)
  | unterminatedComment
  | unterminatedGroup
  | unbalanced
  | thirdBranch
  | lateFlags
  | byteFlag
  | rivalFlags
  | unknownFlag
  | missingFlag
  | missingFlagEnd
  | missingColon
  | scopedGlobalFlag (on : Bool)
  | lastingFlag
  | contradictoryFlag
  /-- The width of a pattern that looks behind is not fixed. -/
  | looseLookbehind
  | deepLookbehind
  | barredLoop (greed : Greed)
  /-- Two flags for the whole pattern exclude each other. -/
  | rivalAlphabets
  /-- A repetition count is beyond what can be counted. -/
  | largeCount
  /-- A repetition count has more digits than a number may have. -/
  | longCount (digits : Nat)
  deriving DecidableEq, Repr

/-- What messages call a repetition that is not supported. -/
def Greed.label : Greed → String
  | .greedy => "MAX_REPEAT"
  | .lazy => "MIN_REPEAT"
  | .possessive => "POSSESSIVE_REPEAT"

def Cause.message : Cause → String
  | .loneBackslash => "bad escape (end of pattern)"
  | .missing what => "missing " ++ what
  | .unterminatedName c => "missing " ++ c.toString ++ ", unterminated name"
  | .badNameCharacter name => "bad character in group name " ++ Text.quoted name
  | .unknownName name => "unknown group name " ++ Text.quoted name
  | .redefinedName name group earlier =>
    "redefinition of group name " ++ Text.quoted name ++ " as group " ++ toString group
      ++ "; was group " ++ toString earlier
  | .incompleteEscape escape => "incomplete escape " ++ escape
  | .badEscape escape => "bad escape " ++ escape
  | .largeOctal escape => "octal escape value " ++ escape ++ " outside of range 0-0o377"
  | .unknownCharacterName name => "undefined character name " ++ Text.quoted name
  | .openReference => "cannot refer to an open group"
  | .lookbehindReference => "cannot refer to group defined in the same lookbehind subpattern"
  | .invalidReference group => "invalid group reference " ++ toString group
  | .zeroReference => "bad group number"
  | .unterminatedSet => "unterminated character set"
  | .badRange first last => "bad character range " ++ first ++ "-" ++ last
  | .crossedBounds => "min repeat greater than max repeat"
  | .nothingToRepeat => "nothing to repeat"
  | .repeatedRepeat => "multiple repeat"
  | .unexpectedEnd => "unexpected end of pattern"
  | .unknownExtension text => "unknown extension ?" ++ text
  | .unterminatedComment => "missing ), unterminated comment"
  | .unterminatedGroup => "missing ), unterminated subpattern"
  | .unbalanced => "unbalanced parenthesis"
  | .thirdBranch => "conditional backref with more than two branches"
  | .lateFlags => "global flags not at the start of the expression"
  | .byteFlag => "bad inline flags: cannot use 'L' flag with a str pattern"
  | .rivalFlags => "bad inline flags: flags 'a', 'u' and 'L' are incompatible"
  | .unknownFlag => "unknown flag"
  | .missingFlag => "missing flag"
  | .missingFlagEnd => "missing -, : or )"
  | .missingColon => "missing :"
  | .scopedGlobalFlag on => "bad inline flags: cannot turn " ++ (if on then "on" else "off") ++ " global flag"
  | .lastingFlag => "bad inline flags: cannot turn off flags 'a', 'u' and 'L'"
  | .contradictoryFlag => "bad inline flags: flag turned on and off"
  | .looseLookbehind => "look-behind requires fixed-width pattern"
  | .deepLookbehind => "looks too much behind"
  | .barredLoop greed => "internal: unsupported template operator " ++ greed.label
  | .rivalAlphabets => "ASCII and UNICODE flags are incompatible"
  | .largeCount => "the repetition number is too large"
  | .longCount n =>
    "Exceeds the limit (4300 digits) for integer string conversion: value has " ++ toString n
      ++ " digits; use sys.set_int_max_str_digits() to increase the limit"

/-- A cause and the place it was found at, if it has one. -/
structure Fault where
  cause : Cause
  position : Option Nat
  deriving DecidableEq, Repr

/-- The line of a place and its column there, both from 1. -/
def lineAndColumn (pattern : List Char) (position : Nat) : Nat × Nat :=
  let before := pattern.take position
  (before.count '\n' + 1, (before.reverse.takeWhile (· ≠ '\n')).length + 1)

/-- The wording of a fault. Line and column are told if the pattern has several lines. -/
def Fault.message (pattern : String) (f : Fault) : String :=
  match f.position with
  | none => f.cause.message
  | some n =>
    let place := f.cause.message ++ " at position " ++ toString n
    if pattern.toList.contains '\n' then
      let p := lineAndColumn pattern.toList n
      place ++ " (line " ++ toString p.1 ++ ", column " ++ toString p.2 ++ ")"
    else place

end TableRoster.Pattern
