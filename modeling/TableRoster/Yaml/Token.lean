/-! # Tokens of settings files -/

namespace TableRoster.Yaml

inductive Token
  | version (major : Nat)
  /-- A shorthand for the front of tags. -/
  | handle (name front : String)
  | otherDirective
  | documentStart
  | documentEnd
  | blockSequence
  | blockMapping
  | blockEnd
  | flowSequence
  | flowSequenceEnd
  | flowMapping
  | flowMappingEnd
  | comma
  | item
  | key
  | value
  | alias (name : String)
  | anchor (name : String)
  | tag (handle : Option String) (suffix : String)
  | scalar (text : String) (isPlain : Bool)
  deriving DecidableEq, Repr

end TableRoster.Yaml
