import TableRoster.Path
import TableRoster.Pattern.Reading
import TableRoster.Text.Word

/-! # Settings -/

namespace TableRoster

structure Settings where
  schemaFolder : Path
  outputFile : Path
  excludeGlobs : List String
  /-- Patterns of which a symbol matches one at least. -/
  includePatterns : List String
  /-- Patterns of which a symbol matches none. -/
  excludePatterns : List String
  emitTypes : Bool
  emitNames : Bool
  /-- Specifiers for modules whose path holds a text, the first that applies. -/
  overrides : List (String × String)
  /-- The text that makes an initializer a table. -/
  marker : String
  aggregateName : String
  allowDuplicates : Bool
  deriving DecidableEq, Repr

namespace Settings

def outputFolder (s : Settings) : Path :=
  s.outputFile.parent

/-- A text that can name the aggregate. -/
def isAggregateName (s : List Char) : Bool :=
  match s with
  | [] => false
  | c :: r => (c.isAlpha || c == '_' || c == '$') && r.all fun d => Text.isWord d || d == '$'

def IsPattern (s : String) : Prop :=
  ∃ p, Pattern.ofText s = .ok p

/-- Settings whose texts all have the form that they need. -/
structure Valid (s : Settings) : Prop where
  include_ok : ∀ p ∈ s.includePatterns, IsPattern p
  exclude_ok : ∀ p ∈ s.excludePatterns, IsPattern p
  marker_ok : s.marker ≠ ""
  aggregate_ok : isAggregateName s.aggregateName.toList = true

end Settings

/-! ## Mappings in order -/

def lookup? [DecidableEq α] (entries : List (α × β)) (key : α) : Option β :=
  (entries.find? (·.1 = key)).map (·.2)

end TableRoster
