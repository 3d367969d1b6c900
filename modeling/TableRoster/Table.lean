import TableRoster.Specifier

/-! # Tables -/

namespace TableRoster

/-- An exported table binding: its name, the module that declares it, and the specifier it is
imported by, which is empty until it is resolved. -/
structure Table where
  symbol : String
  module : Path
  specifier : String
  deriving DecidableEq, Repr

namespace Table

/-- A table with its specifier as seen from a folder. -/
def resolve (here : List String) (overrides : List (String × String)) (folder : Path) (t : Table) :
    Table :=
  { t with specifier := Specifier.of here overrides folder t.module }

end Table

/-! ## Groups -/

def firstSeen [DecidableEq α] : List α → List α
  | [] => []
  | a :: as => a :: (firstSeen as).filter (· ≠ a)

def specifiers (ts : List Table) : List String :=
  firstSeen (ts.map (·.specifier))

/-- The symbols of each specifier, both in the order they first occur. -/
def groups (ts : List Table) : List (String × List String) :=
  (specifiers ts).map fun s => (s, (ts.filter (·.specifier = s)).map (·.symbol))

/-- The symbols that several tables have, with the modules of all of these. -/
def duplicates (ts : List Table) : List (String × List String) :=
  ((firstSeen (ts.map (·.symbol))).map fun s =>
    (s, (ts.filter (·.symbol = s)).map (·.module.text))).filter (·.2.length > 1)

end TableRoster
