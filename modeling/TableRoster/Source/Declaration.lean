import TableRoster.Source.Lexer
import TableRoster.Source.Statement

/-! # The declarations of a module

A module declares its top-level bindings. One is exported by its own `export` or by a clause
elsewhere in the module. -/

namespace TableRoster.Source

/-- A top-level binding: `exportName` is what other modules import it by. -/
structure Declaration where
  name : String
  initializer : Option String
  line : Nat
  keyword : String
  exportName : Option String
  deriving DecidableEq, Repr

/-- The text from one offset to another. -/
def slice (source : List Char) (start stop : Nat) : String :=
  String.ofList ((source.drop start).take (stop - start))

/-- The names that clauses export a binding under, in order. -/
def aliases (name : String) (ss : List Statement) : List String :=
  ss.flatMap fun
    | .clause entries => (entries.filter (·.1 = name)).map (·.2)
    | _ => []

/-- The name a binding has outside if its own statement does not export it: the first that is not
`default`, or else `default`. -/
def aliasOf (name : String) (ss : List Statement) : Option String :=
  let found := aliases name ss
  (found.find? (· ≠ "default")).or found.head?

/-- The declarations of one statement, among all statements of the module. -/
def Statement.declarations (source : List Char) (all : List Statement) :
    Statement → List Declaration
  | .bindings exported keyword bound => bound.map fun b =>
    { name := b.name
      initializer := b.extent.map fun e => slice source e.1 e.2
      line := b.line
      keyword
      exportName := if exported then some b.name else aliasOf b.name all }
  | _ => []

def statementsOf (source : String) : List Statement :=
  statements 0 (place none (tokens source))

def declarations (source : String) : List Declaration :=
  let all := statementsOf source
  all.flatMap (·.declarations source.toList all)

end TableRoster.Source
