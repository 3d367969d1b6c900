import TableRoster.Settings.Basic
import TableRoster.Table
import TableRoster.Text.Case
import TableRoster.Timestamp

/-! # The text of the aggregate module

A header comment with the time, a blank line, and a body: an import for each specifier, the
aggregate with all tables, a re-export for each specifier, and, if asked for, the type of the
aggregate and the names of all tables. Tables keep their order throughout. -/

namespace TableRoster.Layout

/-- What stands before the time in the header. -/
def stampLabel : String := "Generated at:"

def opening : String :=
  "/**\n * Auto-generated database schema aggregate.\n"
    ++ " * Do not edit this file by hand; run `schemagen generate` to regenerate."

def stampLine (time : Timestamp) : String :=
  " * " ++ stampLabel ++ " " ++ time.toMilliseconds

def header (time : Timestamp) : String :=
  opening ++ "\n" ++ stampLine time ++ "\n */\n"

/-- The name of the aggregate's type: the first character in upper case. -/
def typeName (name : String) : String :=
  match name.toList with
  | [] => ""
  | c :: r => String.ofList (Text.upper c ++ r)

def importLine (group : String × List String) : String :=
  "import \x7b " ++ ", ".intercalate group.2 ++ " \x7d from '" ++ group.1 ++ "';"

def imports (ts : List Table) : String :=
  "\n".intercalate ((groups ts).map importLine)

def aggregate (name : String) (ts : List Table) : String :=
  "export const " ++ name ++ " = \x7b\n"
    ++ "\n".intercalate (ts.map fun t => "  " ++ t.symbol ++ ",") ++ "\n\x7d;"

def reexportLine (specifier : String) : String :=
  "export * from \"" ++ specifier ++ "\";"

def reexports (ts : List Table) : String :=
  "// Re-export every scanned schema module\n"
    ++ "\n".intercalate ((specifiers ts).map reexportLine)

def typeSection (name : String) : String :=
  "/**\n * Database schema type\n */\nexport type " ++ typeName name ++ " = typeof " ++ name ++ ";"

def namesSection (ts : List Table) : String :=
  "/**\n * Names of all tables\n */\nexport const tableNames = ["
    ++ ", ".intercalate (ts.map fun t => "'" ++ t.symbol ++ "'") ++ "] as const;"

def nameTypeSection : String :=
  "/**\n * Table name type\n */\nexport type TableName = typeof tableNames[number];"

def sections (s : Settings) (ts : List Table) : List String :=
  [imports ts, aggregate s.aggregateName ts, reexports ts]
    ++ (if s.emitTypes then [typeSection s.aggregateName] else [])
    ++ (if s.emitNames then [namesSection ts, nameTypeSection] else [])

/-- The body, which ends with one line break. -/
def body (s : Settings) (ts : List Table) : String :=
  "\n\n".intercalate (sections s ts) ++ "\n"

end TableRoster.Layout
