import TableRoster.Path
import TableRoster.Text.Find

/-! # Import specifiers

A module is imported by a path relative to the folder of the aggregate module, or by the target of
an override whose key occurs in the module's path. -/

namespace TableRoster.Specifier

def sourceSuffix : List Char := ['.', 't', 's']

def turned (s : List Char) : List Char :=
  s.map fun c => if c = '\\' then '/' else c

/-- The target of the first override whose key occurs in a path. -/
def override? (overrides : List (String × String)) (module : Path) : Option String :=
  (overrides.find? fun o => Text.occursIn o.1.toList (turned module.text.toList)).map (·.2)

/-- The text of a relative path; the place itself is `.`. -/
def relativeText (parts : List String) : String :=
  if parts = [] then "." else "/".intercalate parts

def dropSuffix (s : List Char) : List Char :=
  if sourceSuffix.isSuffixOf s then s.take (s.length - sourceSuffix.length) else s

/-- A relative specifier starts with `./` or `../`. -/
def dotted (s : List Char) : List Char :=
  if ['.', '/'].isPrefixOf s ∨ ['.', '.', '/'].isPrefixOf s then s else '.' :: '/' :: s

/-- The specifier of a module as seen from a folder; `here` is the working folder. -/
def relative (here : List String) (folder module : Path) : String :=
  let parts := Path.between (folder.absoluteParts here) (module.absoluteParts here)
  String.ofList (dotted (dropSuffix (turned (relativeText parts).toList)))

/-- The specifier by which the aggregate module in a folder imports a module. -/
def of (here : List String) (overrides : List (String × String)) (folder module : Path) : String :=
  (override? overrides module).getD (relative here folder module)

end TableRoster.Specifier
