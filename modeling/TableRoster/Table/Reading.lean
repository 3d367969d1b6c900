import TableRoster.Settings.Reading
import TableRoster.Table

/-! # Reading tables from values -/

namespace TableRoster.Table

/-- The table that fields give; other keys are passed over. -/
def read (fields : Settings.Fields) : Settings.Read Table :=
  let all :=
    Settings.both (Settings.required fields "symbol_name" Settings.readText) <|
    Settings.both (Settings.required fields "module_path" Settings.readPath) <|
    Settings.optional fields "import_path" Settings.readText ""
  all.map fun (symbol, module, specifier) => { symbol, module, specifier }

end TableRoster.Table
