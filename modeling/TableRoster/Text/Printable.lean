import TableRoster.Text.Ranges
import TableRoster.Text.PrintableTable

/-! # Printable characters -/

namespace TableRoster.Text

/-- Characters that are shown as they are: of the blanks only the space. -/
def isPrintable (c : Char) : Bool :=
  if c.toNat < 0x80 then 0x20 ≤ c.toNat && c.toNat < 0x7F else inRanges printableRanges c.toNat

end TableRoster.Text
