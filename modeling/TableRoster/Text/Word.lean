import TableRoster.Text.Ranges
import TableRoster.Text.WordTable

/-! # Word characters

A word character is a letter, a number of any kind, or the low line. -/

namespace TableRoster.Text

def isDecimal (c : Char) : Bool :=
  if c.toNat < 0x80 then c.isDigit else inRanges decimalRanges c.toNat

/-- The value of a decimal digit: ranges of digits start at a zero and count up in tens. -/
def decimalValue (c : Char) : Nat :=
  if c.toNat < 0x80 then c.toNat - '0'.toNat
  else match decimalRanges.find? fun r => r.1 ≤ c.toNat && c.toNat ≤ r.2 with
    | some r => (c.toNat - r.1) % 10
    | none => 0

def isAlphanumeric (c : Char) : Bool :=
  if c.toNat < 0x80 then c.isAlphanum else inRanges alphanumericRanges c.toNat

def isWord (c : Char) : Bool :=
  c == '_' || isAlphanumeric c

end TableRoster.Text
