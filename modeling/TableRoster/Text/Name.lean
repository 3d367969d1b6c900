import TableRoster.Text.Word
import TableRoster.Text.NameTable

/-! # Names

The names that a pattern gives to its groups: a letter or the low line, then letters, marks,
digits and connectors. -/

namespace TableRoster.Text

def isLetter (c : Char) : Bool :=
  if c.toNat < 0x80 then c.isAlpha
  else isAlphanumeric c && !inRanges numericRanges c.toNat

def startsName (c : Char) : Bool :=
  c == '_' || (isLetter c && !inRanges initialBarredRanges c.toNat)
    || inRanges initialExtraRanges c.toNat

def continuesName (c : Char) : Bool :=
  (isWord c && !inRanges wordOnlyRanges c.toNat) || inRanges nameOnlyRanges c.toNat

def isName : List Char → Bool
  | [] => false
  | c :: r => startsName c && r.all continuesName

end TableRoster.Text
