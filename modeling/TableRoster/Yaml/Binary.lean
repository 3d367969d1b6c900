/-! # Bytes as text

Four characters of 64 stand for three bytes. Other characters do not count; the text ends with the
sign for missing bytes. -/

namespace TableRoster.Yaml.Binary

/-- The six bits of a character. -/
def bits? (c : Char) : Option Nat :=
  if 'A' ≤ c ∧ c ≤ 'Z' then some (c.toNat - 0x41)
  else if 'a' ≤ c ∧ c ≤ 'z' then some (c.toNat - 0x61 + 26)
  else if c.isDigit then some (c.toNat - 0x30 + 52)
  else if c = '+' then some 62
  else if c = '/' then some 63
  else none

/-- The byte that a character completes at its place among four, given the six bits before. -/
def byteAt (place before bits : Nat) : List UInt8 :=
  if place = 1 then [(before * 4 + bits / 16).toUInt8]
  else if place = 2 then [(before % 16 * 16 + bits / 4).toUInt8]
  else if place = 3 then [(before % 4 * 64 + bits).toUInt8]
  else []

/-- The bytes from a place among four on, given the six bits before and the number of signs for
missing bytes so far. -/
def bytesFrom : (place before missing : Nat) → List Char → Option (List UInt8)
  | place, _, _, [] => if place = 0 then some [] else none
  | place, before, missing, c :: r =>
    if c = '=' then
      if 2 ≤ place then
        if 4 ≤ place + missing + 1 then some [] else bytesFrom place before (missing + 1) r
      else bytesFrom place before missing r
    else
      match bits? c with
      | none => bytesFrom place before missing r
      | some bits =>
        (bytesFrom ((place + 1) % 4) bits 0 r).map (byteAt place before bits ++ ·)

def bytes? (s : List Char) : Option (List UInt8) :=
  if s.all fun c => c.toNat < 0x80 then bytesFrom 0 0 0 s else none

end TableRoster.Yaml.Binary
