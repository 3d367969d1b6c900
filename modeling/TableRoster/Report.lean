import TableRoster.Text.Quoted

/-! # Reports

What a command tells as data: records of fields in order, written as text with two spaces for each
level. Characters beyond the basic ones are escaped. -/

namespace TableRoster

inductive Report
  | absent
  | flag (b : Bool)
  | count (n : Nat)
  | text (s : String)
  | list (rs : List Report)
  | record (fields : List (String × Report))
  deriving Inhabited

namespace Report

def optional (s : Option String) : Report :=
  match s with
  | none => .absent
  | some s => .text s

def texts (ss : List String) : Report :=
  .list (ss.map .text)

/-! ## Text -/

/-- The number of a character in four digits, or the two halves of one beyond them. -/
def escaped (c : Char) : List Char :=
  if c.toNat < 0x10000 then '\\' :: 'u' :: Text.hexDigits 4 c.toNat
  else
    let n := c.toNat - 0x10000
    ('\\' :: 'u' :: Text.hexDigits 4 (0xD800 + n / 0x400))
      ++ '\\' :: 'u' :: Text.hexDigits 4 (0xDC00 + n % 0x400)

def quotedChar (c : Char) : List Char :=
  if c = '\x22' ∨ c = '\\' then ['\\', c]
  else if c = '\n' then ['\\', 'n']
  else if c = '\r' then ['\\', 'r']
  else if c = '\t' then ['\\', 't']
  else if c = '\x08' then ['\\', 'b']
  else if c = '\x0c' then ['\\', 'f']
  else if ' ' ≤ c ∧ c ≤ '~' then [c]
  else escaped c

def quoted (s : String) : String :=
  String.ofList ('\x22' :: s.toList.flatMap quotedChar ++ ['\x22'])

def lineBreak (level : Nat) : String :=
  String.ofList ('\n' :: List.replicate (2 * level) ' ')

/-- Items between brackets, each on a line of its own. -/
def bracketed (level : Nat) (opening closing : String) (items : List String) : String :=
  if items = [] then opening ++ closing
  else
    opening ++ lineBreak (level + 1) ++ ("," ++ lineBreak (level + 1)).intercalate items
      ++ lineBreak level ++ closing

mutual

def render (level : Nat) : Report → String
  | .absent => "null"
  | .flag true => "true"
  | .flag false => "false"
  | .count n => toString n
  | .text s => quoted s
  | .list rs => bracketed level "[" "]" (renderAll (level + 1) rs)
  | .record fs => bracketed level "\x7b" "\x7d" (renderFields (level + 1) fs)

def renderAll (level : Nat) : List Report → List String
  | [] => []
  | r :: rs => render level r :: renderAll level rs

def renderFields (level : Nat) : List (String × Report) → List String
  | [] => []
  | (k, r) :: fs => (quoted k ++ ": " ++ render level r) :: renderFields level fs

end

end Report

end TableRoster
