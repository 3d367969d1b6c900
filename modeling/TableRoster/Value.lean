import TableRoster.Decimal.Reading
import TableRoster.Decimal.Shortest
import TableRoster.Text.Quoted
import TableRoster.Timestamp

/-! # Values of settings

What a settings file or a caller gives for a setting, before it is known to have the right form. -/

namespace TableRoster

inductive Value
  | null
  | flag (b : Bool)
  | int (n : Int)
  | float (x : Float)
  | text (s : String)
  | bytes (bs : List UInt8)
  | date (year month day : Nat)
  | time (t : Timestamp)
  | list (vs : List Value)
  | pair (a b : Value)
  | set (vs : List Value)
  | map (entries : List (Value × Value))
  /-- A list or mapping that this is a part of, which may be the outermost one. -/
  | again (isMap isRoot : Bool)
  deriving Inhabited

namespace Value

def kind : Value → String
  | .null => "NoneType"
  | .flag _ => "bool"
  | .int _ => "int"
  | .float _ => "float"
  | .text _ => "str"
  | .bytes _ => "bytes"
  | .date .. => "date"
  | .time _ => "datetime"
  | .list _ => "list"
  | .pair .. => "tuple"
  | .set _ => "set"
  | .map _ => "dict"
  | .again isMap _ => if isMap then "dict" else "list"

/-- The values that count as absent where a mapping is expected. -/
def isVoid : Value → Bool
  | .null | .flag false | .text "" | .list [] | .set [] | .map [] | .bytes [] => true
  | .int n => n == 0
  | .float x => x == 0
  | _ => false

/-! ## Display -/

def byteText (q : Char) (b : UInt8) : List Char :=
  let c := Char.ofNat b.toNat
  if c.toNat < 0x80 then Text.quotedChar q c else '\\' :: 'x' :: Text.hexDigits 2 b.toNat

def bytesText (bs : List UInt8) : String :=
  let q := Text.quoteFor (bs.map fun b => Char.ofNat b.toNat)
  String.ofList ('b' :: q :: bs.flatMap (byteText q) ++ [q])

/-- The distance of a time to universal time, in whole days and seconds. -/
def zoneText (offset : Int) : String :=
  if offset = 0 then "datetime.timezone.utc"
  else
    let days := offset.fdiv 86400
    let seconds := offset - days * 86400
    let day := if days = 0 then "" else "days=" ++ toString days
    let second := if seconds = 0 then "" else "seconds=" ++ toString seconds
    "datetime.timezone(datetime.timedelta("
      ++ ", ".intercalate ([day, second].filter (· ≠ "")) ++ "))"

/-- A time as messages show it: seconds and what is below are left out if they are zero. -/
def timeText (t : Timestamp) : String :=
  let below := if t.microsecond ≠ 0 then [t.second, t.microsecond]
    else if t.second ≠ 0 then [t.second] else []
  let numbers := ([t.year, t.month, t.day, t.hour, t.minute] ++ below).map toString
  let zone := match t.offset with
    | none => []
    | some o => ["tzinfo=" ++ zoneText o]
  "datetime.datetime(" ++ ", ".intercalate (numbers ++ zone) ++ ")"

mutual

/-- Whether every number in a value has few enough digits to be shown. -/
def isShowable : Value → Bool
  | .int n => n.natAbs < 10 ^ Decimal.digitLimit
  | .list vs | .set vs => areShowable vs
  | .pair a b => isShowable a && isShowable b
  | .map es => hasShowable es
  | _ => true

def areShowable : List Value → Bool
  | [] => true
  | v :: vs => isShowable v && areShowable vs

def hasShowable : List (Value × Value) → Bool
  | [] => true
  | (k, v) :: es => isShowable k && isShowable v && hasShowable es

end

mutual

def shown : Value → String
  | .null => "None"
  | .flag true => "True"
  | .flag false => "False"
  | .int n => toString n
  | .float x => Decimal.text x
  | .text s => Text.quoted s
  | .bytes bs => bytesText bs
  | .date y m d =>
    "datetime.date(" ++ ", ".intercalate [toString y, toString m, toString d] ++ ")"
  | .time t => timeText t
  | .list vs => "[" ++ ", ".intercalate (shownAll vs) ++ "]"
  | .pair a b => "(" ++ shown a ++ ", " ++ shown b ++ ")"
  | .set [] => "set()"
  | .set (v :: vs) => "\x7b" ++ ", ".intercalate (shownAll (v :: vs)) ++ "\x7d"
  | .map es => "\x7b" ++ ", ".intercalate (shownEntries es) ++ "\x7d"
  | .again isMap _ => if isMap then "\x7b...\x7d" else "[...]"

def shownAll : List Value → List String
  | [] => []
  | v :: vs => shown v :: shownAll vs

def shownEntries : List (Value × Value) → List String
  | [] => []
  | (k, v) :: es => (shown k ++ ": " ++ shown v) :: shownEntries es

end

end Value

end TableRoster
