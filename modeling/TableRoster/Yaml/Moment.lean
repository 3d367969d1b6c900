import TableRoster.Decimal.Reading
import TableRoster.Value
import TableRoster.Yaml.Cursor

/-! # Dates and times -/

namespace TableRoster.Yaml

/-- The distance of a time to universal time, as it is written. -/
inductive Zone
  | universal
  | shift (negative : Bool) (hours minutes : List Char)
  deriving DecidableEq, Repr

/-- The digits of a time of day. -/
structure Clock where
  hour : List Char
  minute : List Char
  second : List Char
  fraction : List Char
  zone : Option Zone
  deriving DecidableEq, Repr

structure Moment where
  year : List Char
  month : List Char
  day : List Char
  clock : Option Clock
  deriving DecidableEq, Repr

namespace Moment

/-! ## Reading -/

/-- Some digits, `least` to `most` of them, and what follows. -/
def digits? (least most : Nat) (s : List Char) : Option (List Char × List Char) :=
  let ds := (s.takeWhile Char.isDigit).take most
  if least ≤ ds.length then some (ds, s.drop ds.length) else none

/-- What follows a given character. -/
def behind? (c : Char) (s : List Char) : Option (List Char) :=
  match s with
  | x :: r => if x = c then some r else none
  | [] => none

def skipBlanks (s : List Char) : List Char :=
  s.dropWhile fun c => c == ' ' || c == '\t'

/-- The distance to universal time at the end of a text, if there is one. -/
def zone? (s : List Char) : Option (Option Zone) :=
  if s = [] then some none
  else
    match skipBlanks s with
    | ['Z'] => some (some .universal)
    | sign :: r =>
      if sign = '+' ∨ sign = '-' then
        match digits? 1 2 r with
        | some (h, []) => some (some (.shift (sign = '-') h []))
        | some (h, ':' :: r) =>
          match digits? 2 2 r with
          | some (m, []) => some (some (.shift (sign = '-') h m))
          | _ => none
        | _ => none
      else none
    | [] => none

def clock? (s : List Char) : Option Clock := do
  let s ← match s with
    | 'T' :: r | 't' :: r => some r
    | ' ' :: r | '\t' :: r => some (skipBlanks r)
    | _ => none
  let (hour, s) ← digits? 1 2 s
  let (minute, s) ← digits? 2 2 (← behind? ':' s)
  let (second, s) ← digits? 2 2 (← behind? ':' s)
  let (fraction, s) := match s with
    | '.' :: r => (r.takeWhile Char.isDigit, r.dropWhile Char.isDigit)
    | s => ([], s)
  let zone ← zone? s
  pure ⟨hour, minute, second, fraction, zone⟩

/-- The date, with or without a time of day, that a text writes. -/
def ofText? (s : List Char) : Option Moment := do
  let (year, s) ← digits? 4 4 s
  let (month, s) ← digits? 1 2 (← behind? '-' s)
  let (day, s) ← digits? 1 2 (← behind? '-' s)
  if s = [] then pure ⟨year, month, day, none⟩
  else pure ⟨year, month, day, some (← clock? s)⟩

/-- A form that a plain scalar may have: without a time of day, month and day have two digits. -/
def isPlain (m : Moment) : Bool :=
  m.clock.isSome || (m.month.length == 2 && m.day.length == 2)

/-! ## Values -/

def number (ds : List Char) : Nat :=
  (Decimal.digitsNumber? 10 ds).getD 0

/-- The seconds between a time and universal time. -/
def Zone.seconds : Zone → Int
  | .universal => 0
  | .shift negative h m =>
    let n : Int := number h * 3600 + number m * 60
    if negative then -n else n

/-- The millionths of a second of the digits behind a point. -/
def millionths (ds : List Char) : Nat :=
  number ((ds ++ List.replicate 6 '0').take 6)

def isDate (year month day : Nat) : Bool :=
  1 ≤ year && 1 ≤ month && month ≤ 12 && 1 ≤ day && day ≤ Timestamp.daysInMonth year month

/-- The date or time; a crash if it is not in the calendar. -/
def value (m : Moment) : Except Crash Value :=
  let year := number m.year
  let month := number m.month
  let day := number m.day
  if !isDate year month day then .error .badValue
  else
    match m.clock with
    | none => .ok (.date year month day)
    | some c =>
      let hour := number c.hour
      let minute := number c.minute
      let second := number c.second
      let shift := c.zone.map Zone.seconds
      if hour < 24 ∧ minute < 60 ∧ second < 60 ∧ (shift.getD 0).natAbs < 86400 then
        .ok (.time ⟨year, month, day, hour, minute, second, millionths c.fraction, shift⟩)
      else .error .badValue

end Moment

end TableRoster.Yaml
