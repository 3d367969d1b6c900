/-! # Times of day and date -/

namespace TableRoster

/-- A date and time, with its distance to universal time in seconds if that is known. -/
structure Timestamp where
  year : Nat
  month : Nat
  day : Nat
  hour : Nat
  minute : Nat
  second : Nat
  microsecond : Nat
  offset : Option Int
  deriving DecidableEq, Repr

namespace Timestamp

def padded (width n : Nat) : String :=
  let digits := toString n
  String.ofList (List.replicate (width - digits.length) '0') ++ digits

def dateText (t : Timestamp) : String :=
  padded 4 t.year ++ "-" ++ padded 2 t.month ++ "-" ++ padded 2 t.day

def clockText (t : Timestamp) : String :=
  padded 2 t.hour ++ ":" ++ padded 2 t.minute ++ ":" ++ padded 2 t.second

/-- The distance to universal time; seconds are written if there are any. -/
def offsetText (t : Timestamp) : String :=
  match t.offset with
  | none => ""
  | some o =>
    let n := o.natAbs
    (if o < 0 then "-" else "+") ++ padded 2 (n / 3600) ++ ":" ++ padded 2 (n / 60 % 60)
      ++ (if n % 60 = 0 then "" else ":" ++ padded 2 (n % 60))

/-- The time to the millisecond; what is below is cut off. -/
def toMilliseconds (t : Timestamp) : String :=
  t.dateText ++ "T" ++ t.clockText ++ "." ++ padded 3 (t.microsecond / 1000) ++ t.offsetText

/-- The time to the microsecond, without a fraction if that is zero. -/
def toMicroseconds (t : Timestamp) : String :=
  t.dateText ++ "T" ++ t.clockText
    ++ (if t.microsecond = 0 then "" else "." ++ padded 6 t.microsecond) ++ t.offsetText

/-! ## From the start of 1970 -/

/-- Year, month and day of a day counted from the start of 1970. Days are counted from the first
of March of the year 0, so that a leap day ends its year of 365 or 366 days. -/
def dateOfDay (days : Int) : Nat × Nat × Nat :=
  let z := days + 719468
  let era := z.fdiv 146097
  let dayOfEra := (z - era * 146097).toNat
  let yearOfEra := (dayOfEra - dayOfEra / 1460 + dayOfEra / 36524 - dayOfEra / 146096) / 365
  let dayOfYear := dayOfEra - (365 * yearOfEra + yearOfEra / 4 - yearOfEra / 100)
  let shifted := (5 * dayOfYear + 2) / 153
  let day := dayOfYear - (153 * shifted + 2) / 5 + 1
  let month := if shifted < 10 then shifted + 3 else shifted - 9
  let year := (yearOfEra : Int) + era * 400 + (if month ≤ 2 then 1 else 0)
  (year.toNat, month, day)

/-- The universal time so many seconds after the start of 1970. -/
def ofSeconds (seconds : Int) (microsecond : Nat) : Timestamp :=
  let days := seconds.fdiv 86400
  let rest := (seconds - days * 86400).toNat
  let (year, month, day) := dateOfDay days
  ⟨year, month, day, rest / 3600, rest / 60 % 60, rest % 60, microsecond, some 0⟩

/-- The day of a date, counted from the start of 1970. -/
def dayOfDate (year month day : Nat) : Int :=
  let y : Int := if month ≤ 2 then (year : Int) - 1 else year
  let era := y.fdiv 400
  let yearOfEra := y - era * 400
  let dayOfYear := (153 * (if month > 2 then month - 3 else month + 9) + 2) / 5 + day - 1
  era * 146097 + yearOfEra * 365 + yearOfEra.fdiv 4 - yearOfEra.fdiv 100 + dayOfYear - 719468

/-- The seconds since the start of 1970, by the clock of the time itself. -/
def toSeconds (t : Timestamp) : Int :=
  dayOfDate t.year t.month t.day * 86400 + t.hour * 3600 + t.minute * 60 + t.second

/-- Two times are the same: both have a distance to universal time and mean one moment, or both
have none and are written alike. -/
def same (s t : Timestamp) : Bool :=
  match s.offset, t.offset with
  | some a, some b => s.toSeconds - a == t.toSeconds - b && s.microsecond == t.microsecond
  | none, none => s.toSeconds == t.toSeconds && s.microsecond == t.microsecond
  | _, _ => false

def daysInMonth (year month : Nat) : Nat :=
  if month = 2 then
    if year % 4 = 0 ∧ (year % 100 ≠ 0 ∨ year % 400 = 0) then 29 else 28
  else if month = 4 ∨ month = 6 ∨ month = 9 ∨ month = 11 then 30 else 31

end Timestamp

end TableRoster
