import TableRoster.Decimal.Binary

/-! # Numbers with one decimal place -/

namespace TableRoster.Decimal

/-- A number to one place. The exact value is rounded, a tie to the even digit. -/
def tenths (x : Float) : String :=
  match Binary.of x with
  | .nan => "nan"
  | .infinite negative => if negative then "-inf" else "inf"
  | .finite negative m q =>
    let n := nearest (overTen (fraction m q) (-1))
    (if negative then "-" else "") ++ toString (n / 10) ++ "." ++ toString (n % 10)

end TableRoster.Decimal
