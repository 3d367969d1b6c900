import TableRoster.Decimal.Binary

/-! # The shortest text of a number

Of the decimals that read back as a number, the ones with the fewest digits are taken, and of these
the nearest. -/

namespace TableRoster.Decimal

/-- The exponent of the first digit of a fraction that is not zero, counted up from a guess. -/
def leading (f : Nat × Nat) : Int :=
  let guess : Int := (Nat.log2 f.1 : Int) - Nat.log2 f.2
  let low := guess * 30103 / 100000 - 2
  climb f low 6
where
  /-- The greatest of a few exponents whose power of ten is not above the fraction. -/
  climb (f : Nat × Nat) (k : Int) : Nat → Int
    | 0 => k
    | n + 1 =>
      let next := overTen f (k + 1)
      if next.2 ≤ next.1 then climb f (k + 1) n else k

/-- The decimal `d * 10 ^ k` reads back as `m * 2 ^ q`: it lies between the midpoints to the two
neighbours, ends included if `m` is even. Below a power of two the lower neighbour is nearer. -/
def readsBack (m : Nat) (q : Int) (d : Nat) (k : Int) : Bool :=
  let edge := m = twoTo 52 ∧ q > -1074
  let low := overTen (fraction (if edge then 4 * m - 1 else 4 * m - 2) (q - 2)) k
  let high := overTen (fraction (4 * m + 2) (q - 2)) k
  let closed := m % 2 = 0
  (if closed then low.1 ≤ d * low.2 else low.1 < d * low.2)
    && (if closed then d * high.2 ≤ high.1 else d * high.2 < high.1)

/-- Digits and exponent with exactly so many digits, if some read back. -/
def withDigits? (m : Nat) (q : Int) (digits : Nat) : Option (Nat × Int) :=
  let f := fraction m q
  let k := leading f - (digits - 1 : Nat)
  let g := overTen f k
  let d := g.1 / g.2
  let far := nearest g = d
  let first := if far then d else d + 1
  let second := if far then d + 1 else d
  if readsBack m q first k then some (first, k)
  else if readsBack m q second k then some (second, k)
  else none

/-- Digits and exponent of the shortest decimal of a number that is not zero. -/
def shortest (m : Nat) (q : Int) : Nat × Int :=
  ((List.range 17).findSome? fun n => withDigits? m q (n + 1)).getD (0, 0)

def stripZeros : (fuel : Nat) → Nat × Int → Nat × Int
  | 0, d => d
  | n + 1, (d, k) => if d % 10 = 0 ∧ d ≠ 0 then stripZeros n (d / 10, k + 1) else (d, k)

/-- Digits and exponent of a number; of zero they are zero. -/
def digitsOf (m : Nat) (q : Int) : Nat × Int :=
  if m = 0 then (0, 0) else stripZeros 400 (shortest m q)

/-- Digits `d` with the point behind the first `n`; zeros fill up on both sides. -/
def positional (digits : List Char) (n : Int) : List Char :=
  if n ≤ 0 then '0' :: '.' :: (List.replicate (-n).toNat '0' ++ digits)
  else
    let whole := digits.take n.toNat ++ List.replicate (n.toNat - digits.length) '0'
    let rest := digits.drop n.toNat
    whole ++ '.' :: (if rest = [] then ['0'] else rest)

/-- Digits in scientific form. An exponent has a sign and two digits at least. -/
def scientific (digits : List Char) (exponent : Int) : List Char :=
  let e := (toString exponent.natAbs).toList
  digits.take 1 ++ (if digits.length ≤ 1 then [] else '.' :: digits.drop 1)
    ++ 'e' :: (if exponent < 0 then '-' else '+')
    :: (if e.length < 2 then '0' :: e else e)

/-- The text of a number: positional from `0.0001` up to below `10 ^ 16`. -/
def text (x : Float) : String :=
  match Binary.of x with
  | .nan => "nan"
  | .infinite negative => if negative then "-inf" else "inf"
  | .finite negative m q =>
    let (d, k) := digitsOf m q
    let digits := (toString d).toList
    let exponent := k + digits.length - 1
    let body :=
      if m = 0 then ['0', '.', '0']
      else if -4 ≤ exponent ∧ exponent < 16 then positional digits (exponent + 1)
      else scientific digits exponent
    String.ofList (if negative then '-' :: body else body)

end TableRoster.Decimal
