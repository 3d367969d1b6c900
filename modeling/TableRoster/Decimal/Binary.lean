/-! # Floating-point numbers as fractions

A finite number is `m * 2 ^ q`; a fraction of natural numbers holds it exactly. -/

namespace TableRoster.Decimal

def twoTo (n : Nat) : Nat :=
  Nat.pow 2 n

def tenTo (n : Nat) : Nat :=
  Nat.pow 10 n

inductive Binary
  | nan
  | infinite (negative : Bool)
  /-- The number `± m * 2 ^ q`. -/
  | finite (negative : Bool) (m : Nat) (q : Int)
  deriving DecidableEq, Repr

/-- The parts of a number by its bits: one of sign, eleven of exponent, and the mantissa. -/
def Binary.ofBits (bits : UInt64) : Binary :=
  let n := bits.toNat
  let negative : Bool := n / twoTo 63 = 1
  let exponent : Nat := n / twoTo 52 % twoTo 11
  let mantissa : Nat := n % twoTo 52
  if exponent = 2047 then if mantissa = 0 then .infinite negative else .nan
  else if exponent = 0 then .finite negative mantissa (-1074)
  else .finite negative (twoTo 52 + mantissa) ((exponent : Int) - 1075)

def Binary.of (x : Float) : Binary :=
  .ofBits x.toBits

def fraction (m : Nat) (q : Int) : Nat × Nat :=
  if 0 ≤ q then (m * twoTo q.toNat, 1) else (m, twoTo (-q).toNat)

def whole? (x : Float) : Option Int :=
  match Binary.of x with
  | .finite negative m q =>
    let f := fraction m q
    if f.1 % f.2 = 0 then some (if negative then -(f.1 / f.2 : Nat) else (f.1 / f.2 : Nat))
    else none
  | _ => none

/-- A fraction over a power of ten. -/
def overTen (f : Nat × Nat) (k : Int) : Nat × Nat :=
  if 0 ≤ k then (f.1, f.2 * tenTo k.toNat) else (f.1 * tenTo (-k).toNat, f.2)

/-- The quotient of a fraction to the nearest whole number, a tie to the even one. -/
def nearest (f : Nat × Nat) : Nat :=
  let d := f.1 / f.2
  let twice := 2 * (f.1 % f.2)
  if twice < f.2 then d else if f.2 < twice then d + 1 else d + d % 2

end TableRoster.Decimal
