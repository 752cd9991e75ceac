/-!
# Binary numbers of double precision

A finite number is a sign and `m · 2^q` with `m` below `2^53` and `q` from -1074 to 971. Decimals
are read by exact arithmetic: the quotient that a decimal denotes is rounded once, to the nearest
number, and to the even one of two that are equally near.
-/

namespace DottedLisp

/-- A number of double precision. -/
inductive Double where
  /-- Not a number. -/
  | nan
  /-- Beyond the largest number, by sign. -/
  | infinite (negative : Bool)
  /-- `m · 2^q`, by sign; zero has a sign too. -/
  | finite (negative : Bool) (m : Nat) (q : Int)
deriving DecidableEq

/-- The nearest natural number to a quotient; of two equally near ones, the even one. -/
def roundDiv (num den : Nat) : Nat :=
  let quotient := num / den
  let twice := 2 * (num % den)
  if twice < den then quotient
  else if den < twice then quotient + 1
  else quotient + quotient % 2

/-- The quotient `num / den / base^k` as numerator and denominator. -/
def inUnits (base num den : Nat) (k : Int) : Nat × Nat :=
  (num * Nat.pow base (-k).toNat, den * Nat.pow base k.toNat)

namespace Double

/-- Zero, by sign. -/
def zero (negative : Bool) : Double := .finite negative 0 (-1074)

/-- Is the number zero, of either sign? -/
def isZero : Double → Bool
  | .finite _ 0 _ => true
  | _ => false

/-- The number nearest to a positive quotient. -/
def ofRatio (negative : Bool) (num den : Nat) : Double :=
  -- `num / den` lies between `2^(size - 1)` and `2^(size + 1)`
  let size : Int := (num.log2 : Int) - den.log2
  let (n, d) := inUnits 2 num den (size - 53)
  let q := max (-1074) (if n / d < Nat.pow 2 53 then size - 53 else size - 52)
  let (n, d) := inUnits 2 num den q
  let m := roundDiv n d
  let (m, q) := if m < Nat.pow 2 53 then (m, q) else (Nat.pow 2 52, q + 1)
  if 971 < q then .infinite negative else .finite negative m q

/-- The number nearest to `digits · 10^exponent`. The first two tests only spare the arithmetic of
exponents that are far out of range. -/
def ofDecimal (negative : Bool) (digits : Nat) (exponent : Int) : Double :=
  if digits = 0 then zero negative
  else if 310 < exponent then .infinite negative
  else if exponent + (digits.log2 / 3 : Nat) < -400 then zero negative
  else ofRatio negative (digits * Nat.pow 10 exponent.toNat) (Nat.pow 10 (-exponent).toNat)

end Double

end DottedLisp
