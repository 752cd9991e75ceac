import DottedLisp.Decimal.Double
import DottedLisp.Text.CodePoint

/-!
# Shortest decimals

A number is shown by the fewest digits that read back as the same number, and by the nearest such
digits where there is a choice. The numbers that read back are those within half a step of the
neighbours on either side, the ends included where the significand is even.

The layout is positional for decimal exponents from -4 to 15 and has an exponent mark otherwise.
-/

namespace DottedLisp

/-- The decimal `digits · 10^exponent`. -/
structure Decimal where
  /-- The digits as a number. -/
  digits : Nat
  /-- The power of ten. -/
  exponent : Int
deriving DecidableEq

namespace Decimal

/-- Is `a / b` at most `c / d`? -/
def ratioLe (a b c d : Nat) : Bool := a * d ≤ c * b

/-- The decimal without zeros at its end; `fuel` is the most zeros that are taken off. -/
def trim : (fuel : Nat) → Decimal → Decimal
  | 0, d => d
  | fuel + 1, d =>
    if d.digits % 10 = 0 ∧ d.digits ≠ 0 then trim fuel ⟨d.digits / 10, d.exponent + 1⟩ else d

/-- The decimal exponent of `num / den`: the power of ten of its first digit. -/
def leadingExponent (num den : Nat) : Int :=
  let guess : Int := ((num.log2 : Int) - den.log2) * 30103 / 100000
  let reaches (e : Int) : Bool :=
    let (n, d) := inUnits 10 num den e
    d ≤ n
  if reaches (guess + 1) then guess + 1 else if reaches guess then guess else guess - 1

/-- The numbers that round to `m · 2^q`, times four: the value, and the ends of the interval. -/
structure Interval where
  /-- Numerator of the value. -/
  value : Nat
  /-- Numerator of the lower end. -/
  low : Nat
  /-- Numerator of the upper end. -/
  high : Nat
  /-- The common denominator. -/
  den : Nat
  /-- Do the ends belong to it? -/
  closed : Bool

/-- The interval of the reals that round to `m · 2^q`. Below a power of two the step is half as
large. -/
def interval (m : Nat) (q : Int) : Interval :=
  let up := Nat.pow 2 q.toNat
  let below := if m = Nat.pow 2 52 ∧ -1074 < q then 1 else 2
  { value := 4 * m * up, low := (4 * m - below) * up, high := (4 * m + 2) * up
    den := 4 * Nat.pow 2 (-q).toNat, closed := m % 2 = 0 }

/-- Does the decimal lie in the interval? -/
def Interval.holds (i : Interval) (d : Decimal) : Bool :=
  let num := d.digits * Nat.pow 10 d.exponent.toNat
  let den := Nat.pow 10 (-d.exponent).toNat
  if i.closed then ratioLe i.low i.den num den && ratioLe num den i.high i.den
  else !ratioLe num den i.low i.den && !ratioLe i.high i.den num den

/-- Of the two decimals next to the value in units of `10^k`, the nearest that lies in the
interval. -/
def Interval.nearest? (i : Interval) (k : Int) : Option Decimal :=
  let (n, d) := inUnits 10 i.value i.den k
  let below : Decimal := ⟨n / d, k⟩
  let above : Decimal := ⟨n / d + 1, k⟩
  if roundDiv n d = n / d then [below, above].find? i.holds else [above, below].find? i.holds

/-- The shortest decimal of a positive number `m · 2^q`. Seventeen digits always read back. -/
def shortest (m : Nat) (q : Int) : Decimal :=
  let i := interval m q
  let e := leadingExponent i.value i.den
  let counts := (List.range 17).map (· + 1)
  match counts.findSome? fun (count : Nat) => i.nearest? (e - (count : Int) + 1) with
  | some d => trim 17 d
  | none => ⟨i.value / i.den, 0⟩

/-- Digits with the point after `whole` of them; the last place before the point is always there. -/
def positional (digits : List Char) (exponent : Int) : List Char :=
  if exponent < 0 then
    ['0', '.'] ++ List.replicate (-exponent - 1).toNat '0' ++ digits
  else
    let whole := exponent.toNat + 1
    let fraction := digits.drop whole
    digits.take whole ++ List.replicate (whole - digits.length) '0' ++ ['.']
      ++ (if fraction.isEmpty then ['0'] else fraction)

/-- Digits with the point after the first, and an exponent of a sign and at least two digits. -/
def scientific (digits : List Char) (exponent : Int) : List Char :=
  let power := Nat.toDigits 10 exponent.natAbs
  digits.take 1 ++ (if digits.length ≤ 1 then [] else '.' :: digits.drop 1)
    ++ ['e', if exponent < 0 then '-' else '+']
    ++ List.replicate (2 - power.length) '0' ++ power

/-- A decimal as text. -/
def chars (d : Decimal) : List Char :=
  let digits := Nat.toDigits 10 d.digits
  let exponent := d.exponent + digits.length - 1
  if -4 ≤ exponent ∧ exponent < 16 then positional digits exponent
  else scientific digits exponent

end Decimal

/-- A number as text. -/
def Double.text : Double → Text
  | .nan => DottedLisp.text "nan"
  | .infinite negative => DottedLisp.text (if negative then "-inf" else "inf")
  | .finite negative m q =>
    let digits := if m = 0 then ['0', '.', '0'] else (Decimal.shortest m q).chars
    ((if negative then ['-'] else []) ++ digits).map CodePoint.ofChar

end DottedLisp
