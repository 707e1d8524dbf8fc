import EventFold.Number.Binary

/-!
# Decimals

A decimal is `digits * 10 ^ exponent`. In normal form the first and the last digit are not zero, and
zero has no digits, so a value has one normal form. `Decimal.toNumber` gives the nearest binary64
number; readers of text normalise first, so that what a text means depends on its value alone.

`Number.shortest` chooses the decimal that a number is written as: the fewest digits that read back
as the number and, among those, the nearest. A decimal reads back as a number when it lies between the
midpoints to the neighbours of the number.
-/

namespace EventFold

/-- The value `digits * 10 ^ exponent`, with its digits as written, the highest first. -/
structure Decimal where
  digits : List Char
  exponent : Int
deriving DecidableEq, Repr

namespace Decimal

def ofDigits (digits : List Char) (exponent : Int) : Decimal :=
  let significant := digits.dropWhile (· == '0')
  let kept := (significant.reverse.dropWhile (· == '0')).reverse
  if kept.isEmpty then ⟨[], 0⟩ else ⟨kept, exponent + (significant.length - kept.length : Nat)⟩

/-- The nearest number, infinite beyond the largest finite one; an exact tie goes to the even mantissa. -/
def toNumber (d : Decimal) : Number :=
  Float.ofScientific (Nat.ofDigitChars 10 d.digits 0) (d.exponent < 0) d.exponent.natAbs

inductive Tie where
  | toEven
  | upward
deriving DecidableEq, Repr

end Decimal

namespace Number

open Decimal (Tie)

def Magnitude.scaled (a : Magnitude) (k : Int) : Nat × Nat :=
  (a.mantissa * Nat.pow 2 a.exponent.toNat * Nat.pow 10 (-k).toNat,
    Nat.pow 2 (-a.exponent).toNat * Nat.pow 10 k.toNat)

def Magnitude.isBelow (a : Magnitude) (k : Int) : Bool :=
  let (num, den) := a.scaled k
  num < den

/-- The least `k` with `a < 10 ^ k`, for a magnitude that is not zero. As the logarithm of two is 0.30103
within `10 ^ (-8)`, it is one of three in a row. -/
def Magnitude.decade (a : Magnitude) : Int :=
  let least := (((a.mantissa.log2 : Int) + a.exponent) * 30103).fdiv 100000
  if a.isBelow least then least else if a.isBelow (least + 1) then least + 1 else least + 2

/-- What lies between a magnitude and the bound below which decimals read back as its neighbour, in quarters
of its last place. The neighbour below a power of two is nearer, but not the one below the least normal
number. -/
def Magnitude.gapBelow (a : Magnitude) : Nat :=
  if a.mantissa == Nat.pow 2 52 && a.exponent > -1074 then 1 else 2

/-- Of the multiples of `10 ^ k`, the one that reads back as the magnitude `a` and is nearest to it, if there
is one. Only the two neighbours of `a` can be. A bound reads back as the magnitude whose mantissa is even. -/
def decimalOf? (tie : Tie) (a : Magnitude) (k : Int) : Option Decimal :=
  let (quarter, den) := Magnitude.scaled ⟨1, a.exponent - 2⟩ k
  let num := 4 * a.mantissa * quarter
  let below := num / den
  let reach := if a.mantissa % 2 == 0 then 1 else 0
  let lowerReads : Bool := num < below * den + a.gapBelow * quarter + reach
  let upperReads : Bool := (below + 1) * den < num + 2 * quarter + reach
  let lower := Decimal.ofDigits (Nat.toDigits 10 below) k
  let upper := Decimal.ofDigits (Nat.toDigits 10 (below + 1)) k
  match lowerReads, upperReads with
  | false, false => none
  | true, false => some lower
  | false, true => some upper
  | true, true =>
    match compare (2 * num) ((2 * below + 1) * den), tie with
    | .lt, _ => some lower
    | .gt, _ => some upper
    | .eq, .upward => some upper
    | .eq, .toEven => some (if below % 2 == 0 then lower else upper)

def Magnitude.exact (a : Magnitude) : Decimal :=
  Decimal.ofDigits (Nat.toDigits 10 (a.mantissa * Nat.pow 2 a.exponent.toNat * Nat.pow 5 (-a.exponent).toNat))
    (min a.exponent 0)

/-- The decimal with the fewest digits that reads back as the magnitude `a`, nearest to it among those.
Seventeen digits identify every binary64 number; should none be found, all digits are given. -/
def shortest (tie : Tie) (a : Magnitude) : Decimal :=
  if a.mantissa == 0 then ⟨[], 0⟩
  else
    let decade := a.decade
    let grids := (List.range 17).map fun n => decade - (n + 1 : Nat)
    (grids.findSome? (decimalOf? tie a)).getD a.exact

end Number

end EventFold
