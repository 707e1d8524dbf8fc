/-!
# Numbers and their bits

A number is an IEEE binary64 float; there is one NaN, so two numbers are equal (`=`) exactly when
their bits agree, while `==` is the numeric comparison (`0 == -0`, and NaN equals nothing).

`Number.view` reads the bits as sign, mantissa and exponent. The operations that the float unit does
not offer (an exact whole-number test, the remainder) are computed on this view with integers.
-/

namespace EventFold

abbrev Number := Float

namespace Number

def nan : Number := Float.ofBits 0x7FF8000000000000

/-- The finite magnitude `mantissa * 2 ^ exponent`. -/
structure Magnitude where
  mantissa : Nat
  exponent : Int
deriving DecidableEq, Repr

inductive View where
  | nan
  | infinite (negative : Bool)
  | finite (negative : Bool) (magnitude : Magnitude)
deriving DecidableEq, Repr

/-- Sign, mantissa and exponent of a number. A finite mantissa is below `2 ^ 53`, its exponent not below
-1074. -/
def view (x : Number) : View :=
  let bits := x.toBits.toNat
  let negative := bits / Nat.pow 2 63 == 1
  let scale : Nat := bits / Nat.pow 2 52 % Nat.pow 2 11
  let fraction : Nat := bits % Nat.pow 2 52
  if scale == 2047 then
    if fraction == 0 then .infinite negative else .nan
  else if scale == 0 then .finite negative ⟨fraction, -1074⟩
  else .finite negative ⟨Nat.pow 2 52 + fraction, (scale : Int) - 1075⟩

/-- The number with the given sign and magnitude. Exact for a mantissa below `2 ^ 53` whose exponent is
neither below -1074 nor so large that the number would be infinite. -/
def ofMagnitude (negative : Bool) (a : Magnitude) : Number :=
  let sign := if negative then Nat.pow 2 63 else 0
  if a.mantissa == 0 then Float.ofBits (UInt64.ofNat sign)
  else
    let shift := min (52 - a.mantissa.log2) (a.exponent + 1074).toNat
    let mantissa := a.mantissa * Nat.pow 2 shift
    let exponent := a.exponent - shift
    if mantissa < Nat.pow 2 52 then Float.ofBits (UInt64.ofNat (sign + mantissa))
    else
      Float.ofBits (UInt64.ofNat
        (sign + (exponent + 1075).toNat * Nat.pow 2 52 + (mantissa - Nat.pow 2 52)))

/-- The natural number that a number is, if it is one. Both zeros are 0. -/
def natural? (x : Number) : Option Nat :=
  match x.view with
  | .finite negative ⟨m, e⟩ =>
    if m == 0 then some 0
    else if negative then none
    else if 0 ≤ e then some (m * Nat.pow 2 e.toNat)
    else if m % Nat.pow 2 (-e).toNat == 0 then some (m / Nat.pow 2 (-e).toNat)
    else none
  | _ => none

/-- The remainder of a division whose quotient is cut off toward zero. It is exact and has the sign of the
dividend. -/
def remainder (x y : Number) : Number :=
  match x.view, y.view with
  | .finite negative ⟨m, e⟩, .finite _ ⟨n, f⟩ =>
    if n == 0 then nan
    else
      let exponent := min e f
      let dividend := m * Nat.pow 2 (e - exponent).toNat
      let divisor := n * Nat.pow 2 (f - exponent).toNat
      ofMagnitude negative ⟨dividend % divisor, exponent⟩
  | .finite .., .infinite _ => x
  | _, _ => nan

example :
    natural? 3 = some 3 ∧ natural? (-0.0) = some 0 ∧ natural? 2.5 = none ∧ natural? (-1) = none := by
  decide +kernel

example : remainder 5.5 (-2) = 1.5 ∧ remainder (-6) 3 = -0.0 ∧ remainder 1e300 7 = 1 := by
  decide +kernel

end Number

end EventFold
