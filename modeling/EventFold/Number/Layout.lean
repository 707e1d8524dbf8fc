import EventFold.Number.Decimal

/-!
# How numbers are laid out

A `Layout` holds the decisions of one written form of numbers: which decimal exponents are written
positionally, whether a whole number keeps a `.0`, the sign of a written exponent, and which way
a tie between two shortest decimals goes. `Layout.render` follows it.
-/

namespace EventFold

structure Layout where
  /-- The exponents of the leading digit that are written positionally. -/
  positional : Int → Bool
  pointZero : Bool
  exponentPlus : Bool
  tie : Decimal.Tie

namespace Layout

/-- Plain text for people: always positional, whole numbers without a point. -/
def plain : Layout where
  positional _ := true
  pointZero := false
  exponentPlus := false
  tie := .upward

/-- JSON text: positional from `1e-5` up to below `1e16`, whole numbers with `.0`, signed exponents. -/
def json : Layout where
  positional e := -5 ≤ e && e < 16
  pointZero := true
  exponentPlus := true
  tie := .toEven

/-- The form in which messages show a number that was refused: positional from `1e-4` up to below `1e16`. -/
def shown : Layout where
  positional e := -4 ≤ e && e < 16
  pointZero := true
  exponentPlus := false
  tie := .upward

def positionalText (pointZero : Bool) (d : Decimal) : List Char :=
  let size := d.digits.length
  let places := (-d.exponent).toNat
  if 0 ≤ d.exponent then
    let whole := if size == 0 then ['0'] else d.digits ++ List.replicate d.exponent.toNat '0'
    if pointZero then whole ++ ['.', '0'] else whole
  else if places < size then
    d.digits.take (size - places) ++ '.' :: d.digits.drop (size - places)
  else ['0', '.'] ++ List.replicate (places - size) '0' ++ d.digits

def exponentText (plus : Bool) (e : Int) : List Char :=
  (if e < 0 then ['-'] else if plus then ['+'] else []) ++ Nat.toDigits 10 e.natAbs

def scientificText (plus : Bool) (d : Decimal) : List Char :=
  let exponent := d.exponent + d.digits.length - 1
  match d.digits with
  | [] => ['0']
  | [digit] => digit :: 'e' :: exponentText plus exponent
  | digit :: rest => digit :: '.' :: rest ++ 'e' :: exponentText plus exponent

def decimalText (l : Layout) (d : Decimal) : List Char :=
  if d.digits.isEmpty || l.positional (d.exponent + d.digits.length - 1) then
    positionalText l.pointZero d
  else scientificText l.exponentPlus d

def render (l : Layout) (x : Number) : List Char :=
  match x.view with
  | .nan => ['N', 'a', 'N']
  | .infinite negative => (if negative then ['-'] else []) ++ ['i', 'n', 'f']
  | .finite negative a =>
    (if negative then ['-'] else []) ++ l.decimalText (Number.shortest l.tie a)

example : plain.render 0.1 = ['0', '.', '1'] ∧ plain.render (-0.0) = ['-', '0'] := by decide +kernel

example : json.render 1e21 = ['1', 'e', '+', '2', '1'] ∧ json.render 100 = ['1', '0', '0', '.', '0'] := by
  decide +kernel

example : shown.render 1.5e-7 = ['1', '.', '5', 'e', '-', '7'] := by decide +kernel

end Layout

end EventFold
