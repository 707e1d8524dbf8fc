import EventFold.Number.Decimal
import EventFold.Text.Blank

/-!
# Numerals

A numeral is a text that means a number as a whole: an optional sign, then `inf` or `infinity` in any
case, or digits with an optional point among, before or behind them and an optional exponent. There is
no numeral for NaN. A text operand of arithmetic counts as a number when it is a numeral between blanks.
-/

namespace EventFold.Number

/-- An optional sign (true for a minus) and what follows it. -/
def splitSign : List Char → Bool × List Char
  | '-' :: s => (true, s)
  | '+' :: s => (false, s)
  | s => (false, s)

def splitDigits (s : List Char) : List Char × List Char :=
  (s.takeWhile Char.isDigit, s.dropWhile Char.isDigit)

/-- A whole text that is an optional sign and at least one digit, as an integer. -/
def exponent? (s : List Char) : Option Int :=
  let (negative, s) := splitSign s
  if !s.isEmpty && s.all Char.isDigit then
    let n := Nat.ofDigitChars 10 s 0
    some (if negative then -(n : Int) else n)
  else none

def unsignedDecimal? (s : List Char) : Option Decimal := do
  let (whole, s) := splitDigits s
  let (fraction, s) :=
    match s with
    | '.' :: s => splitDigits s
    | s => ([], s)
  guard (!(whole.isEmpty && fraction.isEmpty))
  let exponent ←
    match s with
    | [] => some 0
    | c :: s => if c == 'e' || c == 'E' then exponent? s else none
  return .ofDigits (whole ++ fraction) (exponent - fraction.length)

def unsignedNumeral? (s : List Char) : Option Number :=
  let lower := s.map Char.toLower
  if lower == "inf".toList || lower == "infinity".toList then some (1 / 0)
  else (unsignedDecimal? s).map Decimal.toNumber

def numeral? (s : List Char) : Option Number :=
  let (negative, s) := splitSign s
  (unsignedNumeral? s).map fun x => if negative then -x else x

def ofText? (s : String) : Option Number :=
  numeral? (Text.trim s.toList)

end EventFold.Number
