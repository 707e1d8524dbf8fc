/-!
# Natural numbers

A natural number is written in digits, with an optional plus sign before them; it may begin with zeros.
-/

namespace EventFold.Text

def natural? (s : List Char) : Option Nat :=
  let digits := match s with
    | '+' :: digits => digits
    | digits => digits
  if !digits.isEmpty && digits.all Char.isDigit then some (Nat.ofDigitChars 10 digits 0) else none

end EventFold.Text
