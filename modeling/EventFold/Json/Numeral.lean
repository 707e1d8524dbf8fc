import EventFold.Json.Basic

/-!
# Numbers of JSON texts

A numeral is a sign, a whole part without leading zeros, a fraction and an exponent. An integer of 64
bits is kept as it is. Any other number is read in two steps, each of which rounds: as many digits as
fit a word of 64 bits are taken for a number, and that is multiplied or divided by a power of ten. So a
numeral of more than fifteen digits may be read as a neighbour of the number nearest to it.
-/

namespace EventFold.Json

structure Literal where
  negative : Bool
  whole : List Char
  fraction : Option (List Char)
  exponent : Option Int
deriving DecidableEq

def digits? (s : List Char) : Option (List Char × List Char) :=
  let (ds, rest) := Number.splitDigits s
  if ds.isEmpty then none else some (ds, rest)

/-- The digits before the point: a zero stands alone. -/
def whole? (s : List Char) : Option (List Char × List Char) := do
  let (ds, rest) ← digits? s
  guard (ds.head? != some '0' || ds.length == 1)
  return (ds, rest)

def fraction? : List Char → Option (Option (List Char) × List Char)
  | '.' :: s => (digits? s).map fun (ds, rest) => (some ds, rest)
  | s => some (none, s)

def power? : List Char → Option (Option Int × List Char)
  | [] => some (none, [])
  | c :: s =>
    if c == 'e' || c == 'E' then do
      let (negative, s) := Number.splitSign s
      let (ds, rest) ← digits? s
      let n := Nat.ofDigitChars 10 ds 0
      return (some (if negative then -(n : Int) else n), rest)
    else some (none, c :: s)

def literal? (s : List Char) : Option (Literal × List Char) := do
  let (negative, s) :=
    match s with
    | '-' :: s => (true, s)
    | s => (false, s)
  let (whole, s) ← whole? s
  let (fraction, s) ← fraction? s
  let (exponent, s) ← power? s
  return (⟨negative, whole, fraction, exponent⟩, s)

def maxWord : Nat := Nat.pow 2 64 - 1

/-- Takes digits behind those of `word` as long as all fit a word; also the number of those taken. -/
def takeDigits (word : Nat) : List Char → Nat × Nat
  | [] => (word, 0)
  | d :: ds =>
    let next := 10 * word + (d.toNat - '0'.toNat)
    if next ≤ maxWord then
      let (word, taken) := takeDigits next ds
      (word, taken + 1)
    else (word, 0)

def powerOfTen (n : Nat) : Number := Float.ofScientific 1 false n

/-- `x * 10 ^ exponent` for an `x` below `2 ^ 64`, if it is finite. The last negative power that is not zero
takes two divisions. -/
def scale? (x : Number) (exponent : Int) : Option Number :=
  if 308 < exponent then
    if x == 0 then some x else none
  else if 0 ≤ exponent then
    let y := x * powerOfTen exponent.toNat
    if y.isFinite then some y else none
  else if -308 ≤ exponent then some (x / powerOfTen (-exponent).toNat)
  else if -616 ≤ exponent then some (x / powerOfTen 308 / powerOfTen (-exponent - 308).toNat)
  else some 0

def Literal.number? (l : Literal) : Option Number :=
  let (word, wholeTaken) := takeDigits 0 l.whole
  let (word, fractionTaken) := takeDigits word (l.fraction.getD [])
  let exponent : Int := l.exponent.getD 0 + (l.whole.length - wholeTaken : Nat) - fractionTaken
  (scale? (Float.ofNat word) exponent).map fun x => if l.negative then -x else x

/-- The integer that a literal is, if it is written as one, fits 64 bits and is not a negative zero. -/
def Literal.integer? (l : Literal) : Option Int :=
  if l.fraction.isNone && l.exponent.isNone then
    let n := Nat.ofDigitChars 10 l.whole 0
    if l.negative then if 0 < n && n ≤ Nat.pow 2 63 then some (-(n : Int)) else none
    else if n ≤ maxWord then some n else none
  else none

/-- What a literal means. None if its number is beyond the largest finite one. -/
def Literal.numeral? (l : Literal) : Option Numeral :=
  match l.integer? with
  | some n => some (.integer n)
  | none => l.number?.map .real

example : ((literal? ['-', '0', ',']).bind fun l => l.1.numeral?) = some (.real (-0.0)) := by decide +kernel

end EventFold.Json
