import SqlText.Decimal.Range
import SqlText.Json

/-!
# Numerals

A number of a JSON text as it is spelled, and the JSON value that it stands for. A numeral whose
magnitude is out of the range of floating point stands for no value, even where an integer is
spelled.

The magnitude is judged by the leading digits, as many as a word of 64 bits can hold; the digits
behind them only count as powers of ten.
-/

namespace SqlText.Json

/-- A number as it is spelled. -/
structure Numeral where
  negative : Bool
  /-- The digits in front of the point. -/
  whole : List Char
  /-- The digits behind the point; none if there is no point. -/
  fraction : List Char
  /-- The letter, the sign and the digits of the exponent; none if there is no exponent. -/
  exponent : List Char
  deriving DecidableEq

namespace Numeral

/-! ## Reading -/

/-- Splits the leading decimal digits off; there must be one at least. -/
def digits1 (input : List Char) : Option (List Char × List Char) :=
  match input.span Char.isDigit with
  | ([], _) => none
  | parts => some parts

/-- Splits the digits of a whole number off: no zero stands in front of another digit. -/
def readWhole (input : List Char) : Option (List Char × List Char) :=
  match digits1 input with
  | some ('0' :: _ :: _, _) => none
  | parts => parts

/-- Splits a fraction off, if there is one. -/
def readFraction : List Char → Option (List Char × List Char)
  | '.' :: rest => digits1 rest
  | rest => some ([], rest)

/-- Splits an exponent off, if there is one. -/
def readExponent : List Char → Option (List Char × List Char)
  | c :: rest =>
    if c = 'e' ∨ c = 'E' then
      match rest with
      | '+' :: rest => (digits1 rest).map fun (ds, rest) => (c :: '+' :: ds, rest)
      | '-' :: rest => (digits1 rest).map fun (ds, rest) => (c :: '-' :: ds, rest)
      | rest => (digits1 rest).map fun (ds, rest) => (c :: ds, rest)
    else some ([], c :: rest)
  | [] => some ([], [])

/-- Splits a numeral off. -/
def read (input : List Char) : Option (Numeral × List Char) := do
  let (negative, input) := match input with
    | '-' :: rest => (true, rest)
    | rest => (false, rest)
  let (whole, input) ← readWhole input
  let (fraction, input) ← readFraction input
  let (exponent, input) ← readExponent input
  return (⟨negative, whole, fraction, exponent⟩, input)

/-! ## Magnitude -/

/-- Appends digits to a significand while it fits into 64 bits, and gives back the others. -/
def extend (significand : Nat) : List Char → Nat × List Char
  | [] => (significand, [])
  | c :: rest =>
    let longer := 10 * significand + Digits.value [c]
    if longer < Nat.pow 2 64 then extend longer rest else (significand, c :: rest)

/-- The value of the exponent. -/
def power (n : Numeral) : Int :=
  match n.exponent.drop 1 with
  | '-' :: digits => -(Digits.value digits : Int)
  | '+' :: digits => Digits.value digits
  | digits => Digits.value digits

/-- Whether the magnitude is in the range of floating point. -/
def inRange (n : Numeral) : Bool :=
  let (leading, skipped) := extend 0 n.whole
  let (significand, ignored) := extend leading n.fraction
  let used := n.fraction.length - ignored.length
  !Binary64.overflows significand (skipped.length - used + n.power)

/-! ## Value -/

/-- The numeral as it is spelled. -/
def chars (n : Numeral) : List Char :=
  (if n.negative then ['-'] else []) ++ n.whole ++
    (if n.fraction = [] then [] else '.' :: n.fraction) ++ n.exponent

/-- Whether an integer is spelled: without point and exponent, and not `-0`. -/
def isInteger (n : Numeral) : Bool :=
  n.fraction = [] && n.exponent = [] && !(n.negative && Digits.value n.whole = 0)

/-- The value of a numeral, unless it is out of range. -/
def toJson? (n : Numeral) : Option Json :=
  let magnitude := Digits.value n.whole
  if !n.inRange then none
  else if n.isInteger then some (.int (if n.negative then -(magnitude : Int) else magnitude))
  else some (.decimal (String.ofList n.chars))

end Numeral

end SqlText.Json
