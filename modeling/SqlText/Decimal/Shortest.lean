import SqlText.Decimal.Binary64

/-!
# The shortest decimal of a binary number

A decimal *reads back* as the binary number `m * 2 ^ q` if it lies in the interval of reals that
round to it. The shortest such decimal is found by trying grids of one, two and more significant
digits: on each grid only the two neighbours of the number can be the nearest to it, and the first
grid on which one of them reads back is taken. Of two neighbours that read back the nearer is taken,
and of two equally near the greater.

All comparisons are between natural numbers: a decimal `d * 10 ^ e` and a multiple of `2 ^ (q - 2)`
are compared after both are scaled by the powers of two and ten that make them whole.
-/

namespace SqlText

/-- A positive decimal: its first digit counts `10 ^ exponent`, its last digit is not zero. -/
structure Decimal where
  digits : List Char
  exponent : Int
  deriving DecidableEq

namespace Decimal

/-- A positive binary number `mantissa * 2 ^ exponent`. -/
structure Target where
  mantissa : Nat
  exponent : Int

namespace Target

/-- The unit in which the number and the ends of its interval are whole: a quarter of the last
place of the mantissa, as numerator and denominator. -/
def unitNumerator (t : Target) : Nat :=
  Nat.pow 2 (t.exponent - 2).toNat

/-- The denominator of the unit. -/
def unitDenominator (t : Target) : Nat :=
  Nat.pow 2 (2 - t.exponent).toNat

/-- The number in units. -/
def centre (t : Target) : Nat :=
  4 * t.mantissa

/-- The lower end of the interval in units. Below a power of two the numbers lie twice as dense. -/
def lower (t : Target) : Nat :=
  if t.mantissa = Nat.pow 2 52 ∧ -1074 < t.exponent then 4 * t.mantissa - 1 else 4 * t.mantissa - 2

/-- The upper end of the interval in units. -/
def upper (t : Target) : Nat :=
  4 * t.mantissa + 2

/-- The decimal `d * 10 ^ e` on the common scale. -/
def scaleDecimal (t : Target) (d : Nat) (e : Int) : Nat :=
  d * Nat.pow 10 e.toNat * t.unitDenominator

/-- So many units on the common scale. -/
def scaleUnits (t : Target) (units : Nat) (e : Int) : Nat :=
  units * t.unitNumerator * Nat.pow 10 (-e).toNat

/-- Whether `d * 10 ^ e` reads back; the ends of the interval do for an even mantissa. -/
def readsBack (t : Target) (d : Nat) (e : Int) : Bool :=
  let x := t.scaleDecimal d e
  let lo := t.scaleUnits t.lower e
  let hi := t.scaleUnits t.upper e
  if t.mantissa % 2 = 0 then lo ≤ x && x ≤ hi else lo < x && x < hi

/-- The exponent of the leading decimal digit of the number. -/
def leadingExponent (t : Target) : Int :=
  let num := t.centre * t.unitNumerator
  let den := t.unitDenominator
  if den ≤ num then ((Nat.toDigits 10 (num / den)).length : Int) - 1
  else -((Nat.toDigits 10 ((den + num - 1) / num - 1)).length : Int)

/-- The better of the two neighbours of the number on the grid `10 ^ e`, if one reads back. -/
def neighbour? (t : Target) (e : Int) : Option Nat :=
  let value := t.scaleUnits t.centre e
  let below := value / (Nat.pow 10 e.toNat * t.unitDenominator)
  let above := below + 1
  if t.readsBack below e then
    if t.readsBack above e ∧ t.scaleDecimal below e + t.scaleDecimal above e ≤ 2 * value then
      some above
    else some below
  else if t.readsBack above e then some above
  else none

end Target

/-- Drops the zeros at the end of a list of digits. -/
def dropTrailingZeros (digits : List Char) : List Char :=
  (digits.reverse.dropWhile (· = '0')).reverse

/-- The decimal `d * 10 ^ e`. -/
def ofScaled (d : Nat) (e : Int) : Decimal :=
  let digits := Nat.toDigits 10 d
  ⟨dropTrailingZeros digits, e + digits.length - 1⟩

/-- The shortest decimal that reads back as the positive number `mantissa * 2 ^ exponent`.
Seventeen digits are always enough. -/
def shortest (mantissa : Nat) (exponent : Int) : Decimal :=
  let t : Target := ⟨mantissa, exponent⟩
  let k := t.leadingExponent
  let grids := (List.range 17).map fun (n : Nat) => k - n
  match grids.findSome? fun e => (t.neighbour? e).map fun d => ofScaled d e with
  | some decimal => decimal
  | none => ofScaled 0 0

end Decimal

end SqlText
