import SqlText.Digits

/-!
# Binary floating point numbers of 64 bits

A number is given by its bit pattern: sign, eleven bits of exponent and 52 bits of fraction.
`Binary64.view` says what number the pattern stands for.
-/

namespace SqlText

/-- A floating point number by its bit pattern. -/
structure Binary64 where
  bits : UInt64
  deriving DecidableEq

namespace Binary64

/-- What a bit pattern stands for. A finite number is `mantissa * 2 ^ exponent`, up to its sign. -/
inductive View where
  | nan
  | infinite (negative : Bool)
  | finite (negative : Bool) (mantissa : Nat) (exponent : Int)

/-- Whether the sign bit is set. -/
def isNegative (x : Binary64) : Bool :=
  x.bits.toNat / Nat.pow 2 63 = 1

/-- The eleven bits of the exponent. -/
def exponentField (x : Binary64) : Nat :=
  x.bits.toNat / Nat.pow 2 52 % Nat.pow 2 11

/-- The 52 bits of the fraction. -/
def fractionField (x : Binary64) : Nat :=
  x.bits.toNat % Nat.pow 2 52

/-- The number that a bit pattern stands for. -/
def view (x : Binary64) : View :=
  if x.exponentField = 2047 then
    if x.fractionField = 0 then .infinite x.isNegative else .nan
  else if x.exponentField = 0 then .finite x.isNegative x.fractionField (-1074)
  else .finite x.isNegative (x.fractionField + Nat.pow 2 52) ((x.exponentField : Int) - 1075)

/-- Reads a bit pattern in hexadecimal, perhaps behind a plus sign. -/
def ofHex? (text : String) : Option Binary64 :=
  let digits := match text.toList with
    | '+' :: rest => rest
    | all => all
  match digits, Digits.hexValue? digits with
  | _ :: _, some bits => if bits < Nat.pow 2 64 then some ⟨bits.toUInt64⟩ else none
  | _, _ => none

end Binary64

end SqlText
