import SqlText.Decimal.Binary64

/-!
# The range of binary floating point

Whether a decimal is too large for a floating point number of 64 bits. The decimal is given by a
significand and a power of ten. Both are rounded to floating point numbers, and so is their product;
the decimal is out of range if that product reaches `2 ^ 1024`, the first power of two that is no
longer finite. Near the end of the range the three roundings can add up to more than a single one
would, so some decimals just below the largest finite number are out of range too.
-/

namespace SqlText.Binary64

/-- A natural number rounded to 53 significant bits: to the nearest, and halfway to the even one. -/
def roundNat (n : Nat) : Nat :=
  let unit := Nat.pow 2 (n.log2 - 52)
  let below := n / unit
  let rest := n % unit
  if 2 * rest < unit ∨ (2 * rest = unit ∧ below % 2 = 0) then below * unit else (below + 1) * unit

/-- The greatest power of ten that is finite when rounded. -/
def greatestPower : Nat := 308

/-- Whether `significand * 10 ^ exponent` is out of range. Zero never is, and neither is a
significand of 64 bits with a negative exponent. -/
def overflows (significand : Nat) (exponent : Int) : Bool :=
  if significand = 0 ∨ exponent < 0 then false
  else if greatestPower < exponent.toNat then true
  else
    Nat.pow 2 1024 ≤ roundNat (roundNat significand * roundNat (Nat.pow 10 exponent.toNat))

end SqlText.Binary64
