import SqlText.Decimal.Shortest

/-!
# How floating point literals are spelled

The fewest digits that read back, positional from `1e-4` up to but not including `1e16` and with one
digit at least on each side of the point, otherwise with an exponent. Zero keeps its sign, NaN has
none.
-/

namespace SqlText

namespace Decimal

/-- The exponents of the first digit that are written positionally. -/
def isPositional (exponent : Int) : Bool :=
  -4 ≤ exponent && exponent < 16

/-- Positional spelling, with one digit at least on each side of the point. -/
def positional (x : Decimal) : List Char :=
  if x.exponent < 0 then
    '0' :: '.' :: List.replicate (-x.exponent - 1).toNat '0' ++ x.digits
  else
    let count := x.exponent.toNat + 1
    let whole := x.digits.take count ++ List.replicate (count - x.digits.length) '0'
    let fraction := x.digits.drop count
    whole ++ '.' :: if fraction = [] then ['0'] else fraction

/-- Spelling with an exponent; a single digit has no point. -/
def scientific (x : Decimal) : List Char :=
  let tail := match x.digits.drop 1 with
    | [] => []
    | rest => '.' :: rest
  x.digits.take 1 ++ tail ++ 'e' :: (toString x.exponent).toList

/-- The spelling of a positive decimal. -/
def spelling (x : Decimal) : List Char :=
  if isPositional x.exponent then x.positional else x.scientific

end Decimal

/-- The spelling of a floating point number. -/
def Binary64.spelling (x : Binary64) : String :=
  match x.view with
  | .nan => "NaN"
  | .infinite negative => if negative then "-inf" else "inf"
  | .finite negative mantissa exponent =>
    let magnitude :=
      if mantissa = 0 then ['0', '.', '0'] else (Decimal.shortest mantissa exponent).spelling
    String.ofList (if negative then '-' :: magnitude else magnitude)

end SqlText
