import RouterCalldata.Number.Shortest

/-!
# The double nearest to a decimal

A decimal above zero lies in a range of doubles that are a unit `2 ^ q` apart.
It is divided by that unit and rounded to the nearest whole number, a tie going
to the even one.  The unit is chosen such that the quotient has 53 bits, but
never smaller than the least double above zero.

## Main definitions

* `roundQuotient`: a quotient of two numbers, rounded;
* `Decimal.unit`: the exponent `q` of the unit;
* `Decimal.nearest?`: the double nearest to a decimal, if it is finite.
-/

namespace RouterCalldata

/-- The whole number nearest to `num / den`, the even one of two at the same
distance. -/
def roundQuotient (num den : Nat) : Nat :=
  let below := num / den
  let rest := num % den
  if 2 * rest < den then below
  else if den < 2 * rest then below + 1
  else if below % 2 = 0 then below else below + 1

namespace Decimal

/-- The decimal as a fraction: numerator and denominator. -/
def fraction (d : Decimal) : Nat × Nat :=
  (d.digits * Nat.pow 10 d.exponent.toNat, Nat.pow 10 (-d.exponent).toNat)

/-- The exponent of the unit in which `num / den`, a number above zero, is
counted. -/
def unit (num den : Nat) : Int :=
  -- The number is above `2 ^ (b - 1)` and below `2 ^ (b + 1)`.
  let b : Int := (Nat.log2 num : Int) - (Nat.log2 den : Int)
  let isBelow := num * Nat.pow 2 (-b).toNat < den * Nat.pow 2 b.toNat
  max (if isBelow then b - 53 else b - 52) (-1074)

/-- The double nearest to a decimal, if it is finite. -/
def nearest? (d : Decimal) : Option Double :=
  -- The decimal is below `10 ^ point` and not below `10 ^ (point - 1)`.
  let point : Int := ((Nat.repr d.digits).length : Int) + d.exponent
  if d.digits = 0 ∨ point < -330 then some ⟨0⟩
  else if 310 < point then none
  else
    let (num, den) := d.fraction
    let q := unit num den
    let m := roundQuotient (num * Nat.pow 2 (-q).toNat) (den * Nat.pow 2 q.toNat)
    -- Bit 53 of the quotient, where it is set, adds to the field of the exponent.
    let bits := (q + 1074).toNat * Nat.pow 2 52 + m
    if bits < 0x7ff * Nat.pow 2 52 then some ⟨UInt64.ofNat bits⟩ else none

end Decimal

end RouterCalldata
