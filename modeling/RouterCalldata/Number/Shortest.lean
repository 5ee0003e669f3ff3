import RouterCalldata.Number.Double

/-!
# The shortest decimal of a double

A finite double is `m · 2 ^ q`.  All reals between the midpoints to its two
neighbours round to it, the midpoints included when `m` is even.  Its text has
the fewest digits of any decimal in that interval, and among those the one
nearest to the value.

The search goes over the grids `10 ^ k` from coarse to fine.  If a grid has a
point in the interval, one of the two points next to the value is in it, so
only these two are tried.

## Main definitions

* `Binary`, `Double.binary`: the magnitude `m · 2 ^ q` of a finite double;
* `Decimal`: a number `digits · 10 ^ exponent`;
* `Binary.shortest`: the shortest decimal;
* `Double.text`: the written form, positional from `1e-5` up to `1e16`.
-/

namespace RouterCalldata

/-- The magnitude `m · 2 ^ q` of a double, and whether the gap below it is half
the gap above. -/
structure Binary where
  m : Nat
  q : Int
  narrowBelow : Bool
  deriving DecidableEq, Repr

/-- A number `digits · 10 ^ exponent`. -/
structure Decimal where
  digits : Nat
  exponent : Int
  deriving DecidableEq, Repr

namespace Double

/-- Whether the sign bit is set. -/
def isNegative (x : Double) : Bool := x.bits.toNat / Nat.pow 2 63 == 1

/-- The magnitude of a finite double. -/
def binary (x : Double) : Binary :=
  let fraction : Nat := x.bits.toNat % Nat.pow 2 52
  let exponent : Nat := x.bits.toNat / Nat.pow 2 52 % Nat.pow 2 11
  if exponent = 0 then ⟨fraction, -1074, false⟩
  else ⟨fraction + Nat.pow 2 52, (exponent : Int) - 1075, fraction == 0 && 1 < exponent⟩

end Double

namespace Binary

/-- A quarter of the unit of `x` as a fraction over `10 ^ k`: numerator and
denominator. -/
def quarter (x : Binary) (k : Int) : Nat × Nat :=
  let two := x.q - 2
  (Nat.pow 2 two.toNat * Nat.pow 10 (-k).toNat, Nat.pow 2 (-two).toNat * Nat.pow 10 k.toNat)

/-- Whether the point `d · 10 ^ k` rounds to `x`. -/
def holds (x : Binary) (k : Int) (d : Nat) : Bool :=
  let (num, den) := x.quarter k
  let low := (4 * x.m - (if x.narrowBelow then 1 else 2)) * num
  let high := (4 * x.m + 2) * num
  if x.m % 2 = 0 then low ≤ d * den && d * den ≤ high
  else low < d * den && d * den < high

/-- The point of the grid `10 ^ k` that rounds to `x` and is nearest to it, the
even one of two at the same distance. -/
def onGrid? (x : Binary) (k : Int) : Option Nat :=
  let (num, den) := x.quarter k
  let value := 4 * x.m * num
  let below := value / den
  let above := below + 1
  match x.holds k below, x.holds k above with
  | false, false => none
  | true, false => some below
  | false, true => some above
  -- Both neighbours read back, so the nearer one is taken.
  | true, true =>
      let fromBelow := value - below * den
      let fromAbove := above * den - value
      if fromBelow < fromAbove then some below
      else if fromAbove < fromBelow then some above
      else if below % 2 = 0 then some below else some above

/-- The first hit on the grids `10 ^ k`, `10 ^ (k - 1)`, …, `10 ^ (k - n)`. -/
def search (x : Binary) (k : Int) : Nat → Decimal
  | 0 => ⟨(x.onGrid? k).getD 0, k⟩
  | n + 1 =>
      match x.onGrid? k with
      | some d => ⟨d, k⟩
      | none => search x (k - 1) n

/-- The shortest decimal of a number above zero.  The number is below
`10 ^ 309` and not below `10 ^ (-324)`. -/
def shortest (x : Binary) : Decimal := x.search 309 634

end Binary

namespace Decimal

/-- Moves the zeros at the end of the digits into the exponent. -/
def trimZeros (d : Decimal) : Nat → Decimal
  | 0 => d
  | n + 1 =>
      if d.digits % 10 = 0 ∧ d.digits ≠ 0 then
        trimZeros ⟨d.digits / 10, d.exponent + 1⟩ n
      else d

/-- The written form of a decimal above zero.  A point and at least one digit
behind it are always shown in positional form. -/
def text (d : Decimal) : String :=
  let digits := (Nat.repr d.digits).toList
  let point := (digits.length : Int) + d.exponent
  let shown :=
    if 0 ≤ d.exponent ∧ point ≤ 16 then
      digits ++ List.replicate d.exponent.toNat '0' ++ ['.', '0']
    else if 0 < point ∧ point ≤ 16 then
      digits.take point.toNat ++ '.' :: digits.drop point.toNat
    else if -5 < point ∧ point ≤ 0 then
      '0' :: '.' :: (List.replicate (-point).toNat '0' ++ digits)
    else
      let mantissa := match digits with
        | [] => []
        | [c] => [c]
        | c :: rest => c :: '.' :: rest
      mantissa ++ 'e' :: (toString (point - 1)).toList
  String.ofList shown

end Decimal

namespace Double

/-- The written form of a finite double. -/
def text (x : Double) : String :=
  let b := x.binary
  let magnitude := if b.m = 0 then "0.0" else (b.shortest.trimZeros 20).text
  if x.isNegative then "-" ++ magnitude else magnitude

end Double

end RouterCalldata
