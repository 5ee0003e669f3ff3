/-!
# Doubles

A double kept as its 64 bits, so that equality of values is decidable and
tells the two zeros apart.  Arithmetic goes through the machine's doubles.

## Main definitions

* `Double`: the bits;
* `Double.ofFloat`, `Double.toFloat`: from and to the machine's doubles;
* `Double.ofNat`, `Double.neg`: conversions of integers;
* `Double.infinity`, `Double.nan`, `Double.isFinite`: the values that are not
  numbers.
-/

namespace RouterCalldata

/-- A double, kept as its bits. -/
structure Double where
  bits : UInt64
  deriving DecidableEq, Repr

namespace Double

/-- The bits of a machine double. -/
def ofFloat (x : Float) : Double := ⟨x.toBits⟩

/-- The machine double of some bits. -/
def toFloat (x : Double) : Float := Float.ofBits x.bits

/-- The double nearest to a number of 64 bits. -/
def ofNat (n : Nat) : Double := ofFloat (UInt64.ofNat n).toFloat

/-- The double of opposite sign. -/
def neg (x : Double) : Double := ⟨x.bits ^^^ 0x8000000000000000⟩

/-- The infinity above zero. -/
def infinity : Double := ⟨0x7ff0000000000000⟩

/-- A value that is no number. -/
def nan : Double := ⟨0x7ff8000000000000⟩

/-- Whether the double is a number: all bits of the exponent are set in the
others. -/
def isFinite (x : Double) : Bool := x.bits.toNat / Nat.pow 2 52 % Nat.pow 2 11 != 0x7ff

end Double

end RouterCalldata
