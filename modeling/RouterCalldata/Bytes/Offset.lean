import RouterCalldata.DecodeError

/-!
# Offsets

Positions and lengths are numbers of 64 bits.  They are kept as natural
numbers, and each operation here states what happens at the end of the range:
a checked one gives nothing, an unchecked one is a fault.

## Main definitions

* `checkedAdd`, `checkedMul`: sums and products that may be missing;
* `add`, `sub`, `mul`: the same where the decoder expects no overflow;
* `limit`: the first number that is no offset.
-/

namespace RouterCalldata.Offset

/-- The first number that does not fit in 64 bits. -/
abbrev limit : Nat := Nat.pow 2 64

/-- A sum, where it fits. -/
def checkedAdd (a b : Nat) : Option Nat :=
  if a + b < limit then some (a + b) else none

/-- A product, where it fits. -/
def checkedMul (a b : Nat) : Option Nat :=
  if a * b < limit then some (a * b) else none

/-- A sum that is expected to fit. -/
def add (a b : Nat) : Decoded Nat :=
  if a + b < limit then .ok (a + b) else .error (.fault .overflow)

/-- A product that is expected to fit. -/
def mul (a b : Nat) : Decoded Nat :=
  if a * b < limit then .ok (a * b) else .error (.fault .overflow)

/-- A difference that is expected not to go below zero. -/
def sub (a b : Nat) : Decoded Nat :=
  if b ≤ a then .ok (a - b) else .error (.fault .overflow)

end RouterCalldata.Offset
