import RouterCalldata.Bytes.Hex

/-!
# Selectors

The first four bytes of a call name the method that is called.

## Main definitions

* `Selector`: four bytes, with `toBytes` and `hex`;
* `Selector.ofBytes?`: the selector that four bytes are;
* `Selector.parse`: reads a selector from hex text.
-/

namespace RouterCalldata

/-- The four bytes that name a method. -/
structure Selector where
  b0 : UInt8
  b1 : UInt8
  b2 : UInt8
  b3 : UInt8
  deriving DecidableEq, Repr

namespace Selector

/-- The four bytes in order. -/
def toBytes (s : Selector) : Bytes := [s.b0, s.b1, s.b2, s.b3]

/-- Eight lowercase hex digits without a mark. -/
def hex (s : Selector) : String := Hex.encode s.toBytes

/-- The selector made of exactly four bytes. -/
def ofBytes? : Bytes → Option Selector
  | [b0, b1, b2, b3] => some ⟨b0, b1, b2, b3⟩
  | _ => none

@[simp] theorem ofBytes?_toBytes (s : Selector) : ofBytes? s.toBytes = some s := rfl

/-- Exactly the byte strings of length four are selectors. -/
theorem isSome_ofBytes?_iff (bs : Bytes) : (ofBytes? bs).isSome ↔ bs.length = 4 := by
  rcases bs with _ | ⟨b0, _ | ⟨b1, _ | ⟨b2, _ | ⟨b3, _ | ⟨b4, bs⟩⟩⟩⟩⟩ <;> simp [ofBytes?]

/-- Reads a selector from hex text. -/
def parse (s : String) : Except HexError Selector := do
  let bytes ← Hex.parse s
  match ofBytes? bytes with
  | some selector => return selector
  | none => throw (.selectorSize bytes.length)

end Selector

end RouterCalldata
