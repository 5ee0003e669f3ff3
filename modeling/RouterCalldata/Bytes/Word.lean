import RouterCalldata.Bytes.Offset

/-!
# Words of a buffer

Parameters are laid out in words of 32 bytes, integers in big-endian order.
An address is the low 20 bytes of its word, whatever the other 12 hold.  The
readers below take the buffer as it comes and never look past its end.

## Main definitions

* `slice`, `window`: the two cuts, one for positions that come from the data
  and one for positions that were checked before;
* `word`, `readUint`, `readUintRange`, `readAddress`, `readHexRange`: the
  values held at a position, in their written form;
* `readOffset`: a word that holds a position or a length;
* `wordOffset`: the position of the word of a given index.
-/

namespace RouterCalldata

/-- Bytes in a word. -/
abbrev wordSize : Nat := 32

/-- Bytes in an address. -/
abbrev addressSize : Nat := 20

/-- The position of the word `index`, in arithmetic modulo 64 bits. -/
def wordOffset (index : Nat) : Nat :=
  index * wordSize % Offset.limit

namespace Bytes

/-! ## Cuts -/

/-- The `len` bytes from `start`, wherever these two numbers come from. -/
def slice (buf : Bytes) (start len : Nat) : Decoded Bytes :=
  match Offset.checkedAdd start len with
  | none => .error (.outOfBounds (.range start len))
  | some stop =>
      if stop ≤ buf.length then .ok ((buf.drop start).take len)
      else .error (.truncated start len (buf.length - start))

/-- The bytes from `start` up to `stop`, two positions known to lie in the
buffer in this order. -/
def window (buf : Bytes) (start stop : Nat) : Decoded Bytes :=
  if start ≤ stop ∧ stop ≤ buf.length then .ok ((buf.drop start).take (stop - start))
  else .error (.fault .window)

/-! ## Numbers -/

/-- The number that bytes denote in big-endian order. -/
def toNat (bs : Bytes) : Nat :=
  bs.foldl (fun n b => 256 * n + b.toNat) 0

/-- The decimal numeral of the number that bytes denote. -/
def decimal (bs : Bytes) : String :=
  Nat.repr (toNat bs)

/-- Zero bytes in front, up to a whole word. -/
def padWord (bs : Bytes) : Decoded Bytes := do
  let zeros ← Offset.sub wordSize bs.length
  return List.replicate zeros 0 ++ bs

/-! ## Readers -/

/-- The word that starts at `offset`. -/
def word (buf : Bytes) (offset : Nat) : Decoded Bytes :=
  slice buf offset wordSize

/-- The whole word at `offset` as a decimal numeral. -/
def readUint (buf : Bytes) (offset : Nat) : Decoded String := do
  return decimal (← word buf offset)

/-- The `len` bytes from `start`, at most a word, as a decimal numeral. -/
def readUintRange (buf : Bytes) (start len : Nat) : Decoded String := do
  if wordSize < len then throw (.outOfBounds (.wideInteger len))
  let bytes ← slice buf start len
  return decimal (← padWord bytes)

/-- The address in the low 20 bytes of the word at `offset`. -/
def readAddress (buf : Bytes) (offset : Nat) : Decoded String := do
  let w ← word buf offset
  return Hex.encode0x (w.drop (wordSize - addressSize))

/-- The `len` bytes from `start` in hex. -/
def readHexRange (buf : Bytes) (start len : Nat) : Decoded String := do
  return Hex.encode0x (← slice buf start len)

/-- The address in the 20 bytes from `start`, as a packed path holds it. -/
def readPackedAddress (buf : Bytes) (start : Nat) : Decoded String :=
  readHexRange buf start addressSize

/-- The word at `offset` as a position or a length.  A number of more than 64
bits is neither. -/
def readOffset (buf : Bytes) (offset : Nat) : Decoded Nat := do
  let w ← word buf offset
  if (w.take 24).any (· != 0) then throw (.outOfBounds (.wideOffset offset))
  return toNat (w.drop 24)

/-! ## The selector of a call -/

/-- The first four bytes. -/
def readSelector (calldata : Bytes) : Decoded Selector := do
  let head ← slice calldata 0 4
  match Selector.ofBytes? head with
  | some selector => return selector
  | none => throw (.fault .window)

end Bytes

end RouterCalldata
