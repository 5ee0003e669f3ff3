import RouterCalldata.Bytes.Word
import RouterCalldata.Record.Fields

/-!
# Parameter layouts

What a method's parameter block holds is data: a list of slots, each naming a
field and the place its text is read from, and for the swap methods the place
of the token path.  One reader serves every method.

Slots are read in the order listed, so the first one that fails decides which
error is reported.

## Main definitions

* `Source`, `Slot`: a place in the block, and the field read there;
* `Layout`: the four shapes of a parameter block;
* `readTokenPath`: first and last token of an address array;
* `PackedPath`, `readPackedPath`: the ends, the first fee and the number of
  pools of a packed path;
* `Layout.decode`: the fields of a block.
-/

namespace RouterCalldata

/-! ## Slots -/

/-- A place in a parameter block, with the form its text takes. -/
inductive Source
  /-- A whole word as an integer. -/
  | uint (word : Nat)
  /-- The address in a word. -/
  | address (word : Nat)
  /-- An unaligned integer of less than a word. -/
  | uintRange (start len : Nat)
  deriving DecidableEq, Repr

/-- The text found at a place. -/
def Source.read (buf : Bytes) : Source → Decoded String
  | uint w => Bytes.readUint buf (wordOffset w)
  | address w => Bytes.readAddress buf (wordOffset w)
  | uintRange start len => Bytes.readUintRange buf start len

/-- A field and the place it is read from. -/
abbrev Slot := Field × Source

/-- Reads slots in order into `fields`. -/
def readSlots (buf : Bytes) (fields : SwapFields) : List Slot → Decoded SwapFields
  | [] => .ok fields
  | (field, source) :: rest => do
      let text ← source.read buf
      readSlots buf (fields.set field text) rest

/-! ## Token paths -/

/-- First and last token of the address array whose offset is in the word
`slot`. -/
def readTokenPath (params : Bytes) (slot : Nat) : Decoded (String × String) := do
  let offset ← Bytes.readOffset params (wordOffset slot)
  let len ← Bytes.readOffset params offset
  if len < 2 then throw (.malformed (.shortPath len))
  let first? := Offset.checkedAdd offset wordSize
  let last? := (Offset.checkedMul len wordSize).bind (Offset.checkedAdd offset)
  match first?, last? with
  -- The length word stands in front of the array, so entry `i` is word `i + 1` behind `offset`.
  | some first, some last =>
      let start ← Bytes.readAddress params first
      let stop ← Bytes.readAddress params last
      return (start, stop)
  | _, _ => throw (.outOfBounds (.path len offset))

/-- Bytes in a fee tier. -/
abbrev feeSize : Nat := 3

/-- Bytes that one more pool adds to a packed path. -/
abbrev hopSize : Nat := addressSize + feeSize

/-- The ends of a packed path `token | fee | token | … | token`. -/
structure PackedPath where
  first : String
  last : String
  /-- The fee of the first pool. -/
  fee : String
  /-- The number of pools. -/
  hops : Nat
  deriving DecidableEq, Repr

/-- The packed path whose length word is at `offset`. -/
def readPackedPath (buf : Bytes) (offset : Nat) : Decoded PackedPath := do
  let len ← Bytes.readOffset buf offset
  if len < addressSize + hopSize then throw (.malformed (.packedPathLength len))
  let tail ← Offset.sub len addressSize
  if tail % hopSize ≠ 0 then throw (.malformed (.packedPathLength len))
  let some start := Offset.checkedAdd offset wordSize
    | throw (.outOfBounds (.packedPath offset))
  -- From here on positions are relative to the first token.
  let path ← Bytes.slice buf start len
  let first ← Bytes.readPackedAddress path 0
  let fee ← Bytes.readHexRange path addressSize feeSize
  let last ← Bytes.readPackedAddress path tail
  return { first, last, fee, hops := tail / hopSize }

/-- The tuple that holds a packed path, and the path.  Word 0 of the block is
the offset of the tuple, word 0 of the tuple the offset of the path in it. -/
def readPathTuple (params : Bytes) : Decoded (Bytes × PackedPath) := do
  let tupleOffset ← Bytes.readOffset params (wordOffset 0)
  if params.length < tupleOffset then throw (.truncated tupleOffset wordSize 0)
  let tuple := params.drop tupleOffset
  -- The offset in the tuple counts from the start of the tuple.
  let pathOffset ← Bytes.readOffset tuple (wordOffset 0)
  let path ← readPackedPath tuple pathOffset
  return (tuple, path)

/-! ## Layouts -/

/-- Which end of a packed path the swap starts from. -/
inductive PathOrder
  /-- The path lists the tokens from the one that is sold. -/
  | inputFirst
  /-- The path lists the tokens from the one that is bought. -/
  | outputFirst
  deriving DecidableEq, Repr

/-- The shape of a parameter block. -/
inductive Layout
  /-- Fixed words only. -/
  | fixed (slots : List Slot)
  /-- Fixed words, and an address array whose offset is in the word `slot`. -/
  | tokenPath (slot : Nat) (slots : List Slot)
  /-- A tuple of a packed path and fixed words. -/
  | packedPath (order : PathOrder) (slots : List Slot)
  /-- An array of calls. -/
  | calls
  deriving DecidableEq, Repr

/-- The ends of a path as fields. -/
def SwapFields.ofPath (start stop : String) : SwapFields :=
  (SwapFields.empty.set .tokenPathFrom start).set .tokenPathTo stop

/-- The fields of a packed path. -/
def PackedPath.fields (path : PackedPath) : PathOrder → SwapFields
  | .inputFirst => (SwapFields.ofPath path.first path.last).set .fee path.fee
  | .outputFirst => (SwapFields.ofPath path.last path.first).set .fee path.fee

/-- The fields of the parameter block of the method called `method`.  A path
is read before the slots; an array of calls has no fields of its own. -/
def Layout.decode (method : String) (params : Bytes) : Layout → Decoded SwapFields
  | fixed slots => readSlots params .empty slots
  | tokenPath slot slots => do
      let (start, stop) ← readTokenPath params slot
      readSlots params (.ofPath start stop) slots
  | packedPath order slots => do
      let (tuple, path) ← readPathTuple params
      readSlots tuple (path.fields order) slots
  | calls => throw (.malformed (.nestedOnly method))

end RouterCalldata
