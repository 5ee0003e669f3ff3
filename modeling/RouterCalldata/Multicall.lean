import RouterCalldata.Record

/-!
# Arrays of calls

A multicall's parameter block holds an array of byte strings, each of them the
calldata of one call.  Behind the head words come the number of calls, a table
of offsets relative to the end of that number, and the calls, each behind its
length.

A call's region runs from its own offset to the next one, and from the last
offset to the end of the block.  The regions have to lie in the block in
order; a call may not be longer than its region.

## Main definitions

* `element`: the call in a region;
* `elements`: the calls at a table of offsets;
* `split`: the calls of a parameter block;
* `stage`: the record of a multicall whose calls are kept undecoded.
-/

namespace RouterCalldata.Multicall

/-- The call number `index`, whose region has the given ends. -/
def element (params : Bytes) (index : Nat) : Option Nat → Option Nat → Decoded Bytes
  | some start, some stop =>
      if start ≤ stop ∧ stop ≤ params.length then do
        let region ← Bytes.window params start stop
        let len ← Bytes.readOffset region 0
        -- The length word has been read, so the region holds at least one word.
        let held ← Offset.sub region.length wordSize
        if held < len then throw (.malformed (.elementLength index len held))
        Bytes.window region wordSize (wordSize + len)
      else .error (.malformed (.elementRegion index))
  | _, _ => .error (.malformed (.elementRegion index))

/-- The calls at a table of offsets relative to `base`, the first of them being
number `index`. -/
def elements (params : Bytes) (base index : Nat) : List Nat → Decoded (List Bytes)
  | [] => .ok []
  | offset :: rest => do
      let stop? := match rest with
        | [] => some params.length
        | next :: _ => Offset.checkedAdd base next
      let call ← element params index (Offset.checkedAdd base offset) stop?
      let calls ← elements params base (index + 1) rest
      return call :: calls

/-- The calls of a parameter block whose word `headWord` holds the offset of
the array. -/
def split (params : Bytes) (headWord : Nat) : Decoded (List Bytes) := do
  let arrayOffset ← Bytes.readOffset params (wordOffset headWord)
  -- The array has to follow the head words directly.
  let expected := wordOffset (headWord + 1)
  if arrayOffset ≠ expected then throw (.malformed (.arrayOffset arrayOffset expected))
  let count ← Bytes.readOffset params arrayOffset
  let base ← Offset.add arrayOffset wordSize
  -- A count too large for the table of offsets is refused before any offset is read.
  let available := params.length - base
  if available / wordSize < count then
    throw (.truncated base (min (count * wordSize) (Offset.limit - 1)) available)
  let offsets ← (List.range count).mapM fun i => do
    Bytes.readOffset params (← Offset.add base (← Offset.mul i wordSize))
  elements params base 0 offsets

/-- The multicall method that has a given selector, and its head word. -/
def ofSelector? (s : Selector) : Option (V3Method × Nat) := do
  let m ← V3Method.ofSelector? s
  let headWord ← m.headWord?
  return (m, headWord)

/-- The record of a multicall whose calls are kept undecoded, under a given
exchange label. -/
def stage (exchange : String) (tx : TxMetadata) (calldata : Bytes) : Decoded SwapRecord := do
  let selector ← Bytes.readSelector calldata
  let some (m, headWord) := ofSelector? selector | throw (.unknownSelector selector .v3)
  let calls ← split (← Bytes.window calldata 4 calldata.length) headWord
  return { SwapRecord.ofMethod tx exchange (.v3 m) .empty with
    numberOfCalls := some calls.length, callsData := calls }

end RouterCalldata.Multicall
