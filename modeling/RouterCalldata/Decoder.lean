import RouterCalldata.Multicall

/-!
# Decoding calldata

A call is either plain, one method of the caller's version with its parameter
block, or a multicall, which both versions know and whose calls are calls of
the newer router.  A plain call decodes to one record; a multicall decodes to
the records of the plain calls inside it in order, however deeply they are
nested.  The first call that fails makes the whole multicall fail.

The depth of a call is the number of multicalls around it.  A multicall whose
own depth has reached the limit is refused before its calls are looked at.

## Main definitions

* `Call`, `Call.read`: the two kinds of call;
* `Decoder`: how deep multicalls may nest, and the exchange label to stamp;
* `Decoder.decodeAtDepth`: the records of a call inside other multicalls;
* `Decoder.decode`, `Decoder.decodeHex`: the records of a call;
* `Decoder.method`: the method a call is of;
* `Decoder.stage`: a multicall with its calls left undecoded.
-/

namespace RouterCalldata

/-- A call, cut into method and parameter block. -/
inductive Call
  | plain (method : Method) (params : Bytes)
  /-- An array of calls behind the word `headWord`. -/
  | multicall (method : V3Method) (headWord : Nat) (params : Bytes)
  deriving DecidableEq

namespace Call

/-- Cuts calldata into method and parameter block.  A multicall is recognised
whatever the version. -/
def read (version : Version) (calldata : Bytes) : Decoded Call := do
  let selector ← Bytes.readSelector calldata
  let params ← Bytes.window calldata 4 calldata.length
  match Multicall.ofSelector? selector with
  | some (m, headWord) => return multicall m headWord params
  | none => return plain (← Method.resolve version selector) params

/-- The method that is called. -/
def method : Call → Method
  | plain m _ => m
  | multicall m _ _ => .v3 m

end Call

/-- How calldata is to be decoded. -/
structure Decoder where
  /-- How many multicalls may be nested inside one another. -/
  maxMulticallDepth : Nat
  /-- The label stamped into each record. -/
  exchange : String
  deriving DecidableEq, Repr

namespace Decoder

/-- Four levels of multicalls, and the default label. -/
def default : Decoder := { maxMulticallDepth := 4, exchange := defaultExchange }

instance : Inhabited Decoder := ⟨default⟩

/-- The record of a plain call. -/
def record (d : Decoder) (tx : TxMetadata) (m : Method) (params : Bytes) :
    Decoded SwapRecord := do
  return SwapRecord.ofMethod tx d.exchange m (← m.decode params)

/-- The records of a call that stands inside `depth` multicalls. -/
def decodeAtDepth (d : Decoder) (tx : TxMetadata) (depth : Nat) (version : Version)
    (calldata : Bytes) : Decoded (List SwapRecord) := do
  match ← Call.read version calldata with
  | .plain m params => return [← d.record tx m params]
  | .multicall _ headWord params =>
      if depth < d.maxMulticallDepth then
        let calls ← Multicall.split params headWord
        -- The calls inside are calls of the newer router, whatever the version was out here.
        let records ← calls.mapM (d.decodeAtDepth tx (depth + 1) .v3)
        return records.flatten.map (·.within calls.length)
      else
        let level ← Offset.add depth 1
        throw (.malformed (.nestingDepth level d.maxMulticallDepth))
termination_by d.maxMulticallDepth - depth

/-- The records of a call. -/
def decode (d : Decoder) (version : Version) (tx : TxMetadata) (calldata : Bytes) :
    Decoded (List SwapRecord) :=
  d.decodeAtDepth tx 0 version calldata

/-- The records of a call given in hex. -/
def decodeHex (d : Decoder) (version : Version) (tx : TxMetadata) (calldata : String) :
    Decoded (List SwapRecord) := do
  d.decode version tx (← Hex.read calldata)

/-- The method a call is of. -/
def method (version : Version) (calldata : Bytes) : Decoded Method := do
  return (← Call.read version calldata).method

/-- A multicall with its calls left undecoded. -/
def stage (d : Decoder) (tx : TxMetadata) (calldata : Bytes) : Decoded SwapRecord :=
  Multicall.stage d.exchange tx calldata

end Decoder

end RouterCalldata
