import RouterCalldata.Batch
import RouterCalldata.Document.Value

/-!
# Records and transactions as documents

Each type has a written form and a reader.  The reader ignores members of
other names, refuses a known name that is given twice, and fills in what has a
default.

A record's fields stand among its other members and not in an object of their
own.  Nobody asks for the type of such a member, so a scalar without quotes is
there what its spelling makes it.

## Main definitions

* `toDocument`, `ofDocument?` for `Version`, `ErrorMode`, `TxMetadata`,
  `SwapFields`, `SwapRecord` and `RawTransaction`;
* `Method.toDocument`: a method under the name of its router.
-/

namespace RouterCalldata

open Document (required optional orElse shown)

/-! ## Choices -/

namespace Version

/-- The written form. -/
def toDocument (v : Version) : Document := .string v.name

/-- Reads an exact spelling. -/
def ofDocument? (d : Document) : Option Version := d.asChoice?.bind ofLabel?

end Version

namespace ErrorMode

/-- The written form. -/
def toDocument (m : ErrorMode) : Document := .string m.name

/-- Reads an exact name. -/
def ofDocument? (d : Document) : Option ErrorMode := d.asChoice?.bind ofLabel?

end ErrorMode

/-- A method under the name of its router. -/
def Method.toDocument (m : Method) : Document :=
  .object [(m.version.name, .string m.name)]

/-! ## Transactions -/

namespace TxMetadata

/-- The members, in the order in which they are written. -/
def memberNames : List String := ["tx_hash", "to_address", "value", "chain_id"]

/-- The written form. -/
def toDocument (tx : TxMetadata) : Document :=
  .object <|
    [("tx_hash", .string tx.txHash), ("to_address", .string tx.toAddress),
      ("value", .string tx.value)] ++
    shown "chain_id" tx.chainId fun n => .number (.nat n)

/-- Reads a transaction's metadata; the value is empty by default. -/
def ofDocument? (d : Document) : Option TxMetadata := do
  let ms ← d.members? memberNames
  return {
    txHash := ← required ms "tx_hash" Document.asText?
    toAddress := ← required ms "to_address" Document.asText?
    value := ← orElse ms "value" "" Document.asText?
    chainId := ← optional ms "chain_id" Document.asNat? }

end TxMetadata

namespace RawTransaction

/-- The members, in the order in which they are written. -/
def memberNames : List String := ["calldata", "version", "meta"]

/-- The written form. -/
def toDocument (tx : RawTransaction) : Document :=
  .object [("calldata", .string (Hex.encode0x tx.calldata)), ("version", tx.version.toDocument),
    ("meta", tx.metadata.toDocument)]

/-- Reads a transaction. -/
def ofDocument? (d : Document) : Option RawTransaction := do
  let ms ← d.members? memberNames
  return {
    calldata := ← required ms "calldata" Document.asBytes?
    version := ← required ms "version" Version.ofDocument?
    metadata := ← required ms "meta" TxMetadata.ofDocument? }

end RawTransaction

/-! ## Fields -/

namespace SwapFields

/-- The members that show the set fields. -/
def toMembers (fs : SwapFields) : List (String × Document) :=
  fs.toList.map fun (f, text) => (f.name, .string text)

/-- The written form. -/
def toDocument (fs : SwapFields) : Document := .object fs.toMembers

/-- Reads the fields among some members. -/
def ofMembers? (ms : List (String × Document)) : Option SwapFields :=
  Field.all.foldlM
    (fun fs f => do
      match ← optional ms f.name Document.asText? with
      | some text => return fs.set f text
      | none => return fs) .empty

/-- Reads the fields. -/
def ofDocument? (d : Document) : Option SwapFields := do
  ofMembers? (← d.members? (Field.all.map Field.name))

end SwapFields

/-! ## Records -/

namespace SwapRecord

/-- The members that are not fields. -/
def memberNames : List String :=
  ["tx_hash", "version", "exchange", "method_id", "method_name", "to_address", "tx_value",
    "value", "number_of_calls", "calls_data"]

/-- The written form. -/
def toDocument (r : SwapRecord) : Document :=
  .object <|
    [("tx_hash", .string r.txHash), ("version", r.version.toDocument),
      ("exchange", .string r.exchange), ("method_id", .string r.methodId),
      ("method_name", .string r.methodName), ("to_address", .string r.toAddress),
      ("tx_value", .string r.txValue)] ++
    r.fields.toMembers ++
    shown "value" r.value (fun x => .number (.double x)) ++
    shown "number_of_calls" r.numberOfCalls (fun n => .number (.nat n)) ++
    (if r.callsData.isEmpty then []
      else [("calls_data", .array (r.callsData.map fun c => .string (Hex.encode0x c)))])

/-- Whether a member beside a record's own ones can be taken in at all: it may
turn out to be a field, so all of it has to be readable. -/
def takesIn (m : String × Document) : Bool :=
  memberNames.contains m.1 || m.2.isReadable

/-- Reads a record. -/
def ofDocument? (d : Document) : Option SwapRecord := do
  let ms ← d.entries?
  if !ms.all takesIn then failure
  return {
    txHash := ← required ms "tx_hash" Document.asText?
    version := ← required ms "version" Version.ofDocument?
    exchange := ← required ms "exchange" Document.asText?
    methodId := ← required ms "method_id" Document.asText?
    methodName := ← required ms "method_name" Document.asText?
    toAddress := ← required ms "to_address" Document.asText?
    txValue := ← required ms "tx_value" Document.asText?
    fields := ← SwapFields.ofMembers? (ms.map fun (name, d) => (name, d.resolved))
    value := ← optional ms "value" Document.asDouble?
    numberOfCalls := ← optional ms "number_of_calls" Document.asNat?
    callsData := ← orElse ms "calls_data" []
      fun d => d.asArray?.bind fun items => items.mapM Document.asBytes? }

end SwapRecord

end RouterCalldata
