import RouterCalldata.Number.Double
import RouterCalldata.Record.Fields
import RouterCalldata.Method

/-!
# Decoded calls

A record is what one router call turns into: the transaction it came in, the
method and the method's fields.

## Main definitions

* `TxMetadata`: what the caller knows of a transaction besides its calldata;
* `SwapRecord`: one decoded call;
* `SwapRecord.ofCall`: the record of a call in a transaction, under the default exchange label;
* `SwapRecord.ofMethod`: the record of a method's fields in a transaction, under a given label;
* `SwapRecord.within`: a record as one of a multicall's.
-/

namespace RouterCalldata

/-- What is known of a transaction besides its calldata. -/
structure TxMetadata where
  txHash : String
  /-- The router the transaction is sent to. -/
  toAddress : String
  /-- The native value that comes with the transaction, as a numeral. -/
  value : String
  chainId : Option Nat
  deriving DecidableEq, Repr

/-- A transaction of no value and no chain. -/
def TxMetadata.ofCall (txHash toAddress : String) : TxMetadata :=
  { txHash, toAddress, value := "0", chainId := none }

/-- The exchange label of a decoder that is not told otherwise. -/
def defaultExchange : String := "Uniswap"

/-- One decoded call. -/
structure SwapRecord where
  txHash : String
  version : Version
  exchange : String
  /-- The selector in hex, without a mark. -/
  methodId : String
  methodName : String
  toAddress : String
  txValue : String
  fields : SwapFields
  /-- A valuation, which no decoder fills in. -/
  value : Option Double
  /-- How many calls the enclosing multicall declares. -/
  numberOfCalls : Option Nat
  /-- The undecoded calls of a multicall that is only staged. -/
  callsData : List Bytes
  deriving DecidableEq

namespace SwapRecord

/-- The record of a call in the transaction `tx`, under the default exchange
label. -/
def ofCall (tx : TxMetadata) (version : Version) (methodId methodName : String)
    (fields : SwapFields) : SwapRecord :=
  { txHash := tx.txHash, version, exchange := defaultExchange, methodId, methodName,
    toAddress := tx.toAddress, txValue := tx.value, fields, value := none,
    numberOfCalls := none, callsData := [] }

/-- The record of a method's fields in the transaction `tx`. -/
def ofMethod (tx : TxMetadata) (exchange : String) (m : Method) (fields : SwapFields) :
    SwapRecord :=
  { ofCall tx m.version m.selector.hex m.name fields with exchange }

/-- The same record as one of `n` calls, unless it already belongs to a
multicall further in. -/
def within (r : SwapRecord) (n : Nat) : SwapRecord :=
  { r with numberOfCalls := some (r.numberOfCalls.getD n) }

/-- The text of the field of a given name. -/
def field? (r : SwapRecord) (name : String) : Option String :=
  r.fields.get? name

/-- The selector in hex behind a mark. -/
def selectorHex (r : SwapRecord) : String :=
  "0x" ++ r.methodId

end SwapRecord

end RouterCalldata
