import RouterCalldata.Decoder

/-!
# Batches of transactions

A batch is decoded chunk by chunk, with a report after each chunk.  What
becomes of a transaction that does not decode is up to the error mode: it is
dropped and counted, it is returned beside the records, or it ends the batch.

The engine takes the decoder as a function, so that nothing here depends on
what calls look like.

## Main definitions

* `ErrorMode`: the three ways to treat a failure;
* `RawTransaction`: a transaction waiting to be decoded;
* `chunks`: a list cut into pieces;
* `Batch.Request`, `Batch.Result`, `Batch.Outcome`: what goes in and comes out;
* `Batch.run`: decodes a batch.
-/

namespace RouterCalldata

/-- What becomes of a transaction that does not decode. -/
inductive ErrorMode
  /-- It is dropped and counted. -/
  | skip
  /-- Its error is returned beside the records of the others. -/
  | collect
  /-- It ends the batch. -/
  | throw
  deriving DecidableEq, Repr

namespace ErrorMode

/-- The written name. -/
def name : ErrorMode → String
  | skip => "skip"
  | collect => "collect"
  | throw => "throw"

/-- The mode of exactly this name. -/
def ofLabel? (s : String) : Option ErrorMode :=
  if s = "skip" then some skip
  else if s = "collect" then some collect
  else if s = "throw" then some throw
  else none

/-- Reads a mode in any letter case.  The refusal is the text shown to the
user. -/
def read (s : String) : Except String ErrorMode :=
  let t := s.map Char.toLower
  match ofLabel? t with
  | some mode => .ok mode
  | none => .error s!"unknown error mode '{t}' (skip|collect|throw)"

end ErrorMode

/-- A transaction waiting to be decoded. -/
structure RawTransaction where
  calldata : Bytes
  version : Version
  metadata : TxMetadata
  deriving DecidableEq, Repr

/-- A transaction whose calldata is given in hex. -/
def RawTransaction.ofHex (calldata : String) (version : Version) (metadata : TxMetadata) :
    Decoded RawTransaction := do
  return { calldata := ← Hex.read calldata, version, metadata }

/-- Cuts a list into pieces of `size` elements, the last one possibly shorter.
A size of zero counts as one. -/
def chunks {α : Type} (size : Nat) : List α → List (List α)
  | [] => []
  | x :: xs => (x :: xs.take (size - 1)) :: chunks size (xs.drop (size - 1))
termination_by xs => xs.length
decreasing_by simp only [List.length_drop, List.length_cons]; omega

namespace Batch

/-- How a batch is to be decoded. -/
structure Config where
  /-- Transactions in a chunk. -/
  chunkSize : Nat
  errorMode : ErrorMode
  deriving DecidableEq, Repr

/-- Chunks of ten thousand, failures dropped. -/
def Config.default : Config := { chunkSize := 10000, errorMode := .skip }

instance : Inhabited Config := ⟨Config.default⟩

/-- A batch with the way to decode it. -/
structure Request where
  txs : List RawTransaction
  chunkSize : Nat
  errorMode : ErrorMode
  /-- Whether the caller asks for reports. -/
  reports : Bool
  deriving DecidableEq, Repr

/-- A batch under a configuration, without reports. -/
def Request.ofConfig (txs : List RawTransaction) (config : Config) : Request :=
  { txs, chunkSize := config.chunkSize, errorMode := config.errorMode, reports := false }

/-- A batch under the default configuration, without reports. -/
def Request.ofList (txs : List RawTransaction) : Request :=
  ofConfig txs .default

/-- What a decoded batch gives. -/
structure Result where
  /-- The records in the order of the transactions. -/
  records : List SwapRecord
  /-- The failures that are returned, each with the position of its
  transaction in the batch. -/
  errors : List (Nat × DecodeError)
  /-- How many transactions were dropped. -/
  skipped : Nat
  /-- How many transactions there were. -/
  totalInput : Nat
  deriving DecidableEq

/-- The failure that ended a batch. -/
structure ItemFailed where
  index : Nat
  source : DecodeError
  deriving DecidableEq, Repr

/-- The text shown to the user. -/
def ItemFailed.message (e : ItemFailed) : String :=
  s!"Decode error at index {e.index}: {e.source.message}"

/-- The reports made, each the number of transactions done and their total,
and how the batch ended. -/
structure Outcome where
  progress : List (Nat × Nat)
  result : Except ItemFailed Result

/-- A decoder as the engine sees it. -/
abbrev Decode := RawTransaction → Decoded (List SwapRecord)

/-- Sorts the results of the transactions of a chunk into records and
failures. -/
def sortOut : List (Decoded (List SwapRecord) × Nat) → List SwapRecord × List (Nat × DecodeError)
  | [] => ([], [])
  | (result, position) :: rest =>
      let (records, errors) := sortOut rest
      match result with
      | .ok rs => (rs ++ records, errors)
      | .error e => (records, (position, e) :: errors)

/-- Records and failures of a chunk, each failure with the position of its
transaction in the chunk. -/
def decodeChunk (decode : Decode) (chunk : List RawTransaction) :
    List SwapRecord × List (Nat × DecodeError) :=
  sortOut (chunk.map decode).zipIdx

/-- Takes the records and failures of a chunk up into what is there already,
`done` transactions having been decoded before the chunk. -/
def Result.add (mode : ErrorMode) (done : Nat) (r : Result) (records : List SwapRecord)
    (errors : List (Nat × DecodeError)) : Except ItemFailed Result :=
  match mode with
  | .skip => .ok { r with records := r.records ++ records, skipped := r.skipped + errors.length }
  | .collect =>
      .ok { r with
        records := r.records ++ records
        errors := r.errors ++ errors.map fun (position, e) => (done + position, e) }
  | .throw =>
      match errors with
      | [] => .ok { r with records := r.records ++ records }
      -- Failures are listed in the order of the transactions.
      | (position, source) :: _ => .error { index := done + position, source }

/-- Decodes chunk after chunk, `done` transactions having been decoded
before. -/
def runChunks (decode : Decode) (mode : ErrorMode) (done : Nat) (r : Result) :
    List (List RawTransaction) → Outcome
  | [] => { progress := [], result := .ok r }
  | chunk :: rest =>
      let (records, errors) := decodeChunk decode chunk
      match r.add mode done records errors with
      | .error e => { progress := [], result := .error e }
      | .ok r =>
          let done := done + chunk.length
          let outcome := runChunks decode mode done r rest
          { outcome with progress := (done, r.totalInput) :: outcome.progress }

/-- Decodes a batch. -/
def run (decode : Decode) (request : Request) : Outcome :=
  let empty : Result :=
    { records := [], errors := [], skipped := 0, totalInput := request.txs.length }
  let outcome :=
    runChunks decode request.errorMode 0 empty (chunks request.chunkSize request.txs)
  if request.reports then outcome else { outcome with progress := [] }

end Batch

/-- A decoder as the batch engine sees it. -/
def Decoder.decodeRaw (d : Decoder) : Batch.Decode := fun tx =>
  d.decode tx.version tx.metadata tx.calldata

end RouterCalldata
