import RouterCalldata.Command.Decode
import RouterCalldata.Command.FileTree
import RouterCalldata.Document.Json.Reader

/-!
# The command `batch`

The input holds one transaction a line.  All lines are read before the first
one is decoded, so a line that is no transaction fails the command before
anything is written.

## Main definitions

* `BatchLine`: a line as it is written; `BatchLine.toRaw`: the transaction it
  stands for;
* `splitLines`: the lines of a file;
* `Command.readLines`: the transactions of a file;
* `BatchArgs`, `Command.batch`: decodes a file of transactions.
-/

namespace RouterCalldata

/-- A transaction as a line of a batch file writes it. -/
structure BatchLine where
  calldata : String
  version : Option String
  txHash : String
  toAddress : String
  value : String
  deriving DecidableEq, Repr

namespace BatchLine

/-- The members of a line. -/
def memberNames : List String := ["calldata", "version", "txHash", "to", "value"]

/-- Reads a line's document. -/
def ofDocument? (d : Document) : Option BatchLine := do
  let ms ← d.members? memberNames
  return {
    calldata := ← Document.required ms "calldata" Document.asText?
    version := ← Document.optional ms "version" Document.asText?
    txHash := ← Document.orElse ms "txHash" "" Document.asText?
    toAddress := ← Document.orElse ms "to" "" Document.asText?
    value := ← Document.orElse ms "value" "0" Document.asText? }

/-- The version of a line's call, or what is wrong with it. -/
def readVersion (l : BatchLine) : Except String Version :=
  match l.version with
  | some text => (Version.read text).mapError DecodeError.message
  | none =>
      match Router.versionOf? l.toAddress with
      | some v => .ok v
      | none => .error s!"no version and unknown router '{l.toAddress}'"

/-- The transaction of a line, or what is wrong with it. -/
def toRaw (l : BatchLine) : Except String RawTransaction := do
  let version ← l.readVersion
  let tx := { TxMetadata.ofCall l.txHash l.toAddress with value := l.value }
  (RawTransaction.ofHex l.calldata version tx).mapError DecodeError.message

end BatchLine

/-! ## Lines of a file -/

/-- The bytes passed in a line, without the carriage return in front of its
end. -/
def dropReturn : Bytes → Bytes
  | 13 :: rest => rest
  | seen => seen

/-- The lines of a file, `seen` being the bytes passed in the first one, last
first. -/
def splitLinesFrom (seen : Bytes) : Bytes → List Bytes
  | [] => if seen.isEmpty then [] else [seen.reverse]
  | b :: rest =>
      if b = 10 then (dropReturn seen).reverse :: splitLinesFrom [] rest
      else splitLinesFrom (b :: seen) rest

/-- The lines of a file without their ends. -/
def splitLines (bs : Bytes) : List Bytes := splitLinesFrom [] bs

/-- What `batch` is asked for. -/
structure BatchArgs where
  input : String
  chunkSize : Option Nat
  mode : Option ErrorMode
  deriving DecidableEq, Repr

namespace Command

/-- The transaction of the line number `n`, unless the line is blank. -/
def readLine (input : String) (n : Nat) (bs : Bytes) :
    Except CommandError (Option RawTransaction) := do
  let some line := textOfUtf8? bs | throw (.plain FileError.notText.message)
  if (Text.trimChars line.toList).isEmpty then return none
  let some l := (Document.ofJson? line).bind BatchLine.ofDocument?
    | throw (.dueTo s!"{input}:{n}: invalid JSON" unreadableDocument)
  match l.toRaw with
  | .ok tx => return some tx
  | .error reason => throw (.dueTo s!"{input}:{n}" reason)

/-- The transactions of some lines, the first of them having the number
`n`. -/
def readLines (input : String) (n : Nat) :
    List Bytes → Except CommandError (List RawTransaction)
  | [] => .ok []
  | bs :: rest => do
      let tx ← readLine input n bs
      let txs ← readLines input (n + 1) rest
      return tx.toList ++ txs

/-- The configuration a batch runs under: what is asked for comes before what
is configured. -/
def batchConfig (config : Config) (args : BatchArgs) : Batch.Config :=
  { chunkSize := args.chunkSize.getD config.batch.chunkSize,
    errorMode := args.mode.getD config.batch.errorMode }

/-- The lines that sum a batch up, behind those of the failures and in front of
the one that tells the time. -/
def batchSummary (r : Batch.Result) : List String :=
  (r.errors.map fun failure => s!"  ✗ transaction {failure.1}: {failure.2.message}") ++
  ["", "Results:", s!"  Transactions: {r.totalInput}", s!"  Records:      {r.records.length}",
    s!"  Errors:       {r.errors.length}", s!"  Skipped:      {r.skipped}"]

/-- Decodes a file of transactions. -/
def batch (files : Lookup) (config : Config) (args : BatchArgs) :
    Except CommandError Outcome := do
  let content ← match files args.input with
    | .ok (.file content) => pure content
    | .ok (.directory _) => throw (.plain FileError.isDirectory.message)
    | .error e => throw (.dueTo s!"open '{args.input}'" e.message)
  let txs ← readLines args.input 1 (splitLines content)
  let request := Batch.Request.ofConfig txs (batchConfig config args)
  match (Batch.run config.decoder.decodeRaw request).result with
  | .error e => throw (.dueTo e.message e.source.message)
  | .ok r =>
      return { exitCode := 0,
               stdout := unlines (r.records.map fun r => r.toDocument.toJson),
               stderr := unlines (batchSummary r),
               timed := true }

end Command

end RouterCalldata
