import RouterCalldata.Command.Outcome
import RouterCalldata.Config
import RouterCalldata.Document.Json.Writer
import RouterCalldata.Record.Form
import RouterCalldata.Router

/-!
# The commands `decode` and `methods`

`decode` shows the records of one call; `methods` lists the method tables or
looks a selector up in them.

## Main definitions

* `DecodeArgs`, `Command.decode`: one call, as JSON or as text;
* `MethodsArgs`, `Command.methods`: tables and look-ups.
-/

namespace RouterCalldata

/-- What `decode` is asked for. -/
structure DecodeArgs where
  calldata : String
  version : Option Version
  toAddress : String
  txHash : String
  value : String
  json : Bool
  deriving DecidableEq, Repr

/-- What `methods` is asked for. -/
structure MethodsArgs where
  version : Option Version
  selector : Option String
  deriving DecidableEq, Repr

namespace SwapFields

/-- The set fields in the order of their names. -/
def byName (fs : SwapFields) : List (String × String) :=
  (fs.toList.map fun (f, text) => (f.name, text)).mergeSort fun a b => decide (a.1 ≤ b.1)

end SwapFields

namespace SwapRecord

/-- The lines that show a record. -/
def lines (r : SwapRecord) : List String :=
  [s!"Method:   {r.methodName} (0x{r.methodId})", s!"Version:  {r.version.name}"] ++
  (match r.numberOfCalls with
    | some n => [s!"Calls:    {n}"]
    | none => []) ++
  "Fields:" :: r.fields.byName.map fun (name, text) => s!"  {name}: {text}"

/-- The lines that show records; several of them are numbered. -/
def listing : List SwapRecord → List String
  | [] => ["(empty multicall, no records)"]
  | [r] => r.lines
  | rs => (rs.zipIdx.map fun (r, i) => s!"[{i}]" :: r.lines).flatten

end SwapRecord

namespace Command

/-- The version of a call: the one that is named, or the one served at the
address the call is sent to. -/
def versionOf (version : Option Version) (toAddress : String) : Option Version :=
  version.or (Router.versionOf? toAddress)

/-- Decodes one call. -/
def decode (config : Config) (args : DecodeArgs) : Except CommandError Outcome := do
  let some version := versionOf args.version args.toAddress
    | throw (.plain
        s!"cannot infer router version from --to '{args.toAddress}'; pass --version v2|v3")
  let tx := { TxMetadata.ofCall args.txHash args.toAddress with value := args.value }
  match config.decoder.decodeHex version tx args.calldata with
  | .error e => throw (.dueTo "decode calldata" e.message)
  | .ok records =>
      if args.json then
        let document := Document.array (records.map SwapRecord.toDocument)
        return .printed (document.toJsonLines ++ "\n")
      else return .printed (unlines (SwapRecord.listing records))

/-- Blanks behind a text, up to a width. -/
def padRight (s : String) (width : Nat) : String :=
  s ++ String.ofList (List.replicate (width - s.length) ' ')

/-- The lines that show a method. -/
def methodLines (m : Method) : List String :=
  let flags := (if m.info.ethIn then ["eth-in"] else []) ++
    (if m.info.ethOut then ["eth-out"] else [])
  let flags := String.intercalate "," flags
  [s!"  {m.version.name} 0x{m.selector.hex}  " ++ padRight m.name 40 ++ " " ++ flags,
    "       " ++ m.info.signature]

/-- The lines that show a method table. -/
def tableLines (v : Version) : List String :=
  let methods := Method.table v
  s!"{v.name} router ({methods.length} methods):" :: methods.flatMap methodLines ++ [""]

/-- Lists the method tables, or looks a selector up in them. -/
def methods (args : MethodsArgs) : Except CommandError Outcome := do
  let versions := match args.version with
    | some v => [v]
    | none => Version.all
  match args.selector with
  | none => return .printed (unlines (versions.flatMap tableLines))
  | some text =>
      match Selector.read text with
      | .error e => throw (.plain e.message)
      | .ok selector =>
          let found := versions.filterMap (Method.ofSelector? · selector)
          if found.isEmpty then
            throw (.plain s!"selector {text} is not a registered router method")
          return .printed (unlines (found.flatMap methodLines))

end Command

end RouterCalldata
