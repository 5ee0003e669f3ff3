import RouterCalldata.Bytes.Keccak
import RouterCalldata.Main
import RouterCalldata.Proofs.Batch.Progress
import RouterCalldata.Proofs.Bytes.HexGrammar
import RouterCalldata.Proofs.Command.Agreement
import RouterCalldata.Proofs.Command.Comparison
import RouterCalldata.Proofs.Command.FieldLookup
import RouterCalldata.Proofs.Command.FixtureRun
import RouterCalldata.Proofs.Config.Directives
import RouterCalldata.Proofs.Config.Overlay
import RouterCalldata.Proofs.Decoder.Classification
import RouterCalldata.Proofs.Decoder.DepthLimit
import RouterCalldata.Proofs.Decoder.Extended
import RouterCalldata.Proofs.Decoder.Faultless
import RouterCalldata.Proofs.Decoder.FixedLength
import RouterCalldata.Proofs.Decoder.RecordCount
import RouterCalldata.Proofs.Decoder.RecordForm
import RouterCalldata.Proofs.Decoder.Stamp
import RouterCalldata.Proofs.Method.Acceptance
import RouterCalldata.Proofs.Method.ReadSet
import RouterCalldata.Proofs.Method.Siblings
import RouterCalldata.Proofs.Multicall.CallTree
import RouterCalldata.Proofs.Multicall.Layout
import RouterCalldata.Proofs.Multicall.WordIndex
import RouterCalldata.Proofs.Record.Integers
