import RouterCalldata.Proofs.Command.BatchRun
import RouterCalldata.Proofs.Command.CallText

/-!
# One call, on the command line or in a line of a file

The commands `decode` and `batch` read a call from different places, fill in what is left out on
their own, and report a failure in their own words.  What becomes of the call is stated once,
without either of them, and each command is shown to do just that.  The two are compared on command
lines and on the bytes of a file, so that the reading of both is part of the comparison.

## Main definitions

* `Program.runUnder`: a run whose configuration is loaded;
* `CallRefusal`: why a call gives no records, and how each command ends for that reason;
* `CallText.records`: the records of a call as it is written down;
* `CallText.IsOnlyLineOf`: a file that holds the call and nothing else.

## Main results

* `Program.run_underConfig`: a run of the program is one under the configuration that it loads;
* `CallText.runUnder_decodeLine`, `CallText.runUnder_batchLine`: what each command makes of a call;
* `CallText.isOnlyLineOf_toJson`: there is such a file for every call;
* `CallText.decode_agrees_batch`: both commands give the same records, or fail for the same reason.
-/

namespace RouterCalldata

open Document (Rearranged)

/-! ## Runs under a configuration -/

/-- A run of the program once its configuration is loaded. -/
def Program.runUnder (files : Lookup) (config : Config) (args : List String) : Outcome :=
  match Invocation.ofArgs args with
  | .error e => e.outcome
  | .ok i => .ofResult (perform files i.verbose config i.request)

/-- A run loads the configuration it is told to, or has the defaults. -/
theorem Program.run_eq_runUnder {files : Lookup} {config : Config} {args : List String}
    (h : ∀ i, Invocation.ofArgs args = .ok i →
      i.config.elim (.ok .default) (loadConfig files) = .ok config) :
    run files args = runUnder files config args := by
  unfold run runUnder
  cases hargs : Invocation.ofArgs args with
  | error e => rfl
  | ok i =>
    have hconfig := h i hargs
    dsimp only
    unfold invoke
    cases hpath : i.config with
    | none =>
      rw [hpath] at hconfig
      obtain rfl : Config.default = config := Except.ok.inj hconfig
      rfl
    | some path =>
      rw [hpath] at hconfig
      have hload : loadConfig files path = .ok config := hconfig
      dsimp only
      rw [hload]
      rfl

/-- A configuration that is loaded for a command, and not behind it, is the one it runs under. -/
theorem Program.run_underConfig {files : Lookup} {config : Config} {name : String}
    {command : CommandName} {rest : List String} (h : CommandName.ofText? name = some command)
    (hnone : ∀ i, Invocation.ofArgs (name :: rest) = .ok i → i.config = none)
    {path : Option String} (hload : path.elim (.ok .default) (loadConfig files) = .ok config) :
    run files (Invocation.underConfig path (name :: rest)) =
      runUnder files config (name :: rest) := by
  have hargs := Invocation.ofArgs_underConfig h path rest
  cases hline : Invocation.ofArgs (name :: rest) with
  | error e =>
    rw [hline] at hargs
    have hrefused : Invocation.ofArgs (Invocation.underConfig path (name :: rest)) = .error e :=
      hargs
    rw [run, runUnder, hrefused, hline]
  | ok i =>
    have hi := hnone i hline
    rw [hline] at hargs
    have hasked : Invocation.ofArgs (Invocation.underConfig path (name :: rest)) =
        .ok { i with config := path } := by
      rw [hargs, Except.map, hi, Option.none_or]
    have hconfig : ∀ i', Invocation.ofArgs (Invocation.underConfig path (name :: rest)) = .ok i' →
        i'.config.elim (.ok .default) (loadConfig files) = .ok config := by
      intro i' hi'
      rw [hasked] at hi'
      obtain rfl := Except.ok.inj hi'
      exact hload
    rw [run_eq_runUnder hconfig, runUnder, runUnder, hasked, hline]

/-! ## What becomes of a call -/

/-- Why a call gives no records: something is wrong with it as it is written down, or, once it is
read, it does not decode. -/
inductive CallRefusal
  | written (fault : CallFault)
  | undecodable (e : DecodeError)
  deriving DecidableEq, Repr

namespace CallRefusal

/-- What `decode` writes.  The text of a version is looked at with the other arguments. -/
def decodeText : CallRefusal → String
  | written (.badVersion text) =>
      s!"error: invalid value '{text}' for '--version <v2|v3>': " ++
        (CallFault.badVersion text).reason ++ "\n\nFor more information, try '--help'.\n"
  | written (.unknownRouter address) =>
      s!"Error: cannot infer router version from --to '{address}'; pass --version v2|v3\n"
  | written (.badHex cause) =>
      "Error: decode calldata\n\nCaused by:\n" ++
        CommandError.indented (CallFault.badHex cause).reason ++ "\n"
  | undecodable e =>
      "Error: decode calldata\n\nCaused by:\n" ++ CommandError.indented e.message ++ "\n"

/-- How `decode` fails: with the code of a wrong command line if that is what is wrong. -/
def decodeOutcome (refusal : CallRefusal) : Outcome where
  exitCode := match refusal with
    | written (.badVersion _) => 2
    | _ => 1
  stdout := ""
  stderr := refusal.decodeText

/-- What `batch` writes of the only line of a file. -/
def batchText (input : String) : CallRefusal → String
  | written fault => (LineFault.call fault).text input 1
  | undecodable e =>
      s!"Error: Decode error at index {0}: {e.message}\n\n" ++
        s!"Caused by:\n{CommandError.indented e.message}\n"

/-- How `batch` fails on the only line of a file. -/
def batchOutcome (input : String) (refusal : CallRefusal) : Outcome where
  exitCode := 1
  stdout := ""
  stderr := refusal.batchText input

/-- A refused call ends both commands, and neither has written anything. -/
theorem fails (refusal : CallRefusal) (input : String) :
    refusal.decodeOutcome.exitCode ≠ 0 ∧ refusal.decodeOutcome.stdout = "" ∧
      (refusal.batchOutcome input).exitCode ≠ 0 ∧ (refusal.batchOutcome input).stdout = "" := by
  cases refusal with
  | undecodable e => exact ⟨nofun, rfl, nofun, rfl⟩
  | written fault => cases fault <;> exact ⟨nofun, rfl, nofun, rfl⟩

theorem outcome_badVersion (text : String) :
    (UsageError.invalidValue text versionOpt.shown (CallFault.badVersion text).reason).outcome =
      (written (.badVersion text)).decodeOutcome := by
  have hgap : "\n\nFor more information, try '--help'.\n" = "\n" ++ UsageError.hint := rfl
  have hoption : "' for '--version <v2|v3>': " = "' for '" ++ versionOpt.shown ++ "': " := by
    decide
  show Outcome.mk 2 "" _ _ = Outcome.mk 2 "" _ _
  congr 1
  show "error: invalid value '" ++ text ++ "' for '" ++ versionOpt.shown ++ "': " ++
      (CallFault.badVersion text).reason ++ "\n" ++ UsageError.hint =
    "error: invalid value '" ++ text ++ "' for '--version <v2|v3>': " ++
      (CallFault.badVersion text).reason ++ "\n\nFor more information, try '--help'.\n"
  simp only [hgap, hoption, String.append_assoc]

theorem failed_unknownRouter (address : String) :
    Outcome.failed (.plain
        s!"cannot infer router version from --to '{address}'; pass --version v2|v3") =
      (written (.unknownRouter address)).decodeOutcome := by
  have hstart : "Error: cannot infer router version from --to '" =
      "Error: " ++ "cannot infer router version from --to '" := rfl
  have hend : "'; pass --version v2|v3\n" = "'; pass --version v2|v3" ++ "\n" := rfl
  show Outcome.mk 1 "" _ _ = Outcome.mk 1 "" _ _
  congr 1
  show "Error: " ++ ("cannot infer router version from --to '" ++ address ++
      "'; pass --version v2|v3") ++ "\n" ++ "" =
    "Error: cannot infer router version from --to '" ++ address ++ "'; pass --version v2|v3\n"
  simp only [hstart, hend, String.append_assoc, String.append_empty]

/-- What is wrong with the calldata is the cause that `decode` shows. -/
theorem failed_decodeCalldata (cause : String) :
    Outcome.failed (.dueTo "decode calldata" cause) = {
      exitCode := 1
      stdout := ""
      stderr := "Error: decode calldata\n\nCaused by:\n" ++ CommandError.indented cause ++ "\n" } :=
  Outcome.failed_dueTo _ _

end CallRefusal

/-! ## Batches of one transaction -/

/-- The name of a mode is read as the mode. -/
theorem ErrorMode.read_name (m : ErrorMode) : read m.name = .ok m := by
  have hlower : m.name.map Char.toLower = m.name := by
    rw [← String.toList_inj, String.toList_map]
    cases m <;> rfl
  unfold read
  dsimp only
  rw [hlower]
  cases m <;> rfl

/-- The command line that decodes a file, where the first failure ends the run. -/
def batchLine (path : String) : List String :=
  "batch" :: [("--input", path), ("--mode", ErrorMode.throw.name)].map attached

theorem ofArgs_batchLine (path : String) :
    Invocation.ofArgs (batchLine path) = .ok {
      verbose := false
      config := none
      request := .batch { input := path, chunkSize := none, mode := some .throw } } := by
  have hmode : (Side.behind .batch).Accepts ("--mode", ErrorMode.throw.name) := by
    refine ⟨modeOpt, Side.knows_of_mem_opts (by simp [CommandName.opts]), rfl, rfl, ?_⟩
    unfold modeOpt
    dsimp only
    rw [ErrorMode.read_name]
    rfl
  have haccepts : ∀ option ∈ [("--input", path), ("--mode", ErrorMode.throw.name)],
      (Side.behind .batch).Accepts option := by
    intro option hoption
    simp only [List.mem_cons, List.not_mem_nil, or_false] at hoption
    rcases hoption with rfl | rfl
    · exact Side.accepts_text "INPUT" path (by simp [CommandName.opts])
    · exact hmode
  have hscan := Taken.scan_accepted [] haccepts (by simp) []
  rw [List.append_nil] at hscan
  rw [batchLine, Invocation.ofArgs_of_scan rfl hscan]
  · simp [Invocation.requestOf, List.lookup_cons, ErrorMode.read_name, Except.toOption]
  · intro o ho
    obtain rfl := Option.some.inj ho
    rfl

/-- A batch of one transaction gives its records, or ends with its failure. -/
theorem Command.batchOutcome_singleton (decode : Batch.Decode) (tx : RawTransaction) :
    batchOutcome decode .throw [tx] =
      match decode tx with
      | .ok records =>
          .ok (outcomeOf { records, errors := [], skipped := 0, totalInput := 1 })
      | .error e =>
          .error (.dueTo (Batch.ItemFailed.message { index := 0, source := e }) e.message) := by
  unfold batchOutcome
  cases hdecode : decode tx with
  | ok records =>
    simp [Batch.sequential, Batch.failures, Batch.failuresFrom, Batch.failureOf,
      Batch.decodedRecords, Batch.recordsOf, hdecode]
  | error e =>
    rw [Batch.sequential_throw_eq_error (i := 0) rfl hdecode (by simp)]

/-! ## Records -/

/-- **The records of a call, or why there are none**: what is wrong with the call as it is written
down is looked for first. -/
def CallText.records (c : CallText) (d : Decoder) : Except CallRefusal (List SwapRecord) :=
  match c.toLine.check with
  | .error fault => .error (.written fault)
  | .ok tx => (d.decodeRaw tx).mapError .undecodable

namespace CallText

variable {c : CallText}

/-! ## On the command line -/

/-- A version that can be told is the one that `decode` takes. -/
theorem of_checkVersion {v : Version} (h : c.toLine.checkVersion = .ok v) :
    (∀ text, c.version = some text → (Version.ofText? text).isSome = true) ∧
      Command.versionOf (c.version.bind Version.ofText?) (c.toAddress.getD "") = some v := by
  unfold BatchLine.checkVersion toLine at h
  unfold Command.versionOf
  cases hversion : c.version with
  | none =>
    cases hrouter : Router.versionOf? (c.toAddress.getD "") with
    | none => simp [hversion, hrouter] at h
    | some v' => simpa [hversion, hrouter] using h
  | some text =>
    cases htext : Version.ofText? text with
    | none => simp [hversion, htext] at h
    | some v' => simpa [hversion, htext] using h

/-- A version that cannot be told is either misspelt, or not given where there is no router. -/
theorem of_checkVersion_eq_error {fault : CallFault} (h : c.toLine.checkVersion = .error fault) :
    (∃ text, c.version = some text ∧ Version.ofText? text = none ∧ fault = .badVersion text) ∨
      (c.version = none ∧ Router.versionOf? (c.toAddress.getD "") = none ∧
        fault = .unknownRouter (c.toAddress.getD "")) := by
  unfold BatchLine.checkVersion toLine at h
  cases hversion : c.version with
  | none =>
    cases hrouter : Router.versionOf? (c.toAddress.getD "") with
    | none => simpa [hversion, hrouter, eq_comm] using h
    | some v' => simp [hversion, hrouter] at h
  | some text =>
    cases htext : Version.ofText? text with
    | none => simpa [hversion, htext, eq_comm] using h
    | some v' => simp [hversion, htext] at h

/-- Where the version cannot be told, nothing else is looked at. -/
theorem records_of_checkVersion_eq_error {fault : CallFault}
    (h : c.toLine.checkVersion = .error fault) (d : Decoder) :
    c.records d = .error (.written fault) := by
  unfold records BatchLine.check
  rw [h]
  rfl

/-- Once the version is told, the hex is read and then the call is decoded. -/
theorem records_of_checkVersion {v : Version} (h : c.toLine.checkVersion = .ok v) (d : Decoder) :
    c.records d =
      match Hex.parse c.calldata with
      | .error cause => .error (.written (.badHex cause))
      | .ok calldata => (d.decode v c.toLine.metadata calldata).mapError .undecodable := by
  have hcalldata : c.toLine.calldata = c.calldata := rfl
  unfold records BatchLine.check
  rw [h, hcalldata]
  cases Hex.parse c.calldata <;> rfl

/-- The same steps are taken by `decode`. -/
theorem decodeHex_metadata (d : Decoder) (v : Version) (c : CallText) :
    d.decodeHex v c.toLine.metadata c.calldata =
      match Hex.parse c.calldata with
      | .error cause => .error (.invalidHex cause)
      | .ok calldata => d.decode v c.toLine.metadata calldata := by
  unfold Decoder.decodeHex Hex.read
  cases Hex.parse c.calldata <;> rfl

/-- **What `decode` makes of a call.** -/
theorem runUnder_decodeLine (files : Lookup) (config : Config) (c : CallText) :
    Program.runUnder files config c.decodeLine =
      match c.records config.decoder with
      | .ok records =>
          .printed ((Document.array (records.map SwapRecord.toDocument)).toJsonLines ++ "\n")
      | .error refusal => refusal.decodeOutcome := by
  unfold Program.runUnder
  cases hversion : c.toLine.checkVersion with
  | error fault =>
    rw [records_of_checkVersion_eq_error hversion]
    rcases of_checkVersion_eq_error hversion with
      ⟨text, htext, hnone, rfl⟩ | ⟨hnone, hrouter, rfl⟩
    · rw [ofArgs_decodeLine_eq_error htext hnone]
      exact CallRefusal.outcome_badVersion text
    · have hv : Command.versionOf (c.version.bind Version.ofText?) (c.toAddress.getD "") =
          none := by
        simp [Command.versionOf, hnone, hrouter]
      rw [ofArgs_decodeLine (by simp [hnone])]
      simp only [Program.perform, Command.decode, hv]
      exact CallRefusal.failed_unknownRouter _
  | ok v =>
    obtain ⟨htext, hv⟩ := of_checkVersion hversion
    have hhex := decodeHex_metadata config.decoder v c
    rw [ofArgs_decodeLine htext, records_of_checkVersion hversion]
    unfold toLine BatchLine.metadata at hhex ⊢
    simp only [Program.perform, Command.decode, hv, TxMetadata.ofCall, hhex]
    cases Hex.parse c.calldata with
    | error cause => exact CallRefusal.failed_decodeCalldata _
    | ok calldata =>
      dsimp only
      cases config.decoder.decode v _ calldata with
      | error e => exact CallRefusal.failed_decodeCalldata _
      | ok records => rfl

/-! ## In a line of a file -/

/-- The only line of a file is a JSON object with the members of the call, in whatever order they
stand and whatever members of other names there are. -/
def IsOnlyLineOf (c : CallText) (content : Bytes) : Prop :=
  ∃ text line ms, textOfUtf8? content = some text ∧ Text.lines text = [line] ∧
    Document.ofJson? line = some (.object ms) ∧ Rearranged BatchLine.memberNames c.members ms

/-- **Every call can be the only line of a file.** -/
theorem isOnlyLineOf_toJson (c : CallText) :
    c.IsOnlyLineOf (Hex.utf8 (unlines [(Document.object c.members).toJson]).toList) := by
  have hfits := c.fits_members
  refine ⟨_, (Document.object c.members).toJson, c.members, textOfUtf8?_utf8 _, ?_, ?_,
    Rearranged.refl _ _⟩
  · apply Text.lines_unlines
    intro l hl
    obtain rfl := List.mem_singleton.mp hl
    exact hfits.object_isLine
  · exact Document.ofJson?_toJson (hfits.mono (by decide))

variable {files : Lookup} {path line : String}

/-- The line of a call stands for the transaction that is made of the call. -/
theorem lineTransaction_eq {ms : List (String × Document)}
    (hline : Document.ofJson? line = some (.object ms))
    (hms : Rearranged BatchLine.memberNames c.members ms) :
    lineTransaction line = c.toLine.check.mapError .call := by
  unfold lineTransaction
  rw [hline, Option.bind_some, ofDocument?_eq_some hms]

/-- **What `batch` makes of a call** on the only line of a file. -/
theorem runUnder_batchLine (config : Config) {content : Bytes}
    (hfile : files path = .ok (.file content)) (h : c.IsOnlyLineOf content) :
    Program.runUnder files config (batchLine path) =
      match c.records config.decoder with
      | .ok records =>
          Command.outcomeOf { records, errors := [], skipped := 0, totalInput := 1 }
      | .error refusal => refusal.batchOutcome path := by
  obtain ⟨text, line, ms, htext, hlines, hline, hms⟩ := h
  have hblank := Document.trim_ne_empty_of_ofJson? hline
  have htransaction := lineTransaction_eq hline hms
  unfold Program.runUnder
  rw [ofArgs_batchLine]
  show Outcome.ofResult (Command.batch files config
    { input := path, chunkSize := none, mode := some .throw }) = _
  unfold records
  cases hcheck : c.toLine.check with
  | error fault =>
    rw [hcheck] at htransaction
    have hfault : FirstFault (Text.lines text) 0 (.call fault) := by
      rw [hlines]
      exact ⟨line, rfl, hblank, htransaction, by simp [nonBlank]⟩
    rw [Command.batch_of_firstFault hfile htext hfault]
    exact (LineFault.call fault).failed_error path 1
  | ok tx =>
    have hall : nonBlank (Text.lines text) = [line] := by simp [hlines, nonBlank, hblank]
    have htx : (nonBlank (Text.lines text)).map lineTransaction = [tx].map .ok := by
      rw [hall, List.map_singleton, htransaction, hcheck]
      rfl
    rw [Command.batch_of_transactions hfile htext htx]
    show Outcome.ofResult (Command.batchOutcome config.decoder.decodeRaw .throw [tx]) = _
    rw [Command.batchOutcome_singleton]
    dsimp only
    cases config.decoder.decodeRaw tx with
    | error e => exact Command.failed_decodeError 0 e
    | ok records => rfl

/-! ## Agreement -/

/-- The records of a call can be written as JSON texts. -/
theorem isExact_of_records {d : Decoder} {records : List SwapRecord}
    (h : c.records d = .ok records) : ∀ r ∈ records, r.IsExact := by
  unfold CallText.records at h
  cases hcheck : c.toLine.check with
  | error fault => simp [hcheck] at h
  | ok tx =>
    rw [hcheck] at h
    dsimp only at h
    cases hdecode : d.decodeRaw tx with
    | error e => simp [hdecode, Except.mapError] at h
    | ok records' =>
      rw [hdecode] at h
      obtain rfl := Except.ok.inj h
      exact Decoder.isExact_of_decode hdecode

/-- **A call is treated alike on the command line and in a file.**  Under every configuration the
array that `decode` writes holds the values on the lines that `batch` writes, in their order, and
these are the records of the call.  If there are none, both commands fail for the one reason there
is, with the texts of this reason, and write nothing to the standard output.

The configuration is the one that the program loads from the file it is told to, or the default
one. -/
theorem decode_agrees_batch (files : Lookup) (config : Config) (c : CallText) (path : String)
    {content : Bytes} (hfile : files path = .ok (.file content)) (hline : c.IsOnlyLineOf content) :
    let decoded := Program.runUnder files config c.decodeLine
    let batched := Program.runUnder files config (batchLine path)
    (∀ configPath : Option String,
      configPath.elim (.ok .default) (loadConfig files) = .ok config →
        Program.run files (Invocation.underConfig configPath c.decodeLine) = decoded ∧
        Program.run files (Invocation.underConfig configPath (batchLine path)) = batched) ∧
    (∀ docs, decoded.exitCode = 0 ∧ Document.ofJson? decoded.stdout = some (.array docs) ↔
      batched.exitCode = 0 ∧ (Text.lines batched.stdout).mapM Document.ofJson? = some docs) ∧
    (∀ records, c.records config.decoder = .ok records →
      decoded.exitCode = 0 ∧
        Document.ofJson? decoded.stdout = some (.array (records.map SwapRecord.toDocument)) ∧
      batched.exitCode = 0 ∧
        (Text.lines batched.stdout).mapM Document.ofJson? =
          some (records.map SwapRecord.toDocument)) ∧
    ∀ refusal, c.records config.decoder = .error refusal →
      (decoded = refusal.decodeOutcome ∧ decoded.exitCode ≠ 0 ∧ decoded.stdout = "" ∧
        decoded.stderr = refusal.decodeText) ∧
      batched = refusal.batchOutcome path ∧ batched.exitCode ≠ 0 ∧ batched.stdout = "" ∧
        batched.stderr = refusal.batchText path := by
  intro decoded batched
  have hdecoded := runUnder_decodeLine files config c
  have hbatched := runUnder_batchLine config hfile hline
  refine ⟨?_, ?_⟩
  · intro configPath hload
    refine ⟨Program.run_underConfig rfl (fun i => config_of_ofArgs_decodeLine) hload,
      Program.run_underConfig rfl (fun i hi => ?_) hload⟩
    have hasked := (ofArgs_batchLine path).symm.trans hi
    obtain rfl := Except.ok.inj hasked
    rfl
  cases hrecords : c.records config.decoder with
  | ok records =>
    rw [hrecords] at hdecoded hbatched
    have hexact := isExact_of_records hrecords
    have hdone : decoded.exitCode = 0 := congrArg Outcome.exitCode hdecoded
    have hdone' : batched.exitCode = 0 := congrArg Outcome.exitCode hbatched
    have hstdout : batched.stdout = unlines (records.map fun r => r.toDocument.toJson) :=
      congrArg Outcome.stdout hbatched
    have harray : Document.ofJson? decoded.stdout =
        some (.array (records.map SwapRecord.toDocument)) := by
      rw [congrArg Outcome.stdout hdecoded]
      exact SwapRecord.ofJson?_toJsonLines hexact
    have hlines : (Text.lines batched.stdout).mapM Document.ofJson? =
        some (records.map SwapRecord.toDocument) := by
      rw [hstdout, SwapRecord.lines_unlines_toJson hexact]
      exact SwapRecord.mapM_ofJson?_toJson hexact
    refine ⟨fun docs => ?_, ?_, nofun⟩
    · simp [hdone, hdone', harray, hlines]
    · intro records' h
      obtain rfl := Except.ok.inj h
      exact ⟨hdone, harray, hdone', hlines⟩
  | error refusal =>
    rw [hrecords] at hdecoded hbatched
    have houtcome : decoded = refusal.decodeOutcome := hdecoded
    have houtcome' : batched = refusal.batchOutcome path := hbatched
    have hfails := refusal.fails path
    rw [← houtcome, ← houtcome'] at hfails
    obtain ⟨hexit, hempty, hexit', hempty'⟩ := hfails
    refine ⟨fun docs => by simp [hexit, hexit'], nofun, ?_⟩
    intro refusal' h
    obtain rfl := Except.error.inj h
    exact ⟨⟨houtcome, hexit, hempty, congrArg Outcome.stderr houtcome⟩, houtcome', hexit', hempty',
      congrArg Outcome.stderr houtcome'⟩

/-- A refund, and a call for each of the four reasons for which both commands fail. -/
theorem decode_agrees_batch_refund :
    let call (calldata : String) (version : Option String) : CallText :=
      ⟨calldata, version, none, none, none⟩
    let files (c : CallText) : Lookup := fun _ =>
      .ok (.file (Hex.utf8 (unlines [(Document.object c.members).toJson]).toList))
    let decoded (c : CallText) := Program.run (files c) c.decodeLine
    let batched (c : CallText) := Program.run (files c) (batchLine "calls")
    let record := SwapRecord.ofMethod (.ofCall "" "") "Uniswap" (.v3 .refundETH) .empty
    let refund := call "0x12210e8a" (some "V3")
    let misspelt := call "0x12210e8a" (some "V9")
    let unrouted := call "0x12210e8a" none
    let unreadable := call "0xzz" (some "V3")
    let short := call "0x" (some "V2")
    (Document.ofJson? (decoded refund).stdout = some (.array [record.toDocument]) ∧
      (Text.lines (batched refund).stdout).mapM Document.ofJson? = some [record.toDocument]) ∧
    (decoded misspelt = {
        exitCode := 2
        stdout := ""
        stderr := "error: invalid value 'V9' for '--version <v2|v3>': " ++
          "Unknown protocol version 'V9' (expected V2 or V3)\n\n" ++
          "For more information, try '--help'.\n" } ∧
      batched misspelt = {
        exitCode := 1
        stdout := ""
        stderr := "Error: calls:1\n\nCaused by:\n" ++
          "    Unknown protocol version 'V9' (expected V2 or V3)\n" }) ∧
    (decoded unrouted = {
        exitCode := 1
        stdout := ""
        stderr := "Error: cannot infer router version from --to ''; pass --version v2|v3\n" } ∧
      batched unrouted = {
        exitCode := 1
        stdout := ""
        stderr := "Error: calls:1\n\nCaused by:\n    no version and unknown router ''\n" }) ∧
    (decoded unreadable = {
        exitCode := 1
        stdout := ""
        stderr := "Error: decode calldata\n\nCaused by:\n" ++
          "    Invalid hex input: Invalid character 'z' at position 0\n" } ∧
      batched unreadable = {
        exitCode := 1
        stdout := ""
        stderr := "Error: calls:1\n\nCaused by:\n" ++
          "    Invalid hex input: Invalid character 'z' at position 0\n" }) ∧
    decoded short = {
        exitCode := 1
        stdout := ""
        stderr := "Error: decode calldata\n\nCaused by:\n" ++
          "    Calldata truncated: need 4 bytes at offset 0, have 0\n" } ∧
      batched short = {
        exitCode := 1
        stdout := ""
        stderr := "Error: Decode error at index 0: " ++
          "Calldata truncated: need 4 bytes at offset 0, have 0\n\nCaused by:\n" ++
          "    Calldata truncated: need 4 bytes at offset 0, have 0\n" } := by
  intro call files decoded batched record refund misspelt unrouted unreadable short
  have hagree (c : CallText) := decode_agrees_batch (files c) .default c "calls" rfl
    (isOnlyLineOf_toJson c)
  have hruns (c : CallText) : decoded c = Program.runUnder (files c) .default c.decodeLine ∧
      batched c = Program.runUnder (files c) .default (batchLine "calls") :=
    (hagree c).1 none rfl
  have hrefused {c : CallText} {refusal : CallRefusal}
      (h : c.records Decoder.default = .error refusal) :
      decoded c = refusal.decodeOutcome ∧ batched c = refusal.batchOutcome "calls" := by
    obtain ⟨⟨houtcome, -⟩, houtcome', -⟩ := (hagree c).2.2.2 refusal h
    exact ⟨(hruns c).1.trans houtcome, (hruns c).2.trans houtcome'⟩
  have hv2 : Version.ofText? "V2" = some .v2 := Version.ofText?_name .v2
  have hv3 : Version.ofText? "V3" = some .v3 := Version.ofText?_name .v3
  refine ⟨?_, ?_, ?_, ?_, ?_⟩
  · have hversion : refund.toLine.checkVersion = .ok .v3 := by
      simp [refund, call, toLine, BatchLine.checkVersion, hv3]
    have hhex : Hex.parse refund.calldata = .ok V3Method.refundETH.selector.toBytes := by
      decide +kernel
    have hcall : Call.read .v3 V3Method.refundETH.selector.toBytes =
        .ok (.plain (.v3 .refundETH) []) := rfl
    have hrecords : refund.records Decoder.default = .ok [record] := by
      rw [records_of_checkVersion hversion, hhex]
      dsimp only
      rw [Decoder.decode, Decoder.decodeAtDepth_plain hcall]
      rfl
    obtain ⟨-, harray, -, hlines⟩ := (hagree refund).2.2.1 [record] hrecords
    rw [(hruns refund).1, (hruns refund).2]
    exact ⟨harray, hlines⟩
  · have hlower : (Text.trim "V9").map Char.toLower = "v9" := by
      rw [← String.toList_inj, String.toList_map]
      rfl
    have hnone : Version.ofText? "V9" = none := by simp [Version.ofText?, hlower]
    have hrecords : misspelt.records Decoder.default = .error (.written (.badVersion "V9")) := by
      apply records_of_checkVersion_eq_error
      simp [misspelt, call, toLine, BatchLine.checkVersion, hnone]
    refine ⟨(hrefused hrecords).1.trans ?_, (hrefused hrecords).2.trans ?_⟩
    all_goals decide +kernel
  · have hrouter : Router.versionOf? "" = none := by decide +kernel
    have hrecords : unrouted.records Decoder.default = .error (.written (.unknownRouter "")) := by
      apply records_of_checkVersion_eq_error
      simp [unrouted, call, toLine, BatchLine.checkVersion, hrouter]
    refine ⟨(hrefused hrecords).1.trans ?_, (hrefused hrecords).2.trans ?_⟩
    all_goals decide +kernel
  · have hversion : unreadable.toLine.checkVersion = .ok .v3 := by
      simp [unreadable, call, toLine, BatchLine.checkVersion, hv3]
    have hhex : Hex.parse unreadable.calldata = .error (.badDigit 122 0) := by decide +kernel
    have hrecords : unreadable.records Decoder.default =
        .error (.written (.badHex (.badDigit 122 0))) := by
      rw [records_of_checkVersion hversion, hhex]
    refine ⟨(hrefused hrecords).1.trans ?_, (hrefused hrecords).2.trans ?_⟩
    all_goals decide +kernel
  · have hversion : short.toLine.checkVersion = .ok .v2 := by
      simp [short, call, toLine, BatchLine.checkVersion, hv2]
    have hhex : Hex.parse short.calldata = .ok [] := by decide +kernel
    have hrecords : short.records Decoder.default =
        .error (.undecodable (.truncated 0 4 0)) := by
      rw [records_of_checkVersion hversion, hhex]
      dsimp only
      rw [Decoder.decode, Decoder.decodeAtDepth_error (Call.read_of_length_lt .v2 (by decide))]
      rfl
    refine ⟨(hrefused hrecords).1.trans ?_, (hrefused hrecords).2.trans ?_⟩
    all_goals decide +kernel

end CallText

end RouterCalldata
