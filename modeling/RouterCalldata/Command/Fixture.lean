import RouterCalldata.Command.Decode
import RouterCalldata.Command.FileTree
import RouterCalldata.Config.Form

/-!
# The command `test`

A fixture is a file that holds a call and the records it should decode to.
The command runs every fixture below a directory and says where decoding and
expectation differ.

Records hold ASCII text in the places where letter case is disregarded, and no
character outside ASCII is a case variant of a hex digit or of the mark, so it
is enough to fold the case of ASCII letters.

## Main definitions

* `Expected`, `Fixture`: what a file holds;
* `SwapRecord.populated`: the set fields of a record by their names;
* `Expected.differences`, `compare`: where records and expectation differ;
* `Verdict`, `Fixture.check`, `Command.checkFile`: what becomes of a fixture;
* `Command.test`: runs all fixtures of a directory.
-/

namespace RouterCalldata

/-- A record as a fixture expects it. -/
structure Expected where
  methodId : String
  methodName : String
  numberOfCalls : Option Nat
  fields : NameMap
  deriving DecidableEq

namespace Expected

/-- The members of an expected record. -/
def memberNames : List String := ["methodId", "methodName", "numberOfCalls", "fields"]

/-- Reads an expected record. -/
def ofDocument? (d : Document) : Option Expected := do
  let ms ← d.members? memberNames
  return {
    methodId := ← Document.required ms "methodId" Document.asText?
    methodName := ← Document.required ms "methodName" Document.asText?
    numberOfCalls := ← Document.optional ms "numberOfCalls" Document.asNat?
    fields := ← Document.orElse ms "fields" .empty NameMap.ofDocument? }

end Expected

/-- A call and the records it should decode to. -/
structure Fixture where
  description : Option String
  version : Version
  txHash : String
  toAddress : String
  value : String
  calldata : String
  expected : List Expected
  deriving DecidableEq

namespace Fixture

/-- The members of a fixture. -/
def memberNames : List String :=
  ["description", "version", "txHash", "to", "value", "calldata", "expectedRecords"]

/-- Reads a fixture. -/
def ofDocument? (d : Document) : Option Fixture := do
  let ms ← d.members? memberNames
  return {
    description := ← Document.optional ms "description" Document.asText?
    version := ← Document.required ms "version" Version.ofDocument?
    txHash := ← Document.orElse ms "txHash" "" Document.asText?
    toAddress := ← Document.orElse ms "to" "" Document.asText?
    value := ← Document.orElse ms "value" "" Document.asText?
    calldata := ← Document.required ms "calldata" Document.asText?
    expected := ← Document.required ms "expectedRecords"
      fun d => d.asArray?.bind fun items => items.mapM Expected.ofDocument? }

end Fixture

/-! ## Comparing -/

/-- A text with its ASCII letters in lower case. -/
def lowerCase (s : String) : String := s.map Char.toLower

/-- The set fields of a record by their names.  They are read from the written form, and
there are none if it cannot be read. -/
def SwapRecord.populated (r : SwapRecord) : NameMap :=
  (NameMap.ofDocument? r.fields.toDocument).getD .empty

/-- An optional count as it is shown. -/
def countText : Option Nat → String
  | some n => s!"Some({n})"
  | none => "None"

namespace Expected

/-- Where the set fields of the record number `i` differ from those expected. -/
def fieldDifferences (i : Nat) (want actual : NameMap) : List String :=
  want.sorted.filterMap (fun (name, expected) =>
    match actual.get? name with
    | none => some s!"[{i}] missing field '{name}'"
    | some text =>
        if lowerCase text = lowerCase expected then none
        else some s!"[{i}] field '{name}': got '{text}', want '{expected}'") ++
  actual.sorted.filterMap fun (name, _) =>
    if (want.get? name).isSome then none else some s!"[{i}] unexpected field '{name}'"

/-- Where the record number `i` differs from what is expected. -/
def differences (i : Nat) (want : Expected) (r : SwapRecord) : List String :=
  (if r.methodId = lowerCase want.methodId then []
    else [s!"[{i}] methodId: got '{r.methodId}', want '{want.methodId}'"]) ++
  (if r.methodName = want.methodName then []
    else [s!"[{i}] methodName: got '{r.methodName}', want '{want.methodName}'"]) ++
  (if r.numberOfCalls = want.numberOfCalls then []
    else [s!"[{i}] numberOfCalls: got {countText r.numberOfCalls}, want " ++
      countText want.numberOfCalls]) ++
  fieldDifferences i want.fields r.populated

end Expected

/-- The differences of records and expectations in pairs, the first pair being
number `i`. -/
def compareFrom (i : Nat) : List SwapRecord → List Expected → List String
  | r :: rs, want :: wants => want.differences i r ++ compareFrom (i + 1) rs wants
  | _, _ => []

/-- Where records and expectations differ.  If their numbers do, nothing else
is looked at. -/
def compare (records : List SwapRecord) (expected : List Expected) : List String :=
  if records.length = expected.length then compareFrom 0 records expected
  else [s!"record count: got {records.length}, want {expected.length}"]

/-! ## Running -/

/-- What becomes of a fixture: whether it passes, and what is written to the
two streams. -/
structure Verdict where
  passes : Bool
  stdout : List String
  stderr : List String
  deriving DecidableEq, Repr

namespace Verdict

/-- A fixture that fails. -/
def fail (lines : List String) : Verdict := { passes := false, stdout := [], stderr := lines }

end Verdict

/-- Decodes a fixture's call and compares the records. -/
def Fixture.check (decoder : Decoder) (verbose : Bool) (path : String) (f : Fixture) : Verdict :=
  let name := f.description.getD path
  let tx := { TxMetadata.ofCall f.txHash f.toAddress with value := f.value }
  match decoder.decodeHex f.version tx f.calldata with
  | .error e => .fail [s!"  ✗ {name}: decode error: {e.message}"]
  | .ok records =>
      match compare records f.expected with
      | [] =>
          let details := if verbose then
            records.map fun r => s!"      {r.methodName} ({r.populated.entries.length} fields)"
            else []
          { passes := true, stdout := s!"  ✓ {name}" :: details, stderr := [] }
      | differences => .fail (s!"  ✗ {name}" :: differences.map ("      " ++ ·))

namespace Command

/-- Whether a path is one of a fixture. -/
def isFixture (path : String) : Bool :=
  (Path.fileName? path).bind Path.extension? == some "json"

/-- Runs the fixture at a path. -/
def checkFile (decoder : Decoder) (verbose : Bool) (path : String) (t : FileTree) : Verdict :=
  match Lookup.readText (fun _ => .ok t) path with
  | .error e => .fail [s!"  ✗ {path}: read error: {e.message}"]
  | .ok text =>
      match (Document.ofJson? text).bind Fixture.ofDocument? with
      | none => .fail [s!"  ✗ {path}: parse error: " ++ unreadableDocument]
      | some f => f.check decoder verbose path

/-- The outcome of running fixtures with these verdicts. -/
def testOutcome (verdicts : List Verdict) : Outcome :=
  let failed := verdicts.countP fun v => !v.passes
  let passed := verdicts.countP (·.passes)
  let error := if failed = 0 then "" else
    (CommandError.plain s!"{failed} fixture(s) failed").text
  { exitCode := if failed = 0 then 0 else 1,
    stdout := unlines (verdicts.flatMap (·.stdout) ++
      ["", s!"Results: {passed} passed, {failed} failed  (total fixtures: {verdicts.length})"]),
    stderr := unlines (verdicts.flatMap (·.stderr)) ++ error }

/-- Runs all fixtures below a directory. -/
def test (files : Lookup) (decoder : Decoder) (verbose : Bool) (fixtures : String) : Outcome :=
  match files fixtures with
  | .error _ => .printed s!"Fixtures directory '{fixtures}' not found — skipping\n"
  | .ok t =>
      let found := (t.walk fixtures).filter fun (path, _) => isFixture path
      testOutcome (found.map fun (path, t) => checkFile decoder verbose path t)

end Command

end RouterCalldata
