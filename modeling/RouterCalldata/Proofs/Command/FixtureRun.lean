import RouterCalldata.Proofs.Command.Comparison
import RouterCalldata.Proofs.Command.TreeWalk
import RouterCalldata.Proofs.Document.JsonText
import RouterCalldata.Proofs.Text.Lines

/-!
# Fixtures pass exactly if they should

A run over fixtures is of use only if it can be believed both ways: what passes is right, and what
is right passes.  A fixture may fail at four places, and each of them is looked at with what the one
before it gave.  A directory whose name is that of a fixture cannot be read, so it is counted among
those that fail.

The run counts those that pass and those that fail one by one.  Together these are all entries that
are found, and these are all entries below the directory with the name of a fixture.  None is run
twice, since in a file system the names of the entries tell their positions apart.

## Main definitions

* `FileTree.HoldsFixture`: the file holds a fixture;
* `Command.fixturesIn`: the entries that are run.

## Main results

* `Fixture.passes_check_iff`, `Command.passes_checkFile_iff`: single fixtures;
* `Command.test_eq`: what the run shows;
* `Command.passes_iff_meets`: the comparison, single fixtures and the run.
-/

namespace RouterCalldata

open Json Document

/-! ## Single fixtures -/

/-- The tree is a file, and its bytes are a text that holds the fixture. -/
def FileTree.HoldsFixture (t : FileTree) (f : Fixture) : Prop :=
  ∃ content text, t = .file content ∧ textOfUtf8? content = some text ∧
    (Document.ofJson? text).bind Fixture.ofDocument? = some f

theorem Lookup.readText_eq_ok_iff {t : FileTree} {path text : String} :
    readText (fun _ => .ok t) path = .ok text ↔
      ∃ content, t = .file content ∧ textOfUtf8? content = some text := by
  cases t with
  | directory entries =>
    constructor
    · intro h
      cases h
    · rintro ⟨content, ht, -⟩
      cases ht
  | file content =>
    have hbytes : readBytes (fun _ => .ok (.file content)) path = .ok content := rfl
    cases htext : textOfUtf8? content with
    | none => simp [readText, hbytes, bind, Except.bind, htext]
    | some s => simp [readText, hbytes, bind, Except.bind, htext, pure, Except.pure]

/-- The transaction that the call of a fixture stands in. -/
def Fixture.transaction (f : Fixture) : TxMetadata :=
  { TxMetadata.ofCall f.txHash f.toAddress with value := f.value }

section Verdicts

variable {d : Decoder} {verbose : Bool} {path : String}

/-- **A fixture passes** exactly if its call decodes and nothing is written down of the
records. -/
theorem Fixture.passes_check_iff {f : Fixture} :
    (f.check d verbose path).passes = true ↔
      ∃ records, d.decodeHex f.version f.transaction f.calldata = .ok records ∧
        compare records f.expected = [] := by
  cases hdecode : d.decodeHex f.version f.transaction f.calldata with
  | error e =>
    rw [transaction] at hdecode
    simp [check, hdecode, Verdict.fail]
  | ok records =>
    rw [transaction] at hdecode
    cases hlines : compare records f.expected with
    | nil => simp [check, hdecode, hlines]
    | cons line lines => simp [check, hdecode, hlines, Verdict.fail]

/-- **A file passes** exactly if it holds a fixture that passes. -/
theorem Command.passes_checkFile_iff {t : FileTree} :
    (checkFile d verbose path t).passes = true ↔
      ∃ f, t.HoldsFixture f ∧ (f.check d verbose path).passes = true := by
  have hholds {f : Fixture} : t.HoldsFixture f ↔
      ∃ text, Lookup.readText (fun _ => .ok t) path = .ok text ∧
        (Document.ofJson? text).bind Fixture.ofDocument? = some f := by
    simp only [FileTree.HoldsFixture, Lookup.readText_eq_ok_iff]
    constructor
    · rintro ⟨content, text, ht, htext, hf⟩
      exact ⟨text, ⟨content, ht, htext⟩, hf⟩
    · rintro ⟨text, ⟨content, ht, htext⟩, hf⟩
      exact ⟨content, text, ht, htext, hf⟩
  simp only [hholds]
  cases hread : Lookup.readText (fun _ => .ok t) path with
  | error e => simp [checkFile, hread, Verdict.fail]
  | ok text =>
    cases hparse : (Document.ofJson? text).bind Fixture.ofDocument? with
    | none => simp [checkFile, hread, hparse, Verdict.fail]
    | some f => simp [checkFile, hread, hparse]

end Verdicts

/-! ## Runs -/

namespace Command

/-- The entries with the name of a fixture, if a tree is found at a path. -/
def fixturesIn (path : String) (t : FileTree) : List (String × FileTree) :=
  (t.walk path).filter fun e => isFixture e.1

theorem mem_fixturesIn_iff {path : String} {t : FileTree} {e : String × FileTree} :
    e ∈ fixturesIn path t ↔ e.2.IsAt e.1 path t ∧ isFixture e.1 = true := by
  rw [fixturesIn, List.mem_filter, FileTree.mem_walk_iff]

theorem nodup_fixturesIn {t : FileTree} (h : t.HasNames) (path : String) :
    ((fixturesIn path t).map Prod.fst).Nodup :=
  (FileTree.nodup_walk h path).sublist (List.filter_sublist.map Prod.fst)

/-- The line that ends a run. -/
def resultsLine (passed failed total : Nat) : String :=
  s!"Results: {passed} passed, {failed} failed  (total fixtures: {total})"

/-- **What a run shows**: it succeeds if no fixture fails, and its last line tells how many
pass and how many fail. -/
theorem testOutcome_eq (verdicts : List Verdict) :
    ∃ failed, verdicts.countP (·.passes) + failed = verdicts.length ∧
      ((testOutcome verdicts).exitCode = 0 ↔ failed = 0) ∧
      (testOutcome verdicts).stdout = unlines (verdicts.flatMap (·.stdout) ++
        ["", resultsLine (verdicts.countP (·.passes)) failed verdicts.length]) := by
  refine ⟨verdicts.countP fun v => !v.passes, ?_, ?_, ?_⟩
  · rw [List.length_eq_countP_add_countP (fun v : Verdict => v.passes)]
    simp
  · rw [testOutcome]
    dsimp only
    split
    · next hnone => simp [hnone]
    · next hsome => simp [hsome]
  · rfl

/-- A run on a tree that is found is one on the entries in it. -/
theorem test_eq {files : Lookup} {d : Decoder} {verbose : Bool} {path : String} {t : FileTree}
    (h : files path = .ok t) :
    test files d verbose path =
      testOutcome ((fixturesIn path t).map fun e => checkFile d verbose e.1 e.2) := by
  rw [test, h]
  rfl

/-- **The runner neither passes a wrong fixture nor fails a right one.**

Nothing is written down of decoded records exactly if there are as many as expected, and
each is what is expected in its place.  This is so however texts are put in lower case,
since records have no texts for which it makes a difference.

A file passes exactly if its bytes are a text that can be read as a fixture, the call of
the fixture decodes, and nothing is written down of its records.

A path has the name of a fixture exactly if its last component, but for empty ones and
single dots, ends in `.json` behind something.  For an entry of a directory this is its own
name.

If there is something at the path of the fixtures, all entries at or below it that have
the name of a fixture are run, each of them once if names tell entries apart.  Those that
pass and those that fail are together as many as were run, the last line tells how many
they are, and the run succeeds exactly if none fails. -/
theorem passes_iff_meets {fold : String → String} (hfold : FoldsCase fold) (d : Decoder) :
    (∀ version tx calldata records, d.decode version tx calldata = .ok records → ∀ expected,
      (compare records expected = [] ↔
        List.Forall₂ (SwapRecord.Meets fold) records expected)) ∧
    (∀ verbose path t, (checkFile d verbose path t).passes = true ↔
      ∃ f, t.HoldsFixture f ∧
        ∃ records, d.decodeHex f.version f.transaction f.calldata = .ok records ∧
          compare records f.expected = []) ∧
    (∀ path, isFixture path = true ↔ ∃ before stem after,
      Path.components path = before ++ (stem ++ ".json") :: after ∧ stem ≠ "" ∧
        ∀ c ∈ after, c = "" ∨ c = ".") ∧
    (∀ path name, Path.IsName name →
      (isFixture (Path.join path name) = true ↔ ∃ stem, stem ≠ "" ∧ name = stem ++ ".json")) ∧
    ∀ (files : Lookup) verbose path t, files path = .ok t →
      (∀ e, e ∈ fixturesIn path t ↔ e.2.IsAt e.1 path t ∧ isFixture e.1 = true) ∧
      (t.HasNames → ((fixturesIn path t).map Prod.fst).Nodup) ∧
      ∃ passed failed lines,
        passed = (fixturesIn path t).countP (fun e => (checkFile d verbose e.1 e.2).passes) ∧
        passed + failed = (fixturesIn path t).length ∧
        (test files d verbose path).stdout =
          unlines (lines ++ ["", resultsLine passed failed (fixturesIn path t).length]) ∧
        ((test files d verbose path).exitCode = 0 ↔ failed = 0) := by
  refine ⟨?_, ?_, fun _ => isFixture_iff, fun path _ h => isFixture_join_iff h path, ?_⟩
  · intro version tx calldata records h expected
    rw [compare_eq_nil_iff,
      SwapRecord.forall₂_meets_iff (Decoder.hasRecordTexts_of_decode h) hfold]
  · intro verbose path t
    simp only [passes_checkFile_iff, Fixture.passes_check_iff]
  · intro files verbose path t h
    refine ⟨fun e => mem_fixturesIn_iff, fun hnames => nodup_fixturesIn hnames path, ?_⟩
    rw [test_eq h]
    obtain ⟨failed, hall, hexit, hstdout⟩ :=
      testOutcome_eq ((fixturesIn path t).map fun e => checkFile d verbose e.1 e.2)
    rw [List.countP_map, List.length_map] at hall hstdout
    exact ⟨_, failed, _, rfl, hall, hstdout, hexit⟩

/-- A fixture of one refund, in capital letters where letter case does not count. -/
def refundFixture : Fixture :=
  ⟨none, .v3, "", "", "", "0x12210e8a", [⟨"12210E8A", "RefundETH", none, .empty⟩]⟩

/-- The same as a document. -/
def refundDocument : Document :=
  .object [("version", .string "V3"), ("calldata", .string "0x12210e8a"),
    ("expectedRecords", .array [.object
      [("methodId", .string "12210E8A"), ("methodName", .string "RefundETH")]])]

theorem fits_refundDocument : Fits maxDepth refundDocument := by
  have hexpected : Fits 1 (.object
      [("methodId", .string "12210E8A"), ("methodName", .string "RefundETH")]) := by
    apply Fits.object
    simp [Fits.string]
  have hrecords : Fits 2 (.array [.object
      [("methodId", .string "12210E8A"), ("methodName", .string "RefundETH")]]) := by
    apply Fits.array
    simp [hexpected]
  have hwhole : Fits 3 refundDocument := by
    apply Fits.object
    simp [Fits.string, hrecords]
  exact hwhole.mono (by decide)

/-- The fixture passes, and it would not if a number of calls were expected.  In a directory
of it and a file with another name it is the one entry that is run. -/
theorem passes_iff_meets_refund :
    let record := SwapRecord.ofMethod refundFixture.transaction "Uniswap" (.v3 .refundETH) .empty
    let t := FileTree.file (Hex.utf8 refundDocument.toJson.toList)
    let tree := FileTree.directory [("refund.json", t), ("notes.txt", .file [])]
    FoldsCase lowerCase ∧
      Decoder.default.decode .v3 refundFixture.transaction V3Method.refundETH.selector.toBytes =
        .ok [record] ∧
      compare [record] refundFixture.expected = [] ∧
      compare [record] [⟨"12210E8A", "RefundETH", some 1, .empty⟩] ≠ [] ∧
      t.HoldsFixture refundFixture ∧
      (checkFile .default false "fixtures/refund.json" t).passes = true ∧
      tree.HasNames ∧ ((fixturesIn "fixtures" tree).map Prod.fst).Nodup ∧
      fixturesIn "fixtures" tree = [("fixtures/refund.json", t)] ∧
      (∃ lines, (test (fun _ => .ok tree) .default false "fixtures").stdout =
        unlines (lines ++ ["", "Results: 1 passed, 0 failed  (total fixtures: 1)"])) ∧
      (test (fun _ => .ok tree) .default false "fixtures").exitCode = 0 := by
  intro record t tree
  have hdecode : Decoder.default.decode .v3 refundFixture.transaction
      V3Method.refundETH.selector.toBytes = .ok [record] := by
    have hcall : Call.read .v3 V3Method.refundETH.selector.toBytes =
        .ok (.plain (.v3 .refundETH) []) := rfl
    rw [Decoder.decode, Decoder.decodeAtDepth_plain hcall]
    rfl
  obtain ⟨hcompare, hcheck, -, -, hrun⟩ := passes_iff_meets foldsCase_lowerCase .default
  have hmeets : record.Meets lowerCase ⟨"12210E8A", "RefundETH", none, .empty⟩ := by
    have hunset (name : String) : record.field? name = none := by
      show (Field.ofName? name).bind (fun _ => none) = none
      cases Field.ofName? name <;> rfl
    refine ⟨by decide +kernel, rfl, rfl, fun name => ?_, fun name text expected htext => ?_⟩
    · rw [hunset]
      exact Iff.rfl
    · rw [hunset] at htext
      cases htext
  have hequal : compare [record] refundFixture.expected = [] :=
    (hcompare _ _ _ _ hdecode _).mpr (.cons hmeets .nil)
  have hdiffer : compare [record] [⟨"12210E8A", "RefundETH", some 1, .empty⟩] ≠ [] := by
    intro h
    cases (hcompare _ _ _ _ hdecode _).mp h with
    | cons hmeets _ => cases hmeets.numberOfCalls_eq
  have hholds : t.HoldsFixture refundFixture := by
    refine ⟨_, refundDocument.toJson, rfl, textOfUtf8?_utf8 _, ?_⟩
    rw [Document.ofJson?_toJson fits_refundDocument]
    rfl
  have hpasses : (checkFile .default false "fixtures/refund.json" t).passes = true := by
    refine (hcheck false "fixtures/refund.json" t).mpr
      ⟨refundFixture, hholds, [record], ?_, hequal⟩
    have hhex : Hex.read "0x12210e8a" = .ok V3Method.refundETH.selector.toBytes := by
      decide +kernel
    show (Hex.read "0x12210e8a" >>= _) = _
    rw [hhex]
    exact hdecode
  have hnames : tree.HasNames := by
    refine .directory ?_ (by decide) ?_
    · simp only [List.mem_cons, List.not_mem_nil, or_false, forall_eq_or_imp, forall_eq]
      exact ⟨⟨by decide, by decide, by decide, by decide⟩,
        ⟨by decide, by decide, by decide, by decide⟩⟩
    · simp only [List.mem_cons, List.not_mem_nil, or_false, forall_eq_or_imp, forall_eq]
      exact ⟨.file _, .file _⟩
  have hfixtures : fixturesIn "fixtures" tree = [("fixtures/refund.json", t)] := by
    have hfile (path : String) (content : Bytes) :
        (FileTree.file content).walk path = [(path, .file content)] := by
      rw [FileTree.walk]
    have hposition : Path.join "fixtures" "refund.json" = "fixtures/refund.json" := by
      decide +kernel
    have hroot : isFixture "fixtures" = false := by decide +kernel
    have hrefund : isFixture "fixtures/refund.json" = true := by decide +kernel
    have hnotes : isFixture (Path.join "fixtures" "notes.txt") = false := by decide +kernel
    rw [← List.perm_singleton, fixturesIn]
    refine ((FileTree.walk_directory_perm _ _).filter _).trans (.of_eq ?_)
    simp [t, hfile, hposition, hroot, hrefund, hnotes]
  obtain ⟨-, hnodup, passed, failed, lines, hpassed, hall, hstdout, hexit⟩ :=
    hrun (fun _ => .ok tree) false "fixtures" tree rfl
  rw [hfixtures] at hpassed hall hstdout
  obtain rfl : passed = 1 := by simpa [hpasses] using hpassed
  obtain rfl : failed = 0 := by simpa using hall
  have hline : resultsLine 1 0 1 = "Results: 1 passed, 0 failed  (total fixtures: 1)" := by
    decide +kernel
  rw [List.length_singleton, hline] at hstdout
  exact ⟨foldsCase_lowerCase, hdecode, hequal, hdiffer, hholds, hpasses, hnames, hnodup hnames,
    hfixtures, ⟨lines, hstdout⟩, hexit.mpr rfl⟩

end Command

end RouterCalldata
