import Mathlib.Tactic.MkIffOfInductiveProp
import RouterCalldata.Proofs.Config.Form
import RouterCalldata.Proofs.Decoder.RecordForm
import RouterCalldata.Proofs.Text.LetterCase

/-!
# Records compared with what is expected of them

The comparison writes down what it finds wrong, and goes over the fields twice: over those that are
expected, for what is missing or different, and over those that are set, for what is not expected.
The fields that are set are taken from the written form of the record.  If that could not be read
there would be none, and all that is expected would be missing.

Nothing is written down exactly if the record is what is expected, up to letter case.  The fields
of a record are always read back from its written form, so the two ways over the fields look at the
same ones.

## Main definitions

* `SwapRecord.Meets`: the record is what is expected, up to letter case;
* `SwapRecord.HasRecordTexts`: the record is made of texts of records.

## Main results

* `SwapRecord.get?_populated`: the fields that are compared are those that are set;
* `Expected.fieldDifferences_eq_nil_iff`, `Expected.differences_eq_nil_iff`: one record;
* `compare_eq_nil_iff`: a list of records;
* `Decoder.hasRecordTexts_of_decode`, `SwapRecord.forall₂_meets_iff`: for records that were
  decoded, any way to put texts in lower case gives the same.
-/

namespace RouterCalldata

/-! ## Fields by their names -/

/-- The look-up's table of names is that of the documents. -/
theorem Field.ofName?_eq_some_iff {name : String} {f : Field} :
    ofName? name = some f ↔ f.name = name := by
  constructor
  · intro h
    unfold ofName? at h
    split at h
    case h_19 => cases h
    all_goals
      obtain rfl := Option.some.inj h
      rfl
  · rintro rfl
    cases f <;> rfl

namespace SwapFields

variable {fs : SwapFields} {f : Field} {name text : String}

theorem get?_eq_some_iff :
    fs.get? name = some text ↔ ∃ f, f.name = name ∧ fs.value f = some text := by
  simp only [get?, Option.bind_eq_some_iff, Field.ofName?_eq_some_iff]

theorem mem_toList_iff : (f, text) ∈ fs.toList ↔ fs.value f = some text := by
  rw [toList, List.mem_filterMap]
  constructor
  · rintro ⟨g, -, hg⟩
    obtain ⟨text', htext, hpair⟩ := Option.map_eq_some_iff.mp hg
    obtain ⟨rfl, rfl⟩ := Prod.mk.inj hpair
    exact htext
  · intro htext
    exact ⟨f, Field.mem_all f, by rw [htext]; rfl⟩

/-- The set fields by their names. -/
def entries (fs : SwapFields) : List (String × String) := fs.toList.map fun e => (e.1.name, e.2)

/-- The members of the written object are the set fields. -/
theorem toMembers_eq_map_entries (fs : SwapFields) :
    fs.toMembers = fs.entries.map fun e => (e.1, .string e.2) := by
  rw [toMembers, entries, List.map_map]
  rfl

theorem nodup_entries (fs : SwapFields) : (fs.entries.map (·.1)).Nodup := by
  have hnames : fs.entries.map (·.1) = fs.toMembers.map (·.1) := by
    rw [toMembers_eq_map_entries, List.map_map]
    rfl
  rw [hnames]
  exact fs.nodup_toMembers

theorem mem_entries_iff : (name, text) ∈ fs.entries ↔ fs.get? name = some text := by
  rw [get?_eq_some_iff, entries, List.mem_map]
  constructor
  · rintro ⟨⟨f, text'⟩, hmem, hpair⟩
    obtain ⟨rfl, rfl⟩ := Prod.mk.inj hpair
    exact ⟨f, rfl, mem_toList_iff.mp hmem⟩
  · rintro ⟨f, rfl, htext⟩
    exact ⟨(f, text), mem_toList_iff.mpr htext, rfl⟩

end SwapFields

namespace SwapRecord

/-- **The written form of the fields is always read back**, to all fields that are set. -/
theorem entries_populated (r : SwapRecord) : r.populated.entries = r.fields.entries := by
  have hread : NameMap.ofDocument? r.fields.toDocument =
      some ⟨r.fields.entries, r.fields.nodup_entries⟩ := by
    have hform : r.fields.toDocument =
        NameMap.toDocument ⟨r.fields.entries, r.fields.nodup_entries⟩ :=
      congrArg Document.object r.fields.toMembers_eq_map_entries
    rw [hform, NameMap.ofDocument?_toDocument]
  rw [populated, hread]
  rfl

/-- The fields that are compared are those that are set. -/
theorem get?_populated (r : SwapRecord) (name : String) :
    r.populated.get? name = r.field? name := by
  apply Option.ext
  intro text
  rw [NameMap.get?_eq_some_iff, entries_populated, SwapFields.mem_entries_iff]
  rfl

/-! ## What is expected -/

/-- **The record is what is expected**, up to letter case: it is that of the method, tells the
number of calls or none as expected, and the same fields are set in both, to texts
that are equal in lower case. -/
@[mk_iff] structure Meets (fold : String → String) (r : SwapRecord) (want : Expected) : Prop where
  methodId_eq : r.methodId = fold want.methodId
  methodName_eq : r.methodName = want.methodName
  numberOfCalls_eq : r.numberOfCalls = want.numberOfCalls
  isSome_iff : ∀ name, (r.field? name).isSome ↔ (want.fields.get? name).isSome
  fold_eq : ∀ name text expected, r.field? name = some text →
    want.fields.get? name = some expected → fold text = fold expected

end SwapRecord

namespace Expected

/-- **No difference of the fields is found** exactly if the same names are set, to texts that
are equal up to letter case. -/
theorem fieldDifferences_eq_nil_iff {i : Nat} {want actual : NameMap} :
    fieldDifferences i want actual = [] ↔
      (∀ name, (actual.get? name).isSome ↔ (want.get? name).isSome) ∧
        ∀ name text expected, actual.get? name = some text → want.get? name = some expected →
          lowerCase text = lowerCase expected := by
  rw [fieldDifferences, List.append_eq_nil_iff, List.filterMap_eq_nil_iff,
    List.filterMap_eq_nil_iff]
  constructor
  · rintro ⟨hwanted, hset⟩
    have hfound (name expected : String) (hname : want.get? name = some expected) :
        ∃ text, actual.get? name = some text ∧ lowerCase text = lowerCase expected := by
      have h := hwanted (name, expected) (NameMap.mem_sorted_iff.mpr hname)
      dsimp only at h
      split at h
      · cases h
      · next text htext =>
        split at h
        · next heq => exact ⟨text, htext, heq⟩
        · cases h
    refine ⟨fun name => ⟨fun hsome => ?_, fun hsome => ?_⟩, ?_⟩
    · obtain ⟨text, htext⟩ := Option.isSome_iff_exists.mp hsome
      have h := hset (name, text) (NameMap.mem_sorted_iff.mpr htext)
      dsimp only at h
      split at h
      · assumption
      · cases h
    · obtain ⟨expected, hexpected⟩ := Option.isSome_iff_exists.mp hsome
      obtain ⟨text, htext, -⟩ := hfound name expected hexpected
      exact Option.isSome_iff_exists.mpr ⟨text, htext⟩
    · intro name text expected htext hexpected
      obtain ⟨text', htext', heq⟩ := hfound name expected hexpected
      obtain rfl := Option.some.inj (htext.symm.trans htext')
      exact heq
  · rintro ⟨hsome, heq⟩
    refine ⟨?_, ?_⟩
    · rintro ⟨name, expected⟩ hmem
      have hexpected := NameMap.mem_sorted_iff.mp hmem
      obtain ⟨text, htext⟩ := Option.isSome_iff_exists.mp
        ((hsome name).mpr (Option.isSome_iff_exists.mpr ⟨expected, hexpected⟩))
      dsimp only
      rw [htext]
      exact if_pos (heq name text expected htext hexpected)
    · rintro ⟨name, text⟩ hmem
      have htext := NameMap.mem_sorted_iff.mp hmem
      exact if_pos ((hsome name).mp (Option.isSome_iff_exists.mpr ⟨text, htext⟩))

/-- **No difference of a record is found** exactly if it is what is expected. -/
theorem differences_eq_nil_iff {i : Nat} {want : Expected} {r : SwapRecord} :
    want.differences i r = [] ↔ r.Meets lowerCase want := by
  have hnone {p : Prop} [Decidable p] {line : String} :
      (if p then [] else [line]) = [] ↔ p := by
    by_cases hp : p
    · simp [hp]
    · simp [hp]
  rw [differences, List.append_eq_nil_iff, List.append_eq_nil_iff, List.append_eq_nil_iff, hnone,
    hnone, hnone, fieldDifferences_eq_nil_iff]
  simp only [SwapRecord.get?_populated]
  constructor
  · rintro ⟨⟨⟨hid, hname⟩, hcalls⟩, hsome, heq⟩
    exact ⟨hid, hname, hcalls, hsome, heq⟩
  · rintro ⟨hid, hname, hcalls, hsome, heq⟩
    exact ⟨⟨⟨hid, hname⟩, hcalls⟩, hsome, heq⟩

end Expected

/-! ## Lists of records -/

/-- The records are compared one by one.  The induction is on both lists, with the number of
the first pair left open. -/
theorem compareFrom_eq_nil_iff {records : List SwapRecord} {expected : List Expected}
    (hlen : records.length = expected.length) (i : Nat) :
    compareFrom i records expected = [] ↔
      List.Forall₂ (SwapRecord.Meets lowerCase) records expected := by
  induction records generalizing expected i with
  | nil =>
    obtain rfl := List.length_eq_zero_iff.mp hlen.symm
    exact iff_of_true rfl .nil
  | cons r rest ih =>
    cases expected with
    | nil => cases hlen
    | cons want wants =>
      rw [compareFrom, List.append_eq_nil_iff, Expected.differences_eq_nil_iff,
        ih (Nat.succ.inj hlen), List.forall₂_cons]

/-- **Nothing is written down** exactly if there are as many records as expected, and each
is what is expected of it. -/
theorem compare_eq_nil_iff {records : List SwapRecord} {expected : List Expected} :
    compare records expected = [] ↔
      List.Forall₂ (SwapRecord.Meets lowerCase) records expected := by
  rw [compare]
  by_cases hlen : records.length = expected.length
  · rw [if_pos hlen]
    exact compareFrom_eq_nil_iff hlen 0
  · rw [if_neg hlen]
    exact iff_of_false (List.cons_ne_nil _ _) fun h => hlen h.length_eq

/-! ## Records that were decoded -/

/-- All texts of the record that are compared up to letter case are texts of records. -/
structure SwapRecord.HasRecordTexts (r : SwapRecord) : Prop where
  methodId : IsRecordText r.methodId
  field : ∀ name text, r.field? name = some text → IsRecordText text

theorem SwapRecord.IsOf.hasRecordTexts {d : Decoder} {tx : TxMetadata} {m : Method}
    {r : SwapRecord} (h : r.IsOf d tx m) : r.HasRecordTexts where
  methodId c hc := List.mem_cons_of_mem _ (h.methodId_digit c hc)
  field name text htext := by
    obtain ⟨f, -, hvalue⟩ := SwapFields.get?_eq_some_iff.mp htext
    exact (h.hasForm_fields.holds f text hvalue).isRecordText

/-- **Records that were decoded** are made of texts of records. -/
theorem Decoder.hasRecordTexts_of_decode {d : Decoder} {version : Version} {tx : TxMetadata}
    {calldata : Bytes} {records : List SwapRecord}
    (h : d.decode version tx calldata = .ok records) : ∀ r ∈ records, r.HasRecordTexts := by
  have hgives : GivesRecords d tx version calldata records :=
    decodeAtDepth_induction (motive := GivesRecords d tx) givesRecords_plain
      (fun hread _ hcalls => givesRecords_multicall hread hcalls) h
  intro r hr
  obtain ⟨m, hm⟩ := hgives.isOf r hr
  exact hm.hasRecordTexts

/-- It does not matter how the expected texts are put in lower case. -/
theorem SwapRecord.HasRecordTexts.meets_iff {r : SwapRecord} (h : r.HasRecordTexts)
    {fold : String → String} (hfold : FoldsCase fold) {want : Expected} :
    r.Meets fold want ↔ r.Meets lowerCase want := by
  have hid : r.methodId = fold want.methodId ↔ r.methodId = lowerCase want.methodId :=
    hfold.eq_fold_iff h.methodId
  have htext (name text expected : String) (hset : r.field? name = some text) :
      fold text = fold expected ↔ lowerCase text = lowerCase expected := by
    have hrecord := h.field name text hset
    rw [hfold.fold_eq_self hrecord, foldsCase_lowerCase.fold_eq_self hrecord]
    exact hfold.eq_fold_iff hrecord
  rw [SwapRecord.meets_iff, SwapRecord.meets_iff, hid]
  refine and_congr_right fun _ => and_congr_right fun _ => and_congr_right fun _ =>
    and_congr_right fun _ => ?_
  refine forall_congr' fun name => forall_congr' fun text => forall_congr' fun expected => ?_
  exact imp_congr_right fun hset => imp_congr_right fun _ => htext name text expected hset

/-- Nor does it for a list of such records.  The induction is on the records. -/
theorem SwapRecord.forall₂_meets_iff {records : List SwapRecord}
    (h : ∀ r ∈ records, r.HasRecordTexts) {fold : String → String} (hfold : FoldsCase fold)
    {expected : List Expected} :
    List.Forall₂ (Meets fold) records expected ↔
      List.Forall₂ (Meets lowerCase) records expected := by
  induction records generalizing expected with
  | nil => rw [List.forall₂_nil_left_iff, List.forall₂_nil_left_iff]
  | cons r rest ih =>
    obtain ⟨hr, hrest⟩ := List.forall_mem_cons.mp h
    rw [List.forall₂_cons_left_iff, List.forall₂_cons_left_iff]
    simp only [hr.meets_iff hfold, ih hrest]

end RouterCalldata
