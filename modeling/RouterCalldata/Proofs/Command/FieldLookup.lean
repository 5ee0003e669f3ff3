import RouterCalldata.Proofs.Command.Comparison

/-!
# Four views of the fields

What is set in a record can be seen in four ways: by asking for a name, in the object that is
written, in the map that a fixture is compared with, and by asking whether anything is set at all.
The look-up has a table of names of its own, the writer goes over all fields under the names that
documents use and skips those that are not set, the map is read back from what is written, and the
last question is put to each field in turn.  A name that is crossed or forgotten in one of the two
tables would make them differ.

All of them are settled by the members of the written object: no name repeats there, every member is
a text, and a member is there exactly if its name finds its text.  A name that is not that of one of
the eighteen fields finds nothing, and so it is the name of no member.

## Main results

* `SwapFields.mem_toMembers_iff`: the members are what the look-up finds;
* `SwapFields.get?_eq_none_of_not_mem`: other names find nothing;
* `SwapFields.isEmpty_iff_get?`, `SwapFields.isEmpty_iff_toMembers`: nothing is set;
* `SwapRecord.toDocument_populated`: the map is written as the fields are;
* `SwapFields.views_agree`: all views.
-/

namespace RouterCalldata

namespace SwapFields

variable {fs : SwapFields} {name : String}

/-- **The members of the written object are the texts that are found under their names.** -/
theorem mem_toMembers_iff {d : Document} :
    (name, d) ∈ fs.toMembers ↔ ∃ text, d = .string text ∧ fs.get? name = some text := by
  rw [toMembers_eq_map_entries, List.mem_map]
  constructor
  · rintro ⟨⟨name', text⟩, hmem, hpair⟩
    obtain ⟨rfl, rfl⟩ := Prod.mk.inj hpair
    exact ⟨text, rfl, mem_entries_iff.mp hmem⟩
  · rintro ⟨text, rfl, htext⟩
    exact ⟨(name, text), mem_entries_iff.mpr htext, rfl⟩

/-- A name of no field finds nothing. -/
theorem get?_eq_none_of_not_mem (h : name ∉ Field.all.map Field.name) : fs.get? name = none := by
  rw [Option.eq_none_iff_forall_ne_some]
  intro text htext
  obtain ⟨f, rfl, -⟩ := get?_eq_some_iff.mp htext
  exact h f.name_mem

/-! ## Nothing is set -/

theorem isEmpty_iff : fs.isEmpty = true ↔ ∀ f, fs.value f = none := by
  simp [isEmpty, Field.mem_all]

/-- **Nothing is set exactly if no name finds anything.** -/
theorem isEmpty_iff_get? : fs.isEmpty = true ↔ ∀ name, fs.get? name = none := by
  rw [isEmpty_iff]
  constructor
  · intro h name
    rw [Option.eq_none_iff_forall_ne_some]
    intro text htext
    obtain ⟨f, -, hf⟩ := get?_eq_some_iff.mp htext
    exact absurd ((h f).symm.trans hf) nofun
  · intro h f
    rw [Option.eq_none_iff_forall_ne_some]
    intro text htext
    exact absurd ((h f.name).symm.trans (get?_eq_some_iff.mpr ⟨f, rfl, htext⟩)) nofun

/-- **Nothing is set exactly if the written object has no members.** -/
theorem isEmpty_iff_toMembers : fs.isEmpty = true ↔ fs.toMembers = [] := by
  rw [isEmpty_iff_get?, List.eq_nil_iff_forall_not_mem]
  constructor
  · rintro h ⟨name, d⟩ hmem
    obtain ⟨text, -, htext⟩ := mem_toMembers_iff.mp hmem
    exact absurd ((h name).symm.trans htext) nofun
  · intro h name
    rw [Option.eq_none_iff_forall_ne_some]
    intro text htext
    exact h (name, .string text) (mem_toMembers_iff.mpr ⟨text, rfl, htext⟩)

end SwapFields

/-- **The map that a record is compared by is written as its fields are.** -/
theorem SwapRecord.toDocument_populated (r : SwapRecord) :
    r.populated.toDocument = r.fields.toDocument := by
  rw [NameMap.toDocument, entries_populated, SwapFields.toDocument,
    SwapFields.toMembers_eq_map_entries]

/-! ## All views -/

/-- **The views of the fields agree.**  The object that is written has no name twice and texts
only, and a member of a name and a text exactly if the name finds the text; nothing but
the names of the eighteen fields finds anything.  On any record that holds the fields the
look-up gives the same, and the map of the fields that are set is written as this very
object.  Nothing is set exactly if no name finds anything, and exactly if the object
has no members. -/
theorem SwapFields.views_agree (fs : SwapFields) :
    ∃ ms, fs.toDocument = .object ms ∧
      (ms.map (·.1)).Nodup ∧ (∀ m ∈ ms, ∃ text, m.2 = .string text) ∧
      (∀ name text, fs.get? name = some text ↔ (name, .string text) ∈ ms) ∧
      ((Field.all.map Field.name).Nodup ∧ Field.all.length = 18 ∧
        ∀ name, name ∉ Field.all.map Field.name → fs.get? name = none) ∧
      (∀ r : SwapRecord, { r with fields := fs }.populated.toDocument = .object ms ∧
        ∀ name, { r with fields := fs }.populated.get? name = fs.get? name ∧
          { r with fields := fs }.field? name = fs.get? name) ∧
      (fs.isEmpty = true ↔ ∀ name, fs.get? name = none) ∧ (fs.isEmpty = true ↔ ms = []) := by
  refine ⟨fs.toMembers, rfl, fs.nodup_toMembers, ?_, ?_,
    ⟨Field.nodup_names, rfl, fun name => get?_eq_none_of_not_mem⟩, ?_, isEmpty_iff_get?,
    isEmpty_iff_toMembers⟩
  · rintro ⟨name, d⟩ hmem
    obtain ⟨text, htext, -⟩ := mem_toMembers_iff.mp hmem
    exact ⟨text, htext⟩
  · intro name text
    rw [mem_toMembers_iff]
    constructor
    · intro htext
      exact ⟨text, rfl, htext⟩
    · rintro ⟨text', htext, hfound⟩
      rwa [Document.string.inj htext]
  · intro r
    exact ⟨SwapRecord.toDocument_populated _, fun name => ⟨SwapRecord.get?_populated _ name, rfl⟩⟩

/-- An amount and a fee, and names that the record has of its own or that are written in another
letter case. -/
theorem SwapFields.views_agree_amountAndFee :
    let fs := (SwapFields.empty.set .amountIn "7").set .fee "0x000bb8"
    fs.get? "fee" = some "0x000bb8" ∧ fs.get? "value" = none ∧ fs.get? "Fee" = none ∧
      fs.get? "amount_out" = none ∧ fs.isEmpty = false ∧
      ∃ ms, fs.toDocument = .object ms ∧ ("fee", .string "0x000bb8") ∈ ms ∧ ms ≠ [] := by
  intro fs
  obtain ⟨ms, hms, -, -, hget, ⟨-, -, hother⟩, -, hnone, hempty⟩ := fs.views_agree
  have hfee : fs.get? "fee" = some "0x000bb8" := by decide
  have hset : fs.isEmpty = false := by decide
  refine ⟨hfee, hother "value" (by decide), hother "Fee" (by decide), by decide, hset, ms, hms,
    (hget _ _).mp hfee, fun hnil => ?_⟩
  exact absurd (hempty.mpr hnil) (by rw [hset]; decide)

end RouterCalldata
