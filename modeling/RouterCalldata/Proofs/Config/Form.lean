import RouterCalldata.Config.Form
import RouterCalldata.Proofs.Document.NameMap
import RouterCalldata.Proofs.Record.Form

/-!
# Configurations are read back

A configuration is written as three sections, each an object of its own.  The log's section holds a
map of free names, which is read entry by entry.  No name repeats in it, so that the map of its
entries is the map itself.

## Main results

* `NameMap.ofDocument?_toDocument`: maps;
* `Decoder.readsBack`, `Batch.Config.readsBack`, `LogSettings.readsBack`, `Config.readsBack`: the
  sections and the whole;
* `documents_readBack`: all types that are exchanged as documents.
-/

namespace RouterCalldata

open Document

/-! ## Maps -/

namespace NameMap

theorem isJson_toDocument (m : NameMap) : m.toDocument.IsJson := by
  apply IsJson.object
  intro member hmember
  obtain ⟨e, -, rfl⟩ := List.mem_map.mp hmember
  exact IsJson.string e.2

/-- Texts that are written under their names are read back under them. -/
theorem mapM_asText?_string (es : List (String × String)) :
    (es.map fun (name, text) => (name, string text)).mapM
      (fun (name, d) => do return (name, ← d.asText?)) = some es := by
  induction es with
  | nil => rfl
  | cons e rest ih =>
    rw [List.map_cons, List.mapM_cons, ih]
    rfl

@[simp] theorem ofDocument?_toDocument (m : NameMap) : ofDocument? m.toDocument = some m := by
  unfold ofDocument? toDocument
  rw [entries?, Option.bind_eq_bind, Option.bind_some, mapM_asText?_string]
  exact congrArg some m.ofList_entries

end NameMap

/-! ## Sections -/

@[simp] theorem ErrorMode.ofDocument?_toDocument (m : ErrorMode) :
    ofDocument? m.toDocument = some m := by
  cases m <;> rfl

theorem Decoder.readsBack : ReadsBack memberNames (fun _ => True) toDocument ofDocument? where
  exists_members d := ⟨_, rfl⟩
  isJson_write d := by
    apply IsJson.object
    simp [IsJson.string, IsJson.number]
  read_write d _ := by
    unfold ofDocument? toDocument
    simp [members?, orElse, member?, asNat?, asText?]
  read_rearranged ms ms' h := by
    unfold ofDocument?
    simp only [members?, Option.bind_eq_bind, Option.bind_some]
    simp (disch := decide) only [h.orElse_eq]

theorem Batch.Config.readsBack :
    ReadsBack memberNames (fun _ => True) toDocument ofDocument? where
  exists_members c := ⟨_, rfl⟩
  isJson_write c := by
    apply IsJson.object
    simp [IsJson.string, IsJson.number, ErrorMode.toDocument]
  read_write c _ := by
    unfold ofDocument? toDocument
    simp [members?, orElse, member?, asNat?]
  read_rearranged ms ms' h := by
    unfold ofDocument?
    simp only [members?, Option.bind_eq_bind, Option.bind_some]
    simp (disch := decide) only [h.orElse_eq]

theorem LogSettings.readsBack :
    ReadsBack memberNames (fun _ => True) toDocument ofDocument? where
  exists_members s := ⟨_, rfl⟩
  isJson_write s := by
    apply IsJson.object
    simp [IsJson.string, IsJson.bool, NameMap.isJson_toDocument]
  read_write s _ := by
    unfold ofDocument? toDocument
    simp [members?, orElse, member?, asText?, asBool?]
  read_rearranged ms ms' h := by
    unfold ofDocument?
    simp only [members?, Option.bind_eq_bind, Option.bind_some]
    simp (disch := decide) only [h.orElse_eq]

theorem Config.readsBack : ReadsBack memberNames (fun _ => True) toDocument ofDocument? where
  exists_members c := ⟨_, rfl⟩
  isJson_write c := by
    apply IsJson.object
    simp [Decoder.readsBack.isJson_write, Batch.Config.readsBack.isJson_write,
      LogSettings.readsBack.isJson_write]
  read_write c _ := by
    have hdecoder := Decoder.readsBack.read_write c.decoder trivial
    have hbatch := Batch.Config.readsBack.read_write c.batch trivial
    have hlog := LogSettings.readsBack.read_write c.log trivial
    unfold ofDocument? toDocument
    simp [members?, orElse, member?, hdecoder, hbatch, hlog]
  read_rearranged ms ms' h := by
    unfold ofDocument?
    simp only [members?, Option.bind_eq_bind, Option.bind_some]
    simp (disch := decide) only [h.orElse_eq]

/-! ## All documents -/

/-- **What is written is read back**: records without a valuation, fields, transactions and their
metadata, and configurations and their sections.  In none of their documents does the order
of the members matter, nor any member of a name that the type does not know. -/
theorem documents_readBack :
    ReadsBack (SwapRecord.memberNames ++ Field.all.map Field.name) (fun r => r.value = none)
        SwapRecord.toDocument SwapRecord.ofDocument? ∧
      ReadsBack (Field.all.map Field.name) (fun _ => True)
        SwapFields.toDocument SwapFields.ofDocument? ∧
      ReadsBack TxMetadata.memberNames (fun _ => True)
        TxMetadata.toDocument TxMetadata.ofDocument? ∧
      ReadsBack RawTransaction.memberNames (fun _ => True)
        RawTransaction.toDocument RawTransaction.ofDocument? ∧
      ReadsBack Decoder.memberNames (fun _ => True) Decoder.toDocument Decoder.ofDocument? ∧
      ReadsBack Batch.Config.memberNames (fun _ => True)
        Batch.Config.toDocument Batch.Config.ofDocument? ∧
      ReadsBack Config.memberNames (fun _ => True) Config.toDocument Config.ofDocument? :=
  ⟨SwapRecord.readsBack, SwapFields.readsBack, TxMetadata.readsBack, RawTransaction.readsBack,
    Decoder.readsBack, Batch.Config.readsBack, Config.readsBack⟩

/-- A staged multicall with a field set, its members turned round and behind a member of a
name that no record has. -/
theorem documents_readBack_stagedRecord :
    let tx := TxMetadata.ofCall "hash" "router"
    let record := { SwapRecord.ofMethod tx "Uniswap" (.v3 .multicall)
      (SwapFields.empty.set .fee "0x000bb8") with
        numberOfCalls := some 2, callsData := [[0x12, 0x21], []] }
    record.value = none ∧ SwapRecord.ofDocument? record.toDocument = some record ∧
      ∃ ms, record.toDocument = .object ms ∧
        Rearranged (SwapRecord.memberNames ++ Field.all.map Field.name) ms
          (("note", .null) :: ms.reverse) ∧
        SwapRecord.ofDocument? (.object (("note", .null) :: ms.reverse)) = some record := by
  intro tx record
  have hback := documents_readBack.1
  have hread := hback.read_write record rfl
  obtain ⟨ms, hms⟩ := hback.exists_members record
  have hmoved : Rearranged (SwapRecord.memberNames ++ Field.all.map Field.name) ms
      (("note", .null) :: ms.reverse) := by
    refine ⟨[("note", .null)], ?_, ?_⟩
    · exact ((List.reverse_perm ms).cons _).trans (List.perm_append_singleton _ ms).symm
    · intro m hm
      obtain rfl := List.mem_singleton.mp hm
      exact ⟨by decide, .null⟩
  refine ⟨rfl, hread, ms, hms, hmoved, ?_⟩
  rw [hback.read_rearranged ms _ hmoved, ← hms]
  exact hread

end RouterCalldata
