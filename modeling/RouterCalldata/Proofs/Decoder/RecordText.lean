import RouterCalldata.Proofs.Decoder.Calls
import RouterCalldata.Proofs.Document.JsonText
import RouterCalldata.Proofs.Multicall.Regions
import RouterCalldata.Proofs.Record.Form
import RouterCalldata.Proofs.Text.Lines

/-!
# Records as JSON texts

The text of a record is read back as the record's document only if the text can hold it.  Two things
could stand in the way: a valuation, which is a double, and a number of calls of more than 64 bits.
A decoder fills no valuation in, and a multicall's number of calls is read from a word as a number
of 64 bits, whatever the length of the block.

## Main definitions

* `SwapRecord.IsExact`: a record that a JSON text can hold.

## Main results

* `Decoder.isExact_of_decode`: the records of a call;
* `SwapRecord.lines_unlines_toJson`, `SwapRecord.mapM_ofJson?_toJson`: records written one to a
  line;
* `SwapRecord.ofJson?_toJsonLines`: records written as one array.
-/

namespace RouterCalldata

open Document Json

/-! ## Numbers of calls -/

theorem Multicall.length_lt_of_split {params : Bytes} {headWord : Nat} {calls : List Bytes}
    (h : split params headWord = .ok calls) : calls.length < Offset.limit := by
  rw [split_eq] at h
  obtain ⟨⟨base, count⟩, hcount, h⟩ := Decoded.bind_eq_ok_iff.mp h
  obtain ⟨offsets, htable, h⟩ := Decoded.bind_eq_ok_iff.mp h
  obtain ⟨-, -, hread, -⟩ := of_readCount hcount
  obtain ⟨hlen, -⟩ := of_readTable htable
  obtain ⟨regions, hregions, hstarts, -, -⟩ := exists_regions_of_elements h
  have hcalls : calls.length = regions.length := by
    rw [← hregions, List.length_map]
  have hoffsets := congrArg List.length hstarts
  rw [List.length_map, List.length_map] at hoffsets
  have hlt := Bytes.readOffset_lt hread
  omega

/-! ## Records that a text can hold -/

/-- The record has no valuation, and its number of calls is one of 64 bits. -/
structure SwapRecord.IsExact (r : SwapRecord) : Prop where
  value_eq_none : r.value = none
  numberOfCalls_lt : ∀ n, r.numberOfCalls = some n → n < Nat.pow 2 64

/-- A multicall around a call tells the number of its own calls, unless a number is there. -/
theorem SwapRecord.IsExact.within {r : SwapRecord} (h : r.IsExact) {n : Nat}
    (hn : n < Nat.pow 2 64) : (r.within n).IsExact where
  value_eq_none := h.value_eq_none
  numberOfCalls_lt := by
    intro k hk
    obtain rfl : r.numberOfCalls.getD n = k := Option.some.inj hk
    cases hnumber : r.numberOfCalls with
    | none => exact hn
    | some number => exact h.numberOfCalls_lt number hnumber

namespace Decoder

variable {d : Decoder} {tx : TxMetadata} {depth : Nat} {version : Version} {calldata : Bytes}

/-- **The records of a call can be written as JSON texts**, however the call is nested. -/
theorem isExact_of_decode {records : List SwapRecord}
    (h : d.decode version tx calldata = .ok records) : ∀ r ∈ records, r.IsExact := by
  refine decodeAtDepth_induction (motive := fun _ _ records => ∀ r ∈ records, r.IsExact) ?_ ?_ h
  · intro version calldata m params record _ hrecord r hr
    obtain ⟨fields, -, hrecord⟩ := Decoded.bind_eq_ok_iff.mp hrecord
    obtain rfl := Except.ok.inj hrecord
    obtain rfl := List.mem_singleton.mp hr
    exact ⟨rfl, nofun⟩
  · intro version calldata m headWord params calls records _ hsplit hcalls r hr
    obtain ⟨inner, hinner, rfl⟩ := List.mem_map.mp hr
    obtain ⟨rs, hrs, hmem⟩ := List.mem_flatten.mp hinner
    obtain ⟨call, -, hexact⟩ := Decoded.exists_mem_of_forall₂ hcalls hrs
    exact (hexact inner hmem).within (Multicall.length_lt_of_split hsplit)

end Decoder

/-! ## Texts -/

namespace SwapRecord

theorem IsExact.fits_toDocument {r : SwapRecord} (h : r.IsExact) : Fits 2 r.toDocument := by
  rw [toDocument_eq]
  apply Fits.object
  intro m hm
  simp only [members, List.mem_append] at hm
  rcases hm with (((hm | hm) | hm) | hm) | hm
  · simp only [List.mem_cons, List.not_mem_nil, or_false] at hm
    rcases hm with rfl | rfl | rfl | rfl | rfl | rfl | rfl
    all_goals exact Fits.string _
  · obtain ⟨⟨f, text⟩, -, rfl⟩ := List.mem_map.mp hm
    exact Fits.string text
  · obtain ⟨x, hvalue, -⟩ := mem_shown.mp hm
    rw [h.value_eq_none] at hvalue
    exact absurd hvalue (by simp)
  · obtain ⟨n, hnumber, rfl⟩ := mem_shown.mp hm
    exact Fits.nat (h.numberOfCalls_lt n hnumber)
  · obtain ⟨calls, -, rfl⟩ := mem_shown.mp hm
    apply Fits.array
    intro d hd
    obtain ⟨c, -, rfl⟩ := List.mem_map.mp hd
    exact Fits.string _

variable {records : List SwapRecord}

/-- **Records that are written one to a line are on one line each.** -/
theorem lines_unlines_toJson (h : ∀ r ∈ records, r.IsExact) :
    Text.lines (unlines (records.map fun r => r.toDocument.toJson)) =
      records.map fun r => r.toDocument.toJson := by
  apply Text.lines_unlines
  intro l hl
  obtain ⟨r, hr, rfl⟩ := List.mem_map.mp hl
  have hfits := (h r hr).fits_toDocument
  rw [toDocument_eq] at hfits ⊢
  exact hfits.object_isLine

/-- **Each line is read back as the document of its record.** -/
theorem mapM_ofJson?_toJson (h : ∀ r ∈ records, r.IsExact) :
    (records.map fun r => r.toDocument.toJson).mapM ofJson? = some (records.map toDocument) := by
  induction records with
  | nil => rfl
  | cons r rest ih =>
    have hr : Fits maxDepth r.toDocument :=
      (h r List.mem_cons_self).fits_toDocument.mono (by decide)
    have hrest := ih fun r hr => h r (List.mem_cons_of_mem _ hr)
    rw [List.map_cons, List.mapM_cons, ofJson?_toJson hr, hrest]
    rfl

/-- **Records that are written as one array are read back as the array of their documents.** -/
theorem ofJson?_toJsonLines (h : ∀ r ∈ records, r.IsExact) :
    ofJson? ((Document.array (records.map toDocument)).toJsonLines ++ "\n") =
      some (.array (records.map toDocument)) := by
  have hfits : Fits 3 (.array (records.map toDocument)) := by
    apply Fits.array
    intro d hd
    obtain ⟨r, hr, rfl⟩ := List.mem_map.mp hd
    exact (h r hr).fits_toDocument
  exact Document.ofJson?_toJsonLines (hfits.mono (by decide))

end SwapRecord

end RouterCalldata
