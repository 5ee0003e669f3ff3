import RouterCalldata.Proofs.Decoder.Calls
import RouterCalldata.Proofs.Multicall.Regions

/-!
# How many records a call decodes to

Nested arrays of calls could blow a small input up, if the same bytes were taken for several
calls.  They are not: the calls of a block share no byte, so a multicall pays for each of its calls
with a length word and the bytes of the call.

The bound that is kept from the calls to the multicall around them is that 36 bytes, a length word
and a selector, are spent on each record.  A call on its own has no length word, so it gets 32
bytes for free; inside a multicall it brings them along.

## Main results

* `length_flatten_le`: one step, from the calls of a multicall to its records;
* `length_decodeAtDepth_le`: the records of any call;
* `disjoint_regions_and_length_decode_le`: no byte is read as part of two calls, and the number of
  records is bounded by the length of the calldata.
-/

namespace RouterCalldata.Decoder

open Multicall

variable {d : Decoder} {tx : TxMetadata}

/-- **One step**: calls that keep to the bound give a number of records that is
bounded by the bytes they take up, their length words included. -/
theorem length_flatten_le {calls : List Bytes} {records : List (List SwapRecord)}
    (h : List.Forall₂ (fun call rs => 36 * rs.length ≤ call.length + 32) calls records) :
    36 * records.flatten.length ≤ (calls.map fun call => wordSize + call.length).sum := by
  induction h with
  | nil => exact Nat.le_refl 0
  | @cons call rs calls records hcall hcalls ih =>
    rw [List.flatten_cons, List.length_append, List.map_cons, List.sum_cons]
    show 36 * (rs.length + records.flatten.length) ≤ 32 + call.length + _
    omega

/-- **On each record 36 bytes are spent**, of which a call that stands on its own
is spared 32. -/
theorem length_decodeAtDepth_le {depth : Nat} {version : Version} {calldata : Bytes}
    {records : List SwapRecord} (h : d.decodeAtDepth tx depth version calldata = .ok records) :
    36 * records.length ≤ calldata.length + 32 := by
  refine decodeAtDepth_induction (motive := fun _ calldata records =>
    36 * records.length ≤ calldata.length + 32) ?plain ?multicall h
  case plain =>
    intro version calldata m params record hread hrecord
    obtain ⟨s, params', rfl, -⟩ := Call.of_read hread
    have hlen : (s.toBytes ++ params').length = 4 + params'.length := List.length_append
    rw [List.length_singleton]
    omega
  case multicall =>
    intro version calldata m headWord params calls records hread hsplit hcalls
    have hrecords := length_flatten_le hcalls
    have hparams := add_sum_length_le hsplit
    have hlen := Call.length_of_read_multicall hread
    rw [List.length_map]
    omega

/-- **No byte is read as part of two calls.**  The calls that are split off stand
one behind the other, each behind its length word at its own entry of the table
of offsets, and all behind the number of calls; so they fit, with their
lengths, into what is behind that number.  However multicalls are nested,
calldata decodes to no more records than one for every 36 bytes, up to 32 bytes. -/
theorem disjoint_regions_and_length_decode_le :
    (∀ (params : Bytes) (headWord : Nat) (calls : List Bytes), headWord ≤ 1 →
      split params headWord = .ok calls →
        (∃ regions : List Region, regions.map Region.call = calls ∧
          (∀ i (hi : i < regions.length),
            Bytes.readOffset params (wordSize * (headWord + 2 + i)) =
              .ok (regions[i].start - wordSize * (headWord + 2))) ∧
          (∀ r ∈ regions, r.IsIn params ∧ wordSize * (headWord + 2) ≤ r.start ∧
            r.stop ≤ params.length) ∧
          regions.Pairwise fun r r' => r.stop ≤ r'.start) ∧
        wordSize * (headWord + 2) + (calls.map fun call => wordSize + call.length).sum ≤
          params.length) ∧
    ∀ (d : Decoder) (version : Version) (tx : TxMetadata) (calldata : Bytes)
      (records : List SwapRecord), d.decode version tx calldata = .ok records →
        36 * records.length ≤ calldata.length + 32 := by
  refine ⟨?_, fun d version tx calldata records h => length_decodeAtDepth_le h⟩
  intro params headWord calls hhead hsplit
  have hbase : wordOffset (headWord + 1) + wordSize = wordSize * (headWord + 2) := by
    rcases Nat.le_one_iff_eq_zero_or_eq_one.mp hhead with rfl | rfl <;> rfl
  have hsum := add_sum_length_le hsplit
  obtain ⟨regions, hregions, hentries, hall, hpairwise, -⟩ := exists_regions_of_split hsplit
  rw [hbase] at hsum hentries hall
  refine ⟨⟨regions, hregions, ?_, ?_, hpairwise⟩, hsum⟩
  · intro i hi
    rw [Nat.mul_add wordSize (headWord + 2) i]
    exact hentries i hi
  · intro r hr
    exact ⟨(hall r hr).1, (hall r hr).2.2, (hall r hr).1.stop_le⟩

/-- A block of two calls, whose length words are the entries of its own table of
offsets: an empty call, and the word behind the table. -/
def callsInTable : Bytes := [32, 2, 0, 32, 7].flatMap fun n => (Word.ofNat n).bytes

/-- The block is used up to its last byte, and so is the least call that decodes
to a record. -/
theorem disjoint_regions_and_length_decode_le_callsInTable :
    0 ≤ 1 ∧ split callsInTable 0 = .ok [[], (Word.ofNat 7).bytes] ∧
      (∃ regions : List Region, regions.map Region.call = [[], (Word.ofNat 7).bytes] ∧
        (∀ i (hi : i < regions.length),
          Bytes.readOffset callsInTable (wordSize * (0 + 2 + i)) =
            .ok (regions[i].start - wordSize * (0 + 2))) ∧
        (∀ r ∈ regions, r.IsIn callsInTable ∧ wordSize * (0 + 2) ≤ r.start ∧
          r.stop ≤ callsInTable.length) ∧
        regions.Pairwise fun r r' => r.stop ≤ r'.start) ∧
      64 + (32 + (32 + 32)) ≤ callsInTable.length ∧ callsInTable.length = 160 ∧
      Decoder.default.decode .v3 (.ofCall "hash" "router") V3Method.refundETH.selector.toBytes =
        .ok [SwapRecord.ofMethod (.ofCall "hash" "router") "Uniswap" (.v3 .refundETH) .empty] ∧
      36 * 1 ≤ 4 + 32 := by
  have hsplit : split callsInTable 0 = .ok [[], (Word.ofNat 7).bytes] := by decide +kernel
  have hread : Call.read .v3 V3Method.refundETH.selector.toBytes =
      .ok (.plain (.v3 .refundETH) []) := rfl
  have hdecode : Decoder.default.decode .v3 (.ofCall "hash" "router")
      V3Method.refundETH.selector.toBytes =
        .ok [SwapRecord.ofMethod (.ofCall "hash" "router") "Uniswap" (.v3 .refundETH) .empty] := by
    rw [decode, decodeAtDepth_plain hread]
    rfl
  obtain ⟨hregions, hsum⟩ := disjoint_regions_and_length_decode_le.1 callsInTable 0 _
    (Nat.zero_le 1) hsplit
  exact ⟨Nat.zero_le 1, hsplit, hregions, hsum, by decide +kernel, hdecode,
    disjoint_regions_and_length_decode_le.2 _ _ _ _ _ hdecode⟩

end RouterCalldata.Decoder
