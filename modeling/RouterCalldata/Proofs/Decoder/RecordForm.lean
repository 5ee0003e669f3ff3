import RouterCalldata.Proofs.Decoder.Calls
import RouterCalldata.Proofs.Record.TextForm

/-!
# What every record looks like

Whoever reads records does not read calldata any more, and takes the texts of a record for what
their names say.  What may be relied on is one statement for each method, since a record tells its
method, and the method tells which fields are set and how each of them is written.

A multicall changes nothing of this in the records of its calls.  It only tells how many calls
there are, and it leaves alone the records that have been told already.

## Main definitions

* `Method.form`: how a method's fields are written;
* `SwapRecord.IsOf`: the record is that of a call of the method;
* `GivesRecords`: what is kept from the calls of a multicall to the multicall.

## Main results

* `Method.suitedTo_form`: the places in a block have the forms of their fields;
* `isOf_record`: the record of a plain call;
* `GivesRecords.within`, `givesRecords_multicall`: one multicall around calls;
* `isOf_of_decode`: all records that calldata decodes to.
-/

namespace RouterCalldata

/-! ## Methods -/

/-- The method reads only the low ten bytes of the liquidity. -/
def Method.readsShortLiquidity : Method → Bool
  | v2 .removeLiquidityETH
  | v2 .removeLiquidityETHWithPermit
  | v2 .removeLiquidityETHWithPermitSupportingFee
  | v2 .removeLiquidityETHSupportingFee => true
  | _ => false

/-- How a method's fields are written. -/
def Method.form (m : Method) : Field → TextForm
  | .tokenPathFrom | .tokenPathTo | .recipient | .tokenA | .tokenB => .hex addressSize
  | .fee => .hex feeSize
  | .liquidity => .numeral (if m.readsShortLiquidity then 80 else 256)
  | .amountIn | .amountOutMin | .amountOut | .amountInMax | .amountADesired | .amountBDesired
  | .amountAMin | .amountBMin | .amountTokenDesired | .amountTokenMin | .amountEthMin =>
      .numeral 256

/-- The places in the block of a method have the forms of their fields. -/
theorem Method.suitedTo_form (m : Method) : m.layout.SuitedTo m.form where
  from_eq := rfl
  to_eq := rfl
  fee_eq := rfl
  slots_eq := by
    cases m with
    | v2 m => cases m <;> decide
    | v3 m => cases m <;> decide

/-! ## Records -/

/-- The record is that of a call of the method `m`, decoded in the transaction `tx`: it
names the method, and exactly the fields of the method are set, in the way the
method's fields are written. -/
structure SwapRecord.IsOf (d : Decoder) (tx : TxMetadata) (m : Method) (r : SwapRecord) : Prop where
  headWord?_eq_none : m.headWord? = none
  length_methodId : r.methodId.toList.length = 8
  methodId_digit : ∀ c ∈ r.methodId.toList, c ∈ hexDigits
  /-- The method is found under the text of its selector. -/
  resolve_methodId : ∃ s, Selector.parse r.methodId = .ok s ∧ Method.resolve r.version s = .ok m
  methodName_eq : r.methodName = m.name
  hasForm_fields : r.fields.HasForm m.form m.layout.fields
  exchange_eq : r.exchange = d.exchange
  txHash_eq : r.txHash = tx.txHash
  toAddress_eq : r.toAddress = tx.toAddress
  txValue_eq : r.txValue = tx.value
  value_eq_none : r.value = none
  callsData_eq_nil : r.callsData = []

/-- A multicall around a call changes nothing but the number of calls. -/
theorem SwapRecord.IsOf.within {d : Decoder} {tx : TxMetadata} {m : Method} {r : SwapRecord}
    (h : r.IsOf d tx m) (n : Nat) : (r.within n).IsOf d tx m :=
  { h with }

namespace Decoder

open Decoded

variable {d : Decoder} {tx : TxMetadata} {version : Version} {calldata : Bytes}

/-- **The record of a plain call** is that of its method. -/
theorem isOf_record {m : Method} {params : Bytes} {record : SwapRecord}
    (hread : Call.read version calldata = .ok (.plain m params))
    (h : d.record tx m params = .ok record) :
    record.IsOf d tx m ∧ record.version = version ∧ record.numberOfCalls = none := by
  obtain ⟨-, rfl, hword⟩ := Call.of_read_plain hread
  obtain ⟨fields, hfields, h⟩ := bind_eq_ok_iff.mp h
  obtain rfl := Except.ok.inj h
  rw [Method.decode_eq] at hfields
  refine ⟨?_, rfl, rfl⟩
  exact {
    headWord?_eq_none := hword
    length_methodId := Selector.length_toList_hex m.selector
    methodId_digit := fun c hc => Selector.mem_hexDigits_of_mem_hex hc
    resolve_methodId := ⟨m.selector, Selector.parse_hex m.selector, Method.resolve_selector m⟩
    methodName_eq := rfl
    hasForm_fields := Layout.hasForm_decode m.suitedTo_form hfields
    exchange_eq := rfl
    txHash_eq := rfl
    toAddress_eq := rfl
    txValue_eq := rfl
    value_eq_none := rfl
    callsData_eq_nil := rfl }

/-- What is kept from the calls of a multicall to the multicall: each record is that of a
call, and the number of calls is told by the records of multicalls and by no
other. -/
structure GivesRecords (d : Decoder) (tx : TxMetadata) (version : Version) (calldata : Bytes)
    (records : List SwapRecord) : Prop where
  isOf : ∀ r ∈ records, ∃ m, r.IsOf d tx m
  plain : ¬ IsMulticall calldata →
    ∃ r, records = [r] ∧ r.version = version ∧ r.numberOfCalls = none
  multicall : IsMulticall calldata →
    ∀ r ∈ records, r.version = .v3 ∧ ∃ n, 1 ≤ n ∧ r.numberOfCalls = some n

/-- A plain call gives the record of its method. -/
theorem givesRecords_plain {m : Method} {params : Bytes} {record : SwapRecord}
    (hread : Call.read version calldata = .ok (.plain m params))
    (h : d.record tx m params = .ok record) : GivesRecords d tx version calldata [record] := by
  obtain ⟨hof, hversion, hcalls⟩ := isOf_record hread h
  refine ⟨?_, fun _ => ⟨record, rfl, hversion, hcalls⟩,
    fun hmulticall => absurd hmulticall (Call.not_isMulticall_of_read hread)⟩
  intro r hr
  obtain rfl := List.mem_singleton.mp hr
  exact ⟨m, hof⟩

/-- **One step**: of a record of one of `n` calls a multicall tells the number of calls,
unless it has been told further in. -/
theorem GivesRecords.within {call : Bytes} {records : List SwapRecord}
    (h : GivesRecords d tx .v3 call records) {r : SwapRecord} (hr : r ∈ records) {n : Nat}
    (hn : 1 ≤ n) :
    (r.within n).version = .v3 ∧ ∃ k, 1 ≤ k ∧ (r.within n).numberOfCalls = some k := by
  by_cases hmulticall : IsMulticall call
  · obtain ⟨hversion, k, hk, hnumber⟩ := h.multicall hmulticall r hr
    refine ⟨hversion, k, hk, ?_⟩
    rw [SwapRecord.within, hnumber]
    rfl
  · obtain ⟨record, rfl, hversion, hnumber⟩ := h.plain hmulticall
    obtain rfl := List.mem_singleton.mp hr
    refine ⟨hversion, n, hn, ?_⟩
    rw [SwapRecord.within, hnumber]
    rfl

/-- A multicall gives the records of its calls, with the number of calls told. -/
theorem givesRecords_multicall {m : V3Method} {headWord : Nat} {params : Bytes}
    {calls : List Bytes} {records : List (List SwapRecord)}
    (hread : Call.read version calldata = .ok (.multicall m headWord params))
    (hcalls : List.Forall₂ (GivesRecords d tx .v3) calls records) :
    GivesRecords d tx version calldata (records.flatten.map (·.within calls.length)) := by
  have hinner : ∀ r ∈ records.flatten.map (·.within calls.length), ∃ call ∈ calls,
      ∃ rs, GivesRecords d tx .v3 call rs ∧ ∃ inner ∈ rs, inner.within calls.length = r := by
    intro r hr
    obtain ⟨inner, hinner, rfl⟩ := List.mem_map.mp hr
    obtain ⟨rs, hrs, hmem⟩ := List.mem_flatten.mp hinner
    obtain ⟨call, hcall, hgives⟩ := exists_mem_of_forall₂ hcalls hrs
    exact ⟨call, hcall, rs, hgives, inner, hmem, rfl⟩
  refine ⟨?_, fun hnot => absurd (Call.isMulticall_of_read hread) hnot, fun _ => ?_⟩
  · intro r hr
    obtain ⟨call, -, rs, hgives, inner, hmem, rfl⟩ := hinner r hr
    obtain ⟨m', hm'⟩ := hgives.isOf inner hmem
    exact ⟨m', hm'.within calls.length⟩
  · intro r hr
    obtain ⟨call, hcall, rs, hgives, inner, hmem, rfl⟩ := hinner r hr
    exact hgives.within hmem (List.length_pos_of_mem hcall)

/-- **What every record looks like.**  Each record that calldata decodes to is that of a
method that takes no array of calls.  A plain call gives one record, of the
caller's version, and tells no number of calls.  The records of a multicall are
all of the newer router, and each of them tells the number of calls, at least one,
of the multicall that it stands in. -/
theorem isOf_of_decode {records : List SwapRecord}
    (h : d.decode version tx calldata = .ok records) :
    (∀ r ∈ records, ∃ m, r.IsOf d tx m) ∧
      (¬ IsMulticall calldata →
        ∃ r, records = [r] ∧ r.version = version ∧ r.numberOfCalls = none) ∧
      (IsMulticall calldata →
        ∀ r ∈ records, r.version = .v3 ∧ ∃ n, 1 ≤ n ∧ r.numberOfCalls = some n) := by
  have hgives : GivesRecords d tx version calldata records :=
    decodeAtDepth_induction (motive := GivesRecords d tx) givesRecords_plain
      (fun hread _ hcalls => givesRecords_multicall hread hcalls) h
  exact ⟨hgives.isOf, hgives.plain, hgives.multicall⟩

/-- Liquidity that is removed, with a word that is all ones where the liquidity stands. -/
def removeAll : Bytes :=
  V2Method.removeLiquidityETH.selector.toBytes ++
    [0x2a, 2 ^ 256 - 1, 5, 0, 0x2b].flatMap fun n => (Word.ofNat n).bytes

/-- A multicall of one call, which takes native currency out. -/
def unwrapOnce : Bytes :=
  V3Method.multicall.selector.toBytes ++
    ([32, 1, 32, 68].flatMap fun n => (Word.ofNat n).bytes) ++
    V3Method.unwrapWETH9.selector.toBytes ++ [7, 0x2c].flatMap fun n => (Word.ofNat n).bytes

/-- The liquidity that is told has 80 bits, although the word holds more. -/
theorem isOf_of_decode_removeAll_unwrapOnce :
    let tx := TxMetadata.ofCall "hash" "router"
    let removed := SwapRecord.ofMethod tx "Uniswap" (.v2 .removeLiquidityETH)
      (((((SwapFields.empty.set .tokenA "0x000000000000000000000000000000000000002a").set
        .liquidity "1208925819614629174706175").set .amountTokenMin "5").set .amountEthMin "0").set
        .recipient "0x000000000000000000000000000000000000002b")
    let unwrapped := (SwapRecord.ofMethod tx "Uniswap" (.v3 .unwrapWETH9)
      ((SwapFields.empty.set .amountOutMin "7").set
        .recipient "0x000000000000000000000000000000000000002c")).within 1
    Decoder.default.decode .v2 tx removeAll = .ok [removed] ∧
      Decoder.default.decode .v2 tx unwrapOnce = .ok [unwrapped] ∧
      (∃ m, removed.IsOf Decoder.default tx m) ∧
      (∃ r, [removed] = [r] ∧ r.version = .v2 ∧ r.numberOfCalls = none) ∧
      (∃ m, unwrapped.IsOf Decoder.default tx m) ∧
      unwrapped.version = .v3 ∧ ∃ n, 1 ≤ n ∧ unwrapped.numberOfCalls = some n := by
  intro tx removed unwrapped
  have hremove : Decoder.default.decode .v2 tx removeAll = .ok [removed] := by
    have hread : Call.read .v2 removeAll =
        .ok (.plain (.v2 .removeLiquidityETH) (removeAll.drop 4)) := by
      decide +kernel
    rw [decode, decodeAtDepth_plain hread]
    decide +kernel
  have hunwrap : Decoder.default.decode .v2 tx unwrapOnce = .ok [unwrapped] := by
    have hread : Call.read .v2 unwrapOnce = .ok (.multicall .multicall 0 (unwrapOnce.drop 4)) := by
      decide +kernel
    have hsplit : Multicall.split (unwrapOnce.drop 4) 0 = .ok [unwrapOnce.drop 132] := by
      decide +kernel
    have hcall : Call.read .v3 (unwrapOnce.drop 132) =
        .ok (.plain (.v3 .unwrapWETH9) (unwrapOnce.drop 136)) := by
      decide +kernel
    rw [decode, decodeAtDepth_multicall hread (by decide), hsplit, ok_bind, List.mapM_cons,
      decodeAtDepth_plain hcall]
    decide +kernel
  have hplain : ¬ IsMulticall removeAll := by decide +kernel
  have hmulticall : IsMulticall unwrapOnce := by decide +kernel
  have hremoved := isOf_of_decode hremove
  have hunwrapped := isOf_of_decode hunwrap
  exact ⟨hremove, hunwrap, hremoved.1 removed List.mem_cons_self, hremoved.2.1 hplain,
    hunwrapped.1 unwrapped List.mem_cons_self,
    hunwrapped.2.2 hmulticall unwrapped List.mem_cons_self⟩

end Decoder

end RouterCalldata
