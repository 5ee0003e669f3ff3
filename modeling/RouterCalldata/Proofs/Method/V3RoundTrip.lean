import RouterCalldata.Proofs.Abi.Signature
import RouterCalldata.Proofs.Decoder.Stamp

/-!
# Calls of the newer router, encoded and decoded

Seven of the nine methods take no array of calls.  The swaps take their arguments in a tuple, the
others one by one.  A swap through several pools takes them as a path, which lists the tokens from
the one that is sold, unless the bought amount is fixed: then from the one that is bought.

As with the older router, the layouts of the decoder are hand-made tables, and each of them has the
slots of the signature.  So what the decoder gives for a canonical call is what the arguments
report.

## Main definitions

* `V3Method.signature`: the signature of a method, with the roles of its parameters;
* `V3Method.encodePlain`: the calldata of a call.

## Main results

* `V3Method.info_signature_eq`: the types are the ones that the method table lists;
* `V3Method.signature_readBy_layout`: the layout of a method has the slots of its signature;
* `V3Method.decode_of_holdsAt`: a swap along a path is read wherever its tuple stands;
* `V3Method.decode_encodePlain`: a canonical call decodes to one record, with the fields that its
  arguments report, and so does a swap along a path with its tuple and its path elsewhere.
-/

namespace RouterCalldata.V3Method

open Abi

/-! ## Signatures -/

/-- The signature of a method, with what it reports of each argument.  The
deadline and the bound on the price are told by no record, and the fee of a
single pool by none either. -/
def signature : (m : V3Method) → m.headWord? = none → Signature
  | exactInputSingle, _ => .tuple (singlePool .amountIn .amountOutMin)
  | exactInput, _ => .pathTuple .inputFirst (manyPools .amountIn .amountOutMin)
  | exactOutputSingle, _ => .tuple (singlePool .amountOut .amountInMax)
  | exactOutput, _ => .pathTuple .outputFirst (manyPools .amountOut .amountInMax)
  | unwrapWETH9, _ => .separate [.amount .amountOutMin, .account .recipient]
  | sweepToken, _ =>
      .separate [.account .tokenPathTo, .amount .amountOutMin, .account .recipient]
  | refundETH, _ => .separate []
where
  /-- A swap through one pool, of a fixed amount and with a limit on the other. -/
  singlePool (fixed limit : Field) : List Parameter :=
    [.account .tokenPathFrom, .account .tokenPathTo, .unread "uint24", .account .recipient,
      .unread "uint256", .amount fixed, .amount limit, .unread "uint160"]
  /-- The same behind a path through pools. -/
  manyPools (fixed limit : Field) : List Parameter :=
    [.account .recipient, .unread "uint256", .amount fixed, .amount limit]

/-- The types of a method are those of the signature in the method table. -/
theorem info_signature_eq (m : V3Method) (hm : m.headWord? = none) :
    m.info.signature = m.name.decapitalize ++ (m.signature hm).types := by
  revert hm
  cases m <;> decide +kernel

/-- **The layout of a method has the slots of its signature.** -/
theorem signature_readBy_layout (m : V3Method) (hm : m.headWord? = none) :
    (m.signature hm).ReadBy m.layout := by
  revert hm
  cases m <;> decide

/-! ## Calls -/

/-- The calldata of a call: the selector, and the canonical encoding of the
arguments. -/
def encodePlain (m : V3Method) (hm : m.headWord? = none) (args : (m.signature hm).Arguments) :
    Bytes :=
  m.selector.toBytes ++ components ((m.signature hm).values args)

variable {m : V3Method}

theorem multicall_ofSelector?_eq_none (hm : m.headWord? = none) :
    Multicall.ofSelector? m.selector = none := by
  have hword : (Method.v3 m).headWord? = none := hm
  exact Multicall.ofSelector?_selector_eq_none_iff.mpr hword

/-- **A swap along a path is read wherever its tuple stands**, and wherever in the
tuple the path does: the offsets that lead to them need not be the canonical
ones. -/
theorem decode_of_holdsAt (d : Decoder) (tx : TxMetadata) (hm : m.headWord? = none)
    {order : PathOrder} {ps : List Parameter} (hs : m.signature hm = .pathTuple order ps)
    (path : PoolPath) (args : Arguments ps) {params : Bytes} {start offset front : Nat}
    (hfit : params.length < Offset.limit) (hstart : params.HoldsAt 0 (Word.ofNat start).bytes)
    (hoffset : params.HoldsAt start (Word.ofNat offset).bytes)
    (hpath : params.HoldsAt (start + offset) (bytes path.bytes).bytes)
    (hwords : params.HoldsAt (start + wordSize) (heads front (encoded ps args))) :
    d.decode .v3 tx (m.selector.toBytes ++ params) =
      .ok [SwapRecord.ofMethod tx d.exchange (.v3 m)
        (Signature.reported (.pathTuple order ps) (path, args))] := by
  obtain ⟨hlayout, hperm, hnodup, -⟩ := m.signature_readBy_layout hm
  rw [hs] at hlayout hperm hnodup
  apply Decoder.decode_selector_append d tx (.v3 m) (multicall_ofSelector?_eq_none hm)
  show m.layout.decode m.name params = _
  rw [hlayout]
  exact decode_tuple_holdsAt hfit m.name order args hperm hnodup hstart hoffset hpath hwords

/-- **A canonical call decodes to what its arguments report.**  For each method that
takes no array of calls and all arguments of its signature, the decoder gives
one record, of the version, with the id and the name of that method.  Its fields
are the ends and the first fee of the path and the arguments that the method
reports, with the most that may be sold told as the sold amount too; no other
field is set.  The record bears the stamp of the transaction and belongs to no
multicall.

A swap along a path gives the same record wherever in the block the tuple of its
arguments stands, and wherever in the tuple the path does.

The call is held in memory, so its length is a number of 64 bits. -/
theorem decode_encodePlain (d : Decoder) (tx : TxMetadata) (m : V3Method)
    (hm : m.headWord? = none) :
    m.info.signature = m.name.decapitalize ++ (m.signature hm).types ∧
      (∀ args, (m.encodePlain hm args).length < Offset.limit →
        ∃ r, d.decode .v3 tx (m.encodePlain hm args) = .ok [r] ∧
          r.version = .v3 ∧ r.methodId = m.selector.hex ∧ r.methodName = m.name ∧
          r.fields = (m.signature hm).reported args ∧
          (∀ f, (r.fields.value f).isSome ↔ f ∈ (m.signature hm).fields) ∧
          r.HasStamp d tx ∧ r.value = none ∧ r.numberOfCalls = none ∧ r.callsData = []) ∧
      ∀ order ps, m.signature hm = .pathTuple order ps →
        ∀ (path : PoolPath) (args : Arguments ps) (params : Bytes) (start offset front : Nat),
          params.length < Offset.limit → params.HoldsAt 0 (Word.ofNat start).bytes →
          params.HoldsAt start (Word.ofNat offset).bytes →
          params.HoldsAt (start + offset) (bytes path.bytes).bytes →
          params.HoldsAt (start + wordSize) (heads front (encoded ps args)) →
            ∃ r, d.decode .v3 tx (m.selector.toBytes ++ params) = .ok [r] ∧
              r.version = .v3 ∧ r.methodId = m.selector.hex ∧ r.methodName = m.name ∧
              r.fields = Signature.reported (.pathTuple order ps) (path, args) ∧
              r.HasStamp d tx ∧ r.value = none ∧ r.numberOfCalls = none ∧ r.callsData = [] := by
  have hreads := m.signature_readBy_layout hm
  refine ⟨m.info_signature_eq hm, ?_, ?_⟩
  · intro args hfit
    rw [encodePlain, List.length_append] at hfit
    have hfields := hreads.decode_values args m.name (Nat.lt_of_le_of_lt (Nat.le_add_left ..) hfit)
    have hdecode :=
      Decoder.decode_selector_append d tx (.v3 m) (multicall_ofSelector?_eq_none hm) hfields
    exact ⟨_, hdecode, rfl, rfl, rfl, rfl, Signature.isSome_reported_iff hreads.path_notMem args,
      ⟨rfl, rfl, rfl, rfl⟩, rfl, rfl, rfl⟩
  · intro order ps hs path args params start offset front hfit hstart hoffset hpath hwords
    have hdecode := decode_of_holdsAt d tx hm hs path args hfit hstart hoffset hpath hwords
    exact ⟨_, hdecode, rfl, rfl, rfl, rfl, ⟨rfl, rfl, rfl, rfl⟩, rfl, rfl, rfl⟩

/-- The path of a swap through two pools, from the token that is bought. -/
def twoPoolPath : PoolPath := ⟨account 1, [(fee 5, account 2), (fee 6, account 3)], nofun⟩
where
  account (b : UInt8) : Address := ⟨List.replicate addressSize b, List.length_replicate ..⟩
  fee (b : UInt8) : FeeTier := ⟨List.replicate feeSize b, List.length_replicate ..⟩

/-- The arguments of this swap behind its path, for a fixed bought amount. -/
def twoPoolArguments : Arguments (signature.manyPools .amountOut .amountInMax) :=
  (twoPoolPath.account 4, .ofNat 1700000000, ⟨250, by decide⟩, ⟨300, by decide⟩, ())

/-- The block of this swap with a word in front of the tuple, and a word in front of the path. -/
def spacedBlock : Bytes :=
  (Word.ofNat 64).bytes ++ ((Word.ofNat 7).bytes ++ ((Word.ofNat 192).bytes ++
    (heads 0 (encoded _ twoPoolArguments) ++
      ((Word.ofNat 7).bytes ++ (bytes twoPoolPath.bytes).bytes))))

theorem decode_encodePlain_twoPools :
    let canonical := exactOutput.encodePlain rfl (twoPoolPath, twoPoolArguments)
    let spaced := exactOutput.selector.toBytes ++ spacedBlock
    exactOutput.headWord? = none ∧ canonical.length < Offset.limit ∧ canonical ≠ spaced ∧
      ∀ calldata ∈ [canonical, spaced],
        ∃ r, Decoder.default.decode .v3 (.ofCall "hash" "router") calldata = .ok [r] ∧
          r.version = .v3 ∧ r.methodId = "f28c0498" ∧ r.methodName = "ExactOutput" ∧
          r.fields.toList =
            [(.amountIn, "300"), (.amountOut, "250"), (.amountInMax, "300"),
              (.tokenPathFrom, "0x0303030303030303030303030303030303030303"),
              (.tokenPathTo, "0x0101010101010101010101010101010101010101"),
              (.recipient, "0x0404040404040404040404040404040404040404"), (.fee, "0x050505")] ∧
          r.txHash = "hash" ∧ r.toAddress = "router" ∧ r.txValue = "0" ∧
          r.exchange = "Uniswap" := by
  intro canonical spaced
  have hfit : canonical.length < Offset.limit := by decide +kernel
  have hdiffer : canonical ≠ spaced := by decide +kernel
  obtain ⟨-, hcanonical, hspaced⟩ :=
    decode_encodePlain .default (.ofCall "hash" "router") exactOutput rfl
  refine ⟨rfl, hfit, hdiffer, ?_⟩
  rintro calldata (_ | ⟨_, _ | ⟨_, ⟨⟩⟩⟩)
  · obtain ⟨r, hdecode, hversion, hid, hname, hfields, -, hstamp, -⟩ :=
      hcanonical (twoPoolPath, twoPoolArguments) hfit
    refine ⟨r, hdecode, hversion, hid, hname, ?_, hstamp.txHash_eq, hstamp.toAddress_eq,
      hstamp.txValue_eq, hstamp.exchange_eq⟩
    rw [hfields]
    rfl
  · have htuple : spacedBlock.HoldsAt 64 (Word.ofNat 192).bytes :=
      ⟨spacedBlock.take 64, spacedBlock.drop 96, by decide +kernel, by decide +kernel⟩
    have hpath : spacedBlock.HoldsAt (64 + 192) (bytes twoPoolPath.bytes).bytes :=
      ⟨spacedBlock.take 256, [], by decide +kernel, by decide +kernel⟩
    have hwords : spacedBlock.HoldsAt (64 + wordSize) (heads 0 (encoded _ twoPoolArguments)) :=
      ⟨spacedBlock.take 96, spacedBlock.drop 224, by decide +kernel, by decide +kernel⟩
    obtain ⟨r, hdecode, hversion, hid, hname, hfields, hstamp, -⟩ :=
      hspaced .outputFirst (signature.manyPools .amountOut .amountInMax) rfl twoPoolPath
        twoPoolArguments spacedBlock 64 192 0 (by decide +kernel) (.start _ _) htuple hpath hwords
    refine ⟨r, hdecode, hversion, hid, hname, ?_, hstamp.txHash_eq, hstamp.toAddress_eq,
      hstamp.txValue_eq, hstamp.exchange_eq⟩
    rw [hfields]
    rfl

end RouterCalldata.V3Method
