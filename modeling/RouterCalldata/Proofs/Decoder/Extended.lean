import RouterCalldata.Proofs.Decoder.Calls
import RouterCalldata.Proofs.Multicall.Extended
import RouterCalldata.Proofs.Record.Extended

/-!
# Calldata with bytes behind it

What calldata decodes to does not depend on bytes behind it.  The decoder finds everything by
offsets from the front, so that more bytes can only be missed, and then the failure says so: the
calldata is truncated, or it is a multicall and one of its regions ends too early.  All other
failures, and all records, are those of the longer calldata.

The calls inside a multicall are the same bytes in both, so nothing has to be said about deeper
levels.

## Main definitions

* `IsCut`: the failures of calldata that more bytes may mend.

## Main results

* `eqUnless_decodeAtDepth`: calldata and longer calldata decode to the same, unless the shorter
  one fails in one of these ways;
* `decode_append`: what this says of success, of failure and of prefixes.
-/

namespace RouterCalldata

open Decoded DecodeError

theorem Method.eqUnless_decode (m : Method) (params more : Bytes) :
    EqUnless IsTruncated (m.decode params) (m.decode (params ++ more)) := by
  rw [decode_eq, decode_eq]
  exact Layout.eqUnless_decode params more m.name m.layout

namespace Decoder

/-- The failures of calldata that more bytes may mend. -/
def IsCut (calldata : Bytes) (e : DecodeError) : Prop :=
  e.IsTruncated ∨ IsMulticall calldata ∧ e.IsMalformed

variable (d : Decoder) (tx : TxMetadata)

/-- **Longer calldata decodes to the same**, unless the calldata is truncated, or is
a multicall and malformed. -/
theorem eqUnless_decodeAtDepth (depth : Nat) (version : Version) (calldata more : Bytes) :
    EqUnless (IsCut calldata) (d.decodeAtDepth tx depth version calldata)
      (d.decodeAtDepth tx depth version (calldata ++ more)) := by
  rcases Nat.lt_or_ge calldata.length 4 with hshort | hlong
  · rw [decodeAtDepth_error (Call.read_of_length_lt version hshort)]
    exact .of_error (Or.inl trivial)
  · obtain ⟨s, params, rfl⟩ := Bytes.exists_eq_selector_append hlong
    rw [List.append_assoc]
    cases hs : Multicall.ofSelector? s with
    | none =>
      cases hm : Method.resolve version s with
      | error e =>
        have hread (bs : Bytes) : Call.read version (s.toBytes ++ bs) = .error e := by
          rw [Call.read_plain hs, hm, error_bind]
        rw [decodeAtDepth_error (hread params), decodeAtDepth_error (hread (params ++ more))]
        exact .refl _
      | ok m =>
        have hread (bs : Bytes) : Call.read version (s.toBytes ++ bs) = .ok (.plain m bs) := by
          rw [Call.read_plain hs, hm, ok_bind]
        rw [decodeAtDepth_plain (hread params), decodeAtDepth_plain (hread (params ++ more))]
        have hfields : EqUnless (IsCut (s.toBytes ++ params)) (m.decode params)
            (m.decode (params ++ more)) :=
          (m.eqUnless_decode params more).mono fun e => Or.inl
        exact (hfields.bind fun fields _ => .refl _).bind fun record _ => .refl _
    | some found =>
      obtain ⟨m, headWord⟩ := found
      have hmulticall := isMulticall_of_ofSelector? hs params
      have hread (bs : Bytes) :
          Call.read version (s.toBytes ++ bs) = .ok (.multicall m headWord bs) :=
        Call.read_multicall hs
      rcases Nat.lt_or_ge depth d.maxMulticallDepth with hlt | hge
      · rw [decodeAtDepth_multicall (hread params) hlt,
          decodeAtDepth_multicall (hread (params ++ more)) hlt]
        have hsplit : EqUnless (IsCut (s.toBytes ++ params)) (Multicall.split params headWord)
            (Multicall.split (params ++ more) headWord) :=
          (Multicall.eqUnless_split params more headWord).mono fun e he =>
            he.imp_right fun he => ⟨hmulticall, he⟩
        exact hsplit.bind fun calls _ => .refl _
      · rw [decodeAtDepth_refused (hread params) hge,
          decodeAtDepth_refused (hread (params ++ more)) hge]
        exact .refl _

/-- **Bytes behind the calldata change nothing.**  If the calldata decodes to
records, it does so with any bytes behind it.  If it is no multicall and fails
other than by truncation, it fails the same way with any bytes behind it.  So
where the whole decodes to records, each prefix of it decodes to the same
records, or is truncated, or the whole is a multicall and the prefix is
malformed. -/
theorem decode_append (version : Version) (calldata more : Bytes) :
    (∀ records, d.decode version tx calldata = .ok records →
      d.decode version tx (calldata ++ more) = .ok records) ∧
    (¬ IsMulticall calldata → ∀ e, ¬ e.IsTruncated → d.decode version tx calldata = .error e →
      d.decode version tx (calldata ++ more) = .error e) ∧
    ∀ records, d.decode version tx (calldata ++ more) = .ok records →
      d.decode version tx calldata = .ok records ∨
        ∃ e, d.decode version tx calldata = .error e ∧
          (e.IsTruncated ∨ IsMulticall (calldata ++ more) ∧ e.IsMalformed) := by
  have h := d.eqUnless_decodeAtDepth tx 0 version calldata more
  refine ⟨fun records => h.eq_ok, ?_, ?_⟩
  · intro hplain e he hfail
    refine h.eq_error hfail ?_
    rintro (htruncated | ⟨hmulticall, -⟩)
    · exact he htruncated
    · exact hplain hmulticall
  · intro records hrecords
    rcases h with hsame | ⟨e, he, hfail⟩
    · exact Or.inl (hsame.symm.trans hrecords)
    · exact Or.inr ⟨e, hfail, he.imp_right fun ⟨hmulticall, he⟩ => ⟨hmulticall.append more, he⟩⟩

/-- A multicall of one call that takes no arguments. -/
def oneRefund : Bytes :=
  V3Method.multicall.selector.toBytes ++
    ([32, 1, 32, 4].flatMap fun n => (Word.ofNat n).bytes) ++ V3Method.refundETH.selector.toBytes

/-- A swap along a path of no tokens. -/
def emptyPathSwap : Bytes :=
  V2Method.swapExactETHForTokens.selector.toBytes ++
    ([0, 0].flatMap fun n => (Word.ofNat n).bytes)

/-- Success and failure with a byte behind the calldata, and the multicall without
its last byte. -/
theorem decode_append_oneRefund :
    let tx := TxMetadata.ofCall "hash" "router"
    let refunds := [{ SwapRecord.ofMethod tx "Uniswap" (.v3 .refundETH) .empty with
      numberOfCalls := some 1 }]
    Decoder.default.decode .v2 tx oneRefund = .ok refunds ∧
      Decoder.default.decode .v2 tx (oneRefund ++ [7]) = .ok refunds ∧
      ¬ IsMulticall emptyPathSwap ∧ ¬ IsTruncated (.malformed (.shortPath 0)) ∧
      Decoder.default.decode .v2 tx emptyPathSwap = .error (.malformed (.shortPath 0)) ∧
      Decoder.default.decode .v2 tx (emptyPathSwap ++ [7]) = .error (.malformed (.shortPath 0)) ∧
      Decoder.default.decode .v2 tx (oneRefund.dropLast ++ [0x8a]) = .ok refunds ∧
      (Decoder.default.decode .v2 tx oneRefund.dropLast = .ok refunds ∨
        ∃ e, Decoder.default.decode .v2 tx oneRefund.dropLast = .error e ∧
          (e.IsTruncated ∨ IsMulticall (oneRefund.dropLast ++ [0x8a]) ∧ e.IsMalformed)) := by
  intro tx refunds
  have hwhole : Decoder.default.decode .v2 tx oneRefund = .ok refunds := by
    have hread : Call.read .v2 oneRefund = .ok (.multicall .multicall 0 (oneRefund.drop 4)) := by
      decide +kernel
    have hsplit : Multicall.split (oneRefund.drop 4) 0 =
        .ok [V3Method.refundETH.selector.toBytes] := by
      decide +kernel
    have hcall : Call.read .v3 V3Method.refundETH.selector.toBytes =
        .ok (.plain (.v3 .refundETH) []) := rfl
    rw [decode, decodeAtDepth_multicall hread (by decide), hsplit, ok_bind, List.mapM_cons,
      decodeAtDepth_plain hcall]
    rfl
  have hplain : ¬ IsMulticall emptyPathSwap := by decide
  have hfail :
      Decoder.default.decode .v2 tx emptyPathSwap = .error (.malformed (.shortPath 0)) := by
    have hread : Call.read .v2 emptyPathSwap =
        .ok (.plain (.v2 .swapExactETHForTokens) (emptyPathSwap.drop 4)) := by
      decide +kernel
    rw [decode, decodeAtDepth_plain hread]
    decide +kernel
  have hlast : oneRefund.dropLast ++ [0x8a] = oneRefund := by decide +kernel
  have hwhole' : Decoder.default.decode .v2 tx (oneRefund.dropLast ++ [0x8a]) = .ok refunds := by
    rw [hlast, hwhole]
  exact ⟨hwhole, (decode_append _ tx .v2 oneRefund [7]).1 _ hwhole, hplain, not_false, hfail,
    (decode_append _ tx .v2 emptyPathSwap [7]).2.1 hplain _ not_false hfail, hwhole',
    (decode_append _ tx .v2 oneRefund.dropLast [0x8a]).2.2 _ hwhole'⟩

end Decoder

end RouterCalldata
