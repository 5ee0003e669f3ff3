import RouterCalldata.Proofs.Decoder.Calls
import RouterCalldata.Proofs.Multicall.Staging

/-!
# What is only stamped on a record

The transaction is handed down through all levels of multicalls, and the exchange label is put on
at two places, by the decoder for the record of a plain call and by staging for the record of a
multicall.  Neither of the two may play a part in what is decoded.

Two runs over one calldata are compared, under two transactions and two labels.  Rather than to
relate the two runs step by step, one of them is obtained from the other: what is decoded under one
stamp is what is decoded under any other stamp, with the stamp replaced.  Replacing the stamp
commutes with everything a multicall does to the records of its calls, so that this equation is kept
by each level.

## Main definitions

* `SwapRecord.stamped`, `SwapRecord.unstamped`: a record with another stamp, and without any;
* `SwapRecord.HasStamp`: the stamp is that of a decoder and a transaction.

## Main results

* `decodeAtDepth_eq_stamped`, `stage_eq_stamped`: one run is obtained from the other;
* `decode_restamp`: two runs differ in nothing but their stamps.
-/

namespace RouterCalldata

/-! ## Stamps -/

namespace SwapRecord

/-- The record under the stamp of a decoder and a transaction. -/
def stamped (d : Decoder) (tx : TxMetadata) (r : SwapRecord) : SwapRecord :=
  { r with txHash := tx.txHash, exchange := d.exchange, toAddress := tx.toAddress,
           txValue := tx.value }

/-- The record with its stamp erased. -/
def unstamped (r : SwapRecord) : SwapRecord :=
  { r with txHash := "", exchange := "", toAddress := "", txValue := "" }

/-- The record bears the stamp of a decoder and a transaction. -/
structure HasStamp (d : Decoder) (tx : TxMetadata) (r : SwapRecord) : Prop where
  txHash_eq : r.txHash = tx.txHash
  toAddress_eq : r.toAddress = tx.toAddress
  txValue_eq : r.txValue = tx.value
  exchange_eq : r.exchange = d.exchange

variable (d : Decoder) (tx : TxMetadata) (r : SwapRecord)

@[simp] theorem unstamped_stamped : (r.stamped d tx).unstamped = r.unstamped := rfl

theorem hasStamp_stamped : (r.stamped d tx).HasStamp d tx := ⟨rfl, rfl, rfl, rfl⟩

/-- The number of calls is no part of the stamp. -/
@[simp] theorem within_stamped (n : Nat) :
    (r.stamped d tx).within n = (r.within n).stamped d tx := rfl

end SwapRecord

namespace Decoder

open Decoded

variable {d d' : Decoder}

/-! ## One run from the other -/

theorem record_eq_stamped (d d' : Decoder) (tx tx' : TxMetadata) (m : Method) (params : Bytes) :
    d.record tx m params = (d'.record tx' m params).map (·.stamped d tx) := by
  unfold record
  cases m.decode params with
  | error e => rfl
  | ok fields => rfl

/-- **Decoding under another stamp.**  At every depth the records are those of the other
run with their stamps replaced, and the failures are the same.  The induction is on the
levels that are left. -/
theorem decodeAtDepth_eq_stamped (hlimit : d.maxMulticallDepth = d'.maxMulticallDepth)
    (tx tx' : TxMetadata) (depth : Nat) (version : Version) (calldata : Bytes) :
    d.decodeAtDepth tx depth version calldata =
      (d'.decodeAtDepth tx' depth version calldata).map (List.map (·.stamped d tx)) := by
  induction hlevels : d.maxMulticallDepth - depth using Nat.strongRecOn
    generalizing depth version calldata with
  | ind levels ih =>
    cases hread : Call.read version calldata with
    | error e =>
      rw [decodeAtDepth_error hread, decodeAtDepth_error hread, map_error]
    | ok call =>
      cases call with
      | plain m params =>
        rw [decodeAtDepth_plain hread, decodeAtDepth_plain hread, record_eq_stamped d d' tx tx']
        cases d'.record tx' m params with
        | error e => rfl
        | ok r => rfl
      | multicall m headWord params =>
        rcases Nat.lt_or_ge depth d.maxMulticallDepth with hlt | hge
        · rw [decodeAtDepth_multicall hread hlt, decodeAtDepth_multicall hread (hlimit ▸ hlt),
            map_bind]
          apply bind_congr
          intro calls
          have hcalls : calls.mapM (d.decodeAtDepth tx (depth + 1) .v3) =
              (calls.mapM (d'.decodeAtDepth tx' (depth + 1) .v3)).map
                (List.map (List.map (·.stamped d tx))) := by
            rw [← mapM_map]
            apply mapM_congr
            intro call _
            exact ih _ (by omega) (depth + 1) .v3 call rfl
          rw [hcalls]
          cases calls.mapM (d'.decodeAtDepth tx' (depth + 1) .v3) with
          | error e => rfl
          | ok records =>
            simp only [map_ok, ok_bind, ← List.map_flatten, List.map_map, Function.comp_def,
              SwapRecord.within_stamped]
        · rw [decodeAtDepth_refused hread hge, decodeAtDepth_refused hread (hlimit ▸ hge), map_bind,
            hlimit]
          rfl

/-- Staging under another stamp. -/
theorem stage_eq_stamped (d d' : Decoder) (tx tx' : TxMetadata) (calldata : Bytes) :
    d.stage tx calldata = (d'.stage tx' calldata).map (·.stamped d tx) := by
  unfold stage Multicall.stage
  rw [map_bind]
  apply bind_congr
  intro s
  cases Multicall.ofSelector? s with
  | none => rfl
  | some found =>
    rw [map_bind]
    apply bind_congr
    intro params
    rw [map_bind]
    rfl

/-! ## Two runs -/

variable {version : Version} {calldata : Bytes}

/-- The transaction and the label of any record are those that decoding was given. -/
theorem hasStamp_of_decode {tx : TxMetadata} {records : List SwapRecord}
    (h : d.decode version tx calldata = .ok records) : ∀ r ∈ records, r.HasStamp d tx := by
  unfold decode at h
  rw [decodeAtDepth_eq_stamped rfl tx tx] at h
  obtain ⟨rs, -, rfl⟩ := map_eq_ok_iff.mp h
  intro r hr
  obtain ⟨r', -, rfl⟩ := List.mem_map.mp hr
  exact r'.hasStamp_stamped d tx

theorem hasStamp_of_stage {tx : TxMetadata} {record : SwapRecord}
    (h : d.stage tx calldata = .ok record) : record.HasStamp d tx := by
  rw [stage_eq_stamped d d tx tx] at h
  obtain ⟨r, -, rfl⟩ := map_eq_ok_iff.mp h
  exact r.hasStamp_stamped d tx

theorem map_unstamped_eq_of_decode (hlimit : d.maxMulticallDepth = d'.maxMulticallDepth)
    {tx tx' : TxMetadata} {records records' : List SwapRecord}
    (h : d.decode version tx calldata = .ok records)
    (h' : d'.decode version tx' calldata = .ok records') :
    records.map (·.unstamped) = records'.map (·.unstamped) := by
  unfold decode at h h'
  rw [decodeAtDepth_eq_stamped hlimit tx tx', h', map_ok] at h
  obtain rfl := Except.ok.inj h
  simp

theorem unstamped_eq_of_stage {tx tx' : TxMetadata} {record record' : SwapRecord}
    (h : d.stage tx calldata = .ok record) (h' : d'.stage tx' calldata = .ok record') :
    record.unstamped = record'.unstamped := by
  rw [stage_eq_stamped d d' tx tx', h', map_ok] at h
  obtain rfl := Except.ok.inj h
  rfl

/-- The chain is no part of the stamp, so one run is the other one. -/
theorem decode_chainId (d : Decoder) (version : Version) (tx : TxMetadata) (calldata : Bytes)
    (chainId : Option Nat) :
    d.decode version { tx with chainId } calldata = d.decode version tx calldata := by
  -- both sides are the run on the right, with the same stamp put on it once more
  have h := decodeAtDepth_eq_stamped (d := d) rfl { tx with chainId } tx 0 version calldata
  have h' := decodeAtDepth_eq_stamped (d := d) rfl tx tx 0 version calldata
  exact h.trans h'.symm

theorem stage_chainId (d : Decoder) (tx : TxMetadata) (calldata : Bytes) (chainId : Option Nat) :
    d.stage { tx with chainId } calldata = d.stage tx calldata := by
  have h := stage_eq_stamped d d { tx with chainId } tx calldata
  have h' := stage_eq_stamped d d tx tx calldata
  exact h.trans h'.symm

/-- **Transaction and label are only stamped.**  Two decoders of one limit, each under a
transaction of its own, fail on the same calldata and with the same errors.  Where they
succeed, they give as many records, which are the same one by one once the stamps are
erased, and each record bears the stamp of its own run.  The same holds of staging.  The chain of
the transaction makes no difference at all. -/
theorem decode_restamp (hlimit : d.maxMulticallDepth = d'.maxMulticallDepth)
    (tx tx' : TxMetadata) (version : Version) (calldata : Bytes) :
    ((∀ e, d.decode version tx calldata = .error e ↔ d'.decode version tx' calldata = .error e) ∧
      ∀ records records', d.decode version tx calldata = .ok records →
        d'.decode version tx' calldata = .ok records' →
          records.map (·.unstamped) = records'.map (·.unstamped) ∧
            (∀ r ∈ records, r.HasStamp d tx) ∧ ∀ r ∈ records', r.HasStamp d' tx') ∧
    ((∀ e, d.stage tx calldata = .error e ↔ d'.stage tx' calldata = .error e) ∧
      ∀ record record', d.stage tx calldata = .ok record → d'.stage tx' calldata = .ok record' →
        record.unstamped = record'.unstamped ∧ record.HasStamp d tx ∧ record'.HasStamp d' tx') ∧
    ∀ chainId, d.decode version { tx with chainId } calldata = d.decode version tx calldata ∧
      d.stage { tx with chainId } calldata = d.stage tx calldata := by
  refine ⟨⟨?_, ?_⟩, ⟨?_, ?_⟩, ?_⟩
  · intro e
    unfold decode
    rw [decodeAtDepth_eq_stamped hlimit tx tx', map_eq_error_iff]
  · intro records records' h h'
    exact ⟨map_unstamped_eq_of_decode hlimit h h', hasStamp_of_decode h, hasStamp_of_decode h'⟩
  · intro e
    rw [stage_eq_stamped d d' tx tx', map_eq_error_iff]
  · intro record record' h h'
    exact ⟨unstamped_eq_of_stage h h', hasStamp_of_stage h, hasStamp_of_stage h'⟩
  · intro chainId
    exact ⟨decode_chainId d version tx calldata chainId, stage_chainId d tx calldata chainId⟩

/-- A multicall of one call, decoded and staged under two labels and in two transactions. -/
theorem decode_restamp_looseMulticall :
    let fork : Decoder := { maxMulticallDepth := 4, exchange := "Fork" }
    let tx := TxMetadata.ofCall "hash" "router"
    let tx' : TxMetadata :=
      { txHash := "other", toAddress := "fork", value := "7", chainId := some 1 }
    let record := (SwapRecord.ofMethod tx "Uniswap" (.v3 .refundETH) .empty).within 1
    let record' := (SwapRecord.ofMethod tx' "Fork" (.v3 .refundETH) .empty).within 1
    Decoder.default.maxMulticallDepth = fork.maxMulticallDepth ∧
      Decoder.default.decode .v2 tx looseMulticall = .ok [record] ∧
      fork.decode .v2 tx' looseMulticall = .ok [record'] ∧
      [record].map (·.unstamped) = [record'].map (·.unstamped) ∧
      (∀ r ∈ [record], r.HasStamp Decoder.default tx) ∧ (∀ r ∈ [record'], r.HasStamp fork tx') ∧
      (∃ staged staged', Decoder.default.stage tx looseMulticall = .ok staged ∧
        fork.stage tx' looseMulticall = .ok staged' ∧ staged.unstamped = staged'.unstamped) ∧
      fork.decode .v2 { tx' with chainId := none } looseMulticall = .ok [record'] := by
  intro fork tx tx' record record'
  have hlimit : Decoder.default.maxMulticallDepth = fork.maxMulticallDepth := rfl
  have hread : Call.read .v2 looseMulticall =
      .ok (.multicall .multicall 0 (looseMulticall.drop 4)) := by
    decide +kernel
  have hsplit : Multicall.split (looseMulticall.drop 4) 0 =
      .ok [V3Method.refundETH.selector.toBytes] := by
    decide +kernel
  have hcall : Call.read .v3 V3Method.refundETH.selector.toBytes =
      .ok (.plain (.v3 .refundETH) []) := rfl
  have hdecode (d : Decoder) (tx : TxMetadata) (hd : 0 < d.maxMulticallDepth) :
      d.decode .v2 tx looseMulticall =
        .ok [(SwapRecord.ofMethod tx d.exchange (.v3 .refundETH) .empty).within 1] := by
    unfold decode
    rw [decodeAtDepth_multicall hread hd, hsplit, ok_bind, List.mapM_cons,
      decodeAtDepth_plain hcall]
    rfl
  have hdefault := hdecode .default tx (by decide)
  have hfork := hdecode fork tx' (by decide)
  have h := decode_restamp hlimit tx tx' .v2 looseMulticall
  obtain ⟨hsame, hstamp, hstamp'⟩ := h.1.2 [record] [record'] hdefault hfork
  have hstage (d : Decoder) (tx : TxMetadata) :
      ∃ staged, d.stage tx looseMulticall = .ok staged := by
    have hblock : looseMulticall =
        V3Method.multicall.selector.toBytes ++ looseMulticall.drop 4 := by
      decide +kernel
    unfold stage
    rw [hblock, Multicall.stage_append rfl, hsplit]
    exact ⟨_, rfl⟩
  obtain ⟨staged, hstaged⟩ := hstage .default tx
  obtain ⟨staged', hstaged'⟩ := hstage fork tx'
  have hlimit' : fork.maxMulticallDepth = fork.maxMulticallDepth := rfl
  have hchain := (decode_restamp hlimit' tx' tx' .v2 looseMulticall).2.2 none
  exact ⟨hlimit, hdefault, hfork, hsame, hstamp, hstamp',
    ⟨staged, staged', hstaged, hstaged', (h.2.1.2 staged staged' hstaged hstaged').1⟩,
    hchain.1.trans hfork⟩

end Decoder

end RouterCalldata
