import RouterCalldata.Proofs.Decoder.Calls
import RouterCalldata.Proofs.Multicall.Regions
import RouterCalldata.Proofs.Multicall.Splitting

/-!
# Staging and decoding a multicall

A multicall can be staged, which keeps its calls undecoded, or decoded.  The two agree on every
byte string: staging refuses what decoding refuses before it looks at the calls, and what staging
gives can be decoded call by call, with room for one level of multicalls less.

Inside a multicall the depth and the limit are both greater by one than they are for the calls on
their own.  Only the refusal of a multicall beyond the limit shows this, by the two numbers in it.
So the two readings are related by being the same up to that one failure, and the relation is
kept by every step.  The depth stays a number of 64 bits, since a call is shorter than the
multicall it is split off from, whatever the table of offsets holds.

## Main definitions

* `Decoder.inside`: the decoder for the calls of a multicall on their own;
* `Decoder.decodeCalls`: decodes calls of the newer router one by one.

## Main results

* `Decoder.sameUpTo_decodeAtDepth`: one level of depth more is one level of limit more;
* `Decoder.decode_eq_stage`: decoding a multicall is staging it and decoding its calls.
-/

namespace RouterCalldata

theorem Multicall.stage_append {exchange : String} {tx : TxMetadata} {s : Selector}
    {m : V3Method} {headWord : Nat} (h : ofSelector? s = some (m, headWord)) (params : Bytes) :
    stage exchange tx (s.toBytes ++ params) =
      split params headWord >>= fun calls =>
        .ok { SwapRecord.ofMethod tx exchange (.v3 m) .empty with
          numberOfCalls := some calls.length, callsData := calls } := by
  rw [stage, Bytes.readSelector_append, Decoded.ok_bind, h, Bytes.window_append]
  rfl

/-- A record without a number of calls is given one, and any other record is left as it is. -/
theorem SwapRecord.within_eq_ite (r : SwapRecord) (n : Nat) :
    r.within n = if r.numberOfCalls.isNone then { r with numberOfCalls := some n } else r := by
  obtain ⟨_, _, _, _, _, _, _, _, _, numberOfCalls, _⟩ := r
  cases numberOfCalls <;> rfl

namespace Decoder

open Decoded

/-- The decoder for the calls of a multicall, when these stand on their own. -/
def inside (d : Decoder) : Decoder := { d with maxMulticallDepth := d.maxMulticallDepth - 1 }

/-- The records of calls of the newer router, one call after the other.  The
first call that fails ends it. -/
def decodeCalls (d : Decoder) (tx : TxMetadata) : List Bytes → Decoded (List SwapRecord)
  | [] => .ok []
  | call :: calls => do
      let first ← d.decode .v3 tx call
      let others ← d.decodeCalls tx calls
      return first ++ others

variable {d : Decoder} {tx : TxMetadata}

theorem decodeCalls_eq (d : Decoder) (tx : TxMetadata) (calls : List Bytes) :
    d.decodeCalls tx calls =
      calls.mapM (d.decode .v3 tx) >>= fun records => .ok records.flatten := by
  induction calls with
  | nil => rfl
  | cons call calls ih =>
    rw [decodeCalls, ih, List.mapM_cons]
    cases d.decode .v3 tx call with
    | error e => rfl
    | ok first =>
      rw [ok_bind, ok_bind]
      cases calls.mapM (d.decode .v3 tx) with
      | error e => rfl
      | ok others => rfl

/-! ## One level of depth against one level of limit -/

/-- **One level of depth more is one level of limit more.**  Two decoders whose
limits differ by one read a call the same way at depths that differ by one, up
to the refusal of a multicall beyond the limit.  The induction is on the levels
that are left. -/
theorem sameUpTo_decodeAtDepth {inner outer : Decoder} (hexchange : inner.exchange = outer.exchange)
    (hlimit : outer.maxMulticallDepth = inner.maxMulticallDepth + 1) {levels depth : Nat}
    (hlevels : depth + levels = inner.maxMulticallDepth) (version : Version) (calldata : Bytes)
    (hfit : depth + calldata.length < Offset.limit) :
    SameUpTo inner.depthError outer.depthError (inner.decodeAtDepth tx depth version calldata)
      (outer.decodeAtDepth tx (depth + 1) version calldata) := by
  induction levels generalizing depth version calldata with
  | zero =>
    obtain rfl : depth = inner.maxMulticallDepth := hlevels
    by_cases h : IsMulticall calldata
    · obtain ⟨m, headWord, params, hlen, hread⟩ := Call.exists_read_of_isMulticall version h
      refine Or.inr ⟨decodeAtDepth_limit hread (by omega), ?_⟩
      rw [← hlimit]
      exact decodeAtDepth_limit hread (by omega)
    · rw [decodeAtDepth_of_not_isMulticall hexchange h _ (inner.maxMulticallDepth + 1)]
      exact SameUpTo.refl _
  | succ levels ih =>
    by_cases h : IsMulticall calldata
    · obtain ⟨m, headWord, params, hlen, hread⟩ := Call.exists_read_of_isMulticall version h
      rw [decodeAtDepth_multicall hread (show depth < inner.maxMulticallDepth by omega),
        decodeAtDepth_multicall hread (show depth + 1 < outer.maxMulticallDepth by omega)]
      cases hsplit : Multicall.split params headWord with
      | error e => exact SameUpTo.refl _
      | ok calls =>
        rw [ok_bind, ok_bind]
        have hcalls : SameUpTo inner.depthError outer.depthError
            (calls.mapM (inner.decodeAtDepth tx (depth + 1) .v3))
            (calls.mapM (outer.decodeAtDepth tx (depth + 1 + 1) .v3)) := by
          apply SameUpTo.mapM
          intro call hcall
          have hshort := (Multicall.length_of_mem_split hsplit hcall).2
          exact ih (by omega) .v3 call (by omega)
        exact hcalls.bind fun records => SameUpTo.refl _
    · rw [decodeAtDepth_of_not_isMulticall hexchange h depth (depth + 1)]
      exact SameUpTo.refl _

/-- The calls of a multicall on their own, against the same calls inside it. -/
theorem sameUpTo_decodeCalls (tx : TxMetadata) (hlimit : 1 ≤ d.maxMulticallDepth)
    {calls : List Bytes} (hfit : ∀ call ∈ calls, call.length < Offset.limit) :
    SameUpTo d.inside.depthError d.depthError (d.inside.decodeCalls tx calls)
      (calls.mapM (d.decodeAtDepth tx (0 + 1) .v3) >>= fun records => .ok records.flatten) := by
  have hexchange : d.inside.exchange = d.exchange := rfl
  have hinside : d.maxMulticallDepth = d.inside.maxMulticallDepth + 1 :=
    (Nat.sub_add_cancel hlimit).symm
  have hcalls : SameUpTo d.inside.depthError d.depthError
      (calls.mapM (d.inside.decode .v3 tx)) (calls.mapM (d.decodeAtDepth tx (0 + 1) .v3)) := by
    apply SameUpTo.mapM
    intro call hcall
    have hshort := hfit call hcall
    exact sameUpTo_decodeAtDepth hexchange hinside (Nat.zero_add _) .v3 call (by omega)
  rw [decodeCalls_eq]
  exact hcalls.bind fun records => SameUpTo.refl _

/-- **Decoding a multicall is staging it and decoding its calls.**  Where staging
fails, decoding fails with the same error.  Where it succeeds, the calls are
decoded on their own with one level of multicalls less: those of their records
that have no number of calls are given that of the multicall, the others keep
theirs, and the first failure is the failure of the whole, up to the two numbers
in the refusal of a multicall beyond the limit. -/
theorem decode_eq_stage (d : Decoder) (tx : TxMetadata) (version : Version) {calldata : Bytes}
    (h : IsMulticall calldata) (hlimit : 1 ≤ d.maxMulticallDepth) :
    (∀ e, d.stage tx calldata = .error e → d.decode version tx calldata = .error e) ∧
      ∀ staged, d.stage tx calldata = .ok staged →
        staged.numberOfCalls = some staged.callsData.length ∧
        (∀ records, d.inside.decodeCalls tx staged.callsData = .ok records →
          d.decode version tx calldata = .ok (records.map fun r =>
            if r.numberOfCalls.isNone then
              { r with numberOfCalls := some staged.callsData.length }
            else r)) ∧
        ∀ e, d.inside.decodeCalls tx staged.callsData = .error e →
          d.decode version tx calldata = .error e ∨
            e = d.inside.depthError ∧ d.decode version tx calldata = .error d.depthError := by
  obtain ⟨s, m, headWord, params, rfl, hs⟩ := h.exists_eq
  have hread : Call.read version (s.toBytes ++ params) = .ok (.multicall m headWord params) :=
    Call.read_multicall hs
  rw [decode, decodeAtDepth_multicall hread hlimit, stage, Multicall.stage_append hs]
  cases hsplit : Multicall.split params headWord with
  | error e =>
    constructor
    · rintro e' ⟨⟩
      rfl
    · rintro staged ⟨⟩
  | ok calls =>
    constructor
    · rintro e ⟨⟩
    · rintro staged ⟨⟩
      have hcalls := sameUpTo_decodeCalls tx hlimit fun call hcall =>
        (Multicall.length_of_mem_split hsplit hcall).1
      have hsame : SameUpTo d.inside.depthError d.depthError
          (d.inside.decodeCalls tx calls >>= fun records =>
            .ok (records.map (·.within calls.length)))
          (calls.mapM (d.decodeAtDepth tx (0 + 1) .v3) >>= fun records =>
            .ok (records.flatten.map (·.within calls.length))) := by
        have h := hcalls.bind fun records =>
          SameUpTo.refl (.ok (records.map (·.within calls.length)))
        rwa [bind_assoc] at h
      refine ⟨rfl, ?_, ?_⟩
      · intro records hrecords
        simp only [← SwapRecord.within_eq_ite]
        exact hsame.eq_ok (by rw [hrecords]; rfl)
      · intro e he
        exact hsame.eq_error (by rw [he]; rfl)

/-- A multicall of one call, with a word in front of the call that is no part
of it. -/
def looseMulticall : Bytes :=
  V3Method.multicall.selector.toBytes ++
    ([32, 1, 64, 0, 4].flatMap fun n => (Word.ofNat n).bytes) ++
    V3Method.refundETH.selector.toBytes

theorem decode_eq_stage_looseMulticall :
    IsMulticall looseMulticall ∧ 1 ≤ Decoder.default.maxMulticallDepth ∧
      Decoder.default.stage (.ofCall "hash" "router") looseMulticall =
        .ok { SwapRecord.ofMethod (.ofCall "hash" "router") "Uniswap" (.v3 .multicall) .empty with
          numberOfCalls := some 1, callsData := [V3Method.refundETH.selector.toBytes] } ∧
      Decoder.default.decode .v2 (.ofCall "hash" "router") looseMulticall =
        .ok [{ SwapRecord.ofMethod (.ofCall "hash" "router") "Uniswap" (.v3 .refundETH) .empty with
          numberOfCalls := some 1 }] := by
  have hmulticall : IsMulticall looseMulticall := by decide
  have hlimit : 1 ≤ Decoder.default.maxMulticallDepth := by decide
  have hstage : Decoder.default.stage (.ofCall "hash" "router") looseMulticall =
      .ok { SwapRecord.ofMethod (.ofCall "hash" "router") "Uniswap" (.v3 .multicall) .empty with
        numberOfCalls := some 1, callsData := [V3Method.refundETH.selector.toBytes] } := by
    decide +kernel
  have hread : Call.read .v3 V3Method.refundETH.selector.toBytes =
      .ok (.plain (.v3 .refundETH) []) := rfl
  have hcalls : Decoder.default.inside.decodeCalls (.ofCall "hash" "router")
      [V3Method.refundETH.selector.toBytes] =
        .ok [SwapRecord.ofMethod (.ofCall "hash" "router") "Uniswap" (.v3 .refundETH) .empty] := by
    rw [decodeCalls, decode, decodeAtDepth_plain hread]
    rfl
  have h := (decode_eq_stage .default (.ofCall "hash" "router") .v2 hmulticall hlimit).2 _ hstage
  exact ⟨hmulticall, hlimit, hstage, h.2.1 _ hcalls⟩

end Decoder

end RouterCalldata
