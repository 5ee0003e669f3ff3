import RouterCalldata.Proofs.Decoder.Calls
import RouterCalldata.Proofs.Multicall.Faultless
import RouterCalldata.Proofs.Multicall.Regions

/-!
# The limit on nested multicalls

The limit can only cut a decoding short, and then the failure says so.  Two decoders with different
limits go through the calls in the same order and do the same with each of them, up to the first
multicall that one of them refuses.  Whether there is such a multicall depends on the calls before
it as well, since the first call that fails ends the decoding; so the two decodings are compared
step by step, and not by how deeply the calls are nested.

The limit is not what makes the decoding end.  A call inside a multicall is at least 100 bytes
shorter than the multicall, whatever the table of offsets holds: around it there are a selector,
the offset of the array, the number of calls and the length of the call.  So calldata can be
decoded without a limit too, and a limit in proportion to its length is none.

## Main definitions

* `Decoder.withLimit`: a decoder with another limit;
* `Decoder.decodeUnlimited`: the records of a call, however deeply multicalls are nested;
* `Decoder.Continues`: a decoding that does the same as long as the limit is not reached.

## Main results

* `length_add_le_of_mem_split`: each level takes 100 bytes away;
* `Continues.eqUnless`: whatever does the same within the limit gives the same, unless the limit
  cuts;
* `length_of_nestingDepth`: how long calldata has to be to reach the limit;
* `decode_withLimit`: what another limit changes.
-/

namespace RouterCalldata.Decoder

open Decoded DecodeError

variable {d : Decoder} {tx : TxMetadata}

/-- The decoder with another limit. -/
def withLimit (d : Decoder) (limit : Nat) : Decoder := { d with maxMulticallDepth := limit }

/-! ## Each level is shorter -/

/-- **Each level takes 100 bytes away**: a selector, the offset of the array, the number
of calls and the length of the call. -/
theorem length_add_le_of_mem_split {version : Version} {calldata params : Bytes} {m : V3Method}
    {headWord : Nat} {calls : List Bytes} {call : Bytes}
    (hread : Call.read version calldata = .ok (.multicall m headWord params))
    (hsplit : Multicall.split params headWord = .ok calls) (hcall : call ∈ calls) :
    call.length + 100 ≤ calldata.length := by
  have hlen := Call.length_of_read_multicall hread
  have hroom := (Multicall.add_length_le_of_mem_split hsplit hcall).2
  have hhead : 32 ≤ wordOffset (headWord + 1) := by
    have hle := V3Method.headWord_le_one (Call.of_read_multicall hread).2
    rcases Nat.le_one_iff_eq_zero_or_eq_one.mp hle with rfl | rfl <;> decide
  have hroom : wordOffset (headWord + 1) + 32 + (32 + call.length) ≤ params.length := hroom
  omega

/-! ## Decoding without a limit -/

/-- The records of a call, however deeply multicalls are nested. -/
def decodeUnlimited (d : Decoder) (tx : TxMetadata) (version : Version) (calldata : Bytes) :
    Decoded (List SwapRecord) :=
  match hread : Call.read version calldata with
  | .error e => .error e
  | .ok (.plain m params) => do return [← d.record tx m params]
  | .ok (.multicall _ headWord params) =>
      match hsplit : Multicall.split params headWord with
      | .error e => .error e
      | .ok calls => do
          let records ← calls.attach.mapM fun ⟨call, hcall⟩ =>
            have := length_add_le_of_mem_split hread hsplit hcall
            d.decodeUnlimited tx .v3 call
          return records.flatten.map (·.within calls.length)
termination_by calldata.length

section Unlimited

variable {version : Version} {calldata params : Bytes}

theorem decodeUnlimited_error {e : DecodeError} (h : Call.read version calldata = .error e) :
    d.decodeUnlimited tx version calldata = .error e := by
  rw [decodeUnlimited]
  split
  · next hread =>
    cases h.symm.trans hread
    rfl
  · next hread => exact absurd (h.symm.trans hread) nofun
  · next hread => exact absurd (h.symm.trans hread) nofun

theorem decodeUnlimited_plain {m : Method}
    (h : Call.read version calldata = .ok (.plain m params)) :
    d.decodeUnlimited tx version calldata = d.record tx m params >>= fun r => .ok [r] := by
  rw [decodeUnlimited]
  split
  · next hread => exact absurd (h.symm.trans hread) nofun
  · next hread =>
    cases h.symm.trans hread
    rfl
  · next hread => exact absurd (h.symm.trans hread) nofun

/-- A multicall is split and its calls are decoded, whatever it stands in. -/
theorem decodeUnlimited_multicall {m : V3Method} {headWord : Nat}
    (h : Call.read version calldata = .ok (.multicall m headWord params)) :
    d.decodeUnlimited tx version calldata =
      Multicall.split params headWord >>= fun calls =>
        calls.mapM (d.decodeUnlimited tx .v3) >>= fun records =>
          .ok (records.flatten.map (·.within calls.length)) := by
  rw [decodeUnlimited]
  split
  · next hread => exact absurd (h.symm.trans hread) nofun
  · next hread => exact absurd (h.symm.trans hread) nofun
  · next hread =>
    cases h.symm.trans hread
    split
    · next hsplit => rw [hsplit, error_bind]
    · next calls hsplit =>
      rw [List.mapM_subtype fun call _ => rfl, List.unattach_attach, hsplit]
      rfl

end Unlimited

/-! ## Going on where the limit cuts -/

/-- A decoding of calls at their depths that does with them what the decoder does, as
long as the limit is not reached. -/
structure Continues (d : Decoder) (tx : TxMetadata)
    (decoding : Nat → Version → Bytes → Decoded (List SwapRecord)) : Prop where
  plain : ∀ {depth version calldata}, ¬ IsMulticall calldata →
    decoding depth version calldata = d.decodeAtDepth tx depth version calldata
  multicall : ∀ {depth version calldata m headWord params},
    Call.read version calldata = .ok (.multicall m headWord params) →
      depth < d.maxMulticallDepth →
        decoding depth version calldata =
          Multicall.split params headWord >>= fun calls =>
            calls.mapM (decoding (depth + 1) .v3) >>= fun records =>
              .ok (records.flatten.map (·.within calls.length))

/-- A greater limit goes on where the smaller one cuts. -/
theorem continues_decodeAtDepth {limit limit' : Nat} (hle : limit ≤ limit') :
    Continues (d.withLimit limit) tx ((d.withLimit limit').decodeAtDepth tx) where
  plain {depth _ _} h :=
    have hexchange : (d.withLimit limit').exchange = (d.withLimit limit).exchange := rfl
    decodeAtDepth_of_not_isMulticall hexchange h depth depth
  multicall hread hdepth := decodeAtDepth_multicall hread (Nat.lt_of_lt_of_le hdepth hle)

/-- So does a decoding without a limit. -/
theorem continues_decodeUnlimited (limit : Nat) :
    Continues (d.withLimit limit) tx fun _ => d.decodeUnlimited tx where
  plain := by
    intro depth version calldata h
    rcases Call.read_of_not_isMulticall version h with ⟨e, hread⟩ | ⟨m, params, hread⟩
    · rw [decodeUnlimited_error hread, decodeAtDepth_error hread]
    · rw [decodeUnlimited_plain hread, decodeAtDepth_plain hread]
      rfl
  multicall hread _ := decodeUnlimited_multicall hread

/-- **What does the same within the limit gives the same**, unless the limit cuts.  The
induction is on the levels that are left.  The calldata is held in memory, and
with each level it gets shorter, so the depth stays a number of 64 bits. -/
theorem Continues.eqUnless {decoding : Nat → Version → Bytes → Decoded (List SwapRecord)}
    (h : Continues d tx decoding) {levels depth : Nat}
    (hlevels : depth + levels = d.maxMulticallDepth) (version : Version) (calldata : Bytes)
    (hfit : depth + calldata.length < Offset.limit) :
    EqUnless (· = d.depthError) (d.decodeAtDepth tx depth version calldata)
      (decoding depth version calldata) := by
  induction levels generalizing depth version calldata with
  | zero =>
    obtain rfl : depth = d.maxMulticallDepth := hlevels
    by_cases hcall : IsMulticall calldata
    · obtain ⟨m, headWord, params, hlen, hread⟩ := Call.exists_read_of_isMulticall version hcall
      rw [decodeAtDepth_limit hread (by omega)]
      exact .of_error rfl
    · rw [h.plain hcall]
      exact .refl _
  | succ levels ih =>
    by_cases hcall : IsMulticall calldata
    · obtain ⟨m, headWord, params, hlen, hread⟩ := Call.exists_read_of_isMulticall version hcall
      have hdepth : depth < d.maxMulticallDepth := by omega
      rw [decodeAtDepth_multicall hread hdepth, h.multicall hread hdepth]
      refine EqUnless.bind (.refl _) fun calls hsplit => ?_
      refine EqUnless.bind (EqUnless.mapM fun call hmem => ?_) fun records _ => .refl _
      have hshort := length_add_le_of_mem_split hread hsplit hmem
      exact ih (by omega) .v3 call (by omega)
    · rw [h.plain hcall]
      exact .refl _

/-! ## How long calldata has to be to reach the limit -/

/-- **Calldata that reaches the limit is long**: it has 100 bytes for each level, and a
selector for the multicall that is refused.  The refusal tells the limit, and
the level behind it. -/
theorem length_of_nestingDepth {depth : Nat} {version : Version} {calldata : Bytes}
    {level limit : Nat} (hdepth : depth ≤ d.maxMulticallDepth)
    (h : d.decodeAtDepth tx depth version calldata =
      .error (.malformed (.nestingDepth level limit))) :
    level = d.maxMulticallDepth + 1 ∧ limit = d.maxMulticallDepth ∧
      100 * d.maxMulticallDepth + 4 ≤ 100 * depth + calldata.length := by
  refine decodeAtDepth_error_induction (motive := fun depth _ calldata e =>
    depth ≤ d.maxMulticallDepth → e = .malformed (.nestingDepth level limit) →
      level = d.maxMulticallDepth + 1 ∧ limit = d.maxMulticallDepth ∧
        100 * d.maxMulticallDepth + 4 ≤ 100 * depth + calldata.length)
    ?unread ?plain ?refused ?split ?inner h hdepth rfl
  case unread =>
    rintro depth version calldata _ hread - rfl
    rcases Call.of_read_eq_error hread with he | ⟨s, params, -, -, he⟩
    · exact absurd he nofun
    · exact absurd he nofun
  case plain =>
    rintro depth version calldata m params _ hread hfields - rfl
    have hm := (Call.of_read_plain hread).2.2
    exact absurd (Method.checked_decode hm params _ hfields) not_false
  case refused =>
    rintro depth version calldata m headWord params _ hread hge he hle rfl
    obtain rfl : depth = d.maxMulticallDepth := Nat.le_antisymm hle hge
    have hlen := Call.length_of_read_multicall hread
    rcases he with ⟨-, he⟩ | he
    · exact absurd he nofun
    · obtain ⟨rfl, rfl⟩ := LayoutCause.nestingDepth.inj (DecodeError.malformed.inj he)
      exact ⟨rfl, rfl, by omega⟩
  case split =>
    rintro depth version calldata m headWord params _ hread hlt hsplit - rfl
    rcases Multicall.checkedIn_split params headWord _ hsplit with he | ⟨he, -⟩
    · exact absurd he not_false
    · exact absurd he not_false
  case inner =>
    rintro depth version calldata m headWord params calls call _ hread hlt hsplit hcall ih hle rfl
    have hshort := length_add_le_of_mem_split hread hsplit hcall
    obtain ⟨hlevel, hlimit, hlong⟩ := ih hlt rfl
    exact ⟨hlevel, hlimit, by omega⟩

/-! ## Other limits -/

/-- **The limit only cuts.**  Under a greater limit, or under none, calldata decodes to the
same records or fails with the same error, unless the smaller limit cuts the
decoding short.  Then the failure tells this limit, and the calldata has at least
100 bytes for each level of it, since so much is taken away from level to level.
So a limit of more than the hundredth part of the calldata is as good as any
greater one and as none.

The calldata is held in memory, so its length is a number of 64 bits. -/
theorem decode_withLimit (d : Decoder) (tx : TxMetadata) (version : Version) {calldata : Bytes}
    (hfit : calldata.length < Offset.limit) {limit limit' : Nat} (hle : limit ≤ limit') :
    ((d.withLimit limit').decode version tx calldata =
          (d.withLimit limit).decode version tx calldata ∨
        (d.withLimit limit).decode version tx calldata =
          .error (.malformed (.nestingDepth (limit + 1) limit))) ∧
      (d.decodeUnlimited tx version calldata = (d.withLimit limit).decode version tx calldata ∨
        (d.withLimit limit).decode version tx calldata =
          .error (.malformed (.nestingDepth (limit + 1) limit))) ∧
      (∀ level bound, (d.withLimit limit).decode version tx calldata =
          .error (.malformed (.nestingDepth level bound)) →
        level = limit + 1 ∧ bound = limit ∧ 100 * limit + 4 ≤ calldata.length) ∧
      (∀ (version : Version) (calldata params : Bytes) (m : V3Method) (headWord : Nat)
          (calls : List Bytes), Call.read version calldata = .ok (.multicall m headWord params) →
        Multicall.split params headWord = .ok calls →
          ∀ call ∈ calls, call.length + 100 ≤ calldata.length) ∧
      (calldata.length / 100 + 1 ≤ limit →
        (d.withLimit limit').decode version tx calldata =
            (d.withLimit limit).decode version tx calldata ∧
          d.decodeUnlimited tx version calldata =
            (d.withLimit limit).decode version tx calldata) := by
  have hgreater : EqUnless (· = (d.withLimit limit).depthError)
      ((d.withLimit limit).decode version tx calldata)
      ((d.withLimit limit').decode version tx calldata) :=
    (continues_decodeAtDepth hle).eqUnless (Nat.zero_add _) version calldata (by omega)
  have hnone : EqUnless (· = (d.withLimit limit).depthError)
      ((d.withLimit limit).decode version tx calldata) (d.decodeUnlimited tx version calldata) :=
    (continues_decodeUnlimited limit).eqUnless (Nat.zero_add _) version calldata (by omega)
  have hlong : ∀ level bound, (d.withLimit limit).decode version tx calldata =
      .error (.malformed (.nestingDepth level bound)) →
        level = limit + 1 ∧ bound = limit ∧ 100 * limit + 4 ≤ calldata.length := by
    intro level bound h
    have hlength := length_of_nestingDepth (Nat.zero_le _) h
    rwa [Nat.mul_zero, Nat.zero_add] at hlength
  refine ⟨hgreater.imp_right ?_, hnone.imp_right ?_, hlong, ?_, ?_⟩
  · rintro ⟨_, rfl, hcut⟩
    exact hcut
  · rintro ⟨_, rfl, hcut⟩
    exact hcut
  · intro version calldata params m headWord calls hread hsplit call hcall
    exact length_add_le_of_mem_split hread hsplit hcall
  · intro hlimit
    have huncut : FailsOnly (¬ · = (d.withLimit limit).depthError)
        ((d.withLimit limit).decode version tx calldata) := by
      rintro _ h rfl
      have hlength := (hlong _ _ h).2.2
      omega
    exact ⟨hgreater.eq huncut, hnone.eq huncut⟩

/-- A multicall of one call that takes no arguments. -/
def innerRefund : Bytes :=
  V3Method.multicall.selector.toBytes ++
    ([32, 1, 32, 4].flatMap fun n => (Word.ofNat n).bytes) ++ V3Method.refundETH.selector.toBytes

/-- The same inside another multicall. -/
def nestedRefund : Bytes :=
  V3Method.multicall.selector.toBytes ++
    ([32, 1, 32, innerRefund.length].flatMap fun n => (Word.ofNat n).bytes) ++ innerRefund

/-- One level is not enough for two multicalls, and two levels are.  From three levels
on the length of the calldata tells that no level is missing. -/
theorem decode_withLimit_nestedRefund :
    let tx := TxMetadata.ofCall "hash" "router"
    let decodeTo (limit : Nat) := (Decoder.default.withLimit limit).decode .v3 tx nestedRefund
    nestedRefund.length < Offset.limit ∧ nestedRefund.length = 268 ∧ 1 ≤ 2 ∧ 3 ≤ 2 ^ 64 ∧
      decodeTo 1 = .error (.malformed (.nestingDepth 2 1)) ∧
      decodeTo 2 = .ok [{ SwapRecord.ofMethod tx "Uniswap" (.v3 .refundETH) .empty with
        numberOfCalls := some 1 }] ∧
      100 * 1 + 4 ≤ nestedRefund.length ∧ decodeTo (2 ^ 64) = decodeTo 3 ∧
      Decoder.default.decodeUnlimited tx .v3 nestedRefund = decodeTo 3 := by
  intro tx decodeTo
  have hfit : nestedRefund.length < Offset.limit := by decide +kernel
  have hlen : nestedRefund.length = 268 := by decide +kernel
  have hreadOuter : Call.read .v3 nestedRefund =
      .ok (.multicall .multicall 0 (nestedRefund.drop 4)) := by
    decide +kernel
  have hsplitOuter : Multicall.split (nestedRefund.drop 4) 0 = .ok [innerRefund] := by
    decide +kernel
  have hreadInner : Call.read .v3 innerRefund =
      .ok (.multicall .multicall 0 (innerRefund.drop 4)) := by
    decide +kernel
  have hsplitInner : Multicall.split (innerRefund.drop 4) 0 =
      .ok [V3Method.refundETH.selector.toBytes] := by
    decide +kernel
  have hreadRefund : Call.read .v3 V3Method.refundETH.selector.toBytes =
      .ok (.plain (.v3 .refundETH) []) := rfl
  have hcut : decodeTo 1 = .error (.malformed (.nestingDepth 2 1)) := by
    show (Decoder.default.withLimit 1).decode .v3 tx nestedRefund = _
    rw [decode, decodeAtDepth_multicall hreadOuter (by decide), hsplitOuter, ok_bind,
      List.mapM_cons, decodeAtDepth_refused hreadInner (by decide)]
    rfl
  have hdeep : decodeTo 2 = .ok [{ SwapRecord.ofMethod tx "Uniswap" (.v3 .refundETH) .empty with
      numberOfCalls := some 1 }] := by
    show (Decoder.default.withLimit 2).decode .v3 tx nestedRefund = _
    rw [decode, decodeAtDepth_multicall hreadOuter (by decide), hsplitOuter, ok_bind,
      List.mapM_cons, decodeAtDepth_multicall hreadInner (by decide), hsplitInner, ok_bind,
      List.mapM_cons, decodeAtDepth_plain hreadRefund]
    rfl
  have hone := decode_withLimit .default tx .v3 hfit (show 1 ≤ 2 by decide)
  have hthree := decode_withLimit .default tx .v3 hfit (show 3 ≤ 2 ^ 64 by decide)
  have hsame := hthree.2.2.2.2 (by omega)
  exact ⟨hfit, hlen, by decide, by decide, hcut, hdeep, (hone.2.2.1 2 1 hcut).2.2, hsame⟩

end RouterCalldata.Decoder
