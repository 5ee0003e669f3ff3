import RouterCalldata.Proofs.Decoder.Calls
import RouterCalldata.Proofs.Multicall.Faultless
import RouterCalldata.Proofs.Multicall.Regions

/-!
# Decoding without faults

Calldata comes from anyone, and its lengths and offsets are chosen freely.  Where the decoder cuts
or computes without looking, it relies on a check that it has made before, so no calldata drives it
out of its range.  A fault would end the reading and be its outcome; so it is enough that no outcome
is one.

Where a multicall is refused, its depth is increased without a check.  Each multicall is longer than
those inside it, so a call stands inside fewer multicalls than the outermost one has bytes, and its
depth is a number of 64 bits with room above it, whatever the limit.

## Main definitions

* `Decoder.decodeCall`: decodes a call that has been read, increasing the depth first.

## Main results

* `decodeAtDepth_eq_decodeCall`: it makes no difference when the depth is increased;
* `faultless_decodeAtDepth`: a call inside multicalls;
* `faultless_entryPoints`: no entry point faults, and no other reader.
-/

namespace RouterCalldata

open Decoded DecodeError

/-! ## Reading a call -/

/-- Behind a selector there is a parameter block, if an empty one. -/
theorem Bytes.faultless_window {calldata : Bytes} {s : Selector}
    (h : readSelector calldata = .ok s) : Faultless (window calldata 4 calldata.length) := by
  obtain ⟨head, hhead, -⟩ := bind_eq_ok_iff.mp h
  have hle := (length_of_slice hhead).1
  rw [window, if_pos ⟨by omega, Nat.le_refl _⟩]
  exact .ok _

theorem Method.faultless_resolve (version : Version) (s : Selector) :
    Faultless (resolve version s) := by
  rw [resolve]
  split
  · exact .ok _
  · exact .error not_false

theorem Method.faultless_decode (m : Method) (params : Bytes) : Faultless (m.decode params) := by
  rw [decode_eq]
  exact m.layout.faultless_decode params m.name

theorem Call.faultless_read (version : Version) (calldata : Bytes) :
    Faultless (read version calldata) := by
  refine (Bytes.checked_readSelector calldata).faultless.bind fun s hs => ?_
  refine (Bytes.faultless_window hs).bind fun params _ => ?_
  split
  · exact .ok _
  · exact (Method.faultless_resolve version s).bind fun m _ => .ok _

theorem Multicall.faultless_stage (exchange : String) (tx : TxMetadata) {calldata : Bytes}
    (hfit : calldata.length < Offset.limit) : Faultless (stage exchange tx calldata) := by
  refine (Bytes.checked_readSelector calldata).faultless.bind fun s hs => ?_
  split
  · refine (Bytes.faultless_window hs).bind fun params hparams => ?_
    have hlen := (Bytes.length_of_window hparams).2.2
    exact (faultless_split (by omega) _).bind fun calls _ => .ok _
  · exact .error not_false

namespace Decoder

variable {d : Decoder} {tx : TxMetadata}

/-! ## Decoding a call -/

/-- The records of a call that stands inside `depth` multicalls.  The depth of the
calls inside it is computed before it is compared with the limit. -/
def decodeCall (d : Decoder) (tx : TxMetadata) (depth : Nat) :
    Call → Decoded (List SwapRecord)
  | .plain m params => do return [← d.record tx m params]
  | .multicall _ headWord params => do
      let level ← Offset.add depth 1
      if d.maxMulticallDepth < level then
        throw (.malformed (.nestingDepth level d.maxMulticallDepth))
      let calls ← Multicall.split params headWord
      let records ← calls.mapM (d.decodeAtDepth tx level .v3)
      return records.flatten.map (·.within calls.length)

/-- **It makes no difference when the depth is increased**, since below a limit of
64 bits there is room for it. -/
theorem decodeAtDepth_eq_decodeCall (hlimit : d.maxMulticallDepth < Offset.limit) (depth : Nat)
    (version : Version) (calldata : Bytes) :
    d.decodeAtDepth tx depth version calldata =
      Call.read version calldata >>= d.decodeCall tx depth := by
  cases hread : Call.read version calldata with
  | error e => exact decodeAtDepth_error hread
  | ok call =>
    rw [ok_bind]
    cases call with
    | plain m params => exact decodeAtDepth_plain hread
    | multicall m headWord params =>
      rw [decodeCall]
      rcases Nat.lt_or_ge depth d.maxMulticallDepth with hlt | hge
      · -- within the limit there is room for the sum, and the comparison comes out the same
        have hadd : Offset.add depth 1 = .ok (depth + 1) := if_pos (by omega)
        rw [decodeAtDepth_multicall hread hlt, hadd, ok_bind, if_neg (by omega)]
        rfl
      · -- beyond it both sides compute the sum before they refuse
        rw [decodeAtDepth_refused hread hge]
        cases hadd : Offset.add depth 1 with
        | error e => rfl
        | ok level =>
          obtain rfl := Offset.eq_of_add hadd
          rw [ok_bind, ok_bind, if_pos (by omega)]
          rfl

/-- **A call inside multicalls never faults**, if its depth and its length together
are a number of 64 bits.  This is kept from a multicall to its calls, which
stand one level further in and are shorter. -/
theorem faultless_decodeAtDepth {depth : Nat} {version : Version} {calldata : Bytes}
    (hfit : depth + calldata.length < Offset.limit) :
    Faultless (d.decodeAtDepth tx depth version calldata) := by
  intro e he
  refine decodeAtDepth_error_induction
    (motive := fun depth _ calldata e => depth + calldata.length < Offset.limit → ¬ e.IsFault)
    ?unread ?plain ?refused ?split ?inner he hfit
  case unread =>
    intro depth version calldata e hread _
    exact Call.faultless_read version calldata e hread
  case plain =>
    intro depth version calldata m params e _ hfields _
    exact m.faultless_decode params e hfields
  case refused =>
    intro depth version calldata m headWord params e hread _ he hfit
    have hlen := Call.length_of_read_multicall hread
    rcases he with ⟨hbig, -⟩ | rfl
    · omega
    · exact not_false
  case split =>
    intro depth version calldata m headWord params e hread _ hsplit hfit
    have hlen := Call.length_of_read_multicall hread
    exact Multicall.faultless_split (by omega) headWord e hsplit
  case inner =>
    -- what the depth gains, the length of the call has lost
    intro depth version calldata m headWord params calls call e hread _ hsplit hcall ih hfit
    have hlen := Call.length_of_read_multicall hread
    have hshort := (Multicall.length_of_mem_split hsplit hcall).2
    exact ih (by omega)

/-! ## Entry points -/

/-- **No entry point faults, and no other reader.**  Whatever the limit, no calldata
drives decoding, looking up a method or staging a multicall out of its range; a
block of calls, an address array and a packed path can also be read on their
own.  The positions that are reduced to 64 bits without a check are numbers of
64 bits from the start. -/
theorem faultless_entryPoints (d : Decoder) (hlimit : d.maxMulticallDepth < Offset.limit)
    (version : Version) (tx : TxMetadata) :
    (∀ calldata : Bytes, calldata.length < Offset.limit →
      Faultless (d.decode version tx calldata) ∧ Faultless (method version calldata) ∧
        Faultless (d.stage tx calldata)) ∧
    (∀ (depth : Nat) (calldata : Bytes),
      d.decodeAtDepth tx depth version calldata =
        Call.read version calldata >>= d.decodeCall tx depth) ∧
    (∀ (params : Bytes) (headWord : Nat), params.length < Offset.limit → headWord ≤ 1 →
      (headWord + 1) * wordSize < Offset.limit ∧ Faultless (Multicall.split params headWord)) ∧
    (∀ (params : Bytes) (slot : Nat), 1 ≤ slot ∧ slot ≤ 2 →
      slot * wordSize < Offset.limit ∧ Faultless (readTokenPath params slot)) ∧
    (∀ (buf : Bytes) (offset : Nat), Faultless (readPackedPath buf offset)) ∧
    (∀ m : V2Method, ∀ position ∈ m.layout.positions, position < Offset.limit) ∧
    ∀ m : V3Method, (∀ position ∈ m.layout.positions, position < Offset.limit) ∧
      ∀ headWord, m.headWord? = some headWord → headWord ≤ 1 := by
  refine ⟨?_, fun depth => decodeAtDepth_eq_decodeCall hlimit depth version, ?_, ?_,
    fun buf offset => (checked_readPackedPath buf offset).faultless, ?_, ?_⟩
  · intro calldata hfit
    exact ⟨faultless_decodeAtDepth (by omega),
      (Call.faultless_read version calldata).bind fun _ _ => .ok _,
      Multicall.faultless_stage d.exchange tx hfit⟩
  · intro params headWord hfit hhead
    refine ⟨?_, Multicall.faultless_split hfit headWord⟩
    show (headWord + 1) * 32 < 2 ^ 64
    omega
  · rintro params slot ⟨-, hslot⟩
    refine ⟨?_, (checked_readTokenPath params slot).faultless⟩
    show slot * 32 < 2 ^ 64
    omega
  · intro m
    cases m <;> decide
  · intro m
    cases m <;> decide

/-- A multicall of one call that declares as many bytes as there are numbers of 64
bits, and holds none. -/
def oversizedCall : Bytes :=
  V3Method.multicall.selector.toBytes ++
    [32, 1, 32, 2 ^ 64 - 1].flatMap fun n => (Word.ofNat n).bytes

/-- The greatest limit, a length and an offset that leave no room. -/
theorem faultless_entryPoints_oversizedCall :
    let d : Decoder := { maxMulticallDepth := 2 ^ 64 - 1, exchange := "Uniswap" }
    let tx := TxMetadata.ofCall "hash" "router"
    d.maxMulticallDepth < Offset.limit ∧ oversizedCall.length < Offset.limit ∧
      d.decode .v2 tx oversizedCall = .error (.malformed (.elementLength 0 (2 ^ 64 - 1) 0)) ∧
      (Faultless (d.decode .v2 tx oversizedCall) ∧ Faultless (method .v2 oversizedCall) ∧
        Faultless (d.stage tx oversizedCall)) ∧
      d.decodeAtDepth tx (2 ^ 64 - 1) .v2 oversizedCall =
        Call.read .v2 oversizedCall >>= d.decodeCall tx (2 ^ 64 - 1) ∧
      Faultless (Multicall.split (oversizedCall.drop 4) 1) ∧
      Faultless (readTokenPath (oversizedCall.drop 4) 2) ∧
      Faultless (readPackedPath (oversizedCall.drop 4) (2 ^ 64 - 1)) := by
  intro d tx
  have hlimit : d.maxMulticallDepth < Offset.limit := by decide
  have hfit : oversizedCall.length < Offset.limit := by decide +kernel
  have hread : Call.read .v2 oversizedCall =
      .ok (.multicall .multicall 0 (oversizedCall.drop 4)) := by
    decide +kernel
  have hsplit : Multicall.split (oversizedCall.drop 4) 0 =
      .error (.malformed (.elementLength 0 (2 ^ 64 - 1) 0)) := by
    decide +kernel
  have hdecode : d.decode .v2 tx oversizedCall =
      .error (.malformed (.elementLength 0 (2 ^ 64 - 1) 0)) := by
    rw [decode, decodeAtDepth_multicall hread (by decide), hsplit, error_bind]
  have h := faultless_entryPoints d hlimit .v2 tx
  exact ⟨hlimit, hfit, hdecode, h.1 oversizedCall hfit, h.2.1 _ oversizedCall,
    (h.2.2.1 _ 1 (by decide +kernel) (Nat.le_refl 1)).2, (h.2.2.2.1 _ 2 ⟨by decide, by decide⟩).2,
    h.2.2.2.2.1 _ _⟩

end Decoder

end RouterCalldata
