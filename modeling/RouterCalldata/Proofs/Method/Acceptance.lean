import RouterCalldata.Proofs.Method.Tables
import RouterCalldata.Proofs.Record.Acceptance

/-!
# What a swap along a path asks of a block

The swaps of the older router take an array of tokens, and two of the newer one a packed path.
Such a swap accepts every block with a path in it that is long enough for its words.  The path may
stand anywhere, also over the words of the head or over those of other arguments.

The layouts are tables made by hand.  All that is needed of them is where the path is found and
where the last word ends, and neither depends on the other, so both can be read off the tables.

## Main definitions

* `V2Method.pathWord?`: the word that leads to the array of tokens.

## Main results

* `V2Method.swap_accepts_iff`: a swap along an array of tokens is accepted exactly if it has one;
* `V3Method.packedSwap_accepts_iff`: so is a swap along a packed path.
-/

namespace RouterCalldata

/-! ## Arrays of tokens -/

namespace V2Method

/-- The word that leads to the array of tokens, for the methods that swap along one.  A
swap of the value of the transaction has one amount in front of it, any other swap
has two. -/
def pathWord? : V2Method → Option Nat
  | swapExactTokensForTokens
  | swapTokensForExactTokens
  | swapTokensForExactETH
  | swapExactTokensForETH
  | swapExactTokensForTokensSupportingFee
  | swapExactTokensForETHSupportingFee => some 2
  | swapExactETHForTokens
  | swapETHForExactTokens
  | swapExactETHForTokensSupportingFee => some 1
  | addLiquidity
  | addLiquidityETH
  | removeLiquidity
  | removeLiquidityETH
  | removeLiquidityETHWithPermit
  | removeLiquidityETHWithPermitSupportingFee
  | removeLiquidityETHSupportingFee
  | removeLiquidityWithPermit => none

variable {m : V2Method} {word : Nat}

theorem pathWord_le_two (hm : m.pathWord? = some word) : word ≤ 2 := by
  revert word
  cases m <;> decide

/-- The layout of a swap has the path where the word leads, and its last slot is the
word behind that one. -/
theorem layout_of_pathWord (hm : m.pathWord? = some word) :
    ∃ slots, m.layout = .tokenPath word slots ∧ slotsStop slots = wordSize * (word + 2) ∧
      (∀ slot ∈ slots, slot.2.IsNarrow) ∧
      (Field.tokenPathFrom :: .tokenPathTo :: slots.map Prod.fst).Nodup := by
  refine ⟨m.layout.slots, ?_⟩
  revert word
  cases m <;> decide

/-- **A swap along an array of tokens is accepted exactly if its block has one**, and the
words up to the one behind the word that leads to it.  Then the ends of the path
are the accounts in the first and in the last word of the array.  It is a fault of
the layout exactly if the length of the array can be read and is less than two, and
every other block that is refused is cut short or leads out of it.

The block is held in memory, so its length is a number of 64 bits. -/
theorem swap_accepts_iff (hm : m.pathWord? = some word) {params : Bytes}
    (hfit : params.length < Offset.limit) :
    ((∃ fields, m.decode params = .ok fields) ↔
      wordSize * (word + 2) ≤ params.length ∧ ∃ offset len, IsTokenPath params word offset len) ∧
    (∀ fields, m.decode params = .ok fields →
      ∀ offset len, IsTokenPath params word offset len →
        fields.value .tokenPathFrom = some (params.addressText (offset + wordSize)) ∧
        fields.value .tokenPathTo = some (params.addressText (offset + wordSize * len))) ∧
    (∀ cause, m.decode params = .error (.malformed cause) ↔
      ∃ offset len, params.numberAt? (wordSize * word) = some offset ∧ offset < Offset.limit ∧
        params.numberAt? offset = some len ∧ len < 2 ∧ cause = .shortPath len) ∧
    ∀ e, m.decode params = .error e → ¬ e.IsMalformed → e.IsCut := by
  obtain ⟨slots, hlayout, hstop, hnarrow, hnodup⟩ := layout_of_pathWord hm
  have hword : wordSize * word < Offset.limit :=
    Nat.lt_of_le_of_lt (Nat.mul_le_mul_left _ (pathWord_le_two hm)) (by decide)
  have hdecode : m.decode params = (Layout.tokenPath word slots).decode m.name params := by
    rw [decode, hlayout]
  refine ⟨?_, ?_, ?_, ?_⟩
  · rw [hdecode, Layout.tokenPath_accepts_iff hnarrow _ hfit hword, hstop, and_comm]
  · intro fields h offset len hpath
    rw [hdecode] at h
    exact Layout.value_of_tokenPath _ hfit hword hnodup h hpath
  · intro cause
    rw [hdecode, Layout.tokenPath_eq_malformed_iff hnarrow]
    exact readTokenPath_eq_malformed_iff hfit hword
  · intro e he hmalformed
    have hkinds := (Method.checked_decode (m := .v2 m) rfl params e he).kinds
    rcases hkinds with htruncated | hout | h
    · exact Or.inl htruncated
    · exact Or.inr hout
    · exact absurd h hmalformed

/-- A block of three words that has its path in them: the amount is the length, and the account
is the last token. -/
def foldedBlock (len : Nat) : Bytes :=
  [len, 0, 42].flatMap fun n => (Word.ofNat n).bytes

/-- The path may point back into the head.  With another amount it is too short, or longer
than the block. -/
theorem swap_accepts_iff_foldedBlock :
    swapETHForExactTokens.pathWord? = some 1 ∧
      (foldedBlock 2).length < Offset.limit ∧ IsTokenPath (foldedBlock 2) 1 0 2 ∧
      (∃ fields, swapETHForExactTokens.decode (foldedBlock 2) = .ok fields ∧
        fields.value .tokenPathTo = some "0x000000000000000000000000000000000000002a") ∧
      swapETHForExactTokens.decode (foldedBlock 1) = .error (.malformed (.shortPath 1)) ∧
      ¬ ∃ fields, swapETHForExactTokens.decode (foldedBlock 3) = .ok fields := by
  have hfit (len : Nat) : (foldedBlock len).length < Offset.limit := by
    simp [foldedBlock, (Word.ofNat _).length_bytes, wordSize]
  have hpath : IsTokenPath (foldedBlock 2) 1 0 2 := by decide +kernel
  have hshort : swapETHForExactTokens.decode (foldedBlock 1) =
      .error (.malformed (.shortPath 1)) :=
    ((swap_accepts_iff (m := swapETHForExactTokens) rfl (hfit 1)).2.2.1 _).mpr
      ⟨0, 1, by decide +kernel, by decide, by decide +kernel, by decide, rfl⟩
  obtain ⟨fields, hfields⟩ :=
    (swap_accepts_iff (m := swapETHForExactTokens) rfl (hfit 2)).1.mpr
      ⟨by decide +kernel, 0, 2, hpath⟩
  have hends := (swap_accepts_iff (m := swapETHForExactTokens) rfl (hfit 2)).2.1 fields hfields 0 2
    hpath
  have htext : (foldedBlock 2).addressText (0 + wordSize * 2) =
      "0x000000000000000000000000000000000000002a" := by
    decide +kernel
  refine ⟨rfl, hfit 2, hpath, ⟨fields, hfields, hends.2.trans (congrArg some htext)⟩, hshort, ?_⟩
  intro hlong
  obtain ⟨-, offset, len, hlong⟩ :=
    (swap_accepts_iff (m := swapETHForExactTokens) rfl (hfit 3)).1.mp hlong
  obtain rfl : 0 = offset := Option.some.inj (Eq.trans (by decide +kernel) hlong.offset_eq)
  obtain rfl : 3 = len := Option.some.inj (Eq.trans (by decide +kernel) hlong.len_eq)
  exact absurd hlong (by decide +kernel)

end V2Method

/-! ## Packed paths -/

namespace V3Method

/-- The layout of a swap along a packed path has four words behind the one that leads to
the path. -/
theorem layout_of_packedPath {m : V3Method} (hm : m = exactInput ∨ m = exactOutput) :
    ∃ order slots, m.layout = .packedPath order slots ∧ slotsStop slots = wordSize * 5 ∧
      ∀ slot ∈ slots, slot.2.IsNarrow := by
  rcases hm with rfl | rfl
  · exact ⟨_, _, rfl, by decide⟩
  · exact ⟨_, _, rfl, by decide⟩

/-- **A packed path is read exactly if the buffer has one**, and is a fault of the layout
exactly if its length can be read and is that of none, even if the buffer ends
before it.  A swap along such a path is accepted exactly if its block has a tuple of
five words or more that leads to a packed path from its own start.

A buffer is held in memory, so its length is a number of 64 bits. -/
theorem packedSwap_accepts_iff {buf : Bytes} (hfit : buf.length < Offset.limit) :
    (∀ offset path, readPackedPath buf offset = .ok path ↔
      ∃ pools, IsPackedPath buf offset pools ∧ path = packedEnds buf offset pools) ∧
    (∀ offset cause, readPackedPath buf offset = .error (.malformed cause) ↔
      ∃ len, buf.numberAt? offset = some len ∧ len < Offset.limit ∧
        (¬ ∃ pools, 1 ≤ pools ∧ len = addressSize + hopSize * pools) ∧
        cause = .packedPathLength len) ∧
    ∀ m, m = exactInput ∨ m = exactOutput →
      ((∃ fields, m.decode buf = .ok fields) ↔
        ∃ start, buf.numberAt? 0 = some start ∧ start ≤ buf.length ∧
          wordSize * 5 ≤ (buf.drop start).length ∧
          ∃ offset, Bytes.numberAt? (buf.drop start) 0 = some offset ∧ offset < Offset.limit ∧
            ∃ path, readPackedPath (buf.drop start) offset = .ok path) := by
  refine ⟨fun offset path => readPackedPath_eq_ok_iff hfit,
    fun offset cause => readPackedPath_eq_malformed_iff hfit, fun m hm => ?_⟩
  obtain ⟨order, slots, hlayout, hstop, hnarrow⟩ := layout_of_packedPath hm
  rw [decode, hlayout, Layout.packedPath_accepts_iff hnarrow _ hfit order, hstop]

/-- A block with a tuple of five words, whose path has its length in place of a deadline
and its tokens in the two amounts. -/
def foldedTuple (len : Nat) : Bytes :=
  [32, 64, 42, len, 2 ^ 96 + 7, 9].flatMap fun n => (Word.ofNat n).bytes

/-- The path may stand over other words of the tuple.  Another length is that of no path, and
a third is that of a path for which the block has no room. -/
theorem packedSwap_accepts_iff_foldedTuple :
    (foldedTuple 43).length < Offset.limit ∧ IsPackedPath (foldedTuple 43) 96 1 ∧
      (∃ path, readPackedPath (foldedTuple 43) 96 = .ok path ∧ path.hops = 1) ∧
      (∃ fields, exactInput.decode (foldedTuple 43) = .ok fields) ∧
      (∃ fields, exactOutput.decode (foldedTuple 43) = .ok fields) ∧
      readPackedPath (foldedTuple 100) 96 = .error (.malformed (.packedPathLength 100)) ∧
      ¬ ∃ path, readPackedPath (foldedTuple 66) 96 = .ok path := by
  have hfit (len : Nat) : (foldedTuple len).length < Offset.limit := by
    simp [foldedTuple, (Word.ofNat _).length_bytes, wordSize]
  have hpath : IsPackedPath (foldedTuple 43) 96 1 := by decide +kernel
  have hread := ((packedSwap_accepts_iff (hfit 43)).1 96 _).mpr ⟨1, hpath, rfl⟩
  have hrest : ∃ start, (foldedTuple 43).numberAt? 0 = some start ∧
      start ≤ (foldedTuple 43).length ∧
      wordSize * 5 ≤ ((foldedTuple 43).drop start).length ∧
      ∃ offset, Bytes.numberAt? ((foldedTuple 43).drop start) 0 = some offset ∧
        offset < Offset.limit ∧
        ∃ path, readPackedPath ((foldedTuple 43).drop start) offset = .ok path := by
    have hdrop : ((foldedTuple 43).drop 32).length < Offset.limit := by decide +kernel
    exact ⟨32, by decide +kernel, by decide +kernel, by decide +kernel, 64, by decide +kernel,
      by decide, _, ((packedSwap_accepts_iff hdrop).1 64 _).mpr ⟨1, by decide +kernel, rfl⟩⟩
  have hnone : ¬ ∃ pools, 1 ≤ pools ∧ 100 = addressSize + hopSize * pools := by
    rintro ⟨pools, -, hpools⟩
    have hpools : 100 = 20 + 23 * pools := hpools
    omega
  have hwrong := ((packedSwap_accepts_iff (hfit 100)).2.1 96 (.packedPathLength 100)).mpr
    ⟨100, by decide +kernel, by decide, hnone, rfl⟩
  refine ⟨hfit 43, hpath, ⟨_, hread, rfl⟩,
    ((packedSwap_accepts_iff (hfit 43)).2.2 _ (Or.inl rfl)).mpr hrest,
    ((packedSwap_accepts_iff (hfit 43)).2.2 _ (Or.inr rfl)).mpr hrest, hwrong, ?_⟩
  rintro ⟨path, hlong⟩
  obtain ⟨pools, ⟨-, hlen, hroom⟩, -⟩ := ((packedSwap_accepts_iff (hfit 66)).1 96 path).mp hlong
  have hpools : 66 = addressSize + hopSize * pools :=
    Option.some.inj (Eq.trans (by decide +kernel) hlen)
  rw [← hpools] at hroom
  exact absurd hroom (by decide +kernel)

end V3Method

end RouterCalldata
