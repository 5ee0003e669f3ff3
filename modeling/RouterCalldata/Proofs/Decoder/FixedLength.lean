import RouterCalldata.Proofs.Decoder.Calls
import RouterCalldata.Proofs.Record.Shortage

/-!
# Calls without dynamic arguments

A method whose arguments are all of fixed width reads words and nothing else.  Whatever these hold
is the text of some number or some account, so that nothing but the length of the call decides
whether it is accepted.  What stands behind the last word that is read, such as a deadline or an
approval, may be missing.

One place is no whole word: the liquidity of the removals that pay in ether is read from the low
bytes of its word.  It is not the last place, so the threshold is a number of words all the same.

## Main definitions

* `Method.fixedWords?`: how many words a call of a method has to have;
* `Source.lastWord`: the last word that a place reaches into.

## Main results

* `Decoder.accepts_iff_length`: such calls are accepted exactly by length.
-/

namespace RouterCalldata

open Decoded

/-- The last word that a place reaches into. -/
def Source.lastWord : Source → Nat
  | uint w | address w => w
  | uintRange start len => (start + len - 1) / wordSize

namespace Method

/-- How many words a call has to have, for the methods without dynamic arguments.  The
last of them is the last word that is read. -/
def fixedWords? : Method → Option Nat
  | v2 .addLiquidity
  | v3 .exactInputSingle
  | v3 .exactOutputSingle => some 7
  | v2 .removeLiquidity
  | v2 .removeLiquidityWithPermit => some 6
  | v2 .addLiquidityETH
  | v2 .removeLiquidityETH
  | v2 .removeLiquidityETHWithPermit
  | v2 .removeLiquidityETHWithPermitSupportingFee
  | v2 .removeLiquidityETHSupportingFee => some 5
  | v3 .sweepToken => some 3
  | v3 .unwrapWETH9 => some 2
  | v3 .refundETH => some 0
  | v2 .swapExactTokensForTokens
  | v2 .swapTokensForExactTokens
  | v2 .swapExactETHForTokens
  | v2 .swapTokensForExactETH
  | v2 .swapExactTokensForETH
  | v2 .swapETHForExactTokens
  | v2 .swapExactTokensForTokensSupportingFee
  | v2 .swapExactETHForTokensSupportingFee
  | v2 .swapExactTokensForETHSupportingFee
  | v3 .exactInput
  | v3 .exactOutput
  | v3 .multicall
  | v3 .multicallWithValue => none

variable {m : Method} {words : Nat}

theorem headWord_of_fixedWords (hm : m.fixedWords? = some words) : m.headWord? = none := by
  revert words
  rcases m with m | m
  · cases m <;> decide
  · cases m <;> decide

/-- The slots of such a method end with the last of its words, and are all there is in
its layout. -/
theorem layout_of_fixedWords (hm : m.fixedWords? = some words) :
    m.layout = .fixed m.layout.slots ∧ slotsStop m.layout.slots = wordSize * words ∧
      ∀ slot ∈ m.layout.slots, slot.2.IsPlaced := by
  revert words
  rcases m with m | m
  · cases m <;> decide
  · cases m <;> decide

theorem lastWord_of_fixedWords (hm : m.fixedWords? = some words) :
    (∀ slot ∈ m.layout.slots, slot.2.lastWord < words) ∧
      (words = 0 ∨ ∃ slot ∈ m.layout.slots, slot.2.lastWord + 1 = words) := by
  revert words
  rcases m with m | m
  · cases m <;> decide
  · cases m <;> decide

/-- The fields of a block that has all of the words. -/
theorem decode_of_le (hm : m.fixedWords? = some words) {params : Bytes}
    (hle : wordSize * words ≤ params.length) : ∃ fields, m.decode params = .ok fields := by
  obtain ⟨hlayout, hstop, hplaced⟩ := layout_of_fixedWords hm
  rw [decode_eq, hlayout]
  exact readSlots_of_le hplaced (hstop ▸ hle) .empty

/-- A block that is shorter is told to end too early. -/
theorem decode_of_lt (hm : m.fixedWords? = some words) {params : Bytes}
    (hlt : params.length < wordSize * words) :
    ∃ e, m.decode params = .error e ∧ e.TellsEnd params.length := by
  obtain ⟨hlayout, hstop, hplaced⟩ := layout_of_fixedWords hm
  rw [decode_eq, hlayout]
  exact readSlots_of_lt hplaced (hstop ▸ hlt) .empty

end Method

namespace Decoder

/-- **Calls without dynamic arguments are accepted exactly by length.**  A call that starts with the
selector of such a method has to have the words that are read, the last of which is the last word of
all, and it does not matter what they hold.  A shorter call is told to be cut short, in terms of its
block: where the bytes start that are missing, how many are asked for, and how many there are. -/
theorem accepts_iff_length {m : Method} {words : Nat} (hm : m.fixedWords? = some words)
    (d : Decoder) (tx : TxMetadata) {calldata : Bytes}
    (hselector : m.selector.toBytes <+: calldata) :
    ((∃ records, d.decode m.version tx calldata = .ok records) ↔
      4 + wordSize * words ≤ calldata.length) ∧
    (∀ e, d.decode m.version tx calldata = .error e →
      ∃ offset needed available, e = .truncated offset needed available ∧ available < needed ∧
        calldata.length - 4 < offset + needed ∧ available = calldata.length - 4 - offset) ∧
    (∀ slot ∈ m.layout.slots, slot.2.lastWord < words) ∧
    (words = 0 ∨ ∃ slot ∈ m.layout.slots, slot.2.lastWord + 1 = words) := by
  obtain ⟨params, rfl⟩ := hselector
  have hlen : (m.selector.toBytes ++ params).length = 4 + params.length := List.length_append
  rw [decode_selector_append_eq_map d tx (Method.headWord_of_fixedWords hm), hlen,
    Nat.add_sub_cancel_left, Nat.add_le_add_iff_left]
  refine ⟨?_, ?_, Method.lastWord_of_fixedWords hm⟩
  · constructor
    · rintro ⟨records, h⟩
      by_contra hlt
      obtain ⟨e, he, -⟩ := Method.decode_of_lt hm (Nat.not_le.mp hlt)
      rw [he] at h
      cases h
    · intro hle
      obtain ⟨fields, hfields⟩ := Method.decode_of_le hm hle
      rw [hfields]
      exact ⟨_, rfl⟩
  · intro e he
    rw [map_eq_error_iff] at he
    rcases Nat.lt_or_ge params.length (wordSize * words) with hlt | hle
    · obtain ⟨e', he', htells⟩ := Method.decode_of_lt hm hlt
      obtain rfl : e' = e := Except.error.inj (he'.symm.trans he)
      exact htells.exists_eq
    · obtain ⟨fields, hfields⟩ := Method.decode_of_le hm hle
      rw [hfields] at he
      cases he

/-- The call of a method with a block of the given size that holds no zero bits. -/
def onesCall (m : Method) (size : Nat) : Bytes := m.selector.toBytes ++ List.replicate size 0xff

/-- A removal of liquidity that ends with the account, and one that ends in front of the last byte
of it. -/
theorem accepts_iff_length_removeEth :
    let m := Method.v2 .removeLiquidityETH
    let tx := TxMetadata.ofCall "hash" "router"
    m.fixedWords? = some 5 ∧ m.selector.toBytes <+: onesCall m 160 ∧
      m.selector.toBytes <+: onesCall m 159 ∧
      (∃ records, default.decode .v2 tx (onesCall m 160) = .ok records) ∧
      ∃ offset needed available,
        default.decode .v2 tx (onesCall m 159) = .error (.truncated offset needed available) ∧
          available < needed ∧ 159 < offset + needed ∧ available = 159 - offset := by
  intro m tx
  have hlen (size : Nat) : (onesCall m size).length = 4 + size := by
    rw [onesCall, List.length_append, List.length_replicate]
    rfl
  have hstarts (size : Nat) : m.selector.toBytes <+: onesCall m size := ⟨_, rfl⟩
  obtain ⟨hlong, -⟩ := accepts_iff_length (m := m) rfl default tx (hstarts 160)
  obtain ⟨hshort, herror, -⟩ := accepts_iff_length (m := m) rfl default tx (hstarts 159)
  rw [hlen] at hlong hshort herror
  refine ⟨rfl, hstarts 160, hstarts 159, hlong.mpr (by decide), ?_⟩
  cases h : default.decode .v2 tx (onesCall m 159) with
  | ok records => exact absurd (hshort.mp ⟨records, h⟩) (by decide)
  | error e =>
    obtain ⟨offset, needed, available, rfl, htells⟩ := herror e h
    exact ⟨offset, needed, available, rfl, htells⟩

end Decoder

end RouterCalldata
