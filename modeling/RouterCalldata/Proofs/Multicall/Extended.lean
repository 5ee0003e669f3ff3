import RouterCalldata.Proofs.Bytes.Extended
import RouterCalldata.Proofs.Multicall.Table

/-!
# Splitting a longer block

The number of calls and the table of offsets are read from a longer block as they are from the
shorter one.  So are the regions of all calls but the last, unless they end behind the shorter
block.  The last region goes on to the end of the block, whichever that is, so it is longer in the
longer block; but its call, which is no longer than its length word says, is the same.

So a block that can be split keeps its calls when bytes are added.  A block that cannot be split is
split in no other way by a longer one, unless it is truncated, or malformed because a region or a
call ends behind it.

## Main definitions

* `IsCut`: the failures of a block that more bytes may mend.

## Main results

* `eqUnless_readCall`: the call in a region that goes on;
* `eqUnless_elements`: the calls at a table of offsets;
* `eqUnless_split`: the calls of a block.
-/

namespace RouterCalldata.Multicall

open Decoded DecodeError

/-- The failures of a block that more bytes may mend. -/
def IsCut (e : DecodeError) : Prop := e.IsTruncated ∨ e.IsMalformed

variable (params more : Bytes)

/-! ## The table -/

theorem eqUnless_readOffset (offset : Nat) :
    EqUnless IsCut (Bytes.readOffset params offset) (Bytes.readOffset (params ++ more) offset) :=
  (Bytes.eqUnless_readOffset params more offset).mono fun _ => Or.inl

theorem eqUnless_readCount (headWord : Nat) :
    EqUnless IsCut (readCount params headWord) (readCount (params ++ more) headWord) := by
  refine (eqUnless_readOffset params more _).bind fun arrayOffset _ => ?_
  split
  · exact .refl _
  · refine (eqUnless_readOffset params more arrayOffset).bind fun count _ => ?_
    refine EqUnless.bind (.refl _) fun base _ => ?_
    by_cases hroom : (params.length - base) / wordSize < count
    · rw [if_pos hroom]
      exact .of_error (Or.inl trivial)
    · have hroom' : ¬ ((params ++ more).length - base) / wordSize < count := by
        rw [List.length_append]
        have hroom : ¬ (params.length - base) / 32 < count := hroom
        show ¬ (params.length + more.length - base) / 32 < count
        omega
      rw [if_neg hroom, if_neg hroom']
      exact .refl _

theorem eqUnless_readTable (base count : Nat) :
    EqUnless IsCut (readTable params base count) (readTable (params ++ more) base count) := by
  refine EqUnless.mapM fun i _ => ?_
  refine EqUnless.bind (.refl _) fun product _ => EqUnless.bind (.refl _) fun position _ => ?_
  exact eqUnless_readOffset params more position

/-! ## Single calls -/

/-- The call in a region that goes on. -/
theorem eqUnless_readCall (index : Nat) (region : Bytes) :
    EqUnless IsCut (readCall index region) (readCall index (region ++ more)) := by
  refine (eqUnless_readOffset region more 0).bind fun len _ => ?_
  by_cases hroom : region.length < wordSize + len
  · rw [if_pos hroom]
    exact .of_error (Or.inr trivial)
  · have hroom' : ¬ (region ++ more).length < wordSize + len := by
      rw [List.length_append]
      omega
    rw [if_neg hroom, if_neg hroom', Bytes.take_drop_append region more (Nat.not_lt.mp hroom)]
    exact .refl _

/-- A call whose region ends at an offset. -/
theorem eqUnless_element (index : Nat) (start? stop? : Option Nat) :
    EqUnless IsCut (element params index start? stop?)
      (element (params ++ more) index start? stop?) := by
  rcases start? with _ | start
  · exact .refl _
  · rcases stop? with _ | stop
    · exact .refl _
    · rw [element_eq, element_eq]
      by_cases hrange : start ≤ stop ∧ stop ≤ params.length
      · have hrange' : start ≤ stop ∧ stop ≤ (params ++ more).length := by
          rw [List.length_append]
          omega
        rw [if_pos hrange, if_pos hrange', Bytes.take_drop_append params more (by omega)]
        exact .refl _
      · rw [if_neg hrange]
        exact .of_error (Or.inr trivial)

/-- The last call, whose region ends with the block. -/
theorem eqUnless_lastElement (index : Nat) (start? : Option Nat) :
    EqUnless IsCut (element params index start? (some params.length))
      (element (params ++ more) index start? (some (params ++ more).length)) := by
  have hwhole (bs : Bytes) (start : Nat) :
      (bs.drop start).take (bs.length - start) = bs.drop start := by
    rw [← List.length_drop, List.take_length]
  rcases start? with _ | start
  · exact .refl _
  · rw [element_eq, element_eq]
    by_cases hrange : start ≤ params.length ∧ params.length ≤ params.length
    · have hrange' : start ≤ (params ++ more).length ∧
          (params ++ more).length ≤ (params ++ more).length := by
        rw [List.length_append]
        omega
      rw [if_pos hrange, if_pos hrange', hwhole, hwhole,
        List.drop_append_of_le_length hrange.1]
      exact eqUnless_readCall more index (params.drop start)
    · rw [if_neg hrange]
      exact .of_error (Or.inr trivial)

/-! ## All calls -/

theorem eqUnless_elements (base index : Nat) (offsets : List Nat) :
    EqUnless IsCut (elements params base index offsets)
      (elements (params ++ more) base index offsets) := by
  induction offsets generalizing index with
  | nil => exact .refl _
  | cons offset rest ih =>
    cases rest with
    | nil =>
      rw [elements_singleton, elements_singleton]
      exact (eqUnless_lastElement params more index _).bind fun call _ => .refl _
    | cons next rest =>
      rw [elements_cons_cons, elements_cons_cons]
      refine (eqUnless_element params more index _ _).bind fun call _ => ?_
      exact (ih (index + 1)).bind fun calls _ => .refl _

/-- **The calls of a block are those of a longer one**, unless the block is cut. -/
theorem eqUnless_split (headWord : Nat) :
    EqUnless IsCut (split params headWord) (split (params ++ more) headWord) := by
  rw [split_eq, split_eq]
  refine (eqUnless_readCount params more headWord).bind fun ⟨base, count⟩ _ => ?_
  refine (eqUnless_readTable params more base count).bind fun offsets _ => ?_
  exact eqUnless_elements params more base 0 offsets

end RouterCalldata.Multicall
