import RouterCalldata.Proofs.Bytes.Extended
import RouterCalldata.Proofs.Record.Layout
import RouterCalldata.Proofs.Record.PackedPath

/-!
# Layouts in a longer block

A layout reads the same fields from a longer parameter block, or it fails the same way, unless the
shorter block was truncated.  Every position that a layout reads is computed from words read
before, so the argument follows the reading step by step.

A tuple is the part of the block from an offset on, so it is longer in a longer block by the same
bytes, if it starts in the shorter block at all.

## Main results

* `eqUnless_readSlots`, `eqUnless_readTokenPath`, `eqUnless_readPackedPath`: the parts of a layout;
* `eqUnless_decode`: a layout.
-/

namespace RouterCalldata

open Decoded DecodeError

variable (buf more : Bytes)

theorem Source.eqUnless_read (source : Source) :
    EqUnless IsTruncated (source.read buf) (source.read (buf ++ more)) := by
  cases source with
  | uint w => exact Bytes.eqUnless_readUint buf more _
  | address w => exact Bytes.eqUnless_readAddress buf more _
  | uintRange start len => exact Bytes.eqUnless_readUintRange buf more start len

theorem eqUnless_readSlots (fields : SwapFields) (slots : List Slot) :
    EqUnless IsTruncated (readSlots buf fields slots) (readSlots (buf ++ more) fields slots) := by
  induction slots generalizing fields with
  | nil => exact .refl _
  | cons slot rest ih =>
    obtain ⟨field, source⟩ := slot
    exact (source.eqUnless_read buf more).bind fun text _ => ih (fields.set field text)

theorem eqUnless_readTokenPath (slot : Nat) :
    EqUnless IsTruncated (readTokenPath buf slot) (readTokenPath (buf ++ more) slot) := by
  rw [readTokenPath, readTokenPath]
  refine (Bytes.eqUnless_readOffset buf more _).bind fun offset _ => ?_
  refine (Bytes.eqUnless_readOffset buf more _).bind fun len _ => ?_
  split
  · exact .refl _
  · dsimp only
    split
    · refine (Bytes.eqUnless_readAddress buf more _).bind fun start _ => ?_
      exact (Bytes.eqUnless_readAddress buf more _).bind fun stop _ => .refl _
    · exact .refl _

theorem eqUnless_readPackedPath (offset : Nat) :
    EqUnless IsTruncated (readPackedPath buf offset) (readPackedPath (buf ++ more) offset) := by
  rw [readPackedPath_eq, readPackedPath_eq]
  refine (Bytes.eqUnless_readOffset buf more _).bind fun len _ => ?_
  split
  · split
    · exact .refl _
    · exact (Bytes.eqUnless_slice buf more _ len).bind fun path _ => .refl _
  · exact .refl _

theorem eqUnless_readTuple (order : PathOrder) (slots : List Slot) :
    EqUnless IsTruncated (readTuple order slots buf) (readTuple order slots (buf ++ more)) := by
  refine (Bytes.eqUnless_readOffset buf more _).bind fun offset _ => ?_
  refine (eqUnless_readPackedPath buf more offset).bind fun path _ => ?_
  exact eqUnless_readSlots buf more (path.fields order) slots

/-- **A layout reads the same from a longer block**, unless the block was
truncated. -/
theorem Layout.eqUnless_decode (method : String) (layout : Layout) :
    EqUnless IsTruncated (layout.decode method buf) (layout.decode method (buf ++ more)) := by
  cases layout with
  | fixed slots => exact eqUnless_readSlots buf more .empty slots
  | tokenPath slot slots =>
    refine (eqUnless_readTokenPath buf more slot).bind fun ends _ => ?_
    exact eqUnless_readSlots buf more _ slots
  | packedPath order slots =>
    rw [decode_packedPath, decode_packedPath]
    refine (Bytes.eqUnless_readOffset buf more _).bind fun offset _ => ?_
    by_cases hstart : buf.length < offset
    · rw [if_pos hstart]
      exact .of_error trivial
    · have hstart' : ¬ (buf ++ more).length < offset := by
        rw [List.length_append]
        omega
      rw [if_neg hstart, if_neg hstart', List.drop_append_of_le_length (Nat.not_lt.mp hstart)]
      exact eqUnless_readTuple (buf.drop offset) more order slots
  | calls => exact .refl _

end RouterCalldata
