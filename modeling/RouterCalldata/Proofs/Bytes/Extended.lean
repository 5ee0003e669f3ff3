import RouterCalldata.Proofs.Bytes.Holding

/-!
# Readers of a longer buffer

Bytes behind the end of a buffer do not change what is read in it.  A reader can only tell the
longer buffer from the shorter one by running into the end of the shorter one, and then it says
so: the failure is a truncation.

## Main results

* `eqUnless_slice`: a cut of a longer buffer is the same, unless the buffer was too short for it;
* `eqUnless_readUint`, `eqUnless_readUintRange`, `eqUnless_readAddress`, `eqUnless_readOffset`: so
  is everything that is read from a cut.
-/

namespace RouterCalldata.Bytes

open Decoded DecodeError

variable (buf more : Bytes)

theorem take_drop_append {start len : Nat} (h : start + len ≤ buf.length) :
    ((buf ++ more).drop start).take len = (buf.drop start).take len := by
  have hstart : start ≤ buf.length := by omega
  have hlen : len ≤ (buf.drop start).length := by
    rw [List.length_drop]
    omega
  rw [List.drop_append_of_le_length hstart, List.take_append_of_le_length hlen]

/-- A cut of a longer buffer is the same, unless the buffer was too short for
it. -/
theorem eqUnless_slice (start len : Nat) :
    EqUnless IsTruncated (slice buf start len) (slice (buf ++ more) start len) := by
  rw [slice, slice]
  cases hstop : Offset.checkedAdd start len with
  | none => exact .refl _
  | some stop =>
    obtain rfl := Offset.eq_of_checkedAdd hstop
    dsimp only
    by_cases hle : start + len ≤ buf.length
    · have hle' : start + len ≤ (buf ++ more).length := by
        rw [List.length_append]
        omega
      rw [if_pos hle, if_pos hle', take_drop_append buf more hle]
      exact .refl _
    · rw [if_neg hle]
      exact .of_error trivial

theorem eqUnless_readUint (offset : Nat) :
    EqUnless IsTruncated (readUint buf offset) (readUint (buf ++ more) offset) :=
  (eqUnless_slice buf more offset wordSize).bind fun _ _ => .refl _

theorem eqUnless_readAddress (offset : Nat) :
    EqUnless IsTruncated (readAddress buf offset) (readAddress (buf ++ more) offset) :=
  (eqUnless_slice buf more offset wordSize).bind fun _ _ => .refl _

theorem eqUnless_readOffset (offset : Nat) :
    EqUnless IsTruncated (readOffset buf offset) (readOffset (buf ++ more) offset) :=
  (eqUnless_slice buf more offset wordSize).bind fun _ _ => .refl _

theorem eqUnless_readUintRange (start len : Nat) :
    EqUnless IsTruncated (readUintRange buf start len) (readUintRange (buf ++ more) start len) := by
  rw [readUintRange, readUintRange]
  split
  · exact .refl _
  · exact (eqUnless_slice buf more start len).bind fun _ _ => .refl _

end RouterCalldata.Bytes
