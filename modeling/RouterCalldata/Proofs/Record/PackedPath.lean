import RouterCalldata.Proofs.Bytes.Holding
import RouterCalldata.Record.Layout

/-!
# Packed paths

A packed path is read in two steps.  Its length word says how many bytes it has, and only the
lengths of whole paths are taken; then the path is cut out of the buffer.  All that is told of it
is a function of the bytes that were cut out, since every path that is cut out is long enough for
its ends and its first fee.

## Main definitions

* `IsPackedLength`: the lengths of packed paths;
* `PackedPath.ofBytes`: what is told of the bytes of a packed path.

## Main results

* `readPackedPath_eq`: reading a packed path is reading its length and cutting it out.
-/

namespace RouterCalldata

open Decoded

/-- The length of a token and at least one pool with another token. -/
def IsPackedLength (len : Nat) : Prop :=
  addressSize + hopSize ≤ len ∧ (len - addressSize) % hopSize = 0

instance (len : Nat) : Decidable (IsPackedLength len) :=
  inferInstanceAs (Decidable (_ ∧ _))

/-- Packed lengths are those of a token and any number of pools but zero. -/
theorem isPackedLength_iff {len : Nat} :
    IsPackedLength len ↔ ∃ pools, 1 ≤ pools ∧ len = addressSize + hopSize * pools := by
  show 43 ≤ len ∧ (len - 20) % 23 = 0 ↔ ∃ pools, 1 ≤ pools ∧ len = 20 + 23 * pools
  constructor
  · rintro ⟨hle, hmod⟩
    exact ⟨(len - 20) / 23, by omega, by omega⟩
  · rintro ⟨pools, hpools, rfl⟩
    exact ⟨by omega, by omega⟩

/-- What is told of the bytes of a packed path. -/
def PackedPath.ofBytes (path : Bytes) : PackedPath where
  first := Hex.encode0x (path.take addressSize)
  last := Hex.encode0x (path.drop (path.length - addressSize))
  fee := Hex.encode0x ((path.drop addressSize).take feeSize)
  hops := (path.length - addressSize) / hopSize

/-- A path has room for a token at either end, and for a fee behind the
first. -/
theorem read_ofBytes {path : Bytes} (hlong : addressSize + hopSize ≤ path.length)
    (hfit : path.length < Offset.limit) :
    (do
      let first ← Bytes.readPackedAddress path 0
      let fee ← Bytes.readHexRange path addressSize feeSize
      let last ← Bytes.readPackedAddress path (path.length - addressSize)
      return { first, last, fee, hops := (path.length - addressSize) / hopSize }) =
      (.ok (.ofBytes path) : Decoded PackedPath) := by
  have hlong : 43 ≤ path.length := hlong
  have hfirst : Bytes.slice path 0 addressSize = .ok (path.take addressSize) :=
    Bytes.slice_eq_ok hfit (show 0 + 20 ≤ path.length by omega)
  have hfee : Bytes.slice path addressSize feeSize = .ok ((path.drop addressSize).take feeSize) :=
    Bytes.slice_eq_ok hfit (show 20 + 3 ≤ path.length by omega)
  have hlast : Bytes.slice path (path.length - addressSize) addressSize =
      .ok (path.drop (path.length - addressSize)) := by
    have hcut := Bytes.slice_eq_ok hfit (show path.length - 20 + 20 ≤ path.length by omega)
    rwa [List.take_of_length_le (by rw [List.length_drop]; omega)] at hcut
  simp only [Bytes.readPackedAddress, Bytes.readHexRange, hfirst, hfee, hlast, ok_bind,
    pure_eq_ok]
  rfl

/-- **Reading a packed path** is reading its length, which has to be that of a
packed path, and cutting the path out behind it. -/
theorem readPackedPath_eq (buf : Bytes) (offset : Nat) :
    readPackedPath buf offset =
      Bytes.readOffset buf offset >>= fun len =>
        if IsPackedLength len then
          match Offset.checkedAdd offset wordSize with
          | none => .error (.outOfBounds (.packedPath offset))
          | some start => Bytes.slice buf start len >>= fun path => .ok (.ofBytes path)
        else .error (.malformed (.packedPathLength len)) := by
  rw [readPackedPath]
  cases hread : Bytes.readOffset buf offset with
  | error e => rfl
  | ok len =>
    have hlimit := Bytes.readOffset_lt hread
    rw [ok_bind, ok_bind]
    by_cases hshort : len < addressSize + hopSize
    · have hpacked : ¬ IsPackedLength len := fun h => Nat.not_lt.mpr h.1 hshort
      rw [if_pos hshort, if_neg hpacked]
      rfl
    · have hsub : Offset.sub len addressSize = .ok (len - addressSize) :=
        if_pos (show addressSize ≤ len by omega)
      simp only [if_neg hshort, hsub, ok_bind]
      by_cases hmod : (len - addressSize) % hopSize = 0
      · rw [if_pos (show IsPackedLength len from ⟨by omega, hmod⟩)]
        simp only [hmod, ne_eq, not_true_eq_false, if_false]
        cases Offset.checkedAdd offset wordSize with
        | none => rfl
        | some start =>
          cases hcut : Bytes.slice buf start len with
          | error e => simp only [hcut, error_bind]
          | ok path =>
            have hlen : path.length = len := (Bytes.length_of_slice hcut).2
            have hlong : 43 ≤ path.length := by
              rw [hlen]
              exact Nat.not_lt.mp hshort
            have hread := read_ofBytes hlong (by omega)
            rw [hlen] at hread
            simp only [hcut, ok_bind, hread]
      · have hpacked : ¬ IsPackedLength len := fun h => hmod h.2
        rw [if_neg hpacked]
        simp only [hmod, ne_eq, not_false_eq_true, if_true]
        rfl

end RouterCalldata
