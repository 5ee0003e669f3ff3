import RouterCalldata.Proofs.Multicall.Table
import RouterCalldata.Proofs.Record.Faultless

/-!
# Splitting without faults

Splitting a block adds and multiplies positions without a check, takes a length word away from the
length of a region, and cuts where it has not looked.  Each of these steps relies on one before it.
Where the number of calls has been read, the position behind it lies in the block; where the number
has been compared with the room, so does the table of offsets; where the ends of a region have been
compared, the cut is in range; and where the length of a call has been read, its region has room
for it.  The end of a call is compared with that of its region, so it is in range as well.

All of this needs that the length of the block is a number of 64 bits, and nothing else.  A block
that were longer could make a sum of positions fault; all other failures are found in the block.

## Main definitions

* `CheckedIn`: a reading that can only fault for a block beyond 64 bits.

## Main results

* `checkedIn_readCount`, `checkedIn_readTable`, `checked_elements`: the three steps;
* `checkedIn_split`, `faultless_split`: splitting never leaves its range.
-/

namespace RouterCalldata.Multicall

open Decoded DecodeError

variable {params : Bytes}

/-- The reading gives a result or fails by what the block holds, unless the length
of the block is no number of 64 bits. -/
abbrev CheckedIn {α : Type} (params : Bytes) (r : Decoded α) : Prop :=
  FailsOnly (fun e => e.IsUnreadable ∨ e.IsFault ∧ Offset.limit ≤ params.length) r

theorem CheckedIn.of_checked {α : Type} {r : Decoded α} (h : Checked r) : CheckedIn params r :=
  h.mono fun _ => Or.inl

/-- A position in the block is a number of 64 bits, if the length of the block is
one. -/
theorem checkedIn_add {a b : Nat} (h : a + b ≤ params.length) :
    CheckedIn params (Offset.add a b) := by
  rw [Offset.add]
  split
  · exact .ok _
  · next hbig => exact .error (Or.inr ⟨trivial, Nat.le_trans (Nat.not_lt.mp hbig) h⟩)

theorem checkedIn_mul {a b : Nat} (h : a * b ≤ params.length) :
    CheckedIn params (Offset.mul a b) := by
  rw [Offset.mul]
  split
  · exact .ok _
  · next hbig => exact .error (Or.inr ⟨trivial, Nat.le_trans (Nat.not_lt.mp hbig) h⟩)

theorem checkedIn_readOffset (offset : Nat) : CheckedIn params (Bytes.readOffset params offset) :=
  .of_checked (Bytes.checked_readOffset params offset)

/-! ## The table -/

theorem checkedIn_readCount (headWord : Nat) : CheckedIn params (readCount params headWord) := by
  refine (checkedIn_readOffset _).bind fun arrayOffset _ => ?_
  split
  · exact .error (Or.inl trivial)
  · refine (checkedIn_readOffset _).bind fun count hcount => ?_
    have hend : arrayOffset + wordSize ≤ params.length := by
      have hle := (Bytes.holdsAt_of_readOffset hcount).length_le
      rwa [(Word.ofNat count).length_bytes] at hle
    refine (checkedIn_add hend).bind fun base _ => ?_
    split
    · exact .error (Or.inl trivial)
    · exact .ok _

theorem checkedIn_readTable {base count : Nat} (hroom : base + wordSize * count ≤ params.length) :
    CheckedIn params (readTable params base count) := by
  refine FailsOnly.mapM fun i hi => ?_
  have hlt := List.mem_range.mp hi
  have hroom : base + 32 * count ≤ params.length := hroom
  refine (checkedIn_mul (show i * 32 ≤ params.length by omega)).bind fun product hproduct => ?_
  obtain rfl := Offset.eq_of_mul hproduct
  refine (checkedIn_add (show base + i * 32 ≤ params.length by omega)).bind fun position _ => ?_
  exact checkedIn_readOffset position

/-! ## The calls -/

theorem checked_readCall (index : Nat) (region : Bytes) : Checked (readCall index region) := by
  refine (Bytes.checked_readOffset region 0).bind fun len _ => ?_
  split
  · exact .error trivial
  · exact .ok _

theorem checked_element (index : Nat) (start? stop? : Option Nat) :
    Checked (element params index start? stop?) := by
  rcases start? with _ | start
  · exact .error trivial
  · rcases stop? with _ | stop
    · exact .error trivial
    · rw [element_eq]
      split
      · exact checked_readCall index _
      · exact .error trivial

theorem checked_elements (base index : Nat) (offsets : List Nat) :
    Checked (elements params base index offsets) := by
  induction offsets generalizing index with
  | nil => exact .ok _
  | cons offset rest ih =>
    exact (checked_element index _ _).bind fun call _ => (ih (index + 1)).bind fun _ _ => .ok _

/-- **Splitting fails only by what the block holds**, unless the length of the block
is no number of 64 bits. -/
theorem checkedIn_split (params : Bytes) (headWord : Nat) :
    CheckedIn params (split params headWord) := by
  rw [split_eq]
  refine (checkedIn_readCount headWord).bind fun ⟨base, count⟩ hcount => ?_
  obtain ⟨-, -, -, hroom⟩ := of_readCount hcount
  refine (checkedIn_readTable hroom).bind fun offsets _ => ?_
  exact CheckedIn.of_checked (checked_elements base 0 offsets)

/-- **Splitting never leaves its range**, whatever the block holds. -/
theorem faultless_split (hfit : params.length < Offset.limit) (headWord : Nat) :
    Faultless (split params headWord) := by
  refine (checkedIn_split params headWord).mono fun e he => ?_
  rcases he with he | ⟨-, hbig⟩
  · exact he.not_isFault
  · exact absurd hfit (Nat.not_lt.mpr hbig)

end RouterCalldata.Multicall
