import RouterCalldata.Proofs.Record.Layout
import RouterCalldata.Proofs.Record.PackedPath

/-!
# Layouts without faults

The readers and the layouts never leave their range where no check guards them.  The one subtraction
in a reader is that of a width that was tested before, and the one in a packed path that of a length
that was tested before; all positions that come from the data are checked.

What is shown is a little more: every failure of a reader is one of what it finds in the buffer.  A
layout has one other, that of an array of calls, which has no fields to be read.

The positions of words are not checked, but reduced to 64 bits.  They are fixed by the layout, so
whether this shows can be seen from the layout alone.

## Main definitions

* `Decoded.Faultless`: a reading without faults;
* `Decoded.Checked`: a reading whose failures are all found in the buffer;
* `Layout.positions`: the fixed positions of a layout.

## Main results

* `Bytes.checked_readUintRange`, `Bytes.checked_readSelector`: the readers that rely on a length;
* `checked_readTokenPath`, `checked_readPackedPath`, `Layout.checked_decode`: the layouts.
-/

namespace RouterCalldata

open Decoded DecodeError

/-- The reading gives a result or is refused, but never leaves its range. -/
abbrev Decoded.Faultless {α : Type} (r : Decoded α) : Prop := FailsOnly (¬ ·.IsFault) r

/-- The reading gives a result, or the buffer does not hold what it looks for. -/
abbrev Decoded.Checked {α : Type} (r : Decoded α) : Prop := FailsOnly IsUnreadable r

theorem Decoded.Checked.faultless {α : Type} {r : Decoded α} (h : Checked r) : Faultless r :=
  h.mono fun _ he => he.not_isFault

/-- What looks at positions only finds nothing but what is in the buffer. -/
theorem Decoded.FailsOnly.checked {α : Type} {r : Decoded α} (h : FailsOnly IsCut r) :
    Checked r :=
  h.mono fun _ he => he.isUnreadable

/-! ## Readers -/

namespace Bytes

variable (buf : Bytes)

theorem isCut_slice (start len : Nat) : FailsOnly IsCut (slice buf start len) := by
  rw [slice]
  split
  · exact .error (Or.inr trivial)
  · split
    · exact .ok _
    · exact .error (Or.inl trivial)

theorem isCut_readUint (offset : Nat) : FailsOnly IsCut (readUint buf offset) :=
  (isCut_slice buf offset wordSize).bind fun _ _ => .ok _

theorem isCut_readAddress (offset : Nat) : FailsOnly IsCut (readAddress buf offset) :=
  (isCut_slice buf offset wordSize).bind fun _ _ => .ok _

theorem isCut_readOffset (offset : Nat) : FailsOnly IsCut (readOffset buf offset) := by
  refine (isCut_slice buf offset wordSize).bind fun w _ => ?_
  split
  · exact .error (Or.inr trivial)
  · exact .ok _

theorem checked_slice (start len : Nat) : Checked (slice buf start len) :=
  (isCut_slice buf start len).checked

theorem checked_readUint (offset : Nat) : Checked (readUint buf offset) :=
  (isCut_readUint buf offset).checked

theorem checked_readAddress (offset : Nat) : Checked (readAddress buf offset) :=
  (isCut_readAddress buf offset).checked

theorem checked_readOffset (offset : Nat) : Checked (readOffset buf offset) :=
  (isCut_readOffset buf offset).checked

/-- The width has been tested, so that filling the bytes up to a word takes
nothing away. -/
theorem checked_readUintRange (start len : Nat) : Checked (readUintRange buf start len) := by
  rw [readUintRange]
  split
  · exact .error trivial
  · next hnarrow =>
    refine (checked_slice buf start len).bind fun bytes hbytes => ?_
    have hlen : bytes.length ≤ wordSize := by
      rw [(length_of_slice hbytes).2]
      exact Nat.not_lt.mp hnarrow
    rw [padWord_eq_ok hlen, ok_bind]
    exact .ok _

/-- Four bytes that have been cut out are a selector. -/
theorem checked_readSelector : Checked (readSelector buf) := by
  refine (checked_slice buf 0 4).bind fun head hhead => ?_
  have hsome := (Selector.isSome_ofBytes?_iff head).mpr (length_of_slice hhead).2
  obtain ⟨s, hs⟩ := Option.isSome_iff_exists.mp hsome
  rw [hs]
  exact .ok _

end Bytes

/-! ## Layouts -/

variable (buf : Bytes)

theorem Source.checked_read (source : Source) : Checked (source.read buf) := by
  cases source with
  | uint w => exact Bytes.checked_readUint buf _
  | address w => exact Bytes.checked_readAddress buf _
  | uintRange start len => exact Bytes.checked_readUintRange buf start len

theorem checked_readSlots (fields : SwapFields) (slots : List Slot) :
    Checked (readSlots buf fields slots) := by
  induction slots generalizing fields with
  | nil => exact .ok _
  | cons slot rest ih =>
    obtain ⟨field, source⟩ := slot
    exact (source.checked_read buf).bind fun text _ => ih (fields.set field text)

theorem checked_readTokenPath (slot : Nat) : Checked (readTokenPath buf slot) := by
  refine (Bytes.checked_readOffset buf _).bind fun offset _ => ?_
  refine (Bytes.checked_readOffset buf _).bind fun len _ => ?_
  split
  · exact .error trivial
  · dsimp only
    split
    · refine (Bytes.checked_readAddress buf _).bind fun start _ => ?_
      exact (Bytes.checked_readAddress buf _).bind fun stop _ => .ok _
    · exact .error trivial

theorem checked_readPackedPath (offset : Nat) : Checked (readPackedPath buf offset) := by
  rw [readPackedPath_eq]
  refine (Bytes.checked_readOffset buf _).bind fun len _ => ?_
  split
  · split
    · exact .error trivial
    · exact (Bytes.checked_slice buf _ len).bind fun path _ => .ok _
  · exact .error trivial

/-- **A layout with fields fails only by what the block holds.** -/
theorem Layout.checked_decode (method : String) {layout : Layout} (h : layout ≠ .calls) :
    Checked (layout.decode method buf) := by
  cases layout with
  | fixed slots => exact checked_readSlots buf .empty slots
  | tokenPath slot slots =>
    exact (checked_readTokenPath buf slot).bind fun ends _ => checked_readSlots buf _ slots
  | packedPath order slots =>
    rw [decode_packedPath]
    refine (Bytes.checked_readOffset buf _).bind fun start _ => ?_
    split
    · exact .error trivial
    · refine (Bytes.checked_readOffset _ _).bind fun offset _ => ?_
      refine (checked_readPackedPath _ offset).bind fun path _ => ?_
      exact checked_readSlots _ (path.fields order) slots
  | calls => exact absurd rfl h

/-- **A layout never faults**, whatever the block holds. -/
theorem Layout.faultless_decode (method : String) (layout : Layout) :
    Faultless (layout.decode method buf) := by
  by_cases h : layout = .calls
  · subst h
    exact .error not_false
  · exact (layout.checked_decode buf method h).faultless

/-! ## Positions of words -/

/-- The position that a source is read from, before it is reduced. -/
def Source.position : Source → Nat
  | uint w | address w => w * wordSize
  | uintRange start _ => start

/-- The positions that a layout knows without reading the block, before they
are reduced. -/
def Layout.positions (layout : Layout) : List Nat :=
  pathPosition.toList ++ layout.slots.map fun slot => slot.2.position
where
  /-- The position of the word that leads to the path, if there is one. -/
  pathPosition : Option Nat :=
    match layout with
    | tokenPath slot _ => some (slot * wordSize)
    | packedPath .. => some 0
    | fixed _ | calls => none

end RouterCalldata
