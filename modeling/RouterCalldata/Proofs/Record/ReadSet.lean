import RouterCalldata.Proofs.Bytes.Agreement
import RouterCalldata.Proofs.Record.Layout
import RouterCalldata.Proofs.Record.PackedPath

/-!
# What a layout looks at

A layout looks at the places of its slots, and at those of its path.  The places of the slots are
fixed; those of a path are computed from words of the block, each of which is looked at itself.  So
two blocks of one length that agree in the places computed from the first lead to the same places,
step by step, and to the same fields or the same failure in the end.

Of a path only the two ends and the first fee are looked at.  A packed path is cut out as a whole,
but what is told of it is a function of these three parts and of its length.

## Main definitions

* `Source.span`: the bytes that a slot is read from;
* `tokenPathReads`, `packedPathReads`, `pathTupleReads`: the bytes that a path is read from;
* `PathPlace`, `blockReads`: the bytes that a block is read from, going by the place of its path.

## Main results

* `readTokenPath_congr`, `readPackedPath_congr`, `readTuple_congr`: the parts of a layout;
* `Layout.decode_congr`: blocks that agree where the layout looks are read the same way.
-/

namespace RouterCalldata

open Decoded

variable {buf buf' : Bytes}

/-! ## Slots -/

/-- The bytes that a place is read from. -/
def Source.span : Source → Span
  | uint w => ⟨wordOffset w, wordSize⟩
  | address w => ⟨wordOffset w + 12, addressSize⟩
  | uintRange start len => ⟨start, len⟩

theorem Source.read_congr (hlen : buf'.length = buf.length) {source : Source}
    (h : source.span.cut buf' = source.span.cut buf) : source.read buf' = source.read buf := by
  cases source with
  | uint w => exact Bytes.readUint_congr hlen h
  | address w => exact Bytes.readAddress_congr hlen h
  | uintRange start len => exact Bytes.readUintRange_congr hlen h

theorem readSlots_congr (hlen : buf'.length = buf.length) {slots : List Slot}
    (h : AgreeOn (slots.map fun slot => slot.2.span) buf buf') (fields : SwapFields) :
    readSlots buf' fields slots = readSlots buf fields slots := by
  induction slots generalizing fields with
  | nil => rfl
  | cons slot rest ih =>
    obtain ⟨field, source⟩ := slot
    obtain ⟨hslot, hrest⟩ := AgreeOn.cons_iff.mp h
    rw [readSlots, readSlots, Source.read_congr hlen hslot]
    congr 1
    funext text
    exact ih hrest (fields.set field text)

/-! ## Paths -/

/-- The places that a number leads to, if it can be read. -/
def spansBehind (number : Decoded Nat) (spans : Nat → List Span) : List Span :=
  match number with
  | .ok n => spans n
  | .error _ => []

/-- The bytes that the path is read from whose offset is in the word at `position`: this
word, the length word, and the low bytes of the first and the last token. -/
def tokenPathReads (params : Bytes) (position : Nat) : List Span :=
  ⟨position, wordSize⟩ :: spansBehind (Bytes.readOffset params position) fun offset =>
    ⟨offset, wordSize⟩ :: spansBehind (Bytes.readOffset params offset) fun len =>
      if len < 2 then []
      else [⟨offset + wordSize + 12, addressSize⟩, ⟨offset + len * wordSize + 12, addressSize⟩]

/-- The bytes that the packed path at `offset` is read from: the length word, the first
token with the fee behind it, and the last token. -/
def packedPathReads (buf : Bytes) (offset : Nat) : List Span :=
  ⟨offset, wordSize⟩ :: spansBehind (Bytes.readOffset buf offset) fun len =>
    if IsPackedLength len then
      [⟨offset + wordSize, addressSize⟩, ⟨offset + wordSize + addressSize, feeSize⟩,
        ⟨offset + wordSize + (len - addressSize), addressSize⟩]
    else []

/-- The bytes that a tuple with a packed path and the given words is read from. -/
def tupleReads (words : List Span) (tuple : Bytes) : List Span :=
  ⟨0, wordSize⟩ :: spansBehind (Bytes.readOffset tuple 0) (packedPathReads tuple) ++ words

/-- The bytes that a block with the offset of such a tuple is read from. -/
def pathTupleReads (words : List Span) (params : Bytes) : List Span :=
  ⟨0, wordSize⟩ :: spansBehind (Bytes.readOffset params 0) fun start =>
    (tupleReads words (params.drop start)).map (Span.shift start)

/-- **A word that leads to other places**: if it is among the places where two buffers
agree, it leads to the same places in both. -/
theorem readOffset_bind_congr {α : Type} (hlen : buf'.length = buf.length) {offset : Nat}
    {spans : Nat → List Span} {f f' : Nat → Decoded α}
    (h : AgreeOn (⟨offset, wordSize⟩ :: spansBehind (Bytes.readOffset buf offset) spans) buf buf')
    (hf : ∀ n, AgreeOn (spans n) buf buf' → f' n = f n) :
    Bytes.readOffset buf' offset >>= f' = Bytes.readOffset buf offset >>= f := by
  obtain ⟨hword, hrest⟩ := AgreeOn.cons_iff.mp h
  rw [Bytes.readOffset_congr hlen hword]
  cases hread : Bytes.readOffset buf offset with
  | error e => rfl
  | ok n =>
    rw [hread] at hrest
    exact hf n hrest

theorem readTokenPath_congr (hlen : buf'.length = buf.length) {slot : Nat}
    (h : AgreeOn (tokenPathReads buf (wordOffset slot)) buf buf') :
    readTokenPath buf' slot = readTokenPath buf slot := by
  refine readOffset_bind_congr hlen h fun offset h => readOffset_bind_congr hlen h fun len h => ?_
  by_cases hshort : len < 2
  · simp only [if_pos hshort]
    rfl
  · rw [if_neg hshort] at h
    obtain ⟨hfirst, hlast, -⟩ := And.imp_right AgreeOn.cons_iff.mp (AgreeOn.cons_iff.mp h)
    simp only [if_neg hshort]
    split
    · next first last hfirst? hlast? =>
      obtain rfl := Offset.eq_of_checkedAdd hfirst?
      obtain ⟨words, hwords, hlast?⟩ := Option.bind_eq_some_iff.mp hlast?
      obtain rfl := Offset.eq_of_checkedMul hwords
      obtain rfl := Offset.eq_of_checkedAdd hlast?
      rw [Bytes.readAddress_congr hlen hfirst, Bytes.readAddress_congr hlen hlast]
    · rfl

/-- What is told of a packed path that is cut out are its ends, its first fee and its
length. -/
theorem PackedPath.ofBytes_congr {start len : Nat} (hlong : addressSize + hopSize ≤ len)
    (hend : start + len ≤ buf.length) (hlen : buf'.length = buf.length)
    (h : AgreeOn [⟨start, addressSize⟩, ⟨start + addressSize, feeSize⟩,
      ⟨start + (len - addressSize), addressSize⟩] buf buf') :
    ofBytes (Span.cut ⟨start, len⟩ buf') = ofBytes (Span.cut ⟨start, len⟩ buf) := by
  obtain ⟨hfirst, h⟩ := AgreeOn.cons_iff.mp h
  obtain ⟨hfee, h⟩ := AgreeOn.cons_iff.mp h
  obtain ⟨hlast, -⟩ := AgreeOn.cons_iff.mp h
  have hlong : 43 ≤ len := hlong
  have htail : len - (len - 20) = 20 := by omega
  have hcut {buf : Bytes} (hend : start + len ≤ buf.length) :
      ofBytes (Span.cut ⟨start, len⟩ buf) =
        { first := Hex.encode0x (Span.cut ⟨start, addressSize⟩ buf)
          last := Hex.encode0x (Span.cut ⟨start + (len - addressSize), addressSize⟩ buf)
          fee := Hex.encode0x (Span.cut ⟨start + addressSize, feeSize⟩ buf)
          hops := (len - addressSize) / hopSize } := by
    rw [ofBytes, Span.length_cut hend, Span.take_cut (show 20 ≤ len by omega), Span.drop_cut,
      Span.drop_cut, Span.take_cut (show 3 ≤ len - 20 by omega), htail]
  rw [hcut hend, hcut (by rwa [hlen]), hfirst, hlast, hfee]

theorem readPackedPath_congr (hlen : buf'.length = buf.length) {offset : Nat}
    (h : AgreeOn (packedPathReads buf offset) buf buf') :
    readPackedPath buf' offset = readPackedPath buf offset := by
  rw [readPackedPath_eq, readPackedPath_eq]
  refine readOffset_bind_congr hlen h fun len h => ?_
  by_cases hpacked : IsPackedLength len
  · rw [if_pos hpacked] at h
    rw [if_pos hpacked, if_pos hpacked]
    split
    · rfl
    · next start hstart =>
      obtain rfl := Offset.eq_of_checkedAdd hstart
      refine Bytes.slice_bind_congr hlen fun hend => ?_
      rw [PackedPath.ofBytes_congr hpacked.1 hend hlen h]
  · rw [if_neg hpacked, if_neg hpacked]

theorem readTuple_congr (hlen : buf'.length = buf.length) (order : PathOrder) {slots : List Slot}
    (h : AgreeOn (tupleReads (slots.map fun slot => slot.2.span) buf) buf buf') :
    readTuple order slots buf' = readTuple order slots buf := by
  obtain ⟨hpath, hslots⟩ := AgreeOn.append_iff.mp h
  refine readOffset_bind_congr hlen hpath fun offset h => ?_
  rw [readPackedPath_congr hlen h]
  congr 1
  funext path
  exact readSlots_congr hlen hslots (path.fields order)

/-! ## Layouts -/

/-- Where the path of a block is found. -/
inductive PathPlace
  /-- There is none. -/
  | nowhere
  /-- At the offset in the word at a position. -/
  | array (position : Nat)
  /-- In a tuple. -/
  | tuple
  deriving DecidableEq, Repr

/-- The bytes that a block is read from, with the given words. -/
def blockReads (place : PathPlace) (words : List Span) (params : Bytes) : List Span :=
  match place with
  | .nowhere => words
  | .array position => tokenPathReads params position ++ words
  | .tuple => pathTupleReads words params

theorem blockReads_subset {words words' : List Span} (h : words ⊆ words') (place : PathPlace)
    (params : Bytes) : blockReads place words params ⊆ blockReads place words' params := by
  have happend (spans : List Span) : spans ++ words ⊆ spans ++ words' :=
    List.append_subset.mpr
      ⟨List.subset_append_left _ _, List.subset_append_of_subset_right _ h⟩
  cases place with
  | nowhere => exact h
  | array position => exact happend _
  | tuple =>
    refine List.cons_subset_cons _ ?_
    cases Bytes.readOffset params 0 with
    | error e => exact List.Subset.refl _
    | ok start => exact List.map_subset _ (happend _)

/-- Where the path of a layout is found. -/
def Layout.pathPlace : Layout → PathPlace
  | fixed _ | calls => .nowhere
  | tokenPath slot _ => .array (wordOffset slot)
  | packedPath _ _ => .tuple

/-- **Blocks that agree where a layout looks are read the same way**, to the same fields
or to the same failure. -/
theorem Layout.decode_congr (hlen : buf'.length = buf.length) (method : String) {layout : Layout}
    (h : AgreeOn (blockReads layout.pathPlace (layout.slots.map fun slot => slot.2.span) buf)
      buf buf') : layout.decode method buf' = layout.decode method buf := by
  cases layout with
  | fixed slots => exact readSlots_congr hlen h .empty
  | tokenPath slot slots =>
    obtain ⟨hpath, hslots⟩ := AgreeOn.append_iff.mp h
    rw [Layout.decode, Layout.decode, readTokenPath_congr hlen hpath]
    congr 1
    funext ends
    exact readSlots_congr hlen hslots _
  | packedPath order slots =>
    rw [decode_packedPath, decode_packedPath]
    refine readOffset_bind_congr hlen h fun start h => ?_
    rw [hlen]
    split
    · rfl
    · refine readTuple_congr ?_ order h.drop
      rw [List.length_drop, List.length_drop, hlen]
  | calls => rfl

end RouterCalldata
