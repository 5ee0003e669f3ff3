import Mathlib.Tactic.MkIffOfInductiveProp
import RouterCalldata.Proofs.Bytes.NumberAt
import RouterCalldata.Proofs.Record.Faultless
import RouterCalldata.Proofs.Record.ReadSet

/-!
# What a layout asks of a block

A slot has its place whatever the block holds, so slots are read exactly if the block is long
enough for all of them.  All else that a layout asks of a block it asks of the path: words that
lead to it, a length that a path can have, and room for a path of this length.

Of a path no more than the ends are read.  That the block has room for all of it follows, since the
last token stands behind all others.  The positions of the ends are checked sums and products of
64 bits, but where one of these is missing the exact position is behind the end of every block.

A length that no path has is a fault of the layout.  It is the only one: all other failures are
those of a place that is not in the block.

## Main definitions

* `Source.region`, `Source.textOf`: the bytes cut out for a place, and the text made of them;
* `IsTokenPath`, `IsPackedPath`: the block has room for an array of tokens, or for a packed path;
* `tokenEnds`, `packedEnds`: what is told of them;
* `slotsStop`: the end of the last slot.

## Main results

* `Source.read_eq_map`, `Source.accepts_iff`, `readSlots_accepts_iff`: slots;
* `readTokenPath_eq_ok_iff`, `readTokenPath_eq_malformed_iff`: arrays of tokens;
* `readPackedPath_eq_ok_iff`, `readPackedPath_eq_malformed_iff`: packed paths;
* `Layout.tokenPath_accepts_iff`, `Layout.packedPath_accepts_iff`: the layouts with a path.
-/

namespace RouterCalldata

open Decoded

variable {buf : Bytes}

/-! ## Slots -/

/-- The place is no wider than a word. -/
def Source.IsNarrow : Source → Prop
  | uint _ | address _ => True
  | uintRange _ len => len ≤ wordSize

instance : (source : Source) → Decidable source.IsNarrow
  | .uint _ | .address _ => inferInstanceAs (Decidable True)
  | .uintRange _ len => inferInstanceAs (Decidable (len ≤ wordSize))

/-- The bytes that are cut out for a place.  For an address these are its whole word. -/
def Source.region : Source → Span
  | uint w | address w => ⟨wordOffset w, wordSize⟩
  | uintRange start len => ⟨start, len⟩

/-- The text that is made of the bytes cut out for a place. -/
def Source.textOf : Source → Bytes → String
  | uint _, bs | uintRange _ _, bs => Bytes.decimal bs
  | address _, bs => Hex.encode0x (bs.drop (wordSize - addressSize))

/-- What is left of the word of an address ends with it. -/
theorem Source.stop_region (source : Source) : source.region.stop = source.span.stop := by
  cases source with
  | uint w => rfl
  | address w => simp only [region, span, Span.stop, addressSize, wordSize]
  | uintRange start len => rfl

/-- **A place is cut out, and a text is made of the bytes.**  Only the cut can fail. -/
theorem Source.read_eq_map {source : Source} (hnarrow : source.IsNarrow) :
    source.read buf =
      (Bytes.slice buf source.region.start source.region.len).map source.textOf := by
  cases source with
  | uint w => rfl
  | address w => rfl
  | uintRange start len =>
    rw [read, Bytes.readUintRange, if_neg (Nat.not_lt.mpr hnarrow)]
    show Bytes.slice buf start len >>= _ = (Bytes.slice buf start len).map _
    cases hcut : Bytes.slice buf start len with
    | error e => rfl
    | ok bs =>
      have hlen : bs.length ≤ wordSize :=
        Nat.le_trans (Nat.le_of_eq (Bytes.length_of_slice hcut).2) hnarrow
      rw [ok_bind, Bytes.padWord_eq_ok hlen, ok_bind, pure_eq_ok, map_ok, textOf, Bytes.decimal,
        Bytes.decimal, Bytes.toNat_replicate_append]

/-- **A place is read from every block that reaches its end.** -/
theorem Source.accepts_iff (hfit : buf.length < Offset.limit) {source : Source}
    (hnarrow : source.IsNarrow) :
    (∃ text, source.read buf = .ok text) ↔ source.span.stop ≤ buf.length := by
  rw [read_eq_map hnarrow, ← stop_region]
  constructor
  · rintro ⟨text, h⟩
    obtain ⟨bs, hbs, -⟩ := map_eq_ok_iff.mp h
    exact (Bytes.length_of_slice hbs).1
  · intro hle
    rw [(Bytes.slice_eq_ok_iff hfit).mpr ⟨hle, rfl⟩]
    exact ⟨_, rfl⟩

/-- A place that is no wider than a word fails only by being cut. -/
theorem Source.isCut_read {source : Source} (hnarrow : source.IsNarrow) :
    FailsOnly DecodeError.IsCut (source.read buf) := by
  intro e he
  rw [read_eq_map hnarrow, map_eq_error_iff] at he
  exact Bytes.isCut_slice buf _ _ e he

/-- The end of the last place that slots are read from. -/
def slotsStop (slots : List Slot) : Nat :=
  (slots.map fun slot => slot.2.span.stop).foldr max 0

section Slots

variable {slots : List Slot} (hnarrow : ∀ slot ∈ slots, slot.2.IsNarrow)

include hnarrow

/-- **Slots are read from every block that reaches the end of the last one.** -/
theorem readSlots_accepts_iff (hfit : buf.length < Offset.limit) (fields : SwapFields) :
    (∃ result, readSlots buf fields slots = .ok result) ↔ slotsStop slots ≤ buf.length := by
  induction slots generalizing fields with
  | nil => exact ⟨fun _ => Nat.zero_le _, fun _ => ⟨fields, rfl⟩⟩
  | cons slot rest ih =>
    obtain ⟨field, source⟩ := slot
    obtain ⟨hsource, hrest⟩ := List.forall_mem_cons.mp hnarrow
    have hstops : slotsStop ((field, source) :: rest) ≤ buf.length ↔
        source.span.stop ≤ buf.length ∧ slotsStop rest ≤ buf.length := Nat.max_le
    rw [hstops]
    constructor
    · rintro ⟨result, h⟩
      obtain ⟨text, hread, h⟩ := bind_eq_ok_iff.mp h
      exact ⟨(Source.accepts_iff hfit hsource).mp ⟨text, hread⟩, (ih hrest _).mp ⟨result, h⟩⟩
    · rintro ⟨hstop, hstop'⟩
      obtain ⟨text, hread⟩ := (Source.accepts_iff hfit hsource).mpr hstop
      rw [readSlots, hread, ok_bind]
      exact (ih hrest _).mpr hstop'

theorem isCut_readSlots (fields : SwapFields) :
    FailsOnly DecodeError.IsCut (readSlots buf fields slots) := by
  induction slots generalizing fields with
  | nil => exact .ok _
  | cons slot rest ih =>
    obtain ⟨field, source⟩ := slot
    obtain ⟨hsource, hrest⟩ := List.forall_mem_cons.mp hnarrow
    exact (Source.isCut_read hsource).bind fun text _ => ih hrest (fields.set field text)

end Slots

/-! ## Arrays of tokens -/

/-- The word `slot` of the block leads to an array of at least two tokens, and the block
has all of it. -/
@[mk_iff] structure IsTokenPath (params : Bytes) (slot offset len : Nat) : Prop where
  offset_eq : params.numberAt? (wordSize * slot) = some offset
  offset_lt : offset < Offset.limit
  len_eq : params.numberAt? offset = some len
  two_le : 2 ≤ len
  len_lt : len < Offset.limit
  stop_le : offset + wordSize + wordSize * len ≤ params.length

instance (params : Bytes) (slot offset len : Nat) :
    Decidable (IsTokenPath params slot offset len) :=
  decidable_of_iff' _ (isTokenPath_iff params slot offset len)

/-- The first and the last token of the array with the length word at `offset`. -/
def tokenEnds (params : Bytes) (offset len : Nat) : String × String :=
  (params.addressText (offset + wordSize), params.addressText (offset + wordSize * len))

/-- Reads the ends of an array of tokens whose length is known. -/
def readTokenEnds (params : Bytes) (offset len : Nat) : Decoded (String × String) :=
  match Offset.checkedAdd offset wordSize,
    (Offset.checkedMul len wordSize).bind (Offset.checkedAdd offset) with
  | some first, some last => do
      let start ← Bytes.readAddress params first
      let stop ← Bytes.readAddress params last
      return (start, stop)
  | _, _ => .error (.outOfBounds (.path len offset))

variable {params : Bytes} {slot offset len : Nat}

/-- Reading a path is reading its length, which has to be that of a path, and its ends. -/
theorem readTokenPath_eq (params : Bytes) (slot : Nat) :
    readTokenPath params slot =
      Bytes.readOffset params (wordOffset slot) >>= fun offset =>
        Bytes.readOffset params offset >>= fun len =>
          if len < 2 then .error (.malformed (.shortPath len))
          else readTokenEnds params offset len := rfl

/-- **The ends are read** exactly if the block has all of the array. -/
theorem readTokenEnds_eq_ok_iff (hfit : params.length < Offset.limit) (hlen : 2 ≤ len)
    {ends : String × String} :
    readTokenEnds params offset len = .ok ends ↔
      offset + wordSize + wordSize * len ≤ params.length ∧
        ends = tokenEnds params offset len := by
  rw [tokenEnds, Nat.mul_comm wordSize len]
  constructor
  · intro h
    rw [readTokenEnds] at h
    split at h
    · next first last hfirst hlast =>
      obtain rfl := Offset.eq_of_checkedAdd hfirst
      obtain ⟨size, hsize, hlast⟩ := Option.bind_eq_some_iff.mp hlast
      obtain rfl := Offset.eq_of_checkedMul hsize
      obtain rfl := Offset.eq_of_checkedAdd hlast
      obtain ⟨start, hstart, h⟩ := bind_eq_ok_iff.mp h
      obtain ⟨stop, hstop, h⟩ := bind_eq_ok_iff.mp h
      obtain rfl := Except.ok.inj h
      obtain ⟨-, rfl⟩ := (Bytes.readAddress_eq_ok_iff hfit).mp hstart
      obtain ⟨hroom, rfl⟩ := (Bytes.readAddress_eq_ok_iff hfit).mp hstop
      exact ⟨by omega, rfl⟩
    · cases h
  · rintro ⟨hroom, rfl⟩
    have hroom : offset + 32 + len * 32 ≤ params.length := hroom
    have hfirst : Offset.checkedAdd offset wordSize = some (offset + wordSize) :=
      if_pos (show offset + 32 < Offset.limit by omega)
    have hsize : Offset.checkedMul len wordSize = some (len * wordSize) :=
      if_pos (show len * 32 < Offset.limit by omega)
    have hlast : Offset.checkedAdd offset (len * wordSize) = some (offset + len * wordSize) :=
      if_pos (show offset + len * 32 < Offset.limit by omega)
    have hstart := (Bytes.readAddress_eq_ok_iff hfit).mpr
      ⟨show offset + 32 + 32 ≤ params.length by omega, rfl⟩
    have hstop := (Bytes.readAddress_eq_ok_iff hfit).mpr
      ⟨show offset + len * 32 + 32 ≤ params.length by omega, rfl⟩
    simp only [readTokenEnds, hfirst, hsize, Option.bind_some, hlast, hstart, hstop, ok_bind,
      pure_eq_ok]

theorem isCut_readTokenEnds (params : Bytes) (offset len : Nat) :
    FailsOnly DecodeError.IsCut (readTokenEnds params offset len) := by
  rw [readTokenEnds]
  split
  · refine (Bytes.isCut_readAddress params _).bind fun _ _ => ?_
    exact (Bytes.isCut_readAddress params _).bind fun _ _ => .ok _
  · exact .error (Or.inr trivial)

/-- **A path is read exactly if the block has one.** -/
theorem readTokenPath_eq_ok_iff (hfit : params.length < Offset.limit)
    (hslot : wordSize * slot < Offset.limit) {ends : String × String} :
    readTokenPath params slot = .ok ends ↔
      ∃ offset len, IsTokenPath params slot offset len ∧ ends = tokenEnds params offset len := by
  rw [readTokenPath_eq, Bytes.wordOffset_eq_mul hslot]
  constructor
  · intro h
    obtain ⟨offset, hoffset, h⟩ := bind_eq_ok_iff.mp h
    obtain ⟨len, hlen, h⟩ := bind_eq_ok_iff.mp h
    obtain ⟨hoffset, hoffset'⟩ := (Bytes.readOffset_eq_ok_iff hfit).mp hoffset
    obtain ⟨hlen, hlen'⟩ := (Bytes.readOffset_eq_ok_iff hfit).mp hlen
    split at h
    · cases h
    · next hshort =>
      have htwo := Nat.not_lt.mp hshort
      obtain ⟨hroom, rfl⟩ := (readTokenEnds_eq_ok_iff hfit htwo).mp h
      exact ⟨offset, len, ⟨hoffset, hoffset', hlen, htwo, hlen', hroom⟩, rfl⟩
  · rintro ⟨offset, len, ⟨hoffset, hoffset', hlen, htwo, hlen', hroom⟩, rfl⟩
    rw [(Bytes.readOffset_eq_ok_iff hfit).mpr ⟨hoffset, hoffset'⟩, ok_bind,
      (Bytes.readOffset_eq_ok_iff hfit).mpr ⟨hlen, hlen'⟩, ok_bind, if_neg (Nat.not_lt.mpr htwo)]
    exact (readTokenEnds_eq_ok_iff hfit htwo).mpr ⟨hroom, rfl⟩

/-- **A path is a fault of the layout** exactly if it can be told to be too short. -/
theorem readTokenPath_eq_malformed_iff (hfit : params.length < Offset.limit)
    (hslot : wordSize * slot < Offset.limit) {cause : LayoutCause} :
    readTokenPath params slot = .error (.malformed cause) ↔
      ∃ offset len, params.numberAt? (wordSize * slot) = some offset ∧ offset < Offset.limit ∧
        params.numberAt? offset = some len ∧ len < 2 ∧ cause = .shortPath len := by
  rw [readTokenPath_eq, Bytes.wordOffset_eq_mul hslot,
    bind_eq_malformed_iff (Bytes.isCut_readOffset params _)]
  constructor
  · rintro ⟨offset, hoffset, h⟩
    obtain ⟨len, hlen, h⟩ := (bind_eq_malformed_iff (Bytes.isCut_readOffset params _)).mp h
    obtain ⟨hoffset, hoffset'⟩ := (Bytes.readOffset_eq_ok_iff hfit).mp hoffset
    obtain ⟨hlen, -⟩ := (Bytes.readOffset_eq_ok_iff hfit).mp hlen
    split at h
    · next hshort =>
      cases h
      exact ⟨offset, len, hoffset, hoffset', hlen, hshort, rfl⟩
    · exact absurd (isCut_readTokenEnds params offset len _ h)
        (DecodeError.not_isCut_malformed cause)
  · rintro ⟨offset, len, hoffset, hoffset', hlen, hshort, rfl⟩
    have hlen' : len < Offset.limit := Nat.lt_trans hshort (by decide)
    refine ⟨offset, (Bytes.readOffset_eq_ok_iff hfit).mpr ⟨hoffset, hoffset'⟩, ?_⟩
    rw [(Bytes.readOffset_eq_ok_iff hfit).mpr ⟨hlen, hlen'⟩, ok_bind, if_pos hshort]

/-! ## Packed paths -/

/-- The buffer has a packed path through `pools ≥ 1` pools, behind its length at `offset`. -/
@[mk_iff] structure IsPackedPath (buf : Bytes) (offset pools : Nat) : Prop where
  one_le : 1 ≤ pools
  len_eq : buf.numberAt? offset = some (addressSize + hopSize * pools)
  stop_le : offset + wordSize + (addressSize + hopSize * pools) ≤ buf.length

instance (buf : Bytes) (offset pools : Nat) : Decidable (IsPackedPath buf offset pools) :=
  decidable_of_iff' _ (isPackedPath_iff buf offset pools)

/-- What is told of the packed path with the length word at `offset`: its first and its
last token, the fee behind the first, and the number of its pools. -/
def packedEnds (buf : Bytes) (offset pools : Nat) : PackedPath where
  first := hexText (Span.cut ⟨offset + wordSize, addressSize⟩ buf)
  last := hexText (Span.cut ⟨offset + wordSize + hopSize * pools, addressSize⟩ buf)
  fee := hexText (Span.cut ⟨offset + wordSize + addressSize, feeSize⟩ buf)
  hops := pools

/-- What is told of a path that is cut out is told of the buffer it was cut from. -/
theorem PackedPath.ofBytes_cut {buf : Bytes} {offset pools : Nat} (hpools : 1 ≤ pools)
    (hroom : offset + wordSize + (addressSize + hopSize * pools) ≤ buf.length) :
    ofBytes (Span.cut ⟨offset + wordSize, addressSize + hopSize * pools⟩ buf) =
      packedEnds buf offset pools := by
  have hlast : addressSize + hopSize * pools - addressSize = hopSize * pools :=
    Nat.add_sub_cancel_left _ _
  have hhops : hopSize * pools / hopSize = pools := Nat.mul_div_cancel_left pools (by decide)
  have htail : addressSize + hopSize * pools - hopSize * pools = addressSize :=
    Nat.add_sub_cancel _ _
  simp only [ofBytes, packedEnds, Span.length_cut hroom, hlast, hhops, Span.drop_cut, htail,
    encode0x_eq_hexText]
  have hfee : feeSize ≤ hopSize * pools := show 3 ≤ 23 * pools by omega
  rw [Span.take_cut (Nat.le_add_right _ _), Span.take_cut hfee]

variable {path : PackedPath}

/-- **A packed path is read exactly if the buffer has one.** -/
theorem readPackedPath_eq_ok_iff (hfit : buf.length < Offset.limit) {offset : Nat} :
    readPackedPath buf offset = .ok path ↔
      ∃ pools, IsPackedPath buf offset pools ∧ path = packedEnds buf offset pools := by
  rw [readPackedPath_eq]
  constructor
  · intro h
    obtain ⟨len, hlen, h⟩ := bind_eq_ok_iff.mp h
    split at h
    · next hpacked =>
      obtain ⟨pools, hpools, rfl⟩ := isPackedLength_iff.mp hpacked
      split at h
      · cases h
      · next start hstart =>
        obtain rfl := Offset.eq_of_checkedAdd hstart
        obtain ⟨bs, hbs, h⟩ := bind_eq_ok_iff.mp h
        obtain ⟨hroom, rfl⟩ := (Bytes.slice_eq_ok_iff hfit).mp hbs
        obtain rfl := Except.ok.inj h
        have hlen := ((Bytes.readOffset_eq_ok_iff hfit).mp hlen).1
        exact ⟨pools, ⟨hpools, hlen, hroom⟩, PackedPath.ofBytes_cut hpools hroom⟩
    · cases h
  · rintro ⟨pools, ⟨hpools, hlen, hroom⟩, rfl⟩
    have hroom' : offset + 32 + (20 + 23 * pools) ≤ buf.length := hroom
    have hread := (Bytes.readOffset_eq_ok_iff hfit).mpr
      ⟨hlen, show 20 + 23 * pools < Offset.limit by omega⟩
    have hstart : Offset.checkedAdd offset wordSize = some (offset + wordSize) :=
      if_pos (show offset + 32 < Offset.limit by omega)
    have hcut := (Bytes.slice_eq_ok_iff hfit).mpr ⟨hroom, rfl⟩
    simp only [hread, ok_bind, if_pos (isPackedLength_iff.mpr ⟨pools, hpools, rfl⟩), hstart, hcut]
    rw [PackedPath.ofBytes_cut hpools hroom]

/-- **A packed path is a fault of the layout** exactly if its length can be told to be that of
no packed path, whether or not the buffer has as many bytes. -/
theorem readPackedPath_eq_malformed_iff (hfit : buf.length < Offset.limit) {offset : Nat}
    {cause : LayoutCause} :
    readPackedPath buf offset = .error (.malformed cause) ↔
      ∃ len, buf.numberAt? offset = some len ∧ len < Offset.limit ∧
        (¬ ∃ pools, 1 ≤ pools ∧ len = addressSize + hopSize * pools) ∧
        cause = .packedPathLength len := by
  rw [readPackedPath_eq, bind_eq_malformed_iff (Bytes.isCut_readOffset buf offset)]
  simp only [← isPackedLength_iff]
  constructor
  · rintro ⟨len, hlen, h⟩
    obtain ⟨hlen, hlen'⟩ := (Bytes.readOffset_eq_ok_iff hfit).mp hlen
    split at h
    · split at h
      · cases h
      · next start hstart =>
        obtain ⟨bs, -, h⟩ := (bind_eq_malformed_iff (Bytes.isCut_slice buf start len)).mp h
        cases h
    · next hpacked =>
      cases h
      exact ⟨len, hlen, hlen', hpacked, rfl⟩
  · rintro ⟨len, hlen, hlen', hpacked, rfl⟩
    exact ⟨len, (Bytes.readOffset_eq_ok_iff hfit).mpr ⟨hlen, hlen'⟩, if_neg hpacked⟩

/-! ## Layouts -/

section Layouts

variable {slots : List Slot} (hnarrow : ∀ slot ∈ slots, slot.2.IsNarrow) (method : String)

include hnarrow

/-- **A block with an array of tokens** is read exactly if it has the array and the slots. -/
theorem Layout.tokenPath_accepts_iff (hfit : params.length < Offset.limit)
    (hslot : wordSize * slot < Offset.limit) :
    (∃ fields, (tokenPath slot slots).decode method params = .ok fields) ↔
      (∃ offset len, IsTokenPath params slot offset len) ∧ slotsStop slots ≤ params.length := by
  constructor
  · rintro ⟨fields, h⟩
    obtain ⟨ends, hends, h⟩ := bind_eq_ok_iff.mp h
    obtain ⟨offset, len, hpath, -⟩ := (readTokenPath_eq_ok_iff hfit hslot).mp hends
    exact ⟨⟨offset, len, hpath⟩, (readSlots_accepts_iff hnarrow hfit _).mp ⟨fields, h⟩⟩
  · rintro ⟨⟨offset, len, hpath⟩, hstop⟩
    have hends := (readTokenPath_eq_ok_iff hfit hslot).mpr ⟨offset, len, hpath, rfl⟩
    rw [Layout.decode, hends, ok_bind]
    exact (readSlots_accepts_iff hnarrow hfit _).mpr hstop

omit hnarrow in
/-- The ends of the array are told, unless they are overwritten by a slot. -/
theorem Layout.value_of_tokenPath (hfit : params.length < Offset.limit)
    (hslot : wordSize * slot < Offset.limit)
    (hnodup : (Field.tokenPathFrom :: .tokenPathTo :: slots.map Prod.fst).Nodup)
    {fields : SwapFields} (h : (tokenPath slot slots).decode method params = .ok fields)
    (hpath : IsTokenPath params slot offset len) :
    fields.value .tokenPathFrom = some (tokenEnds params offset len).1 ∧
      fields.value .tokenPathTo = some (tokenEnds params offset len).2 := by
  obtain ⟨hfrom, hnodup⟩ := List.nodup_cons.mp hnodup
  obtain ⟨hto, hnodup⟩ := List.nodup_cons.mp hnodup
  have hends := (readTokenPath_eq_ok_iff hfit hslot).mpr ⟨offset, len, hpath, rfl⟩
  rw [Layout.decode, hends, ok_bind] at h
  obtain ⟨-, hothers⟩ := (readSlots_eq_ok_iff hnodup).mp h
  exact ⟨hothers _ fun hmem => hfrom (List.mem_cons_of_mem _ hmem), hothers _ hto⟩

/-- Slots have no fault of the layout behind that of the path. -/
theorem Layout.tokenPath_eq_malformed_iff {cause : LayoutCause} :
    (tokenPath slot slots).decode method params = .error (.malformed cause) ↔
      readTokenPath params slot = .error (.malformed cause) :=
  bind_eq_malformed_iff_left fun _ => isCut_readSlots hnarrow _

/-- **A block with a tuple that holds a packed path** is read exactly if the tuple starts in it,
and has the slots and the path. -/
theorem Layout.packedPath_accepts_iff (hfit : params.length < Offset.limit) (order : PathOrder) :
    (∃ fields, (packedPath order slots).decode method params = .ok fields) ↔
      ∃ start, params.numberAt? 0 = some start ∧ start ≤ params.length ∧
        slotsStop slots ≤ (params.drop start).length ∧
        ∃ offset, Bytes.numberAt? (params.drop start) 0 = some offset ∧ offset < Offset.limit ∧
          ∃ path, readPackedPath (params.drop start) offset = .ok path := by
  have hrest (start : Nat) : (params.drop start).length < Offset.limit := by
    rw [List.length_drop]
    omega
  rw [decode_packedPath, Bytes.wordOffset_zero]
  constructor
  · rintro ⟨fields, h⟩
    obtain ⟨start, hstart, h⟩ := bind_eq_ok_iff.mp h
    split at h
    · cases h
    · next hle =>
      obtain ⟨offset, hoffset, h⟩ := bind_eq_ok_iff.mp h
      obtain ⟨path, hpath, h⟩ := bind_eq_ok_iff.mp h
      obtain ⟨hoffset, hoffset'⟩ := (Bytes.readOffset_eq_ok_iff (hrest start)).mp hoffset
      exact ⟨start, ((Bytes.readOffset_eq_ok_iff hfit).mp hstart).1, Nat.not_lt.mp hle,
        (readSlots_accepts_iff hnarrow (hrest start) _).mp ⟨fields, h⟩, offset, hoffset, hoffset',
        path, hpath⟩
  · rintro ⟨start, hstart, hle, hstop, offset, hoffset, hoffset', path, hpath⟩
    have hstart := (Bytes.readOffset_eq_ok_iff hfit).mpr ⟨hstart, Nat.lt_of_le_of_lt hle hfit⟩
    have hoffset := (Bytes.readOffset_eq_ok_iff (hrest start)).mpr ⟨hoffset, hoffset'⟩
    rw [hstart, ok_bind, if_neg (Nat.not_lt.mpr hle), readTuple, Bytes.wordOffset_zero, hoffset,
      ok_bind, hpath, ok_bind]
    exact (readSlots_accepts_iff hnarrow (hrest start) _).mpr hstop

end Layouts

end RouterCalldata
