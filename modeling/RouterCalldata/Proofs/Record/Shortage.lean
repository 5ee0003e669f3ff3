import RouterCalldata.Proofs.Record.Acceptance

/-!
# Blocks that end too early

Slots are read one after the other, so the first one behind the end of a block decides which failure
is told, and another order of the same slots tells another one.  Whichever it is, it is told alike:
where the bytes start that are asked for, how many they are, and how many of them there are.

Positions are numbers of 64 bits, and one that leaves them fails in another way.  The places of
slots are fixed, so that this can be seen from the slots alone and nothing is asked of the block.

## Main definitions

* `DecodeError.TellsEnd`: a failure that tells the end of a buffer;
* `Source.IsPlaced`: a place that can be asked for in 64 bits.

## Main results

* `Source.read_eq_ite`: a place is read, or the end of the buffer is told;
* `readSlots_of_le`, `readSlots_of_lt`: so are slots, going by the end of the last one.
-/

namespace RouterCalldata

open Decoded

/-! ## Failures -/

/-- A buffer of `size` bytes ends in front of the last byte that is asked for.  The failure tells
where the bytes start, how many they are, and how many of them the buffer has. -/
def DecodeError.TellsEnd (size : Nat) : DecodeError → Prop
  | truncated offset needed available =>
      available < needed ∧ size < offset + needed ∧ available = size - offset
  | _ => False

theorem DecodeError.TellsEnd.exists_eq {size : Nat} {e : DecodeError} (h : e.TellsEnd size) :
    ∃ offset needed available, e = truncated offset needed available ∧ available < needed ∧
      size < offset + needed ∧ available = size - offset := by
  cases e with
  | truncated offset needed available => exact ⟨offset, needed, available, rfl, h⟩
  | _ => exact absurd h not_false

/-- All failures that tell the end of a buffer are of one kind. -/
theorem DecodeError.TellsEnd.kind_eq {size size' : Nat} {e e' : DecodeError} (h : e.TellsEnd size)
    (h' : e'.TellsEnd size') : e.kind = e'.kind := by
  obtain ⟨offset, needed, available, rfl, -⟩ := h.exists_eq
  obtain ⟨offset', needed', available', rfl, -⟩ := h'.exists_eq
  rfl

variable {buf : Bytes}

/-! ## Slots -/

/-- The place is one of bytes, no wider than a word, and ends in 64 bits. -/
def Source.IsPlaced (source : Source) : Prop :=
  source.IsNarrow ∧ 0 < source.region.len ∧ source.region.stop < Offset.limit

instance (source : Source) : Decidable source.IsPlaced :=
  inferInstanceAs (Decidable (_ ∧ _ ∧ _))

/-- **A place is read, or the end of the buffer is told.** -/
theorem Source.read_eq_ite {source : Source} (h : source.IsPlaced) :
    source.read buf =
      if source.span.stop ≤ buf.length then .ok (source.textOf (source.region.cut buf))
      else .error (.truncated source.region.start source.region.len
        (buf.length - source.region.start)) := by
  obtain ⟨hnarrow, -, hstop⟩ := h
  have hadd : Offset.checkedAdd source.region.start source.region.len =
      some source.region.stop := if_pos hstop
  rw [read_eq_map hnarrow, Bytes.slice, hadd, ← stop_region]
  dsimp only
  split
  · rfl
  · rfl

/-- A place that the buffer does not reach the end of. -/
theorem Source.read_of_lt {source : Source} (h : source.IsPlaced)
    (hlt : buf.length < source.span.stop) :
    ∃ e, source.read buf = .error e ∧ e.TellsEnd buf.length := by
  refine ⟨_, (read_eq_ite h).trans (if_neg (Nat.not_le.mpr hlt)), ?_⟩
  have hpos := h.2.1
  have hlt : buf.length < source.region.start + source.region.len := by
    rwa [← stop_region] at hlt
  exact ⟨by omega, hlt, rfl⟩

variable {slots : List Slot}

theorem slotsStop_cons (field : Field) (source : Source) (rest : List Slot) :
    slotsStop ((field, source) :: rest) = max source.span.stop (slotsStop rest) := rfl

/-- **Slots are read from every block that reaches the end of the last one**, however long the
block is. -/
theorem readSlots_of_le (h : ∀ slot ∈ slots, slot.2.IsPlaced) (hle : slotsStop slots ≤ buf.length)
    (fields : SwapFields) : ∃ result, readSlots buf fields slots = .ok result := by
  induction slots generalizing fields with
  | nil => exact ⟨fields, rfl⟩
  | cons slot rest ih =>
    obtain ⟨field, source⟩ := slot
    obtain ⟨hsource, hrest⟩ := List.forall_mem_cons.mp h
    rw [slotsStop_cons, Nat.max_le] at hle
    rw [readSlots, Source.read_eq_ite hsource, if_pos hle.1, ok_bind]
    exact ih hrest hle.2 _

/-- **A block that ends in front of the end of the last slot** is told to end too early. -/
theorem readSlots_of_lt (h : ∀ slot ∈ slots, slot.2.IsPlaced) (hlt : buf.length < slotsStop slots)
    (fields : SwapFields) :
    ∃ e, readSlots buf fields slots = .error e ∧ e.TellsEnd buf.length := by
  induction slots generalizing fields with
  | nil => exact absurd hlt (Nat.not_lt_zero _)
  | cons slot rest ih =>
    obtain ⟨field, source⟩ := slot
    obtain ⟨hsource, hrest⟩ := List.forall_mem_cons.mp h
    rw [readSlots]
    rcases Nat.lt_or_ge buf.length source.span.stop with hshort | hlong
    · obtain ⟨e, he, htells⟩ := Source.read_of_lt hsource hshort
      exact ⟨e, by rw [he, error_bind], htells⟩
    · rw [slotsStop_cons] at hlt
      rw [Source.read_eq_ite hsource, if_pos hlong, ok_bind]
      exact ih hrest (by omega) _

end RouterCalldata
