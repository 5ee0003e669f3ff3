import RouterCalldata.Proofs.Decoded
import RouterCalldata.Record.Layout

/-!
# Reading a layout

The slots of a layout are read one after the other, and the first one that fails decides the
error.  Where all of them can be read and no field has two of them, the order does not show: the
fields that come out are those that hold what each slot reads.

## Main definitions

* `Layout.slots`: the slots of a layout;
* `readTuple`: the fields of a tuple that holds a packed path.

## Main results

* `readSlots_eq_ok_iff`: what the slots of distinct fields give;
* `readSlots_of_perm`: slots that can be read give the same in any order;
* `decode_packedPath`: a layout with a packed path reads a tuple.
-/

namespace RouterCalldata

open Decoded

/-! ## Slots -/

/-- The slots of a layout. -/
def Layout.slots : Layout → List Slot
  | fixed slots | tokenPath _ slots | packedPath _ slots => slots
  | calls => []

variable {buf : Bytes} {fields result : SwapFields} {slots : List Slot}

/-- **What slots of distinct fields give.**  Each field of a slot holds what the
slot reads, and all other fields are what they were. -/
theorem readSlots_eq_ok_iff (hnodup : (slots.map Prod.fst).Nodup) :
    readSlots buf fields slots = .ok result ↔
      (∀ slot ∈ slots, ∃ text, slot.2.read buf = .ok text ∧ result.value slot.1 = some text) ∧
        ∀ f, f ∉ slots.map Prod.fst → result.value f = fields.value f := by
  induction slots generalizing fields with
  | nil =>
    constructor
    · intro h
      obtain rfl := Except.ok.inj h
      exact ⟨fun slot hslot => absurd hslot List.not_mem_nil, fun f _ => rfl⟩
    · rintro ⟨-, hfields⟩
      have heq : fields = result := SwapFields.ext (funext fun f => (hfields f nofun).symm)
      rw [heq]
      rfl
  | cons slot rest ih =>
    obtain ⟨field, source⟩ := slot
    rw [List.map_cons, List.nodup_cons] at hnodup
    obtain ⟨hfresh, hrest⟩ := hnodup
    have hcons : readSlots buf fields ((field, source) :: rest) = .ok result ↔
        ∃ text, source.read buf = .ok text ∧
          readSlots buf (fields.set field text) rest = .ok result := bind_eq_ok_iff
    rw [hcons, List.forall_mem_cons]
    constructor
    · rintro ⟨text, hread, h⟩
      obtain ⟨hslots, hothers⟩ := (ih hrest).mp h
      refine ⟨⟨⟨text, hread, ?_⟩, hslots⟩, ?_⟩
      · rw [hothers field hfresh, SwapFields.value_set, if_pos rfl]
      · intro f hf
        rw [List.map_cons, List.mem_cons, not_or] at hf
        rw [hothers f hf.2, SwapFields.value_set, if_neg hf.1]
    · rintro ⟨⟨⟨text, hread, htext⟩, hslots⟩, hothers⟩
      refine ⟨text, hread, (ih hrest).mpr ⟨hslots, ?_⟩⟩
      intro f hf
      rw [SwapFields.value_set]
      by_cases heq : f = field
      · rw [if_pos heq, heq, htext]
      · rw [if_neg heq]
        refine hothers f ?_
        rw [List.map_cons, List.mem_cons, not_or]
        exact ⟨heq, hf⟩

/-- Slots of distinct fields that can be read give the same in any order. -/
theorem readSlots_of_perm {slots' : List Slot} (hperm : slots.Perm slots')
    (hnodup : (slots.map Prod.fst).Nodup) (h : readSlots buf fields slots = .ok result) :
    readSlots buf fields slots' = .ok result := by
  have hnames := hperm.map Prod.fst
  obtain ⟨hslots, hothers⟩ := (readSlots_eq_ok_iff hnodup).mp h
  refine (readSlots_eq_ok_iff (hnames.nodup_iff.mp hnodup)).mpr ⟨?_, ?_⟩
  · intro slot hslot
    exact hslots slot (hperm.mem_iff.mpr hslot)
  · intro f hf
    exact hothers f fun hmem => hf (hnames.mem_iff.mp hmem)

/-! ## Tuples -/

/-- The fields of a tuple that holds a packed path. -/
def readTuple (order : PathOrder) (slots : List Slot) (tuple : Bytes) : Decoded SwapFields := do
  let offset ← Bytes.readOffset tuple (wordOffset 0)
  let path ← readPackedPath tuple offset
  readSlots tuple (path.fields order) slots

/-- A layout with a packed path reads the tuple whose offset is in the first
word, if it starts in the block. -/
theorem decode_packedPath (method : String) (params : Bytes) (order : PathOrder)
    (slots : List Slot) :
    (Layout.packedPath order slots).decode method params =
      Bytes.readOffset params (wordOffset 0) >>= fun offset =>
        if params.length < offset then .error (.truncated offset wordSize 0)
        else readTuple order slots (params.drop offset) := by
  rw [Layout.decode, readPathTuple, bind_assoc]
  congr 1
  funext offset
  split
  · rfl
  · simp only [readTuple, bind_assoc, pure_eq_ok, ok_bind]

end RouterCalldata
