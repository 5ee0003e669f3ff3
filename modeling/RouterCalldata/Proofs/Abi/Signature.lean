import RouterCalldata.Proofs.Abi.Parameters
import RouterCalldata.Proofs.Abi.PoolPath
import RouterCalldata.Proofs.Record.Layout

/-!
# Signatures with tuples

A method takes its arguments one by one or in a tuple.  A tuple of fixed width makes no difference
to the encoding.  A tuple that starts with a path through pools does: the block then holds the
offset of the tuple, and the tuple the offset of the path, counted from the tuple.

Of two amounts that are reported, the most that may be sold is told twice, as itself and as the
sold amount.  The layouts list their slots in various orders, so a layout is matched with a
signature up to the order of its slots.

## Main definitions

* `SwapFields.mirrored`, `mirroredSlots`: the most that may be sold, told twice;
* `Signature`: how a method takes its arguments, and what it reports of them;
* `Signature.values`, `Signature.reported`: the encoded arguments, and what they report;
* `Signature.ReadBy`: a layout has the slots of a signature.

## Main results

* `decode_tuple_holdsAt`: a tuple with a path is read wherever it stands;
* `Signature.ReadBy.decode_values`: a layout with the slots of a signature reads back what the
  arguments report;
* `Signature.isSome_reported_iff`: exactly the fields of a signature are reported.
-/

namespace RouterCalldata

/-- Tells the most that may be sold as the sold amount too. -/
def SwapFields.mirrored (fields : SwapFields) : SwapFields :=
  match fields.value .amountInMax with
  | some text => fields.set .amountIn text
  | none => fields

namespace Abi

open Decoded

/-! ## Amounts that are told twice -/

/-- Reads the most that may be sold as the sold amount too. -/
def mirroredSlots (slots : List Slot) : List Slot :=
  slots ++ (slots.lookup .amountInMax).toList.map (Field.amountIn, ·)

/-- The sold amount is a field where the most that may be sold is one. -/
def mirroredFields (fields : List Field) : List Field :=
  fields ++ if .amountInMax ∈ fields then [.amountIn] else []

theorem mem_mirroredFields {fields : List Field} {f : Field} :
    f ∈ mirroredFields fields ↔ f ∈ fields ∨ f = .amountIn ∧ .amountInMax ∈ fields := by
  rw [mirroredFields, List.mem_append]
  split
  · next hmax => simp [hmax]
  · next hmax => simp [hmax]

theorem isSome_mirrored (fields : SwapFields) (f : Field) :
    (fields.mirrored.value f).isSome ↔
      (fields.value f).isSome ∨ f = .amountIn ∧ (fields.value .amountInMax).isSome := by
  rw [SwapFields.mirrored]
  cases hmax : fields.value .amountInMax with
  | none => simp
  | some text =>
    rw [SwapFields.value_set]
    by_cases hf : f = .amountIn
    · simp [hf]
    · simp [hf]

section Reading

variable {buf : Bytes} {fields result : SwapFields} {slots : List Slot}

/-- Slots that tell an amount twice read it twice. -/
theorem readSlots_mirroredSlots (hnodup : (slots.map Prod.fst).Nodup)
    (hunset : fields.value .amountInMax = none) (h : readSlots buf fields slots = .ok result) :
    readSlots buf fields (mirroredSlots slots) = .ok result.mirrored := by
  obtain ⟨hslots, hothers⟩ := (readSlots_eq_ok_iff hnodup).mp h
  rw [mirroredSlots, readSlots_append, h, ok_bind]
  cases hlookup : slots.lookup .amountInMax with
  | none =>
    have hnone : result.value .amountInMax = none := by
      rw [hothers, hunset]
      intro hmem
      obtain ⟨slot, hslot, hfield⟩ := List.mem_map.mp hmem
      have hne := List.lookup_eq_none_iff.mp hlookup slot hslot
      rw [hfield] at hne
      exact absurd hne (by decide)
    rw [SwapFields.mirrored, hnone]
    rfl
  | some source =>
    have hmem : (Field.amountInMax, source) ∈ slots := by
      obtain ⟨before, behind, hsplit, -⟩ := List.lookup_eq_some_iff.mp hlookup
      rw [hsplit]
      exact List.mem_append_right before List.mem_cons_self
    obtain ⟨text, hread, htext⟩ := hslots _ hmem
    rw [SwapFields.mirrored, htext]
    show (source.read buf >>= fun text => .ok (result.set .amountIn text)) = _
    rw [hread, ok_bind]

/-- The slots of parameters read what their words report, in any order. -/
theorem readSlots_mirrored (hfit : buf.length < Offset.limit) {ps : List Parameter}
    (args : Arguments ps) {index front : Nat} (hunset : fields.value .amountInMax = none)
    (hperm : (mirroredSlots (slotsFrom index ps)).Perm slots)
    (hnodup : ((mirroredSlots (slotsFrom index ps)).map Prod.fst).Nodup)
    (hwords : buf.HoldsAt (wordSize * index) (heads front (encoded ps args))) :
    readSlots buf fields slots = .ok (reportWords ps args fields).mirrored := by
  have hnodup' : ((slotsFrom index ps).map Prod.fst).Nodup :=
    hnodup.sublist ((List.sublist_append_left _ _).map _)
  have hread := readSlots_slotsFrom hfit ps args index front fields hwords
  exact readSlots_of_perm hperm hnodup (readSlots_mirroredSlots hnodup' hunset hread)

end Reading

/-! ## Paths in tuples -/

theorem PoolPath.isSome_fields (path : PoolPath) (order : PathOrder) (f : Field) :
    ((path.fields order).value f).isSome ↔ f ∈ [.tokenPathFrom, .tokenPathTo, .fee] := by
  cases order with
  | inputFirst => cases f <;> simp [fields, SwapFields.ofPath]
  | outputFirst => cases f <;> simp [fields, SwapFields.ofPath]

theorem PoolPath.value_fields_amountInMax (path : PoolPath) (order : PathOrder) :
    (path.fields order).value .amountInMax = none := by
  cases order with
  | inputFirst => rfl
  | outputFirst => rfl

section Tuples

variable {slots : List Slot} {ps : List Parameter} {path : PoolPath} {offset front : Nat}

/-- A tuple is read from the bytes that hold the offset of a path, the path at this
offset, and the words behind it. -/
theorem readTuple_holdsAt {tuple : Bytes} (hfit : tuple.length < Offset.limit) (order : PathOrder)
    (args : Arguments ps) (hperm : (mirroredSlots (slotsFrom 1 ps)).Perm slots)
    (hnodup : ((mirroredSlots (slotsFrom 1 ps)).map Prod.fst).Nodup)
    (hoffset : tuple.HoldsAt 0 (Word.ofNat offset).bytes)
    (hpath : tuple.HoldsAt offset (bytes path.bytes).bytes)
    (hwords : tuple.HoldsAt wordSize (heads front (encoded ps args))) :
    readTuple order slots tuple = .ok (reportWords ps args (path.fields order)).mirrored := by
  have hle := hpath.length_le
  rw [readTuple, Bytes.wordOffset_zero, hoffset.readOffset (by omega) hfit, ok_bind,
    readPackedPath_holdsAt hfit hpath, ok_bind, path.fields_packed]
  exact readSlots_mirrored hfit args (path.value_fields_amountInMax order) hperm hnodup hwords

/-- **A tuple with a path is read wherever it stands**, and wherever in the tuple the
path does. -/
theorem decode_tuple_holdsAt {params : Bytes} (hfit : params.length < Offset.limit) (name : String)
    (order : PathOrder) (args : Arguments ps) {start : Nat}
    (hperm : (mirroredSlots (slotsFrom 1 ps)).Perm slots)
    (hnodup : ((mirroredSlots (slotsFrom 1 ps)).map Prod.fst).Nodup)
    (hstart : params.HoldsAt 0 (Word.ofNat start).bytes)
    (hoffset : params.HoldsAt start (Word.ofNat offset).bytes)
    (hpath : params.HoldsAt (start + offset) (bytes path.bytes).bytes)
    (hwords : params.HoldsAt (start + wordSize) (heads front (encoded ps args))) :
    (Layout.packedPath order slots).decode name params =
      .ok (reportWords ps args (path.fields order)).mirrored := by
  have hle := hoffset.length_le
  have hfit' : (params.drop start).length < Offset.limit := by
    rw [List.length_drop]
    omega
  rw [decode_packedPath, Bytes.wordOffset_zero, hstart.readOffset (by omega) hfit, ok_bind,
    if_neg (by omega)]
  exact readTuple_holdsAt hfit' order args hperm hnodup (Bytes.HoldsAt.drop hoffset) hpath.drop
    hwords.drop

end Tuples

/-! ## Signatures -/

/-- How a method takes its arguments, and what it reports of them. -/
inductive Signature
  /-- The arguments one by one. -/
  | separate (ps : List Parameter)
  /-- One tuple of the arguments. -/
  | tuple (ps : List Parameter)
  /-- One tuple of a path through pools, and the arguments. -/
  | pathTuple (order : PathOrder) (ps : List Parameter)

namespace Signature

/-- The parameters of one word. -/
def parameters : Signature → List Parameter
  | separate ps | tuple ps | pathTuple _ ps => ps

/-- The types as the method table spells them. -/
def types : Signature → String
  | separate ps => "(" ++ ",".intercalate (ps.map Parameter.type) ++ ")"
  | tuple ps => "((" ++ ",".intercalate (ps.map Parameter.type) ++ "))"
  | pathTuple _ ps => "((" ++ ",".intercalate ("bytes" :: ps.map Parameter.type) ++ "))"

/-- The arguments of a method. -/
def Arguments : Signature → Type
  | separate ps | tuple ps => Abi.Arguments ps
  | pathTuple _ ps => PoolPath × Abi.Arguments ps

/-- The values that stand for the arguments. -/
def values : (s : Signature) → s.Arguments → List Encoded
  | separate ps, args => encoded ps args
  | tuple ps, args => [Abi.tuple (encoded ps args)]
  | pathTuple _ ps, (path, args) => [Abi.tuple (bytes path.bytes :: encoded ps args)]

/-- **What arguments report**: the ends and the first fee of a path, and the words
that have a field. -/
def reported : (s : Signature) → s.Arguments → SwapFields
  | separate ps, args | tuple ps, args => (reportWords ps args .empty).mirrored
  | pathTuple order ps, (path, args) => (reportWords ps args (path.fields order)).mirrored

/-- The fields that arguments report. -/
def fields : Signature → List Field
  | separate ps | tuple ps => mirroredFields (ps.flatMap Parameter.fields)
  | pathTuple _ ps =>
      [.tokenPathFrom, .tokenPathTo, .fee] ++ mirroredFields (ps.flatMap Parameter.fields)

/-- The slots of the words.  In front of them a tuple may have the offset of a path. -/
def slots : Signature → List Slot
  | separate ps | tuple ps => slotsFrom 0 ps
  | pathTuple _ ps => slotsFrom 1 ps

/-- The layout of given slots. -/
def layoutOf : Signature → List Slot → Layout
  | separate _, slots | tuple _, slots => .fixed slots
  | pathTuple order _, slots => .packedPath order slots

/-- The layout has the slots of the signature, each field once, in any order. -/
structure ReadBy (s : Signature) (layout : Layout) : Prop where
  layout_eq : layout = s.layoutOf layout.slots
  slots_perm : (mirroredSlots s.slots).Perm layout.slots
  nodup : ((mirroredSlots s.slots).map Prod.fst).Nodup
  /-- All words have a fixed width. -/
  path_notMem : .path ∉ s.parameters

instance (s : Signature) (layout : Layout) : Decidable (s.ReadBy layout) :=
  decidable_of_iff
    (layout = s.layoutOf layout.slots ∧ (mirroredSlots s.slots).Perm layout.slots ∧
      ((mirroredSlots s.slots).map Prod.fst).Nodup ∧ .path ∉ s.parameters)
    ⟨fun ⟨hlayout, hperm, hnodup, hpath⟩ => ⟨hlayout, hperm, hnodup, hpath⟩,
      fun ⟨hlayout, hperm, hnodup, hpath⟩ => ⟨hlayout, hperm, hnodup, hpath⟩⟩

/-- The path leads the tuple: its offset is in the first word, and the other words
follow. -/
theorem holdsAt_pathTuple (path : PoolPath) (vs : List Encoded) :
    ∃ start offset front,
      (components [Abi.tuple (bytes path.bytes :: vs)]).HoldsAt 0 (Word.ofNat start).bytes ∧
      (components [Abi.tuple (bytes path.bytes :: vs)]).HoldsAt start (Word.ofNat offset).bytes ∧
      (components [Abi.tuple (bytes path.bytes :: vs)]).HoldsAt (start + offset)
        (bytes path.bytes).bytes ∧
      (components [Abi.tuple (bytes path.bytes :: vs)]).HoldsAt (start + wordSize)
        (heads front vs) := by
  have hdynamic : (Abi.tuple (bytes path.bytes :: vs)).dynamic = true := rfl
  have htuple := holdsAt_tail [] [] hdynamic
  have hheads : (components (bytes path.bytes :: vs)).HoldsAt 0
      (heads (headsSize (bytes path.bytes :: vs)) (bytes path.bytes :: vs)) := .start _ _
  have hwords := hheads.right
  rw [Encoded.length_head, Nat.zero_add] at hwords
  exact ⟨_, _, _, holdsAt_offset [] [] hdynamic,
    htuple.trans (holdsAt_offset [] vs (bytes_dynamic path.bytes)),
    htuple.trans (holdsAt_tail [] vs (bytes_dynamic path.bytes)), htuple.trans hwords⟩

/-- A tuple of words has a fixed width. -/
theorem dynamic_tuple {ps : List Parameter} (h : .path ∉ ps) (args : Abi.Arguments ps) :
    (Abi.tuple (encoded ps args)).dynamic = false := by
  show (encoded ps args).any Encoded.dynamic = false
  induction ps with
  | nil => rfl
  | cons p ps ih =>
    obtain ⟨v, vs⟩ := args
    rw [List.mem_cons, not_or] at h
    have hp : (p.encode v).dynamic = false := by
      cases p with
      | path => exact absurd rfl h.1
      | amount | lowAmount | account | unread => rfl
    rw [encoded, List.any_cons, hp, Bool.false_or]
    exact ih h.2 vs

variable {s : Signature} {layout : Layout}

/-- **A layout with the slots of a signature reads back what the arguments
report.** -/
theorem ReadBy.decode_values (h : s.ReadBy layout) (args : s.Arguments) (name : String)
    (hfit : (components (s.values args)).length < Offset.limit) :
    layout.decode name (components (s.values args)) = .ok (s.reported args) := by
  obtain ⟨hlayout, hperm, hnodup, hpath⟩ := h
  rw [hlayout]
  cases s with
  | separate ps => exact readSlots_mirrored hfit args rfl hperm hnodup (.start _ _)
  | tuple ps =>
    have hflat : components [Abi.tuple (encoded ps args)] = components (encoded ps args) :=
      components_singleton (dynamic_tuple hpath args)
    rw [values, hflat] at hfit ⊢
    exact readSlots_mirrored hfit args rfl hperm hnodup (.start _ _)
  | pathTuple order ps =>
    obtain ⟨path, args⟩ := args
    obtain ⟨start, offset, front, hstart, hoffset, hheld, hwords⟩ :=
      holdsAt_pathTuple path (encoded ps args)
    exact decode_tuple_holdsAt hfit name order args hperm hnodup hstart hoffset hheld hwords

/-! ## The fields of a signature -/

theorem isSome_report {p : Parameter} (hp : p ≠ .path) (v : p.Value) (fields : SwapFields)
    (f : Field) :
    ((p.report v fields).value f).isSome ↔ f ∈ p.fields ∨ (fields.value f).isSome := by
  cases p with
  | amount field | lowAmount field | account field =>
    rw [Parameter.report, SwapFields.value_set, Parameter.fields, List.mem_singleton]
    by_cases hf : f = field
    · simp [hf]
    · simp [hf]
  | path => exact absurd rfl hp
  | unread type => simp [Parameter.report, Parameter.fields]

theorem isSome_reportWords {ps : List Parameter} (hpath : .path ∉ ps) (args : Abi.Arguments ps)
    (fields : SwapFields) (f : Field) :
    ((reportWords ps args fields).value f).isSome ↔
      f ∈ ps.flatMap Parameter.fields ∨ (fields.value f).isSome := by
  induction ps generalizing fields with
  | nil => simp [reportWords]
  | cons p ps ih =>
    obtain ⟨v, vs⟩ := args
    rw [List.mem_cons, not_or] at hpath
    rw [reportWords, ih hpath.2, isSome_report (Ne.symm hpath.1), List.flatMap_cons,
      List.mem_append, or_assoc, or_left_comm]

theorem isSome_mirrored_reportWords {ps : List Parameter} (hpath : .path ∉ ps)
    (args : Abi.Arguments ps) (fields : SwapFields) (hunset : fields.value .amountInMax = none)
    (f : Field) :
    ((reportWords ps args fields).mirrored.value f).isSome ↔
      f ∈ mirroredFields (ps.flatMap Parameter.fields) ∨ (fields.value f).isSome := by
  rw [isSome_mirrored, isSome_reportWords hpath, isSome_reportWords hpath, hunset,
    mem_mirroredFields]
  simp only [Option.isSome_none, Bool.false_eq_true, or_false]
  exact or_right_comm

/-- **Exactly the fields of a signature are reported.** -/
theorem isSome_reported_iff (hpath : .path ∉ s.parameters) (args : s.Arguments) (f : Field) :
    ((s.reported args).value f).isSome ↔ f ∈ s.fields := by
  cases s with
  | separate ps | tuple ps =>
    have h := isSome_mirrored_reportWords hpath args .empty rfl f
    rwa [SwapFields.value_empty, Option.isSome_none, or_iff_left Bool.false_ne_true] at h
  | pathTuple order ps =>
    obtain ⟨path, args⟩ := args
    have h := isSome_mirrored_reportWords hpath args _ (path.value_fields_amountInMax order) f
    rwa [path.isSome_fields, or_comm, ← List.mem_append] at h

end Signature

end Abi

end RouterCalldata
