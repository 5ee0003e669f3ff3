import RouterCalldata.Proofs.Bytes.Holding

/-!
# Readers of buffers that agree in places

Two buffers of one length that hold the same bytes where a reader looks are read the same way.  A
reader checks the end of the buffer first, so the length decides whether a cut succeeds, and the
bytes decide only what is cut out.

A reader of an address cuts out a whole word and drops the upper part of it, so that what it looks
at is less than what it cuts.

## Main definitions

* `Span`, `Span.cut`: a place in a buffer, and the bytes there;
* `AgreeOn`: buffers with the same bytes in some places.

## Main results

* `Bytes.slice_bind_congr`: a cut and what is done with it;
* `Bytes.readUint_congr`, `Bytes.readOffset_congr`, `Bytes.readUintRange_congr`,
  `Bytes.readAddress_congr`: the readers, each with the place it looks at;
* `AgreeOn.set`: a byte outside of all places.
-/

namespace RouterCalldata

/-- So many bytes from a position on. -/
structure Span where
  start : Nat
  len : Nat
  deriving DecidableEq, Repr

namespace Span

/-- The position behind the last byte. -/
def stop (span : Span) : Nat := span.start + span.len

/-- The position is in the span. -/
def Contains (span : Span) (position : Nat) : Prop :=
  span.start ≤ position ∧ position < span.stop

instance (span : Span) (position : Nat) : Decidable (span.Contains position) :=
  inferInstanceAs (Decidable (_ ∧ _))

/-- The same span in the part of a buffer that starts at `offset`, counted from the
start of the whole. -/
def shift (offset : Nat) (span : Span) : Span := ⟨offset + span.start, span.len⟩

/-- The bytes in a span, as far as the buffer has them. -/
def cut (span : Span) (buf : Bytes) : Bytes := (buf.drop span.start).take span.len

theorem cut_shift (offset : Nat) (span : Span) (buf : Bytes) :
    (span.shift offset).cut buf = span.cut (buf.drop offset) := by
  rw [cut, cut, shift, List.drop_drop]

theorem length_cut {start len : Nat} {buf : Bytes} (h : start + len ≤ buf.length) :
    (cut ⟨start, len⟩ buf).length = len := by
  rw [cut, List.length_take, List.length_drop]
  exact Nat.min_eq_left (Nat.le_sub_of_add_le' h)

/-- The first bytes of a cut. -/
theorem take_cut {start len n : Nat} (h : n ≤ len) (buf : Bytes) :
    (cut ⟨start, len⟩ buf).take n = cut ⟨start, n⟩ buf := by
  rw [cut, cut, List.take_take, Nat.min_eq_left h]

/-- A cut without its first bytes. -/
theorem drop_cut (start len n : Nat) (buf : Bytes) :
    (cut ⟨start, len⟩ buf).drop n = cut ⟨start + n, len - n⟩ buf := by
  rw [cut, cut, List.drop_take, List.drop_drop]

/-- A cut inside a cut. -/
theorem cut_cut {start len start' len' : Nat} (h : start' + len' ≤ len) (buf : Bytes) :
    cut ⟨start', len'⟩ (cut ⟨start, len⟩ buf) = cut ⟨start + start', len'⟩ buf := by
  have htake : (cut ⟨start + start', len - start'⟩ buf).take len' =
      cut ⟨start + start', len'⟩ buf := take_cut (by omega) buf
  rwa [← drop_cut] at htake

end Span

/-- The two buffers hold the same bytes in all of the spans. -/
def AgreeOn (spans : List Span) (buf buf' : Bytes) : Prop :=
  ∀ span ∈ spans, span.cut buf' = span.cut buf

instance (spans : List Span) (buf buf' : Bytes) : Decidable (AgreeOn spans buf buf') :=
  inferInstanceAs (Decidable (∀ span ∈ spans, _))

namespace AgreeOn

variable {spans spans' : List Span} {buf buf' : Bytes}

theorem cons_iff {span : Span} :
    AgreeOn (span :: spans) buf buf' ↔ span.cut buf' = span.cut buf ∧ AgreeOn spans buf buf' :=
  List.forall_mem_cons

theorem append_iff :
    AgreeOn (spans ++ spans') buf buf' ↔ AgreeOn spans buf buf' ∧ AgreeOn spans' buf buf' :=
  List.forall_mem_append

theorem mono (h : AgreeOn spans buf buf') (hsub : spans' ⊆ spans) : AgreeOn spans' buf buf' :=
  fun span hspan => h span (hsub hspan)

/-- Buffers that agree in shifted spans agree behind the offset in the spans. -/
theorem drop {offset : Nat} (h : AgreeOn (spans.map (Span.shift offset)) buf buf') :
    AgreeOn spans (buf.drop offset) (buf'.drop offset) := by
  intro span hspan
  rw [← Span.cut_shift, ← Span.cut_shift]
  exact h _ (List.mem_map_of_mem hspan)

/-- A buffer agrees with itself after one byte outside of all spans is overwritten. -/
theorem set {position : Nat} (h : ∀ span ∈ spans, ¬ span.Contains position) (buf : Bytes)
    (b : UInt8) : AgreeOn spans buf (buf.set position b) := by
  intro span hspan
  rw [Span.cut, Span.cut]
  rcases Nat.lt_or_ge position span.start with hfront | hin
  · rw [List.drop_set_of_lt hfront]
  · have hbehind : span.len ≤ position - span.start := by
      by_contra hlt
      exact h span hspan ⟨hin, by rw [Span.stop]; omega⟩
    rw [List.drop_set, if_neg (Nat.not_lt.mpr hin), List.take_set_of_le hbehind]

end AgreeOn

/-! ## Readers -/

namespace Bytes

variable {α : Type} {buf buf' : Bytes}

/-- **A cut and what is done with it** are the same in a buffer of the same length,
if the two cuts make no difference to what is done with them. -/
theorem slice_bind_congr (hlen : buf'.length = buf.length) {start len : Nat} {f : Bytes → Decoded α}
    (h : start + len ≤ buf.length →
      f (Span.cut ⟨start, len⟩ buf') = f (Span.cut ⟨start, len⟩ buf)) :
    slice buf' start len >>= f = slice buf start len >>= f := by
  rw [slice, slice]
  cases hstop : Offset.checkedAdd start len with
  | none => rfl
  | some stop =>
    obtain rfl := Offset.eq_of_checkedAdd hstop
    dsimp only
    rw [hlen]
    by_cases hle : start + len ≤ buf.length
    · rw [if_pos hle, if_pos hle]
      exact h hle
    · rw [if_neg hle, if_neg hle]

section Readers

variable (hlen : buf'.length = buf.length) {offset start len : Nat}

include hlen

theorem readUint_congr (h : Span.cut ⟨offset, wordSize⟩ buf' = Span.cut ⟨offset, wordSize⟩ buf) :
    readUint buf' offset = readUint buf offset :=
  slice_bind_congr hlen fun _ => by rw [h]

theorem readOffset_congr (h : Span.cut ⟨offset, wordSize⟩ buf' = Span.cut ⟨offset, wordSize⟩ buf) :
    readOffset buf' offset = readOffset buf offset :=
  slice_bind_congr hlen fun _ => by rw [h]

theorem readUintRange_congr (h : Span.cut ⟨start, len⟩ buf' = Span.cut ⟨start, len⟩ buf) :
    readUintRange buf' start len = readUintRange buf start len := by
  rw [readUintRange, readUintRange]
  split
  · rfl
  · exact slice_bind_congr hlen fun _ => by rw [h]

/-- Of the word of an address only the low bytes are looked at. -/
theorem readAddress_congr
    (h : Span.cut ⟨offset + 12, addressSize⟩ buf' = Span.cut ⟨offset + 12, addressSize⟩ buf) :
    readAddress buf' offset = readAddress buf offset := by
  refine slice_bind_congr hlen fun _ => ?_
  rw [Span.drop_cut, Span.drop_cut]
  exact congrArg (fun low => Except.ok (Hex.encode0x low)) h

end Readers

end Bytes

end RouterCalldata
