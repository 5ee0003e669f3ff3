import RouterCalldata.Proofs.Bytes.HexText
import RouterCalldata.Proofs.Record.Layout
import RouterCalldata.Proofs.Record.PackedPath

/-!
# The form of a field's text

The texts of a record are written by two writers, one for numbers and one for bytes, and whoever
reads them later relies on how they look.  A number is a decimal numeral of digits only, without
zeros in front, and below a bound; bytes are lowercase hex behind a mark, and of a fixed number.

Each place in a block gives texts of one form, whatever it holds.  So a layout whose places have the
forms of their fields gives texts of these forms, and it sets the same fields in every block.

## Main definitions

* `IsNumeral`, `IsHexText`: the two ways to write;
* `TextForm`, `TextForm.Holds`: the form of a text;
* `Source.form`: the form of what is read at a place;
* `Layout.fields`: the fields that a layout sets;
* `SwapFields.HasForm`: which fields are set, and to texts of which form.

## Main results

* `isNumeral_repr`, `isHexText_encode0x`: what the two writers give;
* `Source.holds_read`: what is read at a place has the form of the place;
* `Layout.hasForm_decode`: what a layout sets, and to texts of which form.
-/

namespace RouterCalldata

open Decoded

/-! ## Numerals -/

/-- A decimal numeral of a number below the bound, in digits only and with no zero in
front. -/
structure IsNumeral (bound : Nat) (text : String) : Prop where
  ne_empty : text ≠ ""
  isDigit : ∀ c ∈ text.toList, c.isDigit
  eq_zero_of_head : text.toList.head? = some '0' → text = "0"
  /-- The number that the digits denote. -/
  value_lt : Nat.ofDigitChars 10 text.toList 0 < bound

/-- The digits of a number other than zero do not start with a zero.  The induction is
on the number: its first digit is that of its tenth part. -/
theorem head?_toDigits_ne {n : Nat} (h : 0 < n) : (Nat.toDigits 10 n).head? ≠ some '0' := by
  induction n using Nat.strongRecOn with
  | ind n ih =>
    rw [Nat.toDigits_eq_if (by decide)]
    split
    · next hlt =>
      have hdigit : ∀ n < 10, 0 < n → some n.digitChar ≠ some '0' := by decide
      exact hdigit n hlt h
    · next hge =>
      rw [List.head?_append_of_ne_nil _ Nat.toDigits_ne_nil]
      exact ih (n / 10) (by omega) (by omega)

/-- **A number is written as a numeral.** -/
theorem isNumeral_repr {n bound : Nat} (h : n < bound) : IsNumeral bound (Nat.repr n) where
  ne_empty := by
    intro hempty
    have hdigits := congrArg String.toList hempty
    rw [Nat.repr, String.toList_ofList] at hdigits
    exact Nat.toDigits_ne_nil hdigits
  isDigit := by
    intro c hc
    rw [Nat.repr, String.toList_ofList] at hc
    exact Nat.isDigit_of_mem_toDigits (by decide) (by decide) hc
  eq_zero_of_head := by
    intro hhead
    rcases Nat.eq_zero_or_pos n with rfl | hpos
    · rfl
    · rw [Nat.repr, String.toList_ofList] at hhead
      exact absurd hhead (head?_toDigits_ne hpos)
  value_lt := by
    rw [Nat.repr, String.toList_ofList, Nat.ofDigitChars_toDigits (by decide) (by decide)]
    exact h

/-! ## Hex -/

/-- Bytes in lowercase hex behind a mark. -/
def IsHexText (bytes : Nat) (text : String) : Prop :=
  ∃ digits : List Char, digits.length = 2 * bytes ∧ (∀ c ∈ digits, c ∈ hexDigits) ∧
    text = "0x" ++ String.ofList digits

/-- **Bytes are written in hex.** -/
theorem isHexText_encode0x {bs : Bytes} {bytes : Nat} (h : bs.length = bytes) :
    IsHexText bytes (Hex.encode0x bs) := by
  refine ⟨bs.flatMap hexPair, ?_, fun c hc => mem_hexDigits_of_mem_flatMap_hexPair hc,
    encode0x_eq_hexText bs⟩
  rw [length_flatMap_hexPair, h]

/-! ## Forms -/

/-- The form of a text. -/
inductive TextForm
  /-- A number of so many bits. -/
  | numeral (bits : Nat)
  /-- So many bytes. -/
  | hex (bytes : Nat)
  deriving DecidableEq, Repr

/-- The text has the form. -/
def TextForm.Holds : TextForm → String → Prop
  | numeral bits, text => IsNumeral (2 ^ bits) text
  | hex bytes, text => IsHexText bytes text

/-- The form of what is read at a place. -/
def Source.form : Source → TextForm
  | uint _ => .numeral 256
  | address _ => .hex addressSize
  | uintRange _ len => .numeral (8 * len)

theorem isNumeral_decimal {bs : Bytes} {bits : Nat} (h : 8 * bs.length = bits) :
    IsNumeral (2 ^ bits) (Bytes.decimal bs) := by
  have hpow : 256 ^ bs.length = 2 ^ bits := by
    rw [← h, Nat.pow_mul]
  refine isNumeral_repr ?_
  rw [← hpow]
  exact Bytes.toNat_lt bs

theorem isHexText_of_readAddress {buf : Bytes} {offset : Nat} {text : String}
    (h : Bytes.readAddress buf offset = .ok text) : IsHexText addressSize text := by
  obtain ⟨w, hw, htext⟩ := bind_eq_ok_iff.mp h
  obtain rfl := Except.ok.inj htext
  have hlen : w.length = wordSize := (Bytes.length_of_slice hw).2
  apply isHexText_encode0x
  rw [List.length_drop, hlen]
  rfl

/-- **What is read at a place has the form of the place**, whatever the block holds. -/
theorem Source.holds_read {buf : Bytes} {source : Source} {text : String}
    (h : source.read buf = .ok text) : source.form.Holds text := by
  cases source with
  | uint w =>
    obtain ⟨bs, hbs, htext⟩ := bind_eq_ok_iff.mp h
    obtain rfl := Except.ok.inj htext
    have hlen : bs.length = wordSize := (Bytes.length_of_slice hbs).2
    exact isNumeral_decimal (by rw [hlen]; rfl)
  | address w => exact isHexText_of_readAddress h
  | uintRange start len =>
    rw [Source.read, Bytes.readUintRange] at h
    split at h
    · cases h
    · obtain ⟨bs, hbs, h⟩ := bind_eq_ok_iff.mp h
      obtain ⟨padded, hpad, htext⟩ := bind_eq_ok_iff.mp h
      obtain rfl := Except.ok.inj htext
      obtain ⟨zeros, -, hpadded⟩ := bind_eq_ok_iff.mp hpad
      obtain rfl := Except.ok.inj hpadded
      have hlen := (Bytes.length_of_slice hbs).2
      rw [Bytes.decimal, Bytes.toNat_replicate_append]
      exact isNumeral_decimal (by rw [hlen])

/-! ## Fields -/

/-- The fields of the set `set` are the ones that are set, each to a text of its form. -/
structure SwapFields.HasForm (form : Field → TextForm) (set : List Field) (fields : SwapFields) :
    Prop where
  isSome_iff : ∀ f, (fields.value f).isSome ↔ f ∈ set
  holds : ∀ f text, fields.value f = some text → (form f).Holds text

namespace SwapFields.HasForm

variable {form : Field → TextForm} {fields : SwapFields} {set : List Field}

theorem empty : HasForm form [] SwapFields.empty where
  isSome_iff f := by simp
  holds f text h := absurd h nofun

theorem of_mem_iff {set' : List Field} (h : fields.HasForm form set)
    (hset : ∀ f, f ∈ set ↔ f ∈ set') : fields.HasForm form set' where
  isSome_iff f := (h.isSome_iff f).trans (hset f)
  holds := h.holds

/-- One more field is set, to a text of its form. -/
theorem cons (h : fields.HasForm form set) {f : Field} {text : String}
    (hf : (form f).Holds text) : (fields.set f text).HasForm form (f :: set) where
  isSome_iff g := by
    rw [value_set, List.mem_cons, ← h.isSome_iff]
    by_cases hg : g = f
    · simp [hg]
    · simp [hg]
  holds g text' hg := by
    rw [value_set] at hg
    split at hg
    · next heq =>
      obtain rfl := Option.some.inj hg
      rwa [heq]
    · exact h.holds g text' hg

/-- **Slots set their fields**, to texts of the forms of their places.  The induction is on
the slots that are left. -/
theorem readSlots {buf : Bytes} {slots : List Slot} {result : SwapFields}
    (h : fields.HasForm form set) (hslots : ∀ slot ∈ slots, slot.2.form = form slot.1)
    (hread : RouterCalldata.readSlots buf fields slots = .ok result) :
    result.HasForm form (set ++ slots.map Prod.fst) := by
  induction slots generalizing fields set with
  | nil =>
    obtain rfl := Except.ok.inj hread
    rwa [List.map_nil, List.append_nil]
  | cons slot rest ih =>
    obtain ⟨field, source⟩ := slot
    obtain ⟨text, htext, hrest⟩ := bind_eq_ok_iff.mp hread
    have hform : (form field).Holds text := by
      rw [← hslots (field, source) List.mem_cons_self]
      exact Source.holds_read htext
    have hothers := ih (h.cons hform) (fun slot hs => hslots slot (List.mem_cons_of_mem _ hs)) hrest
    refine hothers.of_mem_iff fun f => ?_
    simp only [List.cons_append, List.mem_cons, List.mem_append, List.map_cons]
    exact or_left_comm

end SwapFields.HasForm

/-! ## Layouts -/

/-- The fields that a layout sets. -/
def Layout.fields : Layout → List Field
  | fixed slots => slots.map Prod.fst
  | tokenPath _ slots => [.tokenPathFrom, .tokenPathTo] ++ slots.map Prod.fst
  | packedPath _ slots => [.tokenPathFrom, .tokenPathTo, .fee] ++ slots.map Prod.fst
  | calls => []

/-- What a layout relies on: the texts of a path have the forms of the fields that tell
them, and so have the places of the slots. -/
structure Layout.SuitedTo (layout : Layout) (form : Field → TextForm) : Prop where
  from_eq : form .tokenPathFrom = .hex addressSize
  to_eq : form .tokenPathTo = .hex addressSize
  fee_eq : form .fee = .hex feeSize
  slots_eq : ∀ slot ∈ layout.slots, slot.2.form = form slot.1

section Layouts

variable {form : Field → TextForm}

theorem hasForm_ofPath {start stop : String} (hfrom : form .tokenPathFrom = .hex addressSize)
    (hto : form .tokenPathTo = .hex addressSize) (hstart : IsHexText addressSize start)
    (hstop : IsHexText addressSize stop) :
    (SwapFields.ofPath start stop).HasForm form [.tokenPathFrom, .tokenPathTo] := by
  have hstart' : (form .tokenPathFrom).Holds start := by rwa [hfrom]
  have hstop' : (form .tokenPathTo).Holds stop := by rwa [hto]
  refine ((SwapFields.HasForm.empty.cons hstart').cons hstop').of_mem_iff fun f => ?_
  simp [or_comm]

theorem of_readTokenPath {params : Bytes} {slot : Nat} {start stop : String}
    (h : readTokenPath params slot = .ok (start, stop)) :
    IsHexText addressSize start ∧ IsHexText addressSize stop := by
  obtain ⟨offset, -, h⟩ := bind_eq_ok_iff.mp h
  obtain ⟨len, -, h⟩ := bind_eq_ok_iff.mp h
  split at h
  · exact absurd h nofun
  · dsimp only at h
    split at h
    · obtain ⟨first, hfirst, h⟩ := bind_eq_ok_iff.mp h
      obtain ⟨last, hlast, h⟩ := bind_eq_ok_iff.mp h
      obtain ⟨rfl, rfl⟩ := Prod.mk.inj (Except.ok.inj h)
      exact ⟨isHexText_of_readAddress hfirst, isHexText_of_readAddress hlast⟩
    · exact absurd h nofun

/-- A path that is cut out is long enough for its ends and its first fee. -/
theorem of_readPackedPath {buf : Bytes} {offset : Nat} {path : PackedPath}
    (h : readPackedPath buf offset = .ok path) :
    IsHexText addressSize path.first ∧ IsHexText addressSize path.last ∧
      IsHexText feeSize path.fee := by
  rw [readPackedPath_eq] at h
  obtain ⟨len, -, h⟩ := bind_eq_ok_iff.mp h
  split at h
  · next hpacked =>
    split at h
    · exact absurd h nofun
    · obtain ⟨bs, hbs, h⟩ := bind_eq_ok_iff.mp h
      obtain rfl := Except.ok.inj h
      have hlong : 43 ≤ bs.length := by
        rw [(Bytes.length_of_slice hbs).2]
        exact hpacked.1
      refine ⟨isHexText_encode0x ?_, isHexText_encode0x ?_, isHexText_encode0x ?_⟩
      · exact List.length_take_of_le (show 20 ≤ bs.length by omega)
      · rw [List.length_drop]
        show bs.length - (bs.length - 20) = 20
        omega
      · rw [List.length_take, List.length_drop]
        show min 3 (bs.length - 20) = 3
        omega
  · exact absurd h nofun

theorem PackedPath.hasForm_fields {path : PackedPath} {order : PathOrder}
    (hfrom : form .tokenPathFrom = .hex addressSize) (hto : form .tokenPathTo = .hex addressSize)
    (hfee : form .fee = .hex feeSize)
    (h : IsHexText addressSize path.first ∧ IsHexText addressSize path.last ∧
      IsHexText feeSize path.fee) :
    (path.fields order).HasForm form [.tokenPathFrom, .tokenPathTo, .fee] := by
  obtain ⟨hfirst, hlast, htext⟩ := h
  have hfee' : (form .fee).Holds path.fee := by rwa [hfee]
  have hends {start stop : String} (hstart : IsHexText addressSize start)
      (hstop : IsHexText addressSize stop) :
      ((SwapFields.ofPath start stop).set .fee path.fee).HasForm form
        [.tokenPathFrom, .tokenPathTo, .fee] := by
    refine ((hasForm_ofPath hfrom hto hstart hstop).cons hfee').of_mem_iff fun f => ?_
    simp only [List.mem_cons, List.not_mem_nil, or_false]
    exact or_rotate
  cases order with
  | inputFirst => exact hends hfirst hlast
  | outputFirst => exact hends hlast hfirst

/-- **A layout sets its fields, to texts of their forms**, whatever the block holds. -/
theorem Layout.hasForm_decode {layout : Layout} (hform : layout.SuitedTo form) {method : String}
    {params : Bytes} {fields : SwapFields} (h : layout.decode method params = .ok fields) :
    fields.HasForm form layout.fields := by
  obtain ⟨hfrom, hto, hfee, hslots⟩ := hform
  cases layout with
  | fixed slots => exact SwapFields.HasForm.empty.readSlots hslots h
  | tokenPath slot slots =>
    obtain ⟨⟨start, stop⟩, hpath, h⟩ := bind_eq_ok_iff.mp h
    obtain ⟨hstart, hstop⟩ := of_readTokenPath hpath
    exact (hasForm_ofPath hfrom hto hstart hstop).readSlots hslots h
  | packedPath order slots =>
    rw [decode_packedPath] at h
    obtain ⟨offset, -, h⟩ := bind_eq_ok_iff.mp h
    split at h
    · exact absurd h nofun
    · obtain ⟨pathOffset, -, h⟩ := bind_eq_ok_iff.mp h
      obtain ⟨path, hpath, h⟩ := bind_eq_ok_iff.mp h
      exact (PackedPath.hasForm_fields hfrom hto hfee (of_readPackedPath hpath)).readSlots hslots h
  | calls => exact absurd h nofun

end Layouts

end RouterCalldata
