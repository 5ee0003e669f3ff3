import RouterCalldata.Proofs.Bytes.Agreement

/-!
# Numbers and addresses in a buffer

A reader of positions looks at a word in two parts: the upper bytes have to be zero, and the low
ones are the number.  What a buffer holds does not depend on such a division.  A word denotes one
number of 256 bits, and the reader takes exactly the numbers of 64 bits among them.

So whether a reading succeeds, and what it gives, can be said of the numbers and the bytes in a
buffer, with nothing said about how they are read.

## Main definitions

* `Bytes.numberAt?`: the number that a word denotes, if the buffer has the word;
* `Bytes.addressText`: the low bytes of a word in hex.

## Main results

* `slice_eq_ok_iff`: a cut succeeds exactly inside a buffer;
* `holdsAt_ofNat_iff`: a buffer holds the word of a number where its word denotes the number;
* `readOffset_eq_ok_iff`: the numbers of 64 bits are read as positions;
* `readAddress_eq_ok_iff`: an address is read from every word that the buffer has.
-/

namespace RouterCalldata

open Decoded

namespace Bytes

variable {buf : Bytes} {offset n : Nat}

/-- **Bytes are cut out** exactly if the buffer has them. -/
theorem slice_eq_ok_iff (hfit : buf.length < Offset.limit) {len : Nat} {bs : Bytes} :
    slice buf offset len = .ok bs ↔
      offset + len ≤ buf.length ∧ Span.cut ⟨offset, len⟩ buf = bs := by
  constructor
  · intro h
    have hle := (length_of_slice h).1
    exact ⟨hle, Except.ok.inj ((slice_eq_ok hfit hle).symm.trans h)⟩
  · rintro ⟨hle, rfl⟩
    exact slice_eq_ok hfit hle

/-! ## Numbers -/

/-- The number that the word at `offset` denotes, if the buffer has such a word. -/
def numberAt? (buf : Bytes) (offset : Nat) : Option Nat :=
  if offset + wordSize ≤ buf.length then some (toNat (Span.cut ⟨offset, wordSize⟩ buf)) else none

theorem numberAt?_eq_some_iff :
    buf.numberAt? offset = some n ↔
      offset + wordSize ≤ buf.length ∧ toNat (Span.cut ⟨offset, wordSize⟩ buf) = n := by
  rw [numberAt?, Option.ite_none_right_eq_some, Option.some_inj]

/-- A word that denotes a number is in the buffer. -/
theorem length_le_of_numberAt? (h : buf.numberAt? offset = some n) :
    offset + wordSize ≤ buf.length :=
  (numberAt?_eq_some_iff.mp h).1

/-- A buffer holds the word of a number exactly where its word denotes the number. -/
theorem holdsAt_ofNat_iff (hn : n < 2 ^ 256) :
    buf.HoldsAt offset (Word.ofNat n).bytes ↔ buf.numberAt? offset = some n := by
  rw [numberAt?_eq_some_iff]
  constructor
  · intro h
    have hle := h.length_le
    have hcut := h.eq_take_drop
    rw [(Word.ofNat n).length_bytes] at hle hcut
    refine ⟨hle, ?_⟩
    rw [Span.cut, hcut, Word.toNat_ofNat hn]
  · rintro ⟨hle, rfl⟩
    have hwritten := bigEndian_toNat (Span.cut ⟨offset, wordSize⟩ buf)
    rw [Span.length_cut hle] at hwritten
    have hword : (Word.ofNat (toNat (Span.cut ⟨offset, wordSize⟩ buf))).bytes =
        Span.cut ⟨offset, wordSize⟩ buf := hwritten
    rw [hword]
    exact .of_take_drop hle

/-- **A word is read as a position exactly if it denotes a number of 64 bits.** -/
theorem readOffset_eq_ok_iff (hfit : buf.length < Offset.limit) :
    readOffset buf offset = .ok n ↔ buf.numberAt? offset = some n ∧ n < Offset.limit := by
  have hwide {n : Nat} (hn : n < Offset.limit) : n < 2 ^ 256 := Nat.lt_trans hn (by decide)
  constructor
  · intro h
    have hn := readOffset_lt h
    exact ⟨(holdsAt_ofNat_iff (hwide hn)).mp (holdsAt_of_readOffset h), hn⟩
  · rintro ⟨h, hn⟩
    exact ((holdsAt_ofNat_iff (hwide hn)).mpr h).readOffset hn hfit

/-- The position of a word is not reduced where it fits in 64 bits. -/
theorem wordOffset_eq_mul {index : Nat} (h : wordSize * index < Offset.limit) :
    wordOffset index = wordSize * index := by
  rw [wordOffset, Nat.mul_comm]
  exact Nat.mod_eq_of_lt h

/-! ## Addresses -/

/-- The low 20 bytes of the word at `offset` in hex behind a mark. -/
def addressText (buf : Bytes) (offset : Nat) : String :=
  hexText (Span.cut ⟨offset + 12, addressSize⟩ buf)

/-- **An address is read from every word that the buffer has.** -/
theorem readAddress_eq_ok_iff (hfit : buf.length < Offset.limit) {text : String} :
    readAddress buf offset = .ok text ↔
      offset + wordSize ≤ buf.length ∧ text = buf.addressText offset := by
  have hlow (w : Bytes) (hw : w = Span.cut ⟨offset, wordSize⟩ buf) :
      Hex.encode0x (w.drop (wordSize - addressSize)) = buf.addressText offset := by
    rw [hw, Span.drop_cut, encode0x_eq_hexText]
    rfl
  constructor
  · intro h
    obtain ⟨w, hw, htext⟩ := bind_eq_ok_iff.mp h
    obtain ⟨hle, hcut⟩ := (slice_eq_ok_iff hfit).mp hw
    obtain rfl := Except.ok.inj htext
    exact ⟨hle, hlow w hcut.symm⟩
  · rintro ⟨hle, rfl⟩
    have hword : word buf offset = .ok (Span.cut ⟨offset, wordSize⟩ buf) :=
      (slice_eq_ok_iff hfit).mpr ⟨hle, rfl⟩
    rw [readAddress, hword, ok_bind, hlow _ rfl]
    rfl

end Bytes

end RouterCalldata
