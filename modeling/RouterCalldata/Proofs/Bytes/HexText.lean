import RouterCalldata.Proofs.Bytes.Values
import RouterCalldata.Selector

/-!
# Hex text, written and read

Bytes are written with two lowercase digits each.  A digit is no blank and no letter of a mark, so
that nothing is taken off the written form when it is read as a user's text, and reading gives the
bytes back.

## Main results

* `length_flatMap_hexPair`, `mem_hexDigits_of_mem_flatMap_hexPair`: the digits of the written form;
* `Hex.parse_encode`: the written form, without a mark, is read back;
* `Selector.parse_hex`: so is the written form of a selector.
-/

namespace RouterCalldata

/-! ## Digits -/

theorem hexDigit_mem {n : Nat} (h : n < 16) : hexDigits.getD n '0' ∈ hexDigits := by
  revert n
  decide

theorem mem_hexDigits_of_mem_hexPair {b : UInt8} {c : Char} (h : c ∈ hexPair b) :
    c ∈ hexDigits := by
  have hb := b.toNat_lt
  rw [hexPair, List.mem_cons, List.mem_singleton] at h
  rcases h with rfl | rfl
  · exact hexDigit_mem (by omega)
  · exact hexDigit_mem (by omega)

theorem mem_hexDigits_of_mem_flatMap_hexPair {bs : Bytes} {c : Char} (h : c ∈ bs.flatMap hexPair) :
    c ∈ hexDigits := by
  obtain ⟨b, -, hc⟩ := List.mem_flatMap.mp h
  exact mem_hexDigits_of_mem_hexPair hc

theorem length_flatMap_hexPair (bs : Bytes) : (bs.flatMap hexPair).length = 2 * bs.length := by
  induction bs with
  | nil => rfl
  | cons b bs ih =>
    have hpair : (hexPair b).length = 2 := rfl
    rw [List.flatMap_cons, List.length_append, hpair, ih, List.length_cons]
    omega

/-- A digit is neither a blank nor a letter of a mark. -/
theorem of_mem_hexDigits {c : Char} (h : c ∈ hexDigits) :
    Text.isBlank c = false ∧ c ≠ 'x' ∧ c ≠ 'X' := by
  have hall : hexDigits.all fun c =>
      decide (Text.isBlank c = false ∧ c ≠ 'x' ∧ c ≠ 'X') := by
    decide
  exact of_decide_eq_true (List.all_eq_true.mp hall c h)

/-- A digit is written as one byte, whose value it is. -/
theorem utf8_hexDigit {n : Nat} (h : n < 16) :
    ∃ b, String.utf8EncodeChar (hexDigits.getD n '0') = [b] ∧ Hex.digitValue? b = some n := by
  have hdigit : String.utf8EncodeChar (hexDigits.getD n '0') =
        [UInt8.ofNat (hexDigits.getD n '0').toNat] ∧
      Hex.digitValue? (UInt8.ofNat (hexDigits.getD n '0').toNat) = some n := by
    revert n
    decide
  exact ⟨_, hdigit⟩

/-! ## Reading -/

theorem Text.trimChars_eq_self {cs : List Char} (h : ∀ c ∈ cs, isBlank c = false) :
    trimChars cs = cs := by
  have hfront (cs : List Char) (h : ∀ c ∈ cs, isBlank c = false) : cs.dropWhile isBlank = cs := by
    cases cs with
    | nil => rfl
    | cons c cs => exact List.dropWhile_cons_of_neg (by rw [h c List.mem_cons_self]; decide)
  rw [trimChars, hfront cs h, hfront cs.reverse fun c hc => h c (List.mem_reverse.mp hc),
    List.reverse_reverse]

namespace Hex

theorem unmark_eq_self {cs : List Char} (h : ∀ c ∈ cs, c ≠ 'x' ∧ c ≠ 'X') : unmark cs = cs := by
  rw [unmark.eq_def]
  split
  · exact absurd rfl (h 'x' (by simp)).1
  · exact absurd rfl (h 'X' (by simp)).2
  · rfl

/-- The pair of a byte is two bytes of text, with the two halves as their values. -/
theorem utf8_flatMap_hexPair_cons (b : UInt8) (bs : Bytes) :
    ∃ hi lo, utf8 ((b :: bs).flatMap hexPair) = hi :: lo :: utf8 (bs.flatMap hexPair) ∧
      digitValue? hi = some (b.toNat / 16) ∧ digitValue? lo = some (b.toNat % 16) := by
  have hb := b.toNat_lt
  obtain ⟨hi, hhi, hhigh⟩ := utf8_hexDigit (show b.toNat / 16 < 16 by omega)
  obtain ⟨lo, hlo, hlow⟩ := utf8_hexDigit (show b.toNat % 16 < 16 by omega)
  refine ⟨hi, lo, ?_, hhigh, hlow⟩
  rw [List.flatMap_cons, hexPair, utf8, List.cons_append, List.cons_append, List.nil_append,
    List.flatMap_cons, List.flatMap_cons, hhi, hlo]
  rfl

theorem length_utf8_flatMap_hexPair (bs : Bytes) :
    (utf8 (bs.flatMap hexPair)).length = 2 * bs.length := by
  induction bs with
  | nil => rfl
  | cons b bs ih =>
    obtain ⟨hi, lo, hpair, -⟩ := utf8_flatMap_hexPair_cons b bs
    rw [hpair, List.length_cons, List.length_cons, ih, List.length_cons]
    omega

/-- Pairs of digits are read one after the other. -/
theorem decodeFrom_flatMap_hexPair (position : Nat) (bs : Bytes) :
    decodeFrom position (utf8 (bs.flatMap hexPair)) = .ok bs := by
  induction bs generalizing position with
  | nil => rfl
  | cons b bs ih =>
    obtain ⟨hi, lo, hpair, hhigh, hlow⟩ := utf8_flatMap_hexPair_cons b bs
    have hbyte : UInt8.ofNat (16 * (b.toNat / 16) + b.toNat % 16) = b := by
      rw [Nat.div_add_mod]
      exact UInt8.ofNat_toNat
    rw [hpair, decodeFrom, digitAt, digitAt, hhigh, hlow]
    show decodeFrom (position + 2) _ >>= _ = _
    rw [ih]
    exact congrArg (fun b => Except.ok (b :: bs)) hbyte

theorem toList_encode (bs : Bytes) : (encode bs).toList = bs.flatMap hexPair := by
  have hdigits : byteDigits = hexPair := funext byteDigits_eq_hexPair
  rw [encode, hdigits, String.toList_ofList]

/-- **The written form is read back**, without a mark. -/
theorem parse_encode (bs : Bytes) : parse (encode bs) = .ok bs := by
  have hblank : Text.trimChars (bs.flatMap hexPair) = bs.flatMap hexPair :=
    Text.trimChars_eq_self fun c hc =>
      (of_mem_hexDigits (mem_hexDigits_of_mem_flatMap_hexPair hc)).1
  have hmark : unmark (bs.flatMap hexPair) = bs.flatMap hexPair :=
    unmark_eq_self fun c hc => (of_mem_hexDigits (mem_hexDigits_of_mem_flatMap_hexPair hc)).2
  rw [parse, toList_encode, hblank, parseExact, hmark, decode,
    if_pos (by rw [length_utf8_flatMap_hexPair]; omega), decodeFrom_flatMap_hexPair]

end Hex

namespace Selector

theorem length_toList_hex (s : Selector) : s.hex.toList.length = 8 := by
  rw [hex, Hex.toList_encode, length_flatMap_hexPair]
  rfl

theorem mem_hexDigits_of_mem_hex {s : Selector} {c : Char} (h : c ∈ s.hex.toList) :
    c ∈ hexDigits := by
  rw [hex, Hex.toList_encode] at h
  exact mem_hexDigits_of_mem_flatMap_hexPair h

/-- The written form of a selector is read back. -/
theorem parse_hex (s : Selector) : parse s.hex = .ok s := by
  rw [parse, hex, Hex.parse_encode]
  rfl

end Selector

end RouterCalldata
